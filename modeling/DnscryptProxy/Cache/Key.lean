import DnscryptProxy.Cache.Plugins

/-!
# Do the cache reader and the cache writer agree on the key?

The reader computes its key from the query, the writer from the response. A
response that `validateResponseForQuery` accepts has the question of the query
up to case, so all of the key agrees but the CD bit, which the writer takes
from the header of the response.

* `cacheKeyBytes_inj` — a key stands for one combination of name, type, class,
  DNSSEC OK and CD;
* `cached_answer_found_iff` — the two keys agree, and an answer is found for
  exactly the combination it was obtained for, if the response repeats the CD
  bit;
* `cached_under_other_combination` — it is filed elsewhere if it does not.
-/

namespace DnscryptProxy

open List

/-! ## Keys and combinations -/

theorem putUint16LE_inj {a b : UInt16} (h : putUint16LE a = putUint16LE b) : a = b := by
  simp only [putUint16LE, cons.injEq, and_true] at h
  have hLow := congrArg UInt8.toNat h.1
  have hHigh := congrArg UInt8.toNat h.2
  rw [UInt8.toNat_ofNat', UInt8.toNat_ofNat'] at hLow hHigh
  have ha := a.toNat_lt
  have hb := b.toNat_lt
  apply UInt16.toNat_inj.mp
  omega

/-- What a key stands for. -/
structure Combination where
  name : Bytes
  qtype : UInt16
  qclass : UInt16
  dnssecOK : Bool
  checkingDisabled : Bool
deriving Repr, DecidableEq

/-- The combination of a question, with the two bits. -/
def Question.combination (q : Question) (dnssecOK checkingDisabled : Bool) : Combination :=
  { name := normalizeRawQName q.name.bytes, qtype := q.qtype, qclass := q.qclass
    dnssecOK := dnssecOK, checkingDisabled := checkingDisabled }

theorem flagByte_inj {d cd d' cd' : Bool}
    (h : ((if d then 1 else 0) ||| (if cd then 2 else 0) : UInt8) =
      (if d' then 1 else 0) ||| (if cd' then 2 else 0)) : d = d' ∧ cd = cd' := by
  revert d cd d' cd'
  decide

theorem cacheKeyBytes_inj {d cd d' cd' : Bool} {q q' : Question} :
    cacheKeyBytes d cd q = cacheKeyBytes d' cd' q' ↔
      q.combination d cd = q'.combination d' cd' := by
  unfold cacheKeyBytes Question.combination
  rw [Combination.mk.injEq]
  constructor
  · intro h
    -- the three fields in front of the name have a fixed length
    obtain ⟨hFront, hName⟩ := append_inj h rfl
    obtain ⟨hTypes, hFlags⟩ := append_inj hFront rfl
    obtain ⟨hType, hClass⟩ := append_inj hTypes rfl
    obtain ⟨hD, hCd⟩ := flagByte_inj (singleton_inj.mp hFlags)
    exact ⟨hName, putUint16LE_inj hType, putUint16LE_inj hClass, hD, hCd⟩
  · rintro ⟨hName, hType, hClass, rfl, rfl⟩
    rw [hName, hType, hClass]

/-! ## The two keys of a session -/

section Sessions

variable {κ : Type*} {hash : Bytes → κ}

/-- The combination a query asks for. -/
def Msg.combination (q : Msg) : Option Combination :=
  q.question.head?.map fun question => question.combination q.security q.checkingDisabled

variable (ps : PluginsState) (q : Msg)

/-- A query as the reader gets it, after `PluginGetSetPayloadSize`. -/
def sizedQuery : EvalResult Unit :=
  pluginGetSetPayloadSize.eval 0 () ps q

theorem sizedQuery_msg : ∃ udpSize, (sizedQuery ps q).msg = { q with udpSize := udpSize } := by
  unfold sizedQuery pluginGetSetPayloadSize
  dsimp only
  generalize min (_ : Nat) _ = size
  by_cases hSize : size > 512
  · exact ⟨_, if_pos hSize⟩
  · exact ⟨q.udpSize, if_neg hSize⟩

@[simp] theorem sizedQuery_dnssec (ps : PluginsState) (q : Msg) :
    (sizedQuery ps q).state.dnssec = q.security := rfl

/-- The key of the reader. -/
def readerKey (hash : Bytes → κ) (ps : PluginsState) (q : Msg) : Option κ :=
  computeCacheKey hash (sizedQuery ps q).state (sizedQuery ps q).msg

/-- The key of the writer, for the response `r` in the session of the query `q`. -/
def writerKey (hash : Bytes → κ) (ps : PluginsState) (q r : Msg) : Option κ :=
  computeCacheKey hash (sizedQuery ps q).state r

theorem readerKey_eq : readerKey hash ps q = q.question.head?.map fun question =>
      hash (cacheKeyBytes q.security q.checkingDisabled question) := by
  obtain ⟨udpSize, hMsg⟩ := sizedQuery_msg ps q
  rw [readerKey, computeCacheKey, hMsg]
  rfl

/-- Two queries have the same key exactly if they ask for the same combination. -/
theorem readerKey_inj (hHash : Function.Injective hash) {ps ps' : PluginsState} {q q' : Msg} :
    readerKey hash ps q = readerKey hash ps' q' ↔ q.combination = q'.combination := by
  rw [readerKey_eq, readerKey_eq, Msg.combination, Msg.combination]
  cases q.question.head? <;> cases q'.question.head? <;>
    simp [hHash.eq_iff, cacheKeyBytes_inj]

/-- The writer's key is the one of a query that had the CD bit of the response. -/
theorem writerKey_eq (hash : Bytes → κ) {ps : PluginsState} {q r : Msg}
    (hAccepted : validateResponseForQuery (some (sizedQuery ps q).msg) (some r) = none) :
    writerKey hash ps q r =
      readerKey hash ps { q with checkingDisabled := r.checkingDisabled } := by
  obtain ⟨udpSize, hMsg⟩ := sizedQuery_msg ps q
  rw [hMsg] at hAccepted
  obtain ⟨qq, rq, hqq, hrq, hMatches⟩ := (validateResponseForQuery_none_iff.mp hAccepted).question
  have hKey : cacheKeyBytes q.security r.checkingDisabled rq =
      cacheKeyBytes q.security r.checkingDisabled qq := by
    rw [cacheKeyBytes_inj, Question.combination, Question.combination, hMatches.qtype,
      hMatches.qclass, hMatches.name]
  have hq : q.question = [qq] := hqq
  rw [readerKey_eq, writerKey, computeCacheKey, hrq]
  simp [hq, hKey]

theorem combination_setCD_iff {q : Msg} (hQuestion : q.question ≠ []) (cd : Bool) :
    ({ q with checkingDisabled := cd } : Msg).combination = q.combination ↔
      cd = q.checkingDisabled := by
  obtain ⟨question, rest, hq⟩ := exists_cons_of_ne_nil hQuestion
  simp [Msg.combination, hq, Question.combination]

variable [DecidableEq κ]

/-- The cache after the writer has stored `r`, in the session of `q`. -/
def cacheAfter (hash : Bytes → κ) (now : Time) (ps : PluginsState) (q r : Msg) : Cache κ :=
  ((pluginCacheResponse hash).eval now ({ cache := [], rest := () } : CacheWorld κ Unit)
    (sizedQuery ps q).state r).world.cache

/-- Another query finds the stored response exactly if its key is the writer's. -/
theorem lookup_cacheAfter {now : Time} {ps ps' : PluginsState} {q q' r : Msg}
    (hCacheable : r.cacheable = true) (hQuestion : r.question ≠ []) :
    (cacheLookup hash (cacheAfter hash now ps q r) (sizedQuery ps' q').state
        (sizedQuery ps' q').msg).isSome = true ↔
      readerKey hash ps' q' = writerKey hash ps q r := by
  obtain ⟨rq, rest, hr⟩ := exists_cons_of_ne_nil hQuestion
  have hWriter : writerKey hash ps q r =
      some (hash (cacheKeyBytes (sizedQuery ps q).state.dnssec r.checkingDisabled rq)) := by
    rw [writerKey, computeCacheKey, hr]
    rfl
  unfold cacheLookup cacheAfter pluginCacheResponse
  rw [writerKey] at hWriter
  simp only [hCacheable, if_true, hWriter, writerKey]
  rw [← readerKey]
  cases readerKey hash ps' q' with
  | none => simp
  | some k =>
    rw [Option.bind_some, Cache.get_insert_nil, Option.some.injEq, eq_comm (a := k)]
    split <;> simp_all

/-- For a response the check accepts and the writer stores: the keys agree, and
the response is found by exactly the queries with the combination it was
obtained for, if and only if it repeats the CD bit of the query. -/
theorem cached_answer_found_iff (hHash : Function.Injective hash) {ps : PluginsState} {q r : Msg}
    (hAccepted : validateResponseForQuery (some (sizedQuery ps q).msg) (some r) = none)
    (hCacheable : r.cacheable = true) (now : Time) :
    (writerKey hash ps q r = readerKey hash ps q ∧
      ∀ ps' q', (cacheLookup hash (cacheAfter hash now ps q r) (sizedQuery ps' q').state
          (sizedQuery ps' q').msg).isSome = true ↔ q'.combination = q.combination) ↔
      r.checkingDisabled = q.checkingDisabled := by
  have hWriter := writerKey_eq hash hAccepted
  obtain ⟨qq, rq, hqq, hrq, -⟩ := (validateResponseForQuery_none_iff.mp hAccepted).question
  obtain ⟨udpSize, hMsg⟩ := sizedQuery_msg ps q
  rw [hMsg] at hqq
  have hq : q.question ≠ [] := by
    rw [show q.question = [qq] from hqq]
    exact cons_ne_nil _ _
  have hKeys : writerKey hash ps q r = readerKey hash ps q ↔
      r.checkingDisabled = q.checkingDisabled := by
    rw [hWriter, readerKey_inj hHash, combination_setCD_iff hq]
  rw [hKeys]
  refine and_iff_left_of_imp fun hCd ps' q' => ?_
  rw [lookup_cacheAfter hCacheable (by rw [hrq]; exact cons_ne_nil _ _), hKeys.mpr hCd,
    readerKey_inj hHash]

end Sessions

/-- A fresh session. -/
def freshSession : PluginsState := newPluginsState defaultProxyParams .udp .udp 0

/-- An answer that repeats the CD bit, and who finds it. -/
theorem cached_root_answer_found :
    writerKey id freshSession rootQuery rootAnswer = readerKey id freshSession rootQuery ∧
      ∀ ps q, (cacheLookup id (cacheAfter id 0 freshSession rootQuery rootAnswer)
        (sizedQuery ps q).state (sizedQuery ps q).msg).isSome = true ↔
          q.combination = rootQuery.combination :=
  (cached_answer_found_iff Function.injective_id (by decide) (by decide) 0).mpr rfl

/-- An answer with the CD bit set, to a query without it, is not found by that
query again, but by one with the CD bit. -/
theorem cached_under_other_combination :
    validateResponseForQuery (some (sizedQuery freshSession rootQuery).msg)
        (some { rootAnswer with checkingDisabled := true }) = none ∧
      writerKey id freshSession rootQuery { rootAnswer with checkingDisabled := true } ≠
        readerKey id freshSession rootQuery ∧
      (cacheLookup id
        (cacheAfter id 0 freshSession rootQuery { rootAnswer with checkingDisabled := true })
        (sizedQuery freshSession rootQuery).state
        (sizedQuery freshSession rootQuery).msg).isSome = false ∧
      (cacheLookup id
        (cacheAfter id 0 freshSession rootQuery { rootAnswer with checkingDisabled := true })
        (sizedQuery freshSession { rootQuery with checkingDisabled := true }).state
        (sizedQuery freshSession { rootQuery with checkingDisabled := true }).msg).isSome =
          true := by
  decide

end DnscryptProxy
