import DnscryptProxy.Cache.Freshness

/-!
# The TTLs of a cache hit

The writer gives a response a lifetime: its smallest TTL, kept within the range
that the configuration has for its rcode. The reader puts what is left of it, in
seconds, on the records it serves.

* `served_ttls` — in every run of the cache the records of a hit have the time
  left to the half second, and none of the sums overflows.
-/

namespace DnscryptProxy

open Base List CacheLimits Option

/-! ## The lifetime -/

/-- The configured ranges are not empty. -/
structure CacheLimits.Ordered (limits : CacheLimits) : Prop where
  positive : limits.minTTL ≤ limits.maxTTL
  negative : limits.negMinTTL ≤ limits.negMaxTTL

/-- The ends of the range for an rcode. -/
def CacheLimits.rangeFor (limits : CacheLimits) (rcode : UInt16) : Nat × Nat :=
  if rcode = RcodeSuccess then (limits.minTTL.toNat, limits.maxTTL.toNat)
  else (limits.negMinTTL.toNat, limits.negMaxTTL.toNat)

/-- The records whose TTLs count: the answer, or the authority section if there is
no answer. -/
def Msg.timedRecords (msg : Msg) : List RR := if msg.answer ≠ [] then msg.answer else msg.ns

variable (limits : CacheLimits) (msg : Msg)

/-- What the lifetime should be, in seconds. -/
def CacheLimits.clamped : Nat :=
  match (msg.timedRecords.map (·.ttl.toNat)).min? with
  | some smallest =>
    if msg.rcode = RcodeSuccess ∨ msg.rcode = RcodeNameError then
      max (limits.rangeFor msg.rcode).1 (min (limits.rangeFor msg.rcode).2 smallest)
    else limits.negMinTTL.toNat
  | none => limits.negMinTTL.toNat

/-- The `ttl` that `getMinTTL` turns into a duration. -/
def CacheLimits.ttl : UInt32 :=
  if (msg.rcode ≠ RcodeSuccess ∧ msg.rcode ≠ RcodeNameError) ∨
      (msg.answer.length = 0 ∧ msg.ns.length = 0) then
    limits.negMinTTL
  else
    let ttl := if msg.rcode = RcodeSuccess then limits.maxTTL else limits.negMaxTTL
    let ttl := minRecordTTL ttl (if msg.answer.length > 0 then msg.answer else msg.ns)
    let floor := if msg.rcode = RcodeSuccess then limits.minTTL else limits.negMinTTL
    if ttl < floor then floor else ttl

theorem lifetime_eq_ttl : limits.lifetime msg = (limits.ttl msg).toNat * Second := by
  unfold lifetime getMinTTL ttl
  split
  · rfl
  · rfl

theorem toNat_capped (ttl cap : UInt32) :
    (if ttl < cap then ttl else cap).toNat = min cap.toNat ttl.toNat := by
  by_cases h : ttl < cap
  · rw [if_pos h]
    exact (min_eq_right (le_of_lt (UInt32.lt_iff_toNat_lt.mp h))).symm
  · rw [if_neg h]
    exact (min_eq_left (Nat.le_of_not_lt fun h' => h (UInt32.lt_iff_toNat_lt.mpr h'))).symm

theorem toNat_raised (ttl floor : UInt32) :
    (if ttl < floor then floor else ttl).toNat = max floor.toNat ttl.toNat := by
  by_cases h : ttl < floor
  · rw [if_pos h]
    exact (max_eq_left (le_of_lt (UInt32.lt_iff_toNat_lt.mp h))).symm
  · rw [if_neg h]
    exact (max_eq_right (Nat.le_of_not_lt fun h' => h (UInt32.lt_iff_toNat_lt.mpr h'))).symm

theorem toNat_minRecordTTL (ttl : UInt32) (rrs : List RR) :
    (minRecordTTL ttl rrs).toNat = (rrs.map (·.ttl.toNat)).foldl min ttl.toNat := by
  unfold minRecordTTL
  induction rrs generalizing ttl with
  | nil => rfl
  | cons rr rrs ih => rw [foldl_cons, ih, map_cons, foldl_cons, toNat_capped]

/-- Folding `min` from `hi` on gives the smaller of `hi` and the smallest value. -/
theorem foldl_min_eq {values : List Nat} {smallest : Nat} (h : values.min? = some smallest)
    (hi : Nat) : values.foldl min hi = min hi smallest := by
  cases values with
  | nil => cases h
  | cons x xs =>
    obtain rfl := some.inj h
    exact foldl_assoc

theorem timedRecords_eq (msg : Msg) :
    (if msg.answer.length > 0 then msg.answer else msg.ns) = msg.timedRecords := by
  unfold Msg.timedRecords
  cases msg.answer with
  | nil => rfl
  | cons rr rrs => rfl

theorem timedRecords_eq_nil_iff (msg : Msg) :
    msg.timedRecords = [] ↔ msg.answer.length = 0 ∧ msg.ns.length = 0 := by
  unfold Msg.timedRecords
  cases msg.answer with
  | nil => simp
  | cons rr rrs => simp

/-- The code computes that lifetime. -/
theorem toNat_ttl : (limits.ttl msg).toNat = limits.clamped msg := by
  unfold ttl clamped
  rw [timedRecords_eq]
  cases hMin : (msg.timedRecords.map (·.ttl.toNat)).min? with
  | none =>
    have hNone : msg.timedRecords = [] := map_eq_nil_iff.mp (min?_eq_none_iff.mp hMin)
    rw [if_pos (.inr ((timedRecords_eq_nil_iff msg).mp hNone))]
  | some smallest =>
    have hSome : ¬(msg.answer.length = 0 ∧ msg.ns.length = 0) := by
      intro hNone
      rw [(timedRecords_eq_nil_iff msg).mpr hNone] at hMin
      cases hMin
    by_cases hRcode : msg.rcode = RcodeSuccess ∨ msg.rcode = RcodeNameError
    · have hKnown : ¬(msg.rcode ≠ RcodeSuccess ∧ msg.rcode ≠ RcodeNameError) :=
        fun h => hRcode.elim h.1 h.2
      rw [if_neg (not_or.mpr ⟨hKnown, hSome⟩)]
      dsimp only
      -- the fold starts at the upper end; the lower end is applied last
      rw [if_pos hRcode, toNat_raised, toNat_minRecordTTL, foldl_min_eq hMin, rangeFor]
      by_cases hSuccess : msg.rcode = RcodeSuccess
      · rw [if_pos hSuccess, if_pos hSuccess, if_pos hSuccess]
      · rw [if_neg hSuccess, if_neg hSuccess, if_neg hSuccess]
    · rw [if_pos (.inl (not_or.mp hRcode))]
      dsimp only
      rw [if_neg hRcode]

theorem lifetime_eq : limits.lifetime msg = limits.clamped msg * Second := by
  rw [lifetime_eq_ttl, toNat_ttl]

theorem clamped_lt : limits.clamped msg < 2 ^ 32 := by
  rw [← toNat_ttl]
  exact UInt32.toNat_lt _

theorem clamped_mem_range {limits : CacheLimits} (hOrdered : limits.Ordered) {msg : Msg}
    (hRcode : msg.rcode = RcodeSuccess ∨ msg.rcode = RcodeNameError)
    (hRecords : msg.timedRecords ≠ []) :
    (limits.rangeFor msg.rcode).1 ≤ limits.clamped msg ∧
      limits.clamped msg ≤ (limits.rangeFor msg.rcode).2 := by
  have hRange : (limits.rangeFor msg.rcode).1 ≤ (limits.rangeFor msg.rcode).2 := by
    unfold rangeFor
    by_cases hSuccess : msg.rcode = RcodeSuccess
    · rw [if_pos hSuccess]
      exact UInt32.le_iff_toNat_le.mp hOrdered.positive
    · rw [if_neg hSuccess]
      exact UInt32.le_iff_toNat_le.mp hOrdered.negative
  unfold clamped
  cases hMin : (msg.timedRecords.map (·.ttl.toNat)).min? with
  | none => exact absurd (map_eq_nil_iff.mp (min?_eq_none_iff.mp hMin)) hRecords
  | some smallest =>
    dsimp only
    rw [if_pos hRcode]
    exact ⟨le_max_left _ _, Nat.max_le.mpr ⟨hRange, min_le_left _ _⟩⟩

/-! ## The time left -/

/-- The longest time left that a lifetime allows. -/
def maxLifetime : Int := 4294967295 * 1000000000

theorem lifetime_le : limits.lifetime msg ≤ maxLifetime := by
  have h := clamped_lt limits msg
  rw [lifetime_eq]
  show (limits.clamped msg : Int) * 1000000000 ≤ 4294967295 * 1000000000
  omega

/-- `remainingTTL` by the time left, in nanoseconds. -/
def roundedSeconds (left : Int) : UInt32 :=
  if left > 0 then
    if left - (UInt32.ofNat (left / 1000000000).toNat).toNat * 1000000000 ≥ 500000000 then
      UInt32.ofNat (left / 1000000000).toNat + 1
    else UInt32.ofNat (left / 1000000000).toNat
  else 0

theorem remainingTTL_eq (now expiration : Time) :
    remainingTTL now expiration = roundedSeconds (expiration - now) := rfl

section Rounding

variable {left : Int}

theorem toNat_wholeSeconds (hMax : left ≤ maxLifetime) :
    (UInt32.ofNat (left / 1000000000).toNat).toNat = (left / 1000000000).toNat := by
  unfold maxLifetime at hMax
  exact Nat.mod_eq_of_lt (by omega)

/-- The TTL is the time left, rounded to the nearest second and half a second up;
the 32 bits always suffice. -/
theorem toNat_roundedSeconds (hLive : 0 ≤ left) (hMax : left ≤ maxLifetime) :
    ((roundedSeconds left).toNat : Int) = (left + 500000000) / 1000000000 := by
  unfold roundedSeconds
  rw [toNat_wholeSeconds hMax]
  unfold maxLifetime at hMax
  by_cases hLeft : left > 0
  · rw [if_pos hLeft]
    by_cases hHalf : left - (left / 1000000000).toNat * 1000000000 ≥ 500000000
    · -- with half a second more the whole seconds are not yet the most there can be
      rw [if_pos hHalf, UInt32.toNat_add, toNat_wholeSeconds hMax,
        show (1 : UInt32).toNat = 1 from rfl, Nat.mod_eq_of_lt (by omega)]
      omega
    · rw [if_neg hHalf, toNat_wholeSeconds hMax]
      omega
  · rw [if_neg hLeft, show (0 : UInt32).toNat = 0 from rfl]
    omega

theorem roundedSeconds_close (hLive : 0 ≤ left) (hMax : left ≤ maxLifetime) :
    left - 500000000 ≤ (roundedSeconds left).toNat * 1000000000 ∧
      (roundedSeconds left).toNat * 1000000000 ≤ left + 500000000 := by
  rw [toNat_roundedSeconds hLive hMax]
  constructor <;> omega

theorem roundedSeconds_mono {left' : Int} (hLive : 0 ≤ left') (hLess : left' ≤ left)
    (hMax : left ≤ maxLifetime) : roundedSeconds left' ≤ roundedSeconds left := by
  have h := toNat_roundedSeconds (hLive.trans hLess) hMax
  have h' := toNat_roundedSeconds hLive (hLess.trans hMax)
  rw [UInt32.le_iff_toNat_le]
  omega

/-- Rounding does not go beyond whole seconds. -/
theorem roundedSeconds_le {n : Nat} (hLive : 0 ≤ left) (hMax : left ≤ maxLifetime)
    (h : left ≤ n * 1000000000) : (roundedSeconds left).toNat ≤ n := by
  have hRounded := toNat_roundedSeconds hLive hMax
  omega

/-- The time left is positive until the end, and at most all of it. -/
theorem left_bounds {t₀ t lifetime : Int} (hStored : t₀ ≤ t) (hLive : t ≤ t₀ + lifetime) :
    0 ≤ t₀ + lifetime - t ∧ t₀ + lifetime - t ≤ lifetime := by
  omega

/-- `time.Duration(ttl) * time.Second`, in the 64 bits of a `time.Duration`. -/
def seconds64 (ttl : UInt32) : Int64 := Int64.ofNat ttl.toNat * 1000000000

/-- The arithmetic of `updateTTL` in its 64 and 32 bits. -/
def remainingTTL64 (until64 : Int64) : UInt32 :=
  if until64 > 0 then
    let ttl := (until64 / 1000000000).toUInt64.toUInt32
    if until64 - seconds64 ttl ≥ 1000000000 / 2 then ttl + 1 else ttl
  else 0

theorem toInt_seconds64 (ttl : UInt32) : (seconds64 ttl).toInt = ttl.toNat * Second := by
  have hLt := UInt32.toNat_lt ttl
  unfold seconds64
  rw [Int64.toInt_mul, Int64.toInt_ofNat_of_lt (by omega),
    show (1000000000 : Int64).toInt = 1000000000 from rfl]
  exact Int.bmod_eq_of_le (by omega) (by omega)

theorem toNat_toUInt64 {x : Int64} {n : Nat} (h : x.toInt = n) : x.toUInt64.toNat = n := by
  have hCases := BitVec.toInt_eq_toNat_cond x.toBitVec
  rw [show x.toBitVec.toInt = n from h] at hCases
  show x.toBitVec.toNat = n
  omega

/-- Nothing wraps in 64 bits. -/
theorem remainingTTL64_eq (hLive : 0 ≤ left) (hMax : left ≤ maxLifetime) :
    remainingTTL64 (Int64.ofInt left) = roundedSeconds left := by
  have hUntil : (Int64.ofInt left).toInt = left := by
    unfold maxLifetime at hMax
    exact Int64.toInt_ofInt_of_le (by omega) (by omega)
  have hWhole : (Int64.ofInt left / 1000000000).toInt = left / 1000000000 := by
    rw [Int64.toInt_div_of_ne_right _ _ (by decide), hUntil]
    exact Int.tdiv_eq_ediv_of_nonneg hLive
  have hTtl : (Int64.ofInt left / 1000000000).toUInt64.toUInt32 =
      UInt32.ofNat (left / 1000000000).toNat := by
    have hNat : (Int64.ofInt left / 1000000000).toUInt64.toNat = (left / 1000000000).toNat :=
      toNat_toUInt64 (hWhole.trans (by omega))
    rw [← hNat]
    rfl
  have hRest : (Int64.ofInt left - seconds64 (UInt32.ofNat (left / 1000000000).toNat)).toInt =
      left - (UInt32.ofNat (left / 1000000000).toNat).toNat * 1000000000 := by
    rw [Int64.toInt_sub, hUntil, toInt_seconds64, toNat_wholeSeconds hMax]
    unfold Second
    exact Int.bmod_eq_of_le (by omega) (by omega)
  unfold remainingTTL64 roundedSeconds
  rw [hTtl]
  -- both comparisons of the source, on values that did not wrap
  have hPos : Int64.ofInt left > 0 ↔ left > 0 := by
    rw [gt_iff_lt, Int64.lt_iff_toInt_lt, hUntil]
    rfl
  have hHalf : Int64.ofInt left - seconds64 (UInt32.ofNat (left / 1000000000).toNat) ≥
      1000000000 / 2 ↔
        left - (UInt32.ofNat (left / 1000000000).toNat).toNat * 1000000000 ≥ 500000000 := by
    rw [ge_iff_le, Int64.le_iff_toInt_le, hRest]
    rfl
  rw [if_congr hPos (if_congr hHalf rfl rfl) rfl]

end Rounding

/-! ## What is served -/

/-- All records that have a TTL have this one. -/
def Msg.HasTTL (m : Msg) (ttl : UInt32) : Prop :=
  ∀ rr, rr ∈ m.answer ∨ rr ∈ m.ns ∨ (rr ∈ m.extra ∧ rr.rrToType ≠ TypeOPT) → rr.ttl = ttl

theorem updateTTL_hasTTL (now : Time) (m : Msg) (expiration : Time) :
    (updateTTL now m expiration).HasTTL (remainingTTL now expiration) := by
  rintro rr (hAnswer | hNs | ⟨hExtra, hType⟩)
  · obtain ⟨old, -, rfl⟩ := mem_map.mp hAnswer
    rfl
  · obtain ⟨old, -, rfl⟩ := mem_map.mp hNs
    rfl
  · obtain ⟨old, -, rfl⟩ := mem_map.mp hExtra
    by_cases hOld : old.rrToType ≠ TypeOPT
    · rw [if_pos hOld]
    · rw [if_neg hOld] at hType
      exact absurd hType hOld

/-- The entry the writer makes of a response. -/
def CachedResponse.ofWrite (t₀ : Time) (limits : CacheLimits) (msg : Msg) : CachedResponse :=
  { expiration := t₀ + limits.lifetime msg, msg := { cloneMsg msg with question := [] } }

/-- What is served at `t` for a response that was stored at `t₀`. -/
structure ServedFor (limits : CacheLimits) (msg : Msg) (t₀ t : Time) (served : Msg) : Prop where
  stored : t₀ ≤ t
  live : t ≤ t₀ + limits.lifetime msg
  records : served.SameRecords msg
  ttl : served.HasTTL (remainingTTL t (t₀ + limits.lifetime msg))

theorem servedFor_updateTTL {limits : CacheLimits} {msg : Msg} {t₀ t : Time} (hStored : t₀ ≤ t)
    (hLive : t ≤ t₀ + limits.lifetime msg) (q : Msg) :
    ServedFor limits msg t₀ t
      (updateTTL t ((CachedResponse.ofWrite t₀ limits msg).answerTo q)
        (t₀ + limits.lifetime msg)) := by
  have hRecords := updateTTL_sameRecords t ((CachedResponse.ofWrite t₀ limits msg).answerTo q)
    (t₀ + limits.lifetime msg)
  exact ⟨hStored, hLive, ⟨hRecords.rcode, hRecords.answer, hRecords.ns, hRecords.extra⟩,
    updateTTL_hasTTL _ _ _⟩

/-- The TTLs of a response that was stored at `t₀`, from then until it expires. -/
structure TTLsFrom (limits : CacheLimits) (msg : Msg) (t₀ : Time) : Prop where
  /-- the lifetime is the one that was configured -/
  lifetime : limits.lifetime msg = limits.clamped msg * Second
  /-- and within the range for the rcode, where one applies -/
  inRange : limits.Ordered → msg.rcode = RcodeSuccess ∨ msg.rcode = RcodeNameError →
    msg.timedRecords ≠ [] → (limits.rangeFor msg.rcode).1 ≤ limits.clamped msg ∧
      limits.clamped msg ≤ (limits.rangeFor msg.rcode).2
  /-- half a second at most from the time left -/
  close : ∀ t, t₀ ≤ t → t ≤ t₀ + limits.lifetime msg → t₀ + limits.lifetime msg - t - Second / 2 ≤
        (remainingTTL t (t₀ + limits.lifetime msg)).toNat * Second ∧
      (remainingTTL t (t₀ + limits.lifetime msg)).toNat * Second ≤
        t₀ + limits.lifetime msg - t + Second / 2
  /-- never growing -/
  antitone : ∀ t t', t₀ ≤ t → t ≤ t' → t' ≤ t₀ + limits.lifetime msg →
    remainingTTL t' (t₀ + limits.lifetime msg) ≤ remainingTTL t (t₀ + limits.lifetime msg)
  /-- never more than the lifetime -/
  bounded : ∀ t, t₀ ≤ t → t ≤ t₀ + limits.lifetime msg →
    (remainingTTL t (t₀ + limits.lifetime msg)).toNat * Second ≤ limits.lifetime msg
  /-- the 64 bits of the lifetime suffice -/
  lifetime64 : (seconds64 (limits.ttl msg)).toInt = limits.lifetime msg
  /-- and those of the time left, and the 32 bits of the TTL -/
  ttl64 : ∀ t, t₀ ≤ t → t ≤ t₀ + limits.lifetime msg →
    remainingTTL64 (Int64.ofInt (t₀ + limits.lifetime msg - t)) =
        remainingTTL t (t₀ + limits.lifetime msg) ∧
      ((remainingTTL t (t₀ + limits.lifetime msg)).toNat : Int) =
        (t₀ + limits.lifetime msg - t + Second / 2) / Second

theorem ttlsFrom (limits : CacheLimits) (msg : Msg) (t₀ : Time) : TTLsFrom limits msg t₀ := by
  have hMax := lifetime_le limits msg
  refine ⟨lifetime_eq limits msg, fun hOrdered => clamped_mem_range hOrdered, ?_, ?_, ?_, ?_, ?_⟩
  · intro t hStored hLive
    obtain ⟨hLeft, hAll⟩ := left_bounds hStored hLive
    exact roundedSeconds_close hLeft (hAll.trans hMax)
  · intro t t' hStored hLater hLive
    obtain ⟨-, hAll⟩ := left_bounds hStored (hLater.trans hLive)
    obtain ⟨hLeft', -⟩ := left_bounds (hStored.trans hLater) hLive
    exact roundedSeconds_mono hLeft' (Int.sub_le_sub_left hLater _) (hAll.trans hMax)
  · intro t hStored hLive
    obtain ⟨hLeft, hAll⟩ := left_bounds hStored hLive
    -- the lifetime is a number of whole seconds
    have hWhole := roundedSeconds_le hLeft (hAll.trans hMax) (hAll.trans (lifetime_eq _ _).le)
    rw [lifetime_eq limits msg] at hWhole ⊢
    exact Int.mul_le_mul_of_nonneg_right (Int.ofNat_le.mpr hWhole) (by decide)
  · rw [toInt_seconds64, lifetime_eq_ttl]
  · intro t hStored hLive
    obtain ⟨hLeft, hAll⟩ := left_bounds hStored hLive
    exact ⟨remainingTTL64_eq hLeft (hAll.trans hMax), toNat_roundedSeconds hLeft (hAll.trans hMax)⟩

/-! ## The cache over time -/

section Machine

variable {κ V : Type*}

/-- The cache, the time, and what the writer has stored so far. -/
structure CacheState (κ V : Type*) where
  world : CacheWorld κ V
  clock : Time
  written : List (Time × CacheLimits × Msg)

/-- What happens to a cache. Lookups do not change it. -/
inductive CacheLabel (κ V : Type*) where
  /-- the writer sees a response -/
  | write (now : Time) (ps : PluginsState) (msg : Msg)
  /-- entries are evicted, and the other plugins do what they do -/
  | outside (world : CacheWorld κ V)

/-- The configuration of the session that writes is a sensible one. -/
def CacheLabel.Ordered : CacheLabel κ V → Prop
  | .write _ ps _ => ps.limits.Ordered
  | .outside _ => True

variable [DecidableEq κ] (hash : Bytes → κ)

/-- Time does not go back, and nobody but the writer adds entries. -/
def cacheMachine : Machine (CacheState κ V) (CacheLabel κ V) where
  init s := s.world.cache = [] ∧ s.written = []
  step s
    | .write now ps msg =>
      if s.clock ≤ now then
        some
          { world := ((pluginCacheResponse hash).eval now s.world ps msg).world
            clock := now
            written := if msg.cacheable then s.written ++ [(now, ps.limits, msg)] else s.written }
      else none
    | .outside world =>
      if world.cache.all s.world.cache.contains then some { s with world := world } else none

/-- Every entry was written, at some time before, with a sensible configuration. -/
structure CacheTraced (s : CacheState κ V) : Prop where
  entries : ∀ k e, (k, e) ∈ s.world.cache →
    ∃ t₀ limits msg, (t₀, limits, msg) ∈ s.written ∧ e = .ofWrite t₀ limits msg
  written : ∀ t₀ limits msg, (t₀, limits, msg) ∈ s.written →
    t₀ ≤ s.clock ∧ limits.Ordered ∧ msg.cacheable = true

variable {hash} {s : CacheState κ V}

variable {w : CacheWorld κ V} {ps : PluginsState}

/-- The writer stores the response, if it is one to store. -/
theorem writer_cache {now : Time} {msg : Msg} {k : κ}
    (hCacheable : msg.cacheable = true) (hKey : computeCacheKey hash ps msg = some k) :
    ((pluginCacheResponse hash).eval now w ps msg).world.cache =
      w.cache.insert k (.ofWrite now ps.limits msg) := by
  show (if msg.cacheable then _ else _ : EvalResult (CacheWorld κ V)).world.cache = _
  rw [if_pos hCacheable]
  rw [hKey]
  rfl

theorem mem_writer_cache {now : Time} {msg : Msg} {k : κ} {e : CachedResponse}
    (h : (k, e) ∈ ((pluginCacheResponse hash).eval now w ps msg).world.cache) :
    (k, e) ∈ w.cache ∨ msg.cacheable = true ∧ e = .ofWrite now ps.limits msg := by
  rcases pluginCacheResponse_cache now w ps msg with hSame | ⟨hCacheable, k', hInsert⟩
  · rw [hSame] at h
    exact .inl h
  · rw [hInsert] at h
    rcases Cache.mem_insert h with hNew | hOld
    · exact .inr ⟨hCacheable, (Prod.mk.inj hNew).2⟩
    · exact .inl hOld

theorem CacheTraced.step (h : CacheTraced s) {l : CacheLabel κ V} {s' : CacheState κ V}
    (hOrdered : l.Ordered) (hStep : (cacheMachine hash).step s l = some s') : CacheTraced s' := by
  cases l with
  | write now ps msg =>
    obtain ⟨hClock, hNext⟩ := ite_none_right_eq_some.mp hStep
    obtain rfl := some.inj hNext
    refine ⟨?_, ?_⟩
    · intro k e he
      rcases mem_writer_cache he with hOld | ⟨hCacheable, rfl⟩
      · obtain ⟨t₀, limits, m, hMem, rfl⟩ := h.entries k e hOld
        refine ⟨t₀, limits, m, ?_, rfl⟩
        split
        · exact mem_append_left _ hMem
        · exact hMem
      · rw [if_pos hCacheable]
        exact ⟨now, ps.limits, msg, mem_append_right _ (mem_singleton.mpr rfl), rfl⟩
    · intro t₀ limits m hMem
      have hOld : ∀ {t₀ limits m}, (t₀, limits, m) ∈ s.written →
          t₀ ≤ now ∧ limits.Ordered ∧ m.cacheable = true := by
        intro t₀ limits m hMem
        obtain ⟨hTime, hRest⟩ := h.written t₀ limits m hMem
        exact ⟨hTime.trans hClock, hRest⟩
      by_cases hCacheable : msg.cacheable = true
      · rw [if_pos hCacheable] at hMem
        rcases mem_append.mp hMem with hMem | hMem
        · exact hOld hMem
        · obtain ⟨rfl, rfl, rfl⟩ : t₀ = now ∧ limits = ps.limits ∧ m = msg := by
            simpa using hMem
          exact ⟨le_rfl, hOrdered, hCacheable⟩
      · rw [if_neg hCacheable] at hMem
        exact hOld hMem
  | outside world =>
    obtain ⟨hFewer, hNext⟩ := ite_none_right_eq_some.mp hStep
    obtain rfl := some.inj hNext
    refine ⟨fun k e he => ?_, h.written⟩
    have hOld := all_eq_true.mp hFewer (k, e) he
    exact h.entries k e (contains_iff_mem.mp hOld)

theorem CacheTraced.of_reach
    (hReach : (cacheMachine hash).Reach (fun _ l => l.Ordered) s) : CacheTraced s := by
  refine hReach.invariant (P := CacheTraced) ?_ fun s l s' h hOk hStep => h.step hOk hStep
  rintro s ⟨hEmpty, hNothing⟩
  refine ⟨?_, ?_⟩
  · intro k e he
    rw [hEmpty] at he
    cases he
  · intro t₀ limits msg hMem
    rw [hNothing] at hMem
    cases hMem

theorem reader_hit {t₀ t : Time} {limits : CacheLimits} {msg : Msg} {q : Msg}
    (hFound : cacheLookup hash w.cache ps q = some (.ofWrite t₀ limits msg)) (hStored : t₀ ≤ t)
    (hLive : t ≤ t₀ + limits.lifetime msg) :
    ((pluginCache hash).eval t w ps q).state.cacheHit = true ∧
      ∃ served, ((pluginCache hash).eval t w ps q).state.synthResponse = some served ∧
        ServedFor limits msg t₀ t served := by
  have hRead : ((pluginCache hash).eval t w ps q).state =
      readCached t ps q (.ofWrite t₀ limits msg) := by
    show evalCache hash t w.cache ps q = _
    unfold evalCache
    rw [hFound]
  have hNotExpired : ¬t > (CachedResponse.ofWrite t₀ limits msg).expiration := not_lt.mpr hLive
  rw [hRead, readCached, if_neg hNotExpired]
  exact ⟨rfl, _, rfl, servedFor_updateTTL hStored hLive q⟩

/-- Every hit at `t` serves a response that was stored before, and until it expires
every response that was stored is there to be served; the TTLs are the time that
is left of its lifetime. -/
theorem served_ttls (hash : Bytes → κ) :
    (∀ s : CacheState κ V, (cacheMachine hash).Reach (fun _ l => l.Ordered) s →
      ∀ t ps q, s.clock ≤ t → ps.cacheHit = false →
        ((pluginCache hash).eval t s.world ps q).state.cacheHit = true →
          ∃ t₀ limits msg served, (t₀, limits, msg) ∈ s.written ∧ limits.Ordered ∧
            msg.cacheable = true ∧
            ((pluginCache hash).eval t s.world ps q).state.synthResponse = some served ∧
            ServedFor limits msg t₀ t served) ∧
    (∀ (w : CacheWorld κ V) (ps ps' : PluginsState) (msg q : Msg) (k : κ) (t₀ t : Time),
      msg.cacheable = true → computeCacheKey hash ps msg = some k →
      computeCacheKey hash ps' q = some k → t₀ ≤ t → t ≤ t₀ + ps.limits.lifetime msg →
        let stored := ((pluginCacheResponse hash).eval t₀ w ps msg).world
        ((pluginCache hash).eval t stored ps' q).state.cacheHit = true ∧
          ∃ served, ((pluginCache hash).eval t stored ps' q).state.synthResponse = some served ∧
            ServedFor ps.limits msg t₀ t served) ∧
    ∀ limits msg t₀, TTLsFrom limits msg t₀ := by
  refine ⟨?_, ?_, ttlsFrom⟩
  · intro s hReach t ps q hClock hNew hHit
    have hTraced := CacheTraced.of_reach hReach
    obtain ⟨k, e, hMem, hLive, hServed⟩ := evalCache_hit hNew hHit
    obtain ⟨t₀, limits, msg, hWritten, rfl⟩ := hTraced.entries k e hMem
    obtain ⟨hTime, hOrdered, hCacheable⟩ := hTraced.written t₀ limits msg hWritten
    exact ⟨t₀, limits, msg, _, hWritten, hOrdered, hCacheable, hServed,
      servedFor_updateTTL (hTime.trans hClock) hLive q⟩
  · intro w ps ps' msg q k t₀ t hCacheable hKey hKey' hStored hLive
    refine reader_hit ?_ hStored hLive
    rw [writer_cache hCacheable hKey, cacheLookup, hKey', bind_some, Cache.get_insert_self]

end Machine

end DnscryptProxy
