import DnscryptProxy.Anon.Route
import DnscryptProxy.Upstream.AltSvc

/-!
# What is recorded about HTTP/3

`Fetch` of `xtransport.go`, as far as HTTP/3 is concerned: which transport a request takes, what
becomes of a failed attempt over HTTP/3, and what is kept of the `Alt-Svc` header of the response. A
host with a port on record has its headers ignored; a header that is read replaces what is on
record, and the port of the URL stands in where no port is read.

A fetch comes with the responses it gets; `AltFetch AltSvcValue` are those with headers as the
syntax has them.

* `fetch_known`, `fetch_unknown` — a fetch from a host with a port on record, and from others;
* `recorded_unknown` — what a header that is read puts on record;
* `recorded_right` — where headers are such that their ports can be read, and come when they are
  read, the record follows the headers.
-/

namespace DnscryptProxy

open Base List Option Function

/-! ## The record -/

def DefaultHTTP3NegativeCacheTTL : Duration := 30 * 60 * Second

structure AltSupportEntry where
  port : UInt16
  /-- the zero time is `none` -/
  negativeUntil : Option Time
deriving Repr, DecidableEq

abbrev AltSupport := String → Option AltSupportEntry

namespace AltSupport

variable (cache : AltSupport)

variable (now : Time) (host : String)

/-- `loadAltSupport`: the port, `found` and `negative`. -/
def load : UInt16 × Bool × Bool :=
  match cache host with
  | none => (0, false, false)
  | some entry =>
    if 0 < entry.port then (entry.port, true, false)
    else
      match entry.negativeUntil with
      | none => (0, true, true)
      | some negativeUntil => if now < negativeUntil then (0, true, true) else (0, false, false)

/-- `saveAltSupport`. -/
def save (host : String) (port : UInt16) : AltSupport :=
  update cache host (some { port, negativeUntil := none })

/-- `saveAltSupportNegative`. -/
def saveNegative (ttl : Duration) : AltSupport :=
  update cache host (some { port := 0, negativeUntil := some (now + ttl) })

def recordHTTP3ProbeFailure (advertisesH3 : Bool) : AltSupport :=
  if advertisesH3 then cache.saveNegative now host DefaultHTTP3NegativeCacheTTL
  else cache.save host 0

end AltSupport

/-! ## Fetches -/

/-- A response, with the values of its `Alt-Svc` header. -/
structure HttpResponse (V : Type) where
  statusCode : Nat
  altSvc : Option (List V)

/-- What happens to a fetch. -/
structure AltFetch (V : Type) where
  /-- the host is resolved, and no onion service without Tor -/
  reachable : Bool
  loadedAt : Time
  /-- the first request, `none` if it fails -/
  first : Option (HttpResponse V)
  failedAt : Time
  /-- the request over HTTP/2 after one over HTTP/3 has failed -/
  second : Option (HttpResponse V)
  recordedAt : Time
  /-- the body can be read -/
  bodyRead : Bool

/-- The transports, as far as HTTP/3 is concerned. -/
structure AltTransport where
  /-- `h3Transport` is not `nil` -/
  h3Transport : Bool
  http3Probe : Bool

/-- `uint16(port & 0xffff)`. -/
def urlPort (host : String) : UInt16 := UInt16.ofNat ((extractHostAndPort host 443).2 % 65536).toNat

/-- The `Alt-Svc` part of `Fetch` behind a response. -/
def keepAltSvc (host : String) (h3ProbeFailed : Bool) (now : Time) (altSvc : Option (List Bytes))
    (cache : AltSupport) : AltSupport :=
  let (altPort, advertisesH3) := readValues 0 (altSvc.getD []) (urlPort host, false)
  if h3ProbeFailed then cache.recordHTTP3ProbeFailure now host advertisesH3
  else if altSvc.isSome then cache.save host altPort
  else cache

/-- `Fetch`: the record it leaves, and whether it returns without an error. -/
def fetch (x : AltTransport) (host : String) (f : AltFetch Bytes) (cache : AltSupport) :
    AltSupport × Bool :=
  let port := (extractHostAndPort host 443).2
  let (altPort, found, negative) := cache.load f.loadedAt host
  let http3Suppressed := x.h3Transport && negative
  let hasAltSupport := x.h3Transport && !x.http3Probe && (found && !negative)
  let overHTTP3 := x.h3Transport &&
    if x.http3Probe then !negative
    else hasAltSupport && decide (0 < altPort) && decide ((altPort.toNat : Int) = port)
  if f.reachable = false then (cache, false)
  else
    let h3Failed := overHTTP3 && f.first.isNone
    let cache :=
      if h3Failed && !x.http3Probe then
        cache.saveNegative f.failedAt host DefaultHTTP3NegativeCacheTTL
      else cache
    match if h3Failed then f.second else f.first with
    | none => (cache, false)
    | some resp =>
      if resp.statusCode < 200 ∨ 299 < resp.statusCode then (cache, false)
      else
        let cache :=
          if x.h3Transport && !hasAltSupport && !(x.http3Probe && http3Suppressed) then
            keepAltSvc host (h3Failed && x.http3Probe) f.recordedAt resp.altSvc cache
          else cache
        (cache, f.bodyRead)

/-! ## Headers as the syntax has them -/

def HttpResponse.render (r : HttpResponse AltSvcValue) : HttpResponse Bytes :=
  { r with altSvc := r.altSvc.map fun values => values.map (·.text) }

namespace AltFetch

variable (f : AltFetch AltSvcValue)

def render : AltFetch Bytes :=
  { f with first := f.first.map (·.render), second := f.second.map (·.render) }

/-- The header that is received. -/
def header : Option (List AltSvcValue) :=
  match f.first with
  | some resp => resp.altSvc
  | none => f.second.bind (·.altSvc)

end AltFetch

/-- Some value has the alternative `h3=":p"`. -/
def Advertises (values : List AltSvcValue) (p : UInt16) : Prop :=
  ∃ v ∈ values, ∃ a ∈ v.all, a.IsH3 p

/-- The fetches of a new transport from one host. -/
def fetchAll (x : AltTransport) (host : String) (fs : List (AltFetch AltSvcValue)) : AltSupport :=
  fs.foldl (fun cache f => (fetch x host f.render cache).1) fun _ => none

/-- After `fs` and `f` the record of the host is what the headers say. -/
structure Recorded (x : AltTransport) (host : String) (fs : List (AltFetch AltSvcValue))
    (f : AltFetch AltSvcValue) : Prop where
  /-- a port on record was advertised -/
  advertised : ∀ now p, (fetchAll x host (fs ++ [f])).load now host = (p, true, false) →
    ∃ g ∈ fs ++ [f], ∃ values, g.header = some values ∧ Advertises values p ∧ .clear ∉ values
  /-- a header with an alternative for HTTP/3 leaves a port on record -/
  positive : ∀ values p, f.header = some values → Advertises values p → .clear ∉ values →
    ∃ q, 0 < q ∧ ∀ now, (fetchAll x host (fs ++ [f])).load now host = (q, true, false)
  /-- a header that clears leaves a negative record -/
  negative : ∀ values, f.header = some values → .clear ∈ values →
    ∀ now, (fetchAll x host (fs ++ [f])).load now host = (0, true, true)

/-- There is a port on record. -/
def AltSupport.Known (cache : AltSupport) (host : String) : Prop :=
  ∃ entry, cache host = some entry ∧ 0 < entry.port

/-- A header without `clear` is read as it is meant: a port other than zero is read from the last
value of its first eight from which one is read; or none is, and the port of the URL is advertised.
And nothing else is taken for an alternative. -/
def ReadAsMeant (host : String) (values : List AltSvcValue) : Prop :=
  (∀ v ∈ values.take 8, v.Quiet) ∧
  ((∃ p, ((values.take 8).filterMap (·.readable)).getLast? = some p ∧ p ≠ 0) ∨
    ((values.take 8).filterMap (·.readable) = [] ∧ urlPort host ≠ 0 ∧
      Advertises values (urlPort host)))

/-- The header comes when it does what it is to do: with a port on record none clears, and none
advertises behind an attempt over HTTP/3 that failed; and without a port on record it is read as it
is meant, if it does not clear. -/
def ComesRight (host : String) (cache : AltSupport) (f : AltFetch AltSvcValue) : Prop :=
  ∀ values, f.header = some values →
    (cache.Known host → .clear ∉ values ∧ (f.first = none → ∀ p, ¬ Advertises values p)) ∧
    (¬ cache.Known host → .clear ∉ values → ReadAsMeant host values)

/-! ## One fetch -/

section Load

variable {cache : AltSupport} {host : String}

theorem load_known {entry : AltSupportEntry} (h : cache host = some entry) (hPort : 0 < entry.port)
    (now : Time) : cache.load now host = (entry.port, true, false) := by
  unfold AltSupport.load
  rw [h]
  exact if_pos hPort

theorem load_unknown (h : ¬ cache.Known host) (now : Time) :
    ∃ found negative, cache.load now host = (0, found, negative) ∧
      (found && !negative) = false := by
  unfold AltSupport.load
  cases hEntry : cache host with
  | none => exact ⟨false, false, rfl, rfl⟩
  | some entry =>
    dsimp only
    rw [if_neg fun hPort => h ⟨entry, hEntry, hPort⟩]
    cases entry.negativeUntil with
    | none => exact ⟨true, true, rfl, rfl⟩
    | some negativeUntil =>
      dsimp only
      split
      · exact ⟨true, true, rfl, rfl⟩
      · exact ⟨false, false, rfl, rfl⟩

/-- Only ports on record are reported. -/
theorem known_of_load {now : Time} {p : UInt16} (h : cache.load now host = (p, true, false)) :
    ∃ entry, cache host = some entry ∧ entry.port = p ∧ 0 < entry.port := by
  by_cases hKnown : cache.Known host
  · obtain ⟨entry, hEntry, hPort⟩ := hKnown
    rw [load_known hEntry hPort] at h
    exact ⟨entry, hEntry, congrArg Prod.fst h, hPort⟩
  · obtain ⟨found, negative, hLoad, hNot⟩ := load_unknown hKnown now
    rw [hLoad] at h
    cases h
    cases hNot

theorem load_ne_of_not_known {now : Time} {p : UInt16} (h : ¬ cache.Known host) :
    cache.load now host ≠ (p, true, false) := by
  intro hLoad
  obtain ⟨entry, hEntry, -, hPort⟩ := known_of_load hLoad
  exact h ⟨entry, hEntry, hPort⟩

end Load

section Fetch

variable {x : AltTransport} (hEnabled : x.h3Transport = true) (hProbe : x.http3Probe = false)
  {host : String} {cache : AltSupport} {f : AltFetch Bytes}
include hEnabled hProbe

theorem fetch_known (hKnown : cache.Known host) (hOk : (fetch x host f cache).2 = true) :
    (fetch x host f cache).1 =
      if f.first.isNone then cache.saveNegative f.failedAt host DefaultHTTP3NegativeCacheTTL
      else cache := by
  obtain ⟨entry, hEntry, hPort⟩ := hKnown
  unfold fetch at hOk ⊢
  rw [load_known hEntry hPort] at hOk ⊢
  simp only [hEnabled, hProbe] at hOk ⊢
  cases hReach : f.reachable with
  | false => simp [hReach] at hOk
  | true =>
    cases hFirst : f.first with
    | some resp =>
      simp
      split <;> rfl
    | none =>
      simp [hReach, hFirst] at hOk ⊢
      by_cases hOver : 0 < entry.port ∧ (entry.port.toNat : Int) = (extractHostAndPort host 443).2
      · simp only [if_pos hOver]
        cases f.second with
        | none => rfl
        | some resp =>
          dsimp only
          split <;> rfl
      · -- nothing is tried again
        rw [if_neg hOver] at hOk
        cases hOk

theorem fetch_unknown (hUnknown : ¬ cache.Known host) (hOk : (fetch x host f cache).2 = true) :
    ∃ resp, f.first = some resp ∧
      (fetch x host f cache).1 = keepAltSvc host false f.recordedAt resp.altSvc cache := by
  obtain ⟨found, negative, hLoad, hNot⟩ := load_unknown hUnknown f.loadedAt
  unfold fetch at hOk ⊢
  rw [hLoad] at hOk ⊢
  simp only [hEnabled, hProbe, hNot] at hOk ⊢
  cases hReach : f.reachable with
  | false => simp [hReach] at hOk
  | true =>
    cases hFirst : f.first with
    | none => simp [hReach, hFirst] at hOk
    | some resp =>
      refine ⟨resp, rfl, ?_⟩
      simp [hReach, hFirst] at hOk ⊢
      by_cases hStatus : resp.statusCode < 200 ∨ 299 < resp.statusCode
      · rw [if_pos hStatus] at hOk
        cases hOk
      · rw [if_neg hStatus]

end Fetch

theorem load_save (cache : AltSupport) (host : String) (port : UInt16) (now : Time) :
    (cache.save host port).load now host =
      if 0 < port then (port, true, false) else (0, true, true) := by
  unfold AltSupport.load AltSupport.save
  rw [update_self]

theorem not_known_saveNegative (cache : AltSupport) (now : Time) (host : String) (ttl : Duration) :
    ¬ (cache.saveNegative now host ttl).Known host := by
  rintro ⟨entry, hEntry, hPort⟩
  rw [AltSupport.saveNegative, update_self] at hEntry
  rw [← some.inj hEntry] at hPort
  exact absurd hPort (UInt16.lt_irrefl 0)

/-- The port that is read from a value is one of its alternatives. -/
theorem isH3_of_readable {v : AltSvcValue} {p : UInt16} (h : v.readable = some p) :
    ∃ a ∈ v.all, a.IsH3 p := by
  cases v with
  | clear => cases h
  | alternatives first rest =>
    rw [AltSvcValue.readable] at h
    split at h
    · next hFirst =>
      obtain ⟨hNe, hValue⟩ := parseUint16_eq_some h
      exact ⟨first, mem_cons_self, hFirst.1, hFirst.2.1, hNe, hValue⟩
    · cases h

/-- A header that is read as it is meant leaves a port it advertises. -/
theorem readValues_meant {host : String} {values : List AltSvcValue} (hClear : .clear ∉ values)
    (h : ReadAsMeant host values) :
    (readValues 0 (values.map (·.text)) (urlPort host, false)).1 ≠ 0 ∧
      Advertises values (readValues 0 (values.map (·.text)) (urlPort host, false)).1 := by
  obtain ⟨hQuiet, hPort⟩ := h
  rw [readValues_text hClear 0 _ hQuiet, Nat.sub_zero]
  rcases hPort with ⟨p, hLast, hNe⟩ | ⟨hNone, hNe, hUrl⟩
  · rw [hLast, getD_some]
    obtain ⟨v, hv, hRead⟩ := mem_filterMap.mp (mem_of_getLast? hLast)
    obtain ⟨a, ha, hH3⟩ := isH3_of_readable hRead
    exact ⟨hNe, v, mem_of_mem_take hv, a, ha, hH3⟩
  · rw [hNone]
    exact ⟨hNe, hUrl⟩

/-! ## Runs -/

section Runs

variable {x : AltTransport} (hEnabled : x.h3Transport = true) (hProbe : x.http3Probe = false)
  {host : String}

theorem fetchAll_concat (fs : List (AltFetch AltSvcValue)) (f : AltFetch AltSvcValue) :
    fetchAll x host (fs ++ [f]) = (fetch x host f.render (fetchAll x host fs)).1 := by
  rw [fetchAll, foldl_append]
  rfl

variable (x host) in
/-- A port on record was advertised by one of these fetches. -/
def Traced (fs : List (AltFetch AltSvcValue)) : Prop :=
  ∀ entry, fetchAll x host fs host = some entry → 0 < entry.port →
    ∃ g ∈ fs, ∃ values, g.header = some values ∧ Advertises values entry.port ∧ .clear ∉ values

include hEnabled hProbe

variable {fs : List (AltFetch AltSvcValue)} {f : AltFetch AltSvcValue}

/-- One more fetch from a host with a port on record. -/
theorem recorded_known (hTraced : Traced x host fs) (hKnown : (fetchAll x host fs).Known host)
    (hOk : (fetch x host f.render (fetchAll x host fs)).2 = true)
    (hRight : ComesRight host (fetchAll x host fs) f) : Recorded x host fs f := by
  have hNoClear := fun values hHeader => ((hRight values hHeader).1 hKnown).1
  have hAfter := fetch_known hEnabled hProbe hKnown hOk
  rw [← fetchAll_concat] at hAfter
  cases hFirst : f.first with
  | none =>
    have hNot : ¬ (fetchAll x host (fs ++ [f])).Known host := by
      rw [hAfter, if_pos (by simp [AltFetch.render, hFirst])]
      exact not_known_saveNegative _ _ _ _
    refine ⟨?_, ?_, ?_⟩
    · exact fun now p hLoad => absurd hLoad (load_ne_of_not_known hNot)
    · intro values p hHeader hAdvertises _
      exact absurd hAdvertises (((hRight values hHeader).1 hKnown).2 hFirst p)
    · exact fun values hHeader hClear => absurd hClear (hNoClear values hHeader)
  | some resp =>
    rw [if_neg (by simp [AltFetch.render, hFirst])] at hAfter
    refine ⟨?_, ?_, ?_⟩
    · intro now p hLoad
      rw [hAfter] at hLoad
      obtain ⟨entry, hEntry, rfl, hPort⟩ := known_of_load hLoad
      obtain ⟨g, hg, hRest⟩ := hTraced entry hEntry hPort
      exact ⟨g, mem_append_left [f] hg, hRest⟩
    · intro values p _ _ _
      obtain ⟨entry, hEntry, hPort⟩ := hKnown
      rw [hAfter]
      exact ⟨entry.port, hPort, load_known hEntry hPort⟩
    · exact fun values hHeader hClear => absurd hClear (hNoClear values hHeader)

/-- One more fetch from another host. -/
theorem recorded_unknown (hUnknown : ¬ (fetchAll x host fs).Known host)
    (hOk : (fetch x host f.render (fetchAll x host fs)).2 = true)
    (hRight : ComesRight host (fetchAll x host fs) f) : Recorded x host fs f := by
  obtain ⟨_, hRender, hAfter⟩ := fetch_unknown hEnabled hProbe hUnknown hOk
  obtain ⟨resp, hFirst, rfl⟩ := map_eq_some_iff.mp hRender
  rw [← fetchAll_concat] at hAfter
  have hHeader : f.header = resp.altSvc := by rw [AltFetch.header, hFirst]
  cases hSvc : resp.altSvc with
  | none =>
    have hSame : fetchAll x host (fs ++ [f]) = fetchAll x host fs := by
      rw [hAfter, HttpResponse.render, hSvc]
      rfl
    rw [hSvc] at hHeader
    have hNo : ∀ values, f.header ≠ some values := by simp [hHeader]
    refine ⟨fun now p hLoad => ?_, fun values p h => absurd h (hNo values),
      fun values h => absurd h (hNo values)⟩
    rw [hSame] at hLoad
    exact absurd hLoad (load_ne_of_not_known hUnknown)
  | some values =>
    have hSaved : fetchAll x host (fs ++ [f]) = (fetchAll x host fs).save host
        (readValues 0 (values.map (·.text)) (urlPort host, false)).1 := by
      rw [hAfter, HttpResponse.render, hSvc]
      rfl
    rw [hSvc] at hHeader
    have hOnly : ∀ values', f.header = some values' → values = values' :=
      fun _ hSome => some.inj (hHeader.symm.trans hSome)
    by_cases hClear : .clear ∈ values
    · have hLoad : ∀ now, (fetchAll x host (fs ++ [f])).load now host = (0, true, true) := by
        intro now
        rw [hSaved, load_save, readValues_of_clear hClear]
        exact if_neg (UInt16.lt_irrefl 0)
      refine ⟨fun now p hPositive => ?_,
        fun values' p hSome _ hNot => absurd hClear (hOnly values' hSome ▸ hNot),
        fun _ _ _ => hLoad⟩
      rw [hLoad now] at hPositive
      cases hPositive
    · obtain ⟨hNe, hAdvertises⟩ :=
        readValues_meant hClear ((hRight values hHeader).2 hUnknown hClear)
      have hPos := UInt16.pos_iff_ne_zero.mpr hNe
      have hLoad : ∀ now, (fetchAll x host (fs ++ [f])).load now host =
          ((readValues 0 (values.map (·.text)) (urlPort host, false)).1, true, false) := by
        intro now
        rw [hSaved, load_save, if_pos hPos]
      refine ⟨fun now p hPositive => ?_, fun _ _ _ _ _ => ⟨_, hPos, hLoad⟩,
        fun values' hSome hIn => absurd (hOnly values' hSome ▸ hIn) hClear⟩
      rw [hLoad now] at hPositive
      obtain rfl := congrArg Prod.fst hPositive
      exact ⟨f, by simp, values, hHeader, hAdvertises, hClear⟩

theorem recorded_step
    (hTraced : Traced x host fs) (hOk : (fetch x host f.render (fetchAll x host fs)).2 = true)
    (hRight : ComesRight host (fetchAll x host fs) f) : Recorded x host fs f := by
  by_cases hKnown : (fetchAll x host fs).Known host
  · exact recorded_known hEnabled hProbe hTraced hKnown hOk hRight
  · exact recorded_unknown hEnabled hProbe hKnown hOk hRight

/-- Where every fetch is successful and every header comes right, the record of the host follows the
headers, after every fetch. -/
theorem recorded_right {fs : List (AltFetch AltSvcValue)}
    (hOk : ∀ before f after, fs = before ++ f :: after →
      (fetch x host f.render (fetchAll x host before)).2 = true)
    (hRight : ∀ before f after, fs = before ++ f :: after →
      ComesRight host (fetchAll x host before) f) :
    ∀ before f after, fs = before ++ f :: after → Recorded x host before f := by
  have hTraced : ∀ before after, fs = before ++ after → Traced x host before := by
    intro before
    induction before using reverseRecOn with
    | nil =>
      intro _ _ entry hEntry
      cases hEntry
    | append_singleton before f ih =>
      intro after hEq entry hEntry hPort
      rw [append_assoc, singleton_append] at hEq
      have hStep := recorded_step hEnabled hProbe (ih _ hEq) (hOk _ _ _ hEq) (hRight _ _ _ hEq)
      exact hStep.advertised 0 entry.port (load_known hEntry hPort 0)
  intro before f after hEq
  exact recorded_step hEnabled hProbe (hTraced _ _ hEq) (hOk _ _ _ hEq) (hRight _ _ _ hEq)

end Runs

def h2Token : Token := ⟨[104, 50], by decide, by decide +kernel⟩
def h3Token : Token := ⟨h3Name, by decide, by decide +kernel⟩

/-- `protocol=":443"; ma=60`. -/
def onPort443 (protocol : Token) : AltSvcValue :=
  .alternatives
    { protocol, host := [], port := ascii "443"
      params := [{ before := ⟨[], by simp⟩, after := ⟨[32], by simp⟩
                   name := ⟨ascii "ma", by decide, by decide +kernel⟩
                   value := .token ⟨ascii "60", by decide, by decide +kernel⟩ }]
      host_colon := by simp, host_quote := by simp, port_digits := by decide }
    []

/-- A fetch over HTTP/2 with this header. -/
def fetchWith (v : AltSvcValue) : AltFetch AltSvcValue :=
  { reachable := true, loadedAt := 0, first := some { statusCode := 200, altSvc := some [v] }
    failedAt := 0, second := none, recordedAt := 0, bodyRead := true }

def withHTTP3 : AltTransport := { h3Transport := true, http3Probe := false }

theorem comesRight_onPort443 (host : String) (cache : AltSupport) :
    ComesRight host cache (fetchWith (onPort443 h3Token)) := by
  intro values hHeader
  obtain rfl : [onPort443 h3Token] = values := some.inj hHeader
  have hClear : .clear ∉ [onPort443 h3Token] := by
    intro hMem
    cases mem_singleton.mp hMem
  have hQuiet : (onPort443 h3Token).Quiet := by
    unfold AltSvcValue.Quiet
    decide
  refine ⟨fun _ => ⟨hClear, fun hNone => (nomatch hNone)⟩, fun _ _ => ⟨?_, .inl ⟨443, ?_, ?_⟩⟩⟩
  · intro v hv
    rw [mem_singleton.mp hv]
    exact hQuiet
  · decide
  · decide

/-- An alternative for HTTP/3 is recorded, and stays on record. -/
theorem recorded_right_h3 :
    Recorded withHTTP3 "example.com" [fetchWith (onPort443 h3Token)]
      (fetchWith (onPort443 h3Token)) := by
  have hAll : ∀ before f after,
      [fetchWith (onPort443 h3Token), fetchWith (onPort443 h3Token)] = before ++ f :: after →
      f = fetchWith (onPort443 h3Token) := by
    intro before f after hEq
    have hMem : f ∈ [fetchWith (onPort443 h3Token), fetchWith (onPort443 h3Token)] := by
      rw [hEq]
      simp
    simpa using hMem
  refine recorded_right rfl rfl (fun before f after hEq => ?_) (fun before f after hEq => ?_) _ _ []
    rfl
  · rw [hAll before f after hEq]
    simp [fetch, fetchWith, AltFetch.render, HttpResponse.render]
  · rw [hAll before f after hEq]
    exact comesRight_onPort443 _ _

/-- `h2=":443"` puts the port of the URL on record: no alternative for HTTP/3 was there. -/
theorem recorded_without_h3 :
    (fetchAll withHTTP3 "example.com" [fetchWith (onPort443 h2Token)]).load 0 "example.com" =
      (443, true, false) ∧
    ¬ Recorded withHTTP3 "example.com" [] (fetchWith (onPort443 h2Token)) := by
  have hLoad : (fetchAll withHTTP3 "example.com" [fetchWith (onPort443 h2Token)]).load 0
      "example.com" = (443, true, false) := by
    decide +kernel
  refine ⟨hLoad, fun hRecorded => ?_⟩
  obtain ⟨g, hg, values, hHeader, ⟨v, hv, a, ha, hName, -⟩, -⟩ := hRecorded.advertised 0 443 hLoad
  obtain rfl := mem_singleton.mp hg
  obtain rfl : [onPort443 h2Token] = values := some.inj hHeader
  obtain rfl := mem_singleton.mp hv
  obtain rfl := mem_singleton.mp ha
  exact absurd hName (by decide)

end DnscryptProxy
