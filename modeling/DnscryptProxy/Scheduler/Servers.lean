import DnscryptProxy.Scheduler.Selection

/-!
# The server registry

`ServersInfo` of `serversInfo.go` with the MDS strategy: the live servers,
their metric stores and the scheduler, all guarded by one lock. Of a
`ServerInfo` this module keeps what scheduling and feedback read; its keys and
addresses are modelled where they are used.

`getOne_picked` carries `selectCandidateLocked_cases` over to the registry.
-/

namespace DnscryptProxy

open List Function

/-! ## The legacy RTT average -/

/-- `ewma.VariableEWMA` with the decay of `RTTEwmaDecay`. -/
structure VariableEWMA where
  value : ℚ
  count : Nat
deriving Repr, DecidableEq

namespace VariableEWMA

def warmupSamples : Nat := 10
def decay : ℚ := 2 / 11

def add (e : VariableEWMA) (v : ℚ) : VariableEWMA :=
  if e.count < warmupSamples then { value := e.value + v, count := e.count + 1 }
  else if e.count = warmupSamples then
    { value := v * decay + e.value / warmupSamples * (1 - decay), count := e.count + 1 }
  else { e with value := v * decay + e.value * (1 - decay) }

/-- `Value`. -/
def current (e : VariableEWMA) : ℚ := if e.count ≤ warmupSamples then 0 else e.value

/-- `NewMovingAverage` followed by `Set`. -/
def startingAt (v : ℚ) : VariableEWMA := { value := v, count := warmupSamples + 1 }

end VariableEWMA

/-! ## Servers -/

/-- The upstream protocols. `fetchServerInfo` registers no others. -/
inductive StampProtoType where
  | dnsCrypt
  | doH
  | odohTarget
deriving Repr, DecidableEq

structure ServerInfo where
  /-- which object this is: `refreshServer` makes a new one for the same name -/
  ref : Nat
  name : String
  proto : StampProtoType
  /-- milliseconds -/
  initialRtt : Int
  /-- stamp properties: `SupportsNoFilter`, `SupportsDNSSEC` -/
  noFilter : Bool
  dnssec : Bool
  /-- the name of `Relay`, if there is one -/
  relayName : Option String
  /-- `len(odohTargetConfigs)` -/
  odohTargetConfigs : Nat
  rtt : VariableEWMA
  lastActionTS : Option Time
  lastDecayTS : Option Time
  lastUpdateTime : Option Time
  totalQueries : Nat
  failedQueries : Nat
deriving Repr, DecidableEq

def ServerInfo.props (s : ServerInfo) : ServerProps :=
  { name := s.name, initialRtt := s.initialRtt, noFilter := s.noFilter, dnssec := s.dnssec }

/-- The counters of a server, as `observeOutcome` leaves them. -/
structure ServerInfo.Counted (s : ServerInfo) : Prop where
  failed_le : s.failedQueries ≤ s.totalQueries
  total_le : s.totalQueries ≤ 10000

/-- `now.Sub(ts) > d`; the zero time is further back than any duration. -/
def elapsedMoreThan (now : Time) (ts : Option Time) (d : Duration) : Bool :=
  match ts with
  | none => true
  | some t => decide (d < now - t)

structure ServersInfo where
  inner : List ServerInfo
  metrics : String → Option ResolverMetrics
  metricsWindow : Duration
  mds : LBStrategyMDS

/-- `NewServersInfo` with an MDS strategy. -/
def newServersInfo (params : MDSParams) (window : Duration) : ServersInfo :=
  { inner := [], metrics := fun _ => none, metricsWindow := window, mds := newLBStrategyMDS params }

namespace ServersInfo

/-- The single bubble pass of `sortByRtt`, carrying the element at `i-1`. -/
def sortByRttFrom (x : ServerInfo) : List ServerInfo → List ServerInfo
  | [] => [x]
  | y :: rest =>
    if y.rtt.current < x.rtt.current then y :: sortByRttFrom x rest else x :: sortByRttFrom y rest

def sortByRtt : List ServerInfo → List ServerInfo
  | [] => []
  | x :: rest => sortByRttFrom x rest

/-- `bestRtt` of `recoverDormantServers`. -/
def bestRtt : List ServerInfo → ℚ
  | [] => 0
  | first :: rest =>
    (first :: rest).foldl
      (fun best s => if 0 < s.rtt.current ∧ s.rtt.current < best then s.rtt.current else best)
      first.rtt.current

/-- A server `recoverDormantServers` gives a new chance. -/
def dormant (now : Time) (best : ℚ) (s : ServerInfo) : Bool :=
  decide (best * 4 < s.rtt.current) && elapsedMoreThan now s.lastActionTS (60 * Second) &&
    elapsedMoreThan now s.lastDecayTS (10 * Second)

/-- The new chance: the RTT moves towards the initial one, the counters restart. -/
def revive (now : Time) (best : ℚ) (s : ServerInfo) : ServerInfo :=
  { s with
    rtt := s.rtt.add (if s.initialRtt ≤ 0 then best else s.initialRtt)
    totalQueries := 0
    failedQueries := 0
    lastDecayTS := some now }

def recoverDormantServers (now : Time) (inner : List ServerInfo) : List ServerInfo :=
  if inner.length ≤ 1 then inner
  else
    let best := bestRtt inner
    if best ≤ 0 then inner
    else
      let recovered := inner.map fun s => if dormant now best s then revive now best s else s
      if inner.any (dormant now best) then sortByRtt recovered else recovered

variable (si : ServersInfo)

def metricsForLocked (name : String) : ResolverMetrics :=
  (si.metrics name).getD (newResolverMetricsWithWindow si.metricsWindow)

def candidatesLocked : List ResolverCandidate :=
  si.inner.map fun s => { server := s.props, metrics := si.metricsForLocked s.name }

/-- Scoring two or more candidates turns the epochs of their stores. -/
def advanceMetrics (now : Time) : String → Option ResolverMetrics := fun name =>
  if 2 ≤ si.inner.length ∧ name ∈ si.inner.map (·.name) then
    (si.metrics name).map (·.advance now)
  else si.metrics name

def serverByNameLocked (name : String) : Option ServerInfo :=
  si.inner.find? fun s => decide (s.name = name)

/-- `getOne` at `now`; `draw` and `pickDraw` feed the scheduler's random source. -/
def getOne (now : Time) (draw : ℚ) (pickDraw : Nat) : ServersInfo × Option ServerInfo :=
  if si.inner.length ≤ 0 then (si, none)
  else
    let si := { si with inner := recoverDormantServers now si.inner }
    let candidates := si.candidatesLocked
    let picked := si.mds.selectCandidateLocked now draw pickDraw candidates
    let pickedName := (candidates[picked.2]?.map (·.server.name)).getD ""
    -- back from the candidate to a live server, by name
    ({ si with metrics := si.advanceMetrics now, mds := picked.1 },
      (si.serverByNameLocked pickedName).or si.inner.head?)

/-- `noticeBegin` on the object `ref`. -/
def noticeBegin (ref : Nat) (now : Time) : ServersInfo :=
  { si with
    inner := si.inner.map fun s => if s.ref = ref then { s with lastActionTS := some now } else s }

/-- Replace the first server called `new.name`, or append. -/
def replaceOrAppend (new : ServerInfo) : List ServerInfo → List ServerInfo
  | [] => [new]
  | s :: rest => if s.name = new.name then new :: rest else s :: replaceOrAppend new rest

/-- A server from `fetchServerInfo`: it has counted nothing yet. -/
def fetched (new : ServerInfo) : ServerInfo :=
  { new with rtt := .startingAt new.initialRtt, totalQueries := 0, failedQueries := 0 }

/-- The publishing half of `refreshServer`, under the write lock. -/
def publish (new : ServerInfo) : ServersInfo :=
  { si with
    inner := replaceOrAppend (fetched new) si.inner
    metrics := update si.metrics new.name (some (si.metricsForLocked new.name)) }

/-! ## Feedback -/

/-- The legacy counters and RTT of the live server, for one outcome.
`dropped` says that a response plugin dropped the response. -/
def legacyUpdate (now : Time) (timeout elapsed : Duration) (dropped : Bool) (o : ExchangeOutcome)
    (s : ServerInfo) : ServerInfo :=
  let failed := o.hardFailure
  let total := s.totalQueries + 1
  let fails := s.failedQueries + if failed then 1 else 0
  -- a failure counts as a full timeout; a bogus or dropped answer says nothing about the RTT
  let rtt :=
    if failed || o.servfail then s.rtt.add ((timeout.tdiv Millisecond : Int) : ℚ)
    else if o.dnssecBogus || dropped then s.rtt
    else if 0 < elapsed.tdiv Millisecond ∧ elapsed < timeout then
      s.rtt.add ((elapsed.tdiv Millisecond : Int) : ℚ)
    else s.rtt
  -- halved together, so that the ratio stays
  { s with
    totalQueries := if total > 10000 then total / 2 else total
    failedQueries := if total > 10000 then fails / 2 else fails
    lastUpdateTime := some now
    rtt := rtt }

/-- Apply `f` to the first server called `name`. -/
def updateByName (name : String) (f : ServerInfo → ServerInfo) : List ServerInfo → List ServerInfo
  | [] => []
  | s :: rest => if s.name = name then f s :: rest else s :: updateByName name f rest

/-- The locked part of `observeOutcome`: the legacy counters, the metric
store, then the scheduler. -/
def recordOutcome (now : Time) (timeout elapsed : Duration) (dropped : Bool) (name : String)
    (o : ExchangeOutcome) : ServersInfo :=
  let metrics := (si.metricsForLocked name).observe now o
  { si with
    inner := updateByName name (legacyUpdate now timeout elapsed dropped o) si.inner
    metrics := update si.metrics name (some metrics)
    mds := si.mds.observeFeedbackLocked now name o metrics.totalSamples }

/-! ## Servers survive the bookkeeping -/

theorem sortByRttFrom_perm (x : ServerInfo) (rest : List ServerInfo) :
    (sortByRttFrom x rest).Perm (x :: rest) := by
  induction rest generalizing x with
  | nil => exact .refl _
  | cons y rest ih =>
    unfold sortByRttFrom
    split
    · exact ((ih x).cons y).trans (.swap _ _ _)
    · exact (ih y).cons x

theorem sortByRtt_perm (inner : List ServerInfo) : (sortByRtt inner).Perm inner := by
  cases inner with
  | nil => exact .refl _
  | cons x rest => exact sortByRttFrom_perm x rest

/-- A server after `recoverDormantServers`, by the RTT it was compared with. -/
def givenChance (now : Time) (best : Option ℚ) (s : ServerInfo) : ServerInfo :=
  match best with
  | none => s
  | some best => if dormant now best s then revive now best s else s

/-- The RTT the servers are compared with, if they are. -/
def comparedRtt (inner : List ServerInfo) : Option ℚ :=
  if inner.length ≤ 1 ∨ bestRtt inner ≤ 0 then none else some (bestRtt inner)

theorem map_givenChance_none (now : Time) (inner : List ServerInfo) :
    inner.map (givenChance now none) = inner :=
  map_id' inner

/-- `recoverDormantServers` reorders the servers, and adds or loses none. -/
theorem recoverDormantServers_perm_map (now : Time) (inner : List ServerInfo) :
    (recoverDormantServers now inner).Perm (inner.map (givenChance now (comparedRtt inner))) := by
  unfold recoverDormantServers comparedRtt
  by_cases hOne : inner.length ≤ 1
  · rw [if_pos hOne, if_pos (.inl hOne), map_givenChance_none]
  · by_cases hBest : bestRtt inner ≤ 0
    · rw [if_neg hOne, if_pos hBest, if_pos (.inr hBest), map_givenChance_none]
    · rw [if_neg hOne, if_neg hBest, if_neg (not_or.mpr ⟨hOne, hBest⟩)]
      split
      · exact sortByRtt_perm _
      · exact .refl _

/-- Whatever a new chance leaves alone is the same up to the order. -/
theorem recoverDormantServers_perm {β : Type} {f : ServerInfo → β}
    (hf : ∀ now best s, f (revive now best s) = f s) (now : Time) (inner : List ServerInfo) :
    ((recoverDormantServers now inner).map f).Perm (inner.map f) := by
  refine ((recoverDormantServers_perm_map now inner).map f).trans (.of_eq ?_)
  rw [map_map]
  refine map_congr_left fun s _ => ?_
  cases h : comparedRtt inner with
  | none => rfl
  | some best =>
    rw [comp_apply, givenChance]
    split
    · exact hf now best s
    · rfl

theorem recoverDormantServers_names (now : Time) (inner : List ServerInfo) :
    ((recoverDormantServers now inner).map (·.name)).Perm (inner.map (·.name)) :=
  recoverDormantServers_perm (fun _ _ _ => rfl) now inner

/-- Updating a server in place leaves alone what the update leaves alone. -/
theorem updateByName_map {β : Type} {f : ServerInfo → β} {g : ServerInfo → ServerInfo}
    (hf : ∀ s, f (g s) = f s) (name : String) (inner : List ServerInfo) :
    (updateByName name g inner).map f = inner.map f := by
  induction inner with
  | nil => rfl
  | cons s rest ih =>
    unfold updateByName
    split
    · rw [map_cons, map_cons, hf]
    · rw [map_cons, map_cons, ih]

/-! ## The counters -/

theorem counted_legacyUpdate {s : ServerInfo} (h : s.Counted) (now : Time)
    (timeout elapsed : Duration) (dropped : Bool) (o : ExchangeOutcome) :
    (legacyUpdate now timeout elapsed dropped o s).Counted := by
  obtain ⟨hFailed, hTotal⟩ := h
  have hOne : (if o.hardFailure then 1 else 0) ≤ 1 := by
    split <;> decide
  unfold legacyUpdate
  -- one more failure is one more query, and both are halved together
  by_cases hFull : s.totalQueries + 1 > 10000
  · simp only [hFull, if_true]
    constructor
    · dsimp only
      omega
    · dsimp only
      omega
  · simp only [hFull, if_false]
    constructor
    · dsimp only
      omega
    · dsimp only
      omega

section Counted

variable {inner : List ServerInfo} (hAll : ∀ s ∈ inner, s.Counted)

include hAll

theorem counted_updateByName {f : ServerInfo → ServerInfo} (hf : ∀ {s}, s.Counted → (f s).Counted)
    (name : String) : ∀ s ∈ updateByName name f inner, s.Counted := by
  induction inner with
  | nil => exact hAll
  | cons t rest ih =>
    obtain ⟨ht, hRest⟩ := forall_mem_cons.mp hAll
    rw [updateByName]
    split
    · exact forall_mem_cons.mpr ⟨hf ht, hRest⟩
    · exact forall_mem_cons.mpr ⟨ht, ih hRest⟩

theorem counted_recoverDormantServers (now : Time) :
    ∀ s ∈ recoverDormantServers now inner, s.Counted := by
  intro s hs
  obtain ⟨t, ht, rfl⟩ := mem_map.mp ((recoverDormantServers_perm_map now inner).mem_iff.mp hs)
  unfold givenChance
  split
  · exact hAll t ht
  · split
    · exact ⟨Nat.le_refl 0, Nat.zero_le _⟩
    · exact hAll t ht

end Counted

/-! ## One selection, one outcome -/

variable {si} {si' : ServersInfo}

theorem recordOutcome_mds (si : ServersInfo) (now : Time) (timeout elapsed : Duration)
    (dropped : Bool) (name : String) (o : ExchangeOutcome) :
    ∃ total, (si.recordOutcome now timeout elapsed dropped name o).mds =
      si.mds.observeFeedbackLocked now name o total :=
  ⟨_, rfl⟩

/-- The live server `name`, one of several, waits for a probe that is due. -/
def ProbeDue (si : ServersInfo) (now : Time) (name : String) : Prop :=
  2 ≤ si.inner.length ∧ name ∈ si.inner.map (·.name) ∧ si.mds.ProbeReady now name

/-- What a selection can do to the breakers: nothing without a server, mark
the probe of the server picked, or pick a server and leave them alone. A server
with an open breaker is picked without a probe only for want of another. -/
inductive Picked (now : Time) (si si' : ServersInfo) : Option ServerInfo → Prop where
  | idle : si' = si → Picked now si si' none
  | probe {server : ServerInfo} : si.ProbeDue now server.name →
      si'.mds = si.mds.markProbing server.name → Picked now si si' (some server)
  | other {server : ServerInfo} : server.name ∈ si.inner.map (·.name) →
      si'.mds.circuits = si.mds.circuits →
      (si.mds.isOpen server.name = true → si.inner.length = 1 ∨
        ∀ name ∈ si.inner.map (·.name), si.mds.isOpen name = true) →
      Picked now si si' (some server)

theorem getOne_picked {now : Time} {draw : ℚ} {pickDraw : Nat} {picked : Option ServerInfo}
    (h : si.getOne now draw pickDraw = (si', picked)) : Picked now si si' picked := by
  unfold getOne at h
  split at h
  · obtain ⟨rfl, rfl⟩ := Prod.mk.inj h
    exact .idle rfl
  · next hSome =>
    have hNames := recoverDormantServers_names now si.inner
    have hLen : (recoverDormantServers now si.inner).length = si.inner.length := by
      simpa using hNames.length_eq
    dsimp only at h
    generalize hInner : recoverDormantServers now si.inner = inner at h hNames hLen
    generalize hCs : ({ si with inner := inner } : ServersInfo).candidatesLocked = cs at h
    have hCsGet : ∀ (i : Nat) (c : ResolverCandidate), cs[i]? = some c →
        c.server.name ∈ inner.map (·.name) := by
      intro i c hc
      rw [← hCs, candidatesLocked, getElem?_map, Option.map_eq_some_iff] at hc
      obtain ⟨s, hs, rfl⟩ := hc
      exact mem_map.mpr ⟨s, mem_of_getElem? hs, rfl⟩
    have hCsLen : cs.length = si.inner.length := by
      rw [← hCs, candidatesLocked, length_map, hLen]
    have hNe : cs ≠ [] := by
      rw [← length_pos_iff, hCsLen]
      omega
    generalize hSel : si.mds.selectCandidateLocked now draw pickDraw cs = sel at h
    obtain ⟨mds', i⟩ := sel
    obtain ⟨rfl, hPicked⟩ := Prod.mk.inj h
    obtain ⟨c, hc, hCase⟩ := LBStrategyMDS.selectCandidateLocked_cases hNe hSel
    have hMem := hCsGet _ c hc
    -- the candidate is mapped back to a live server of the same name
    obtain ⟨server, hServer, hName⟩ : ∃ server, picked = some server ∧
        server.name = c.server.name := by
      rw [hc] at hPicked
      obtain ⟨s, hs, hsName⟩ := mem_map.mp hMem
      have hFind : (inner.find? fun s => decide (s.name = c.server.name)).isSome = true := by
        rw [find?_isSome]
        exact ⟨s, hs, by simpa using hsName⟩
      obtain ⟨server, hServer⟩ := Option.isSome_iff_exists.mp hFind
      refine ⟨server, ?_, by simpa using find?_some hServer⟩
      rw [← hPicked]
      show (inner.find? fun s => decide (s.name = c.server.name)).or _ = _
      rw [hServer, Option.some_or]
    have hLive : server.name ∈ si.inner.map (·.name) := hName ▸ hNames.mem_iff.mp hMem
    rw [hServer]
    rw [← hName] at hCase
    rcases hCase with ⟨hTwo, hReady, hMark⟩ | ⟨hCirc, -, hOpen⟩
    · exact .probe ⟨hCsLen ▸ hTwo, hLive, hReady⟩ hMark
    · refine .other hLive hCirc fun hO => (hOpen hO).imp (hCsLen ▸ ·) fun hAll name hn => ?_
      obtain ⟨s, hs, rfl⟩ := mem_map.mp (hNames.mem_iff.mpr hn)
      refine hAll { server := s.props, metrics := si.metricsForLocked s.name } ?_
      rw [← hCs]
      exact mem_map.mpr ⟨s, hs, rfl⟩

theorem getOne_ne_none (si : ServersInfo) (now : Time) (draw : ℚ) (pickDraw : Nat) :
    (si.getOne now draw pickDraw).2 ≠ none ↔ si.inner ≠ [] := by
  have hLen := (recoverDormantServers_names now si.inner).length_eq
  rw [length_map, length_map] at hLen
  unfold getOne
  cases hInner : si.inner with
  | nil => simp
  | cons server rest =>
    rw [hInner, length_cons] at hLen
    -- the first server stands in for a candidate that is not found
    have hSome : recoverDormantServers now (server :: rest) ≠ [] := by
      rw [← length_pos_iff]
      omega
    simp [hSome]

end ServersInfo

/-- Two live resolvers, `a` the faster one; one failure opens a breaker. -/
def twoResolvers : ServersInfo :=
  let server (ref : Nat) (name : String) (initialRtt : Int) : ServerInfo :=
    { ref, name, proto := .dnsCrypt, initialRtt, noFilter := true, dnssec := true,
      relayName := none, odohTargetConfigs := 0, rtt := .startingAt initialRtt,
      lastActionTS := none, lastDecayTS := none, lastUpdateTime := none, totalQueries := 0,
      failedQueries := 0 }
  { newServersInfo { defaultMDSParams with
      warmupSamples := 1, penaltyMinSamples := 1, breakerThreshold := 1 } metricsWindow with
    inner := [server 0 "a" 10, server 1 "b" 50] }

end DnscryptProxy
