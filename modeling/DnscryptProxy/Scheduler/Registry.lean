import DnscryptProxy.Base.Bindings
import DnscryptProxy.Base.Run
import DnscryptProxy.Scheduler.Servers

/-!
# The live servers under concurrent refreshes

`ServersInfo` of `serversInfo.go` with any load balancing strategy, as a
machine of its critical sections. `refreshServer` is two of them: it looks the
name up under the read lock, fetches the certificate with no lock held, and
publishes the new object under the write lock. Everything else runs in one.
The metric stores are objects with an identity, as in the source, where the map
holds pointers.

* `registry_sound` — the names in `inner` are distinct, everything but the
  publication of a refreshed server permutes `inner`, no live server is lost,
  and every live server has a metric store, which stays the same object for
  ever and never forgets a sample.
-/

namespace DnscryptProxy

open Base List Function ServersInfo ServerInfo Machine

/-! ## Load balancing strategies -/

/-- The implementations of `LBStrategy`. The configuration refuses `p0`. -/
inductive LBStrategy where
  | p2
  | pn (n : Nat) (pos : 0 < n)
  | ph
  | first
  | random
  | wp2
  | mds (mds : LBStrategyMDS)

namespace LBStrategy

def getActiveCount : LBStrategy → Nat → Nat
  | .p2, serversCount => min serversCount 2
  | .pn n _, serversCount => min serversCount n
  | .ph, serversCount => (serversCount + 1) / 2
  | .first, _ => 1
  | .random, serversCount => serversCount
  | .wp2, serversCount => serversCount
  | .mds _, serversCount => serversCount

/-- `draw % n` stands for `rand.Intn(n)`. -/
def getCandidate : LBStrategy → Nat → Nat → Nat
  | .p2, serversCount, draw => draw % min serversCount 2
  | .pn n _, serversCount, draw => draw % min serversCount n
  | .ph, serversCount, draw => draw % ((serversCount + 1) / 2)
  | .first, _, _ => 0
  | .random, serversCount, draw => draw % serversCount
  | .wp2, serversCount, draw => if serversCount ≤ 1 then 0 else draw % serversCount
  | .mds _, _, _ => 0

end LBStrategy

/-! ## The registry -/

structure Registry where
  inner : List ServerInfo
  metrics : Bindings String ResolverMetrics
  metricsWindow : Duration
  lbStrategy : LBStrategy
  lbEstimator : Bool

/-- What one call of `getOne` draws from its random sources. -/
structure SelectionDraws where
  /-- for the MDS scheduler -/
  draw : ℚ
  pickDraw : Nat
  /-- for `getCandidate` and `estimatorUpdate` -/
  candidate : Nat
  estimator : Nat
  /-- for `getWeightedCandidate` -/
  first : Nat
  second : Nat
  tie : ℚ

def calculateServerScore (server : ServerInfo) : ℚ :=
  let rtt := if server.rtt.current ≤ 0 then 1000 else server.rtt.current
  let rttScore := if 1 - rtt / 1000 < 0 then 0 else 1 - rtt / 1000
  -- the counters are unsigned
  let succeeded := UInt64.ofNat server.totalQueries - UInt64.ofNat server.failedQueries
  let successRate : ℚ :=
    if 0 < server.totalQueries then (succeeded.toNat : ℚ) / server.totalQueries else 1
  rttScore * (7 / 10) + successRate * (3 / 10)

def getWeightedCandidate (inner : List ServerInfo) (draws : SelectionDraws) : Nat :=
  if inner.length ≤ 1 then 0
  else
    let first := draws.first % inner.length
    -- `second` is drawn again until it differs: any other index
    let other := draws.second % (inner.length - 1)
    let second := if other < first then other else other + 1
    let score (i : Nat) := (inner[i]?.map calculateServerScore).getD 0
    if score second < score first then first
    else if score first < score second then second
    else if draws.tie < 1 / 2 then first
    else second

namespace Registry

variable (r : Registry)

/-- The locked part of `estimatorUpdate`; an index out of range does not
come from `getCandidate`. -/
def estimatorUpdate (currentActive draw : Nat) : Registry :=
  let serversCount := r.inner.length
  let activeCount := r.lbStrategy.getActiveCount serversCount
  if activeCount = serversCount then r
  else
    let candidate := draw % (serversCount - activeCount) + activeCount
    if h : candidate < r.inner.length ∧ currentActive < r.inner.length then
      let candidateServer := r.inner[candidate]
      let activeServer := r.inner[currentActive]
      if activeServer.rtt.current < 0 then
        let updated := { activeServer with rtt := .startingAt candidateServer.rtt.current }
        { r with inner := r.inner.set currentActive updated }
      else if candidateServer.rtt.current < activeServer.rtt.current then
        let swapped := (r.inner.set candidate activeServer).set currentActive candidateServer
        { r with inner := sortByRtt swapped }
      else r
    else r

/-- `metricsForLocked`, for its effect on the map. -/
def metricsForLocked (name : String) : Registry :=
  { r with metrics := r.metrics.ensure name (newResolverMetricsWithWindow r.metricsWindow) }

/-- `candidatesLocked`: it never adds to the map. -/
def candidatesLocked : List ResolverCandidate :=
  r.inner.map fun s =>
    { server := s.props
      metrics := (r.metrics.get? s.name).getD (newResolverMetricsWithWindow r.metricsWindow) }

/-- The selection of `getOne` with the MDS strategy. Scoring two or more
candidates turns the epochs of their stores. -/
def selectAdvanced (mds : LBStrategyMDS) (now : Time) (draws : SelectionDraws) :
    Registry × Option ServerInfo :=
  let candidates := r.candidatesLocked
  let picked := mds.selectCandidateLocked now draws.draw draws.pickDraw candidates
  let pickedName := (candidates[picked.2]?.map (·.server.name)).getD ""
  let metrics :=
    if 2 ≤ r.inner.length then r.metrics.modifyAll (r.inner.map (·.name)) (·.advance now)
    else r.metrics
  ({ r with metrics, lbStrategy := .mds picked.1 },
    (r.inner.find? fun s => decide (s.name = pickedName)).or r.inner.head?)

/-- `getOne` at `now`. -/
def getOne (now : Time) (draws : SelectionDraws) : Registry × Option ServerInfo :=
  if r.inner.length ≤ 0 then (r, none)
  else
    let r := { r with inner := recoverDormantServers now r.inner }
    match r.lbStrategy with
    | .mds mds => r.selectAdvanced mds now draws
    | .wp2 => (r, r.inner[getWeightedCandidate r.inner draws]?)
    | strategy =>
      let candidate := strategy.getCandidate r.inner.length draws.candidate
      let r := if r.lbEstimator then r.estimatorUpdate candidate draws.estimator else r
      (r, r.inner[candidate]?)

/-- The publishing half of `refreshServer`, under the write lock. -/
def publish (new : ServerInfo) : Registry :=
  { r with inner := replaceOrAppend (fetched new) r.inner }.metricsForLocked new.name

/-- The end of `refresh`: `sort.SliceStable` by the initial latency. -/
def sortInitial : Registry :=
  { r with inner := r.inner.mergeSort fun a b => decide (a.initialRtt ≤ b.initialRtt) }

/-- `noticeBegin` on the object `ref`. -/
def noticeBegin (ref : Nat) (now : Time) : Registry :=
  { r with
    inner := r.inner.map fun s => if s.ref = ref then { s with lastActionTS := some now } else s }

/-- The locked part of `observeOutcome`. -/
def recordOutcome (now : Time) (timeout elapsed : Duration) (dropped : Bool) (name : String)
    (o : ExchangeOutcome) : Registry :=
  let metrics := (r.metricsForLocked name).metrics.modify name (·.observe now o)
  let totalSamples := ((metrics.get? name).map (·.totalSamples)).getD 0
  { r with
    inner := updateByName name
      (legacyUpdate now timeout elapsed dropped o) r.inner
    metrics := metrics
    lbStrategy :=
      match r.lbStrategy with
      | .mds mds => .mds (mds.observeFeedbackLocked now name o totalSamples)
      | strategy => strategy }

end Registry

/-! ## The machine -/

structure RegistryState where
  registry : Registry
  /-- the `refreshServer` calls that fetch a certificate: the name each was
  given, and whether it found it new -/
  fetching : Nat → Option (String × Bool)

inductive RegistryOp where
  /-- `refreshServer` up to the fetch; `call` is the goroutine -/
  | beginRefresh (call : Nat) (name : String)
  | fetchFailed (call : Nat)
  | publish (call : Nat) (server : ServerInfo)
  | sortInitial
  | estimatorUpdate (currentActive draw : Nat)
  | sortByRtt
  | recoverDormantServers (now : Time)
  | getOne (now : Time) (draws : SelectionDraws)
  | noticeBegin (ref : Nat) (now : Time)
  | metricsFor (name : String)
  | observeOutcome (now : Time) (timeout elapsed : Duration) (dropped : Bool) (name : String)
      (o : ExchangeOutcome)

/-- Whether a step publishes a refreshed server. -/
def RegistryOp.isPublish : RegistryOp → Bool
  | .publish .. => true
  | _ => false

namespace RegistryState

variable (s : RegistryState)

def step : RegistryOp → Option RegistryState
  | .beginRefresh call name =>
    if s.fetching call = none then
      let isNew := !(s.registry.inner.any fun server => decide (server.name = name))
      some { s with fetching := update s.fetching call (some (name, isNew)) }
    else none
  | .fetchFailed call =>
    if s.fetching call = none then none
    else some { s with fetching := update s.fetching call none }
  | .publish call server =>
    match s.fetching call with
    | none => none
    | some (name, _) =>
      -- `Fatalf` on a server of another name
      if server.name = name then
        some { registry := s.registry.publish server
               fetching := update s.fetching call none }
      else none
  | .sortInitial => some { s with registry := s.registry.sortInitial }
  | .estimatorUpdate currentActive draw =>
    some { s with registry := s.registry.estimatorUpdate currentActive draw }
  | .sortByRtt =>
    some { s with
      registry := { s.registry with inner := sortByRtt s.registry.inner } }
  | .recoverDormantServers now =>
    some { s with
      registry :=
        { s.registry with inner := recoverDormantServers now s.registry.inner } }
  | .getOne now draws => some { s with registry := (s.registry.getOne now draws).1 }
  | .noticeBegin ref now => some { s with registry := s.registry.noticeBegin ref now }
  | .metricsFor name => some { s with registry := s.registry.metricsForLocked name }
  | .observeOutcome now timeout elapsed dropped name o =>
    some { s with registry := s.registry.recordOutcome now timeout elapsed dropped name o }

end RegistryState

/-- The empty registry, with any strategy and no refresh under way. -/
def registryMachine : Machine RegistryState RegistryOp where
  init s := s.registry.inner = [] ∧ s.registry.metrics = .empty ∧ s.fetching = fun _ => none
  step := RegistryState.step

/-! ## What a critical section keeps -/

/-- Which object a server is, and its name. -/
def ServerInfo.identity (s : ServerInfo) : Nat × String := (s.ref, s.name)

theorem names_eq_identities (inner : List ServerInfo) :
    inner.map (·.name) = (inner.map identity).map Prod.snd := by
  rw [map_map]
  rfl

/-- The lifetime samples of a store can only grow. -/
def SamplesKept (m m' : ResolverMetrics) : Prop := m.totalSamples ≤ m'.totalSamples

theorem SamplesKept.refl (m : ResolverMetrics) : SamplesKept m m := le_refl _

theorem SamplesKept.trans {m m' m'' : ResolverMetrics} (h : SamplesKept m m')
    (h' : SamplesKept m' m'') : SamplesKept m m'' := le_trans h h'

theorem SamplesKept.advance (now : Time) (m : ResolverMetrics) : SamplesKept m (m.advance now) :=
  (m.advance_totalSamples now).ge

theorem SamplesKept.observe (now : Time) (o : ExchangeOutcome) (m : ResolverMetrics) :
    SamplesKept m (m.observe now o) := by
  show m.totalSamples ≤ (m.advance now).totalSamples + 1
  rw [ResolverMetrics.advance_totalSamples]
  exact Nat.le_succ _

/-- `inner` is reordered, its servers updated in place, their counters stay
consistent, and no store is replaced. -/
structure Registry.Keeps (r r' : Registry) : Prop where
  inner : (r'.inner.map identity).Perm (r.inner.map identity)
  counted : (∀ s ∈ r.inner, s.Counted) → ∀ s ∈ r'.inner, s.Counted
  metrics : r.metrics.Extends SamplesKept r'.metrics

namespace Registry

variable {r r' r'' : Registry}

theorem Keeps.refl (r : Registry) : r.Keeps r :=
  ⟨.refl _, id, .refl SamplesKept.refl _⟩

theorem Keeps.trans (h : r.Keeps r') (h' : r'.Keeps r'') : r.Keeps r'' :=
  ⟨h'.inner.trans h.inner, h'.counted ∘ h.counted, h.metrics.trans SamplesKept.trans h'.metrics⟩

/-- Only `inner` changes, and no server is another one. -/
theorem keeps_of_inner {inner : List ServerInfo}
    (h : (inner.map identity).Perm (r.inner.map identity))
    (hCounted : (∀ s ∈ r.inner, s.Counted) → ∀ s ∈ inner, s.Counted) :
    r.Keeps { r with inner := inner } :=
  ⟨h, hCounted, .refl SamplesKept.refl _⟩

theorem keeps_of_perm {inner : List ServerInfo} (h : inner.Perm r.inner) :
    r.Keeps { r with inner := inner } :=
  keeps_of_inner (h.map _) fun hAll s hs => hAll s (h.mem_iff.mp hs)

theorem recoverDormantServers_keeps (r : Registry) (now : Time) :
    r.Keeps { r with inner := recoverDormantServers now r.inner } :=
  keeps_of_inner (recoverDormantServers_perm (fun _ _ _ => rfl) now r.inner)
    (counted_recoverDormantServers · now)

theorem sortByRtt_keeps (r : Registry) :
    r.Keeps { r with inner := sortByRtt r.inner } :=
  keeps_of_perm (sortByRtt_perm r.inner)

theorem sortInitial_keeps (r : Registry) : r.Keeps r.sortInitial :=
  keeps_of_perm (mergeSort_perm r.inner _)

theorem noticeBegin_keeps (r : Registry) (ref : Nat) (now : Time) :
    r.Keeps (r.noticeBegin ref now) := by
  refine keeps_of_inner (.of_eq ?_) fun hAll s hs => ?_
  · rw [map_map]
    refine map_congr_left fun s _ => ?_
    simp only [comp_apply]
    split <;> rfl
  · obtain ⟨t, ht, rfl⟩ := mem_map.mp hs
    split
    · exact ⟨(hAll t ht).failed_le, (hAll t ht).total_le⟩
    · exact hAll t ht

theorem map_set_same {α β : Type} {f : α → β} {l : List α} {i : Nat} {a : α} (h : i < l.length)
    (ha : f a = f l[i]) : (l.set i a).map f = l.map f := by
  rw [map_set, ha, ← getElem_map f, set_getElem_self]
  simpa using h

theorem estimatorUpdate_keeps (r : Registry) (currentActive draw : Nat) :
    r.Keeps (r.estimatorUpdate currentActive draw) := by
  unfold estimatorUpdate
  dsimp only
  split
  · exact .refl r
  · split
    · next hIn =>
      obtain ⟨hCandidate, hActive⟩ := hIn
      split
      · -- the moving average of the active server is set, in place
        refine keeps_of_inner (.of_eq (map_set_same hActive rfl)) fun hAll s hs => ?_
        rcases mem_or_eq_of_mem_set hs with h | rfl
        · exact hAll s h
        · obtain ⟨hFailed, hTotal⟩ := hAll _ (getElem_mem hActive)
          exact ⟨hFailed, hTotal⟩
      · split
        · refine keeps_of_perm ((sortByRtt_perm _).trans ?_)
          exact set_set_perm hCandidate hActive
        · exact .refl r
    · exact .refl r

theorem metricsForLocked_keeps (r : Registry) (name : String) :
    r.Keeps (r.metricsForLocked name) :=
  ⟨.refl _, id, Bindings.ensure_extends SamplesKept.refl r.metrics name _⟩

theorem selectAdvanced_keeps (r : Registry) (mds : LBStrategyMDS) (now : Time)
    (draws : SelectionDraws) : r.Keeps (r.selectAdvanced mds now draws).1 := by
  refine ⟨.refl _, id, ?_⟩
  show r.metrics.Extends SamplesKept (if _ then _ else _)
  split
  · exact Bindings.modifyAll_extends SamplesKept.refl SamplesKept.trans
      (SamplesKept.advance now) r.metrics _
  · exact .refl SamplesKept.refl _

theorem getOne_keeps (r : Registry) (now : Time) (draws : SelectionDraws) :
    r.Keeps (r.getOne now draws).1 := by
  unfold getOne
  split
  · exact .refl r
  · have hRecover := recoverDormantServers_keeps r now
    dsimp only
    split
    · exact hRecover.trans (selectAdvanced_keeps _ _ now draws)
    · exact hRecover
    · split
      · exact hRecover.trans (estimatorUpdate_keeps _ _ _)
      · exact hRecover

theorem recordOutcome_keeps (r : Registry) (now : Time) (timeout elapsed : Duration)
    (dropped : Bool) (name : String) (o : ExchangeOutcome) :
    r.Keeps (r.recordOutcome now timeout elapsed dropped name o) := by
  have hInner := updateByName_map (f := identity)
    (g := legacyUpdate now timeout elapsed dropped o) (fun _ => rfl) name r.inner
  refine ⟨.of_eq hInner, fun hAll => ?_, ?_⟩
  · exact counted_updateByName hAll
      (counted_legacyUpdate · now timeout elapsed dropped o) name
  refine (metricsForLocked_keeps r name).metrics.trans SamplesKept.trans ?_
  exact Bindings.modify_extends SamplesKept.refl (SamplesKept.observe now o) _ name

/-! ## Publishing a server -/

theorem replaceOrAppend_names (new : ServerInfo) (inner : List ServerInfo) :
    (replaceOrAppend new inner).map (·.name) =
      if new.name ∈ inner.map (·.name) then inner.map (·.name)
      else inner.map (·.name) ++ [new.name] := by
  induction inner with
  | nil => rfl
  | cons s rest ih =>
    unfold replaceOrAppend
    by_cases hName : s.name = new.name
    · simp [hName]
    · have hNe : new.name ≠ s.name := fun h => hName h.symm
      rw [if_neg hName, map_cons, ih, map_cons]
      by_cases hMem : new.name ∈ rest.map (·.name)
      · rw [if_pos hMem, if_pos (mem_cons_of_mem _ hMem)]
      · rw [if_neg hMem, if_neg (by simpa [hNe] using hMem), cons_append]

theorem publish_inner (r : Registry) (new : ServerInfo) :
    (r.publish new).inner.map (·.name) =
      if new.name ∈ r.inner.map (·.name) then r.inner.map (·.name)
      else r.inner.map (·.name) ++ [new.name] :=
  replaceOrAppend_names _ r.inner

theorem publish_metrics (r : Registry) (new : ServerInfo) :
    r.metrics.Extends Eq (r.publish new).metrics :=
  Bindings.ensure_extends (fun _ => rfl) r.metrics new.name _

/-! ## The invariant -/

/-- The names are distinct, and every live server has a store. -/
structure Inv (r : Registry) : Prop where
  nodup : (r.inner.map (·.name)).Nodup
  published : ∀ name ∈ r.inner.map (·.name), ∃ id, r.metrics.ids name = some id

theorem Keeps.names (h : r.Keeps r') :
    (r'.inner.map (·.name)).Perm (r.inner.map (·.name)) := by
  rw [names_eq_identities, names_eq_identities]
  exact h.inner.map Prod.snd

theorem Inv.keeps (hInv : r.Inv) (h : r.Keeps r') : r'.Inv where
  nodup := h.names.nodup_iff.mpr hInv.nodup
  published name hName := h.metrics.exists_id (hInv.published name (h.names.mem_iff.mp hName))

theorem Inv.publish (hInv : r.Inv) (new : ServerInfo) : (r.publish new).Inv where
  nodup := by
    rw [publish_inner]
    split
    · exact hInv.nodup
    · next hNew =>
      refine nodup_append.mpr ⟨hInv.nodup, nodup_singleton _, ?_⟩
      rintro name hName _ hSingle rfl
      exact hNew (mem_singleton.mp hSingle ▸ hName)
  published name hName := by
    rw [publish_inner] at hName
    have hOld : name ∈ r.inner.map (·.name) → ∃ id, (r.publish new).metrics.ids name = some id :=
      fun h => (publish_metrics r new).exists_id (hInv.published name h)
    split at hName
    · exact hOld hName
    · rcases mem_append.mp hName with h | h
      · exact hOld h
      · rw [mem_singleton.mp h]
        exact Bindings.ids_ensure r.metrics new.name _

end Registry

variable {s s' : RegistryState} {op : RegistryOp}

/-! ## Steps and runs -/

/-- What a step does to the registry: an update in place, or the publication
of a server. -/
inductive RegistryStep (s : RegistryState) : RegistryOp → RegistryState → Prop where
  | keep {op : RegistryOp} {s' : RegistryState} : op.isPublish = false →
      s.registry.Keeps s'.registry → RegistryStep s op s'
  | publish {call : Nat} {server : ServerInfo} {s' : RegistryState} :
      s'.registry = s.registry.publish server → RegistryStep s (.publish call server) s'

theorem registryStep_of_step (h : s.step op = some s') :
    RegistryStep s op s' := by
  cases op with
  | beginRefresh call name =>
    simp only [RegistryState.step, Option.ite_none_right_eq_some] at h
    obtain ⟨-, hEq⟩ := h
    cases hEq
    exact .keep rfl (.refl _)
  | fetchFailed call =>
    simp only [RegistryState.step, Option.ite_none_left_eq_some] at h
    obtain ⟨-, hEq⟩ := h
    cases hEq
    exact .keep rfl (.refl _)
  | publish call server =>
    simp only [RegistryState.step] at h
    split at h
    · cases h
    · simp only [Option.ite_none_right_eq_some] at h
      obtain ⟨-, hEq⟩ := h
      cases hEq
      exact .publish rfl
  | sortInitial =>
    cases h
    exact .keep rfl s.registry.sortInitial_keeps
  | estimatorUpdate currentActive draw =>
    cases h
    exact .keep rfl (s.registry.estimatorUpdate_keeps currentActive draw)
  | sortByRtt =>
    cases h
    exact .keep rfl s.registry.sortByRtt_keeps
  | recoverDormantServers now =>
    cases h
    exact .keep rfl (s.registry.recoverDormantServers_keeps now)
  | getOne now draws =>
    cases h
    exact .keep rfl (s.registry.getOne_keeps now draws)
  | noticeBegin ref now =>
    cases h
    exact .keep rfl (s.registry.noticeBegin_keeps ref now)
  | metricsFor name =>
    cases h
    exact .keep rfl (s.registry.metricsForLocked_keeps name)
  | observeOutcome now timeout elapsed dropped name o =>
    cases h
    exact .keep rfl (s.registry.recordOutcome_keeps now timeout elapsed dropped name o)

theorem RegistryStep.inv (h : RegistryStep s op s') (hInv : s.registry.Inv) : s'.registry.Inv := by
  cases h with
  | keep _ hKeeps => exact hInv.keeps hKeeps
  | publish hPublish => exact hPublish ▸ hInv.publish _

theorem Registry.Inv.of_reach {s : RegistryState}
    (hs : registryMachine.Reach anyStep s) : s.registry.Inv := by
  refine hs.invariant (P := fun s => s.registry.Inv) ?_ ?_
  · rintro s ⟨hInner, -, -⟩
    exact ⟨by simp [hInner], by simp [hInner]⟩
  · intro s op s' hInv _ hNext
    exact (registryStep_of_step hNext).inv hInv

/-- No step loses a name, or rebinds a store. -/
theorem RegistryStep.lasting (h : RegistryStep s op s') :
    (∀ name ∈ s.registry.inner.map (·.name), name ∈ s'.registry.inner.map (·.name)) ∧
      s.registry.metrics.Extends SamplesKept s'.registry.metrics := by
  cases h with
  | keep _ hKeeps => exact ⟨fun _ h => hKeeps.names.mem_iff.mpr h, hKeeps.metrics⟩
  | publish hPublish =>
    rw [hPublish]
    refine ⟨fun name h => ?_, Bindings.ensure_extends SamplesKept.refl _ _ _⟩
    rw [Registry.publish_inner]
    split
    · exact h
    · exact mem_append_left _ h

/-- In every interleaving of refreshes, selections and outcomes: the names of
the live servers are distinct and each has a metric store; only a publication
does more than reorder the servers; from there on no name is ever lost, and a
store stays bound to its name with all its samples. A publication leaves the
stores as they are. -/
theorem registry_sound {s : RegistryState} (hs : registryMachine.Reach anyStep s) :
    (s.registry.inner.map (·.name)).Nodup ∧
      (∀ name ∈ s.registry.inner.map (·.name), ∃ id, s.registry.metrics.ids name = some id) ∧
      (∀ op s', registryMachine.step s op = some s' → op.isPublish = false →
        (s'.registry.inner.map identity).Perm
          (s.registry.inner.map identity)) ∧
      (∀ s', (registryMachine.startAt s).Reach anyStep s' →
        (∀ name ∈ s.registry.inner.map (·.name), name ∈ s'.registry.inner.map (·.name)) ∧
          ∀ name id store, s.registry.metrics.ids name = some id →
            s.registry.metrics.objects[id]? = some store →
            s'.registry.metrics.ids name = some id ∧
              ∃ store', s'.registry.metrics.objects[id]? = some store' ∧
                store.totalSamples ≤ store'.totalSamples) ∧
      (∀ call server s', registryMachine.step s (.publish call server) = some s' →
        ∀ name id store, s.registry.metrics.ids name = some id →
          s.registry.metrics.objects[id]? = some store →
          s'.registry.metrics.ids name = some id ∧
            s'.registry.metrics.objects[id]? = some store) := by
  have hInv := Registry.Inv.of_reach hs
  refine ⟨hInv.nodup, hInv.published, ?_, ?_, ?_⟩
  · intro op s' hNext hOp
    cases registryStep_of_step hNext with
    | keep _ hKeeps => exact hKeeps.inner
    | publish _ => cases hOp
  · intro s' hs'
    -- both facts are relations between the two ends of the run, kept by every step
    refine hs'.invariant (P := fun t =>
      (∀ name ∈ s.registry.inner.map (·.name), name ∈ t.registry.inner.map (·.name)) ∧
        s.registry.metrics.Extends SamplesKept t.registry.metrics) ?_ ?_
    · rintro t rfl
      exact ⟨fun _ h => h, .refl SamplesKept.refl _⟩
    · rintro t op t' ⟨hNames, hStores⟩ - hNext
      obtain ⟨hNames', hStores'⟩ := (registryStep_of_step hNext).lasting
      exact ⟨fun name h => hNames' name (hNames name h), hStores.trans SamplesKept.trans hStores'⟩
  · intro call server s' hNext name id store hId hStore
    have hStep : RegistryStep s (.publish call server) s' := registryStep_of_step hNext
    cases hStep with
    | keep hOp _ => cases hOp
    | publish hPublish =>
      rw [hPublish]
      obtain ⟨hId', x, hx, rfl⟩ :=
        Registry.publish_metrics s.registry server name id store hId hStore
      exact ⟨hId', hx⟩

/-- Two refreshes of one new name, both past their look at `inner` when the
first publishes: the name is live once, and its store has the sample taken
between the two publications. -/
theorem registry_sound_twice_new : ∃ s : RegistryState, registryMachine.Reach anyStep s ∧
      s.registry.inner.map identity = [(2, "a")] ∧
      (s.registry.metrics.get? "a").map (·.totalSamples) = some 1 ∧
      (s.registry.inner.map (·.name)).Nodup := by
  let server (ref : Nat) : ServerInfo :=
    { ref, name := "a", proto := .dnsCrypt, initialRtt := 10, noFilter := true, dnssec := true,
      relayName := none, odohTargetConfigs := 0, rtt := .startingAt 10, lastActionTS := none,
      lastDecayTS := none, lastUpdateTime := none, totalQueries := 0, failedQueries := 0 }
  let start : RegistryState :=
    { registry := { inner := [], metrics := .empty, metricsWindow := metricsWindow,
                    lbStrategy := .wp2, lbEstimator := true }
      fetching := fun _ => none }
  let ops : List RegistryOp :=
    [.beginRefresh 1 "a", .beginRefresh 2 "a", .publish 1 (server 1),
      .observeOutcome Second (5 * Second) Millisecond false "a" .zero,
      .publish 2 (server 2)]
  have hRun : (registryMachine.exec start ops).map (fun s =>
      (s.registry.inner.map identity,
        (s.registry.metrics.get? "a").map (·.totalSamples))) = some ([(2, "a")], some 1) := by
    decide +kernel
  obtain ⟨s, hExec, hView⟩ := Option.map_eq_some_iff.mp hRun
  obtain ⟨hInner, hSamples⟩ := Prod.mk.inj hView
  have hs : registryMachine.Reach anyStep s :=
    .exec (fun _ _ _ => trivial) (.init ⟨rfl, rfl, rfl⟩) hExec
  exact ⟨s, hs, hInner, hSamples, (registry_sound hs).1⟩

end DnscryptProxy
