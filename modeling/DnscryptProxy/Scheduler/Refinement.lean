import DnscryptProxy.Scheduler.Breaker
import DnscryptProxy.Scheduler.Dormant

/-!
# From the registry to the scheduler

Three levels of one design. In `Registry` the metric stores are objects;
`ServersInfo`, which the query path works with, has them by value, and the MDS
strategy; `mdsMachine` is the scheduler alone, with any candidates and any sample
counts.

* `registry_simulates` — a run of the registry with the MDS strategy computes what
  `ServersInfo` computes, and selects the same servers;
* `registry_runs_scheduler` — its scheduler makes a run of `mdsMachine` in which
  the sample counts increase;
* `open_breakers_warm` — so a resolver without the samples of the warm-up has no
  open breaker.
-/

namespace DnscryptProxy

open Base List Function ServersInfo LBStrategyMDS Option

/-! ## The levels -/

/-- The registry with the stores by value, if it runs the MDS strategy. -/
def Registry.view (r : Registry) : Option ServersInfo :=
  match r.lbStrategy with
  | .mds mds =>
    some { inner := r.inner, metrics := r.metrics.get?, metricsWindow := r.metricsWindow, mds }
  | _ => none

/-- What a critical section does to the value. With the MDS strategy all servers are
active, which leaves the estimator nothing to do. -/
def ServersInfo.follow (si : ServersInfo) : RegistryOp → ServersInfo
  | .publish _ server => si.publish server
  | .sortInitial =>
    { si with inner := si.inner.mergeSort fun a b => decide (a.initialRtt ≤ b.initialRtt) }
  | .sortByRtt => { si with inner := sortByRtt si.inner }
  | .recoverDormantServers now => { si with inner := recoverDormantServers now si.inner }
  | .getOne now draws => (si.getOne now draws.draw draws.pickDraw).1
  | .noticeBegin ref now => si.noticeBegin ref now
  | .metricsFor name =>
    { si with metrics := update si.metrics name (some (si.metricsForLocked name)) }
  | .observeOutcome now timeout elapsed dropped name o =>
    si.recordOutcome now timeout elapsed dropped name o
  | .beginRefresh .. | .fetchFailed _ | .estimatorUpdate .. => si

/-- When an operation calls the scheduler, if it does. -/
def RegistryOp.calledAt : RegistryOp → Option Time
  | .getOne now _ | .observeOutcome now .. => some now
  | _ => none

/-- `m` has the same scheduler, and no sample count of it is ahead of the stores. -/
structure ServersInfo.Schedules (si : ServersInfo) (m : MdsState) : Prop where
  mds : si.mds = m.mds
  totals : ∀ name, ∀ f ∈ m.history name, f.total ≤ (si.metricsForLocked name).totalSamples

/-! ## The registry by value -/

namespace Registry

variable {r : Registry} {si : ServersInfo}

theorem view_eq_some_iff : r.view = some si ↔
    r.lbStrategy = .mds si.mds ∧ r.inner = si.inner ∧ r.metrics.get? = si.metrics ∧
      r.metricsWindow = si.metricsWindow := by
  unfold view
  constructor
  · intro h
    split at h <;> cases h
    next hMds => exact ⟨hMds, rfl, rfl, rfl⟩
  · rintro ⟨hMds, hInner, hMetrics, hWindow⟩
    rw [hMds, hInner, hMetrics, hWindow]

theorem view_metricsForLocked (h : r.view = some si) (name : String) :
    (r.metricsForLocked name).view =
      some { si with metrics := update si.metrics name (some (si.metricsForLocked name)) } := by
  obtain ⟨hMds, hInner, hMetrics, hWindow⟩ := view_eq_some_iff.mp h
  refine view_eq_some_iff.mpr ⟨hMds, hInner, funext fun l => ?_, hWindow⟩
  show (r.metrics.ensure name _).get? l = update si.metrics name _ l
  rw [Bindings.get?_ensure, update_apply, ServersInfo.metricsForLocked, hMetrics, hWindow]

theorem view_recordOutcome (h : r.view = some si) (now : Time) (timeout elapsed : Duration)
    (dropped : Bool) (name : String) (o : ExchangeOutcome) :
    (r.recordOutcome now timeout elapsed dropped name o).view =
      some (si.recordOutcome now timeout elapsed dropped name o) := by
  obtain ⟨hMds, hInner, hMetrics, hWindow⟩ := view_eq_some_iff.mp h
  have hStore : ∀ l, ((r.metricsForLocked name).metrics.modify name (·.observe now o)).get? l =
      update si.metrics name (some ((si.metricsForLocked name).observe now o)) l := by
    intro l
    rw [Bindings.get?_modify, metricsForLocked, Bindings.get?_ensure, Bindings.get?_ensure,
      update_apply, ServersInfo.metricsForLocked, hMetrics, hWindow]
    by_cases hEq : l = name
    · simp [hEq]
    · simp [hEq]
  refine view_eq_some_iff.mpr ⟨?_, congrArg _ hInner, funext hStore, hWindow⟩
  have hTotal := hStore name
  rw [update_self] at hTotal
  simp only [recordOutcome, hMds, hTotal, map_some, getD_some]
  rfl

theorem candidatesLocked_view (h : r.view = some si) :
    r.candidatesLocked = si.candidatesLocked := by
  obtain ⟨-, hInner, hMetrics, hWindow⟩ := view_eq_some_iff.mp h
  rw [candidatesLocked, ServersInfo.candidatesLocked, hInner]
  refine map_congr_left fun s _ => ?_
  rw [ServersInfo.metricsForLocked, hMetrics, hWindow]

theorem view_selectAdvanced (h : r.view = some si) (hNames : (r.inner.map (·.name)).Nodup)
    (now : Time) (draws : SelectionDraws) :
    let picked := si.mds.selectCandidateLocked now draws.draw draws.pickDraw si.candidatesLocked
    (r.selectAdvanced si.mds now draws).1.view =
        some { si with metrics := si.advanceMetrics now, mds := picked.1 } ∧
      (r.selectAdvanced si.mds now draws).2 =
        (si.serverByNameLocked ((si.candidatesLocked[picked.2]?.map (·.server.name)).getD "")).or
          si.inner.head? := by
  obtain ⟨-, hInner, hMetrics, hWindow⟩ := view_eq_some_iff.mp h
  dsimp only [selectAdvanced]
  rw [candidatesLocked_view h]
  refine ⟨view_eq_some_iff.mpr ⟨rfl, hInner, funext fun name => ?_, hWindow⟩, ?_⟩
  · -- every live store turns its epochs once, as the names are distinct
    show (if 2 ≤ r.inner.length then _ else r.metrics).get? name = si.advanceMetrics now name
    rw [advanceMetrics, ← hInner, ← hMetrics]
    by_cases hTwo : 2 ≤ r.inner.length
    · rw [if_pos hTwo, Bindings.get?_modifyAll hNames]
      simp only [hTwo, true_and]
    · simp only [hTwo, false_and, if_false]
  · rw [serverByNameLocked, hInner]

theorem view_getOne (h : r.view = some si) (hInv : r.Inv) (now : Time) (draws : SelectionDraws) :
    (r.getOne now draws).1.view = some (si.getOne now draws.draw draws.pickDraw).1 ∧
      (r.getOne now draws).2 = (si.getOne now draws.draw draws.pickDraw).2 := by
  obtain ⟨hMds, hInner, hMetrics, hWindow⟩ := view_eq_some_iff.mp h
  unfold getOne ServersInfo.getOne
  rw [← hInner]
  split
  · exact ⟨h, rfl⟩
  · have hNames := (hInv.keeps (r.recoverDormantServers_keeps now)).nodup
    have hView : ({ r with inner := recoverDormantServers now r.inner } : Registry).view =
        some { si with inner := recoverDormantServers now r.inner } :=
      view_eq_some_iff.mpr ⟨hMds, rfl, hMetrics, hWindow⟩
    rw [hMds]
    exact view_selectAdvanced hView hNames now draws

theorem view_step {s s' : RegistryState} {op : RegistryOp} (hInv : s.registry.Inv)
    (h : s.registry.view = some si) (hStep : s.step op = some s') :
    s'.registry.view = some (si.follow op) := by
  obtain ⟨hMds, hInner, hMetrics, hWindow⟩ := view_eq_some_iff.mp h
  have hServers : ∀ f : List ServerInfo → List ServerInfo,
      ({ s.registry with inner := f s.registry.inner } : Registry).view =
        some { si with inner := f si.inner } :=
    fun f => view_eq_some_iff.mpr ⟨hMds, congrArg f hInner, hMetrics, hWindow⟩
  cases op with
  | beginRefresh call name =>
    obtain ⟨-, ⟨⟩⟩ := ite_none_right_eq_some.mp hStep
    exact h
  | fetchFailed call =>
    obtain ⟨-, ⟨⟩⟩ := ite_none_left_eq_some.mp hStep
    exact h
  | publish call server =>
    simp only [RegistryState.step] at hStep
    split at hStep
    · cases hStep
    · obtain ⟨-, ⟨⟩⟩ := ite_none_right_eq_some.mp hStep
      exact view_metricsForLocked (hServers (replaceOrAppend _)) server.name
  | estimatorUpdate currentActive draw =>
    cases hStep
    have hAll : s.registry.lbStrategy.getActiveCount s.registry.inner.length =
        s.registry.inner.length := by rw [hMds]; rfl
    exact (congrArg view (if_pos hAll)).trans h
  | sortInitial =>
    cases hStep
    exact hServers (mergeSort · _)
  | sortByRtt =>
    cases hStep
    exact hServers sortByRtt
  | recoverDormantServers now =>
    cases hStep
    exact hServers (recoverDormantServers now)
  | noticeBegin ref now =>
    cases hStep
    exact hServers (map _)
  | getOne now draws =>
    cases hStep
    exact (view_getOne h hInv now draws).1
  | metricsFor name =>
    cases hStep
    exact view_metricsForLocked h name
  | observeOutcome now timeout elapsed dropped name o =>
    cases hStep
    exact view_recordOutcome h now timeout elapsed dropped name o

theorem view_exec {ops : List RegistryOp} : ∀ {s s' : RegistryState} {si : ServersInfo},
    s.registry.Inv → s.registry.view = some si → registryMachine.exec s ops = some s' →
      s'.registry.Inv ∧ s'.registry.view = some (ops.foldl follow si) := by
  induction ops with
  | nil =>
    rintro s s' si hInv h ⟨⟩
    exact ⟨hInv, h⟩
  | cons op ops ih =>
    intro s s' si hInv h hExec
    obtain ⟨t, hNext, hRest⟩ := bind_eq_some_iff.mp hExec
    exact ih ((registryStep_of_step hNext).inv hInv) (view_step hInv h hNext) hRest

end Registry

/-- From every reachable state on, a run of the registry leaves the value that
`ServersInfo` computes, and a selection then returns the same server. -/
theorem registry_simulates {s s' : RegistryState} {si : ServersInfo} {ops : List RegistryOp}
    (hs : registryMachine.Reach Machine.anyStep s) (h : s.registry.view = some si)
    (hExec : registryMachine.exec s ops = some s') :
    s'.registry.view = some (ops.foldl follow si) ∧ ∀ now draws, (s'.registry.getOne now draws).2 =
        ((ops.foldl follow si).getOne now draws.draw draws.pickDraw).2 := by
  obtain ⟨hInv, hView⟩ := Registry.view_exec (.of_reach hs) h hExec
  exact ⟨hView, fun now draws => (Registry.view_getOne hView hInv now draws).2⟩

/-- A registry that has not been used yet. -/
def mdsRegistry : RegistryState :=
  { registry := { inner := [], metrics := .empty, metricsWindow := metricsWindow
                  lbStrategy := .mds (newLBStrategyMDS touchyParams), lbEstimator := true }
    fetching := fun _ => none }

/-- A server is published, and the first query to it times out. -/
def timeoutRun : List RegistryOp :=
  [.beginRefresh 1 "a", .publish 1 (idleServer "a" 10), .getOne Second ⟨1, 0, 0, 0, 0, 0, 0⟩,
    .observeOutcome (2 * Second) (5 * Second) (5 * Second) false "a" timeoutOutcome]

theorem timeoutRun_isSome : (registryMachine.exec mdsRegistry timeoutRun).isSome = true := rfl

theorem registry_simulates_timeout : ∃ s', registryMachine.exec mdsRegistry timeoutRun = some s' ∧
    s'.registry.view = some (timeoutRun.foldl follow (newServersInfo touchyParams metricsWindow)) :=
  ⟨_, (some_get timeoutRun_isSome).symm, (registry_simulates (.init ⟨rfl, rfl, rfl⟩) rfl
    (some_get timeoutRun_isSome).symm).1⟩

/-! ## The scheduler of the registry -/

/-- A selection reads the clock once. -/
theorem selectAt_now (mds : LBStrategyMDS) (now : Time) (draw : ℚ) (pickDraw : Nat)
    (cs : List ResolverCandidate) :
    mds.selectAt now now draw pickDraw cs = mds.selectCandidateLocked now draw pickDraw cs := by
  have hBecome : ∀ name, (mds.becomePrimary now name).primaryName = mds.primaryName ∨
      (mds.becomePrimary now name).primarySince = now := by
    intro name
    unfold becomePrimary
    split
    · exact .inl rfl
    · exact .inr rfl
  have hSince : (mds.selectCandidateLocked now draw pickDraw cs).1.primaryName = mds.primaryName ∨
      (mds.selectCandidateLocked now draw pickDraw cs).1.primarySince = now := by
    match cs with
    | [] => exact .inl rfl
    | [c] => exact hBecome c.server.name
    | c :: c' :: rest =>
      have hTwo : 2 ≤ (c :: c' :: rest).length := Nat.le_add_left 2 rest.length
      have hPath : SelectionPath mds now draw pickDraw _ _ := selectCandidateLocked_path hTwo
      generalize mds.selectCandidateLocked now draw pickDraw (c :: c' :: rest) = r at hPath
      -- only `becomePrimary` reads the clock again
      cases hPath with
      | switch | best | lastResort => exact hBecome _
      | _ => exact .inl rfl
  unfold selectAt
  generalize mds.selectCandidateLocked now draw pickDraw cs = r at hSince
  dsimp only
  split
  · rfl
  · next hNe =>
    obtain rfl := hSince.resolve_left hNe
    rfl

namespace ServersInfo

/-- No operation loses a sample. -/
theorem follow_samples (si : ServersInfo) (op : RegistryOp) (name : String) :
    (si.metricsForLocked name).totalSamples ≤
      ((si.follow op).metricsForLocked name).totalSamples := by
  have hUpdate : ∀ l (store : ResolverMetrics),
      (si.metricsForLocked l).totalSamples ≤ store.totalSamples →
      (si.metricsForLocked name).totalSamples ≤ ((update si.metrics l (some store) name).getD
        (newResolverMetricsWithWindow si.metricsWindow)).totalSamples := by
    intro l store hLe
    rw [update_apply]
    split
    · next hEq => exact hEq ▸ hLe
    · exact le_refl _
  cases op with
  | publish call server => exact hUpdate server.name _ (le_refl _)
  | metricsFor l => exact hUpdate l _ (le_refl _)
  | observeOutcome now _ _ _ l o => exact hUpdate l _ (SamplesKept.observe now o _)
  | getOne now draws =>
    simp only [follow, getOne]
    split
    · exact le_refl _
    · simp only [metricsForLocked, advanceMetrics]
      cases si.metrics name with
      | none => simp
      | some store =>
        split
        · exact SamplesKept.advance now store
        · exact le_refl _
  | _ => exact le_refl _

variable {params : MDSParams} {si : ServersInfo} {m : MdsState} {op : RegistryOp}

/-- An operation is a step of the scheduler, or none. -/
theorem Schedules.follow (h : si.Schedules m) (hm : (mdsMachine params).Reach IncreasingTotals m)
    (hClock : ∀ now ∈ op.calledAt, m.clock ≤ now) :
    ∃ m', (mdsMachine params).Reach IncreasingTotals m' ∧ (si.follow op).Schedules m' ∧
      (m'.clock = m.clock ∨ m'.clock ∈ op.calledAt) := by
  have hTotals : ∀ name, ∀ f ∈ m.history name,
      f.total ≤ ((si.follow op).metricsForLocked name).totalSamples :=
    fun name f hf => (h.totals name f hf).trans (si.follow_samples op name)
  cases op with
  | getOne now draws =>
    by_cases hNone : si.inner.length ≤ 0
    · refine ⟨m, hm, ⟨?_, hTotals⟩, .inl rfl⟩
      simp only [ServersInfo.follow, getOne, if_pos hNone, h.mds]
    · have hStep : (mdsMachine params).step m (.select now now draws.draw draws.pickDraw
          { si with inner := recoverDormantServers now si.inner }.candidatesLocked) = some _ :=
        mdsMachine_step_select.mpr ⟨⟨hClock now rfl, le_refl now⟩, rfl⟩
      refine ⟨_, .step hm ?_ hStep, ⟨?_, hTotals⟩, .inr rfl⟩
      · trivial
      · simp only [ServersInfo.follow, getOne, if_neg hNone, h.mds]
        exact congrArg Prod.fst (selectAt_now ..).symm
  | observeOutcome now timeout elapsed dropped name o =>
    -- the count that comes with the feedback includes this sample, so it is a new one
    have hNext : ((si.metricsForLocked name).observe now o).totalSamples =
        (si.metricsForLocked name).totalSamples + 1 :=
      congrArg (· + 1) ((si.metricsForLocked name).advance_totalSamples now)
    have hStep : (mdsMachine params).step m (.feedback now name o
        ((si.metricsForLocked name).observe now o).totalSamples) = some _ :=
      mdsMachine_step_feedback.mpr ⟨hClock now rfl, rfl⟩
    refine ⟨_, .step hm ?_ hStep, ⟨?_, fun l f hf => ?_⟩, .inr rfl⟩
    · intro f hf
      rw [hNext]
      exact Nat.lt_succ_of_le (h.totals name f hf)
    · simp only [ServersInfo.follow, recordOutcome, h.mds]
      rfl
    · change f ∈ update m.history name _ l at hf
      rw [update_apply] at hf
      split at hf
      · next hEq =>
        subst hEq
        rcases mem_cons.mp hf with rfl | hOld
        · show _ ≤ ((update si.metrics l (some _) l).getD _).totalSamples
          rw [update_self]
          exact le_refl _
        · exact hTotals l f hOld
      · exact hTotals l f hf
  | _ => exact ⟨m, hm, ⟨h.mds, hTotals⟩, .inl rfl⟩

theorem Schedules.run {ops : List RegistryOp} : ∀ {si : ServersInfo} {m : MdsState},
    si.Schedules m → (mdsMachine params).Reach IncreasingTotals m →
    (m.clock :: ops.filterMap RegistryOp.calledAt).Pairwise (· ≤ ·) →
      ∃ m', (mdsMachine params).Reach IncreasingTotals m' ∧
        (ops.foldl ServersInfo.follow si).Schedules m' := by
  induction ops with
  | nil => exact fun h hm _ => ⟨_, hm, h⟩
  | cons op ops ih =>
    intro si m h hm hClock
    obtain ⟨hFirst, hLater⟩ := pairwise_cons.mp hClock
    have hSub := (ops.sublist_cons_self op).filterMap RegistryOp.calledAt
    obtain ⟨m', hm', h', hNow⟩ := h.follow hm fun now hNow =>
      hFirst now (mem_filterMap.mpr ⟨op, mem_cons_self, hNow⟩)
    refine ih h' hm' (pairwise_cons.mpr ⟨fun t ht => ?_, hLater.sublist hSub⟩)
    -- the clock of the scheduler is that of its last call, and later calls are later
    rcases hNow with hSame | hNow
    · exact hSame ▸ hFirst t (hSub.subset ht)
    · rw [filterMap_cons, hNow] at hLater
      exact (pairwise_cons.mp hLater).1 t ht

end ServersInfo

section Created

variable {params : MDSParams} {s s' : RegistryState} (start : Time) {ops : List RegistryOp}
variable (hInit : registryMachine.init s)
variable (hMds : s.registry.lbStrategy = .mds (newLBStrategyMDS params))
variable (hClock : (start :: ops.filterMap RegistryOp.calledAt).Pairwise (· ≤ ·))
variable (hExec : registryMachine.exec s ops = some s')
include hInit hMds hClock hExec

theorem Registry.exists_schedules : ∃ si m, s'.registry.view = some si ∧
    (mdsMachine params).Reach IncreasingTotals m ∧ si.Schedules m := by
  obtain ⟨si, hView, hNew⟩ :
      ∃ si, s.registry.view = some si ∧ si.mds = newLBStrategyMDS params := by
    unfold Registry.view
    rw [hMds]
    exact ⟨_, rfl, rfl⟩
  obtain ⟨m, hm, h⟩ := Schedules.run (m := { newMdsState params with clock := start })
    ⟨hNew, fun _ _ hf => nomatch hf⟩ (.init ⟨rfl, rfl, rfl⟩) hClock
  exact ⟨_, m, (view_exec (.of_reach (.init hInit)) hView hExec).2, hm, h⟩

/-- With a clock that does not go backwards, every run of the registry from its
creation on is, for its scheduler, a run in which the sample counts increase. -/
theorem registry_runs_scheduler : ∃ m, (mdsMachine params).Reach IncreasingTotals m ∧
    s'.registry.lbStrategy = .mds m.mds := by
  obtain ⟨si, m, hView, hm, h⟩ := Registry.exists_schedules start hInit hMds hClock hExec
  exact ⟨m, hm, (Registry.view_eq_some_iff.mp hView).1.trans (congrArg _ h.mds)⟩

/-- Then a breaker is only open for a resolver whose store has the samples of the
warm-up: a new resolver is never left out for its failures. -/
theorem open_breakers_warm (hThreshold : params.breakerThreshold < 2 ^ 32) {si : ServersInfo}
    (hView : s'.registry.view = some si) {name : String} (hOpen : si.mds.isOpen name = true) :
    params.warmupSamples ≤ (si.metricsForLocked name).totalSamples := by
  obtain ⟨_, m, hView', hm, h⟩ := Registry.exists_schedules start hInit hMds hClock hExec
  cases hView.symm.trans hView'
  rw [h.mds, isOpen_eq_circuitFor] at hOpen
  obtain ⟨f, hf, hWarm⟩ := ((breakerInv_of_reach hThreshold hm name).opened hOpen).2
  exact hWarm.trans (h.totals name f hf)

end Created

theorem registry_runs_scheduler_timeout : ∃ m s',
    registryMachine.exec mdsRegistry timeoutRun = some s' ∧
      (mdsMachine touchyParams).Reach IncreasingTotals m ∧ s'.registry.lbStrategy = .mds m.mds := by
  have hExec := (some_get timeoutRun_isSome).symm
  obtain ⟨m, hm, h⟩ := registry_runs_scheduler 0 ⟨rfl, rfl, rfl⟩ rfl (by decide) hExec
  exact ⟨m, _, hExec, hm, h⟩

/-- The timeout opens the breaker. -/
theorem open_breakers_warm_timeout :
    let si := timeoutRun.foldl follow (newServersInfo touchyParams metricsWindow)
    si.mds.isOpen "a" = true ∧ 1 ≤ (si.metricsForLocked "a").totalSamples := by
  have hOpen : (timeoutRun.foldl follow (newServersInfo touchyParams metricsWindow)).mds.isOpen
      "a" = true := rfl
  have hExec := (some_get timeoutRun_isSome).symm
  have hView := (Registry.view_exec (.of_reach (.init ⟨rfl, rfl, rfl⟩)) rfl hExec).2
  exact ⟨hOpen, open_breakers_warm 0 ⟨rfl, rfl, rfl⟩ rfl (by decide) hExec (by decide) hView hOpen⟩

end DnscryptProxy
