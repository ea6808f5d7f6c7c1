import DnscryptProxy.Scheduler.Breaker

/-!
# Cold start

As long as no resolver has `warmupSamples` samples, the scheduler must not react
to outcomes. The proof goes through a scheduler that knows the stamps and the
initial round trips only: `PriorState` sees the selections of a run and none of
its outcomes. While the resolvers are warming, the scheduler selects what that
one selects.

* `selectCandidateLocked_of_warming` — a selection among warming resolvers reads
  their priors alone;
* `Warming.run` — a cold run selects what the scheduler without outcomes selects;
* `cold_start_noninterference` — hence two cold runs with the same selections agree,
  whatever the outcomes, and no breaker opens.
-/

namespace DnscryptProxy

open Function LBStrategyMDS List

/-! ## Scheduling by priors -/

/-- The score of a warming resolver before normalization. -/
def priorScore (server : ServerProps) : MdsScored :=
  { name := server.name, warming := true, «open» := false, tailMs := server.initialRtt, cost := 0
    penalty := 0, base := 0
    soft := (if server.noFilter then 1 else 0) + if server.dnssec then 1 else 0 }

def priorScores (servers : List ServerProps) : List MdsScored :=
  let raw := servers.map priorScore
  let tails := raw.map (·.tailMs)
  raw.map (normalize (bestTail tails) (worstTail tails))

namespace LBStrategyMDS

/-- A selection that knows the priors alone: without outcomes nobody is probed. -/
def selectByPriors (mds : LBStrategyMDS) (now : Time) (draw : ℚ) (pickDraw : Nat) :
    List ServerProps → LBStrategyMDS × Nat
  | [] => (mds, 0)
  | [server] => (mds.becomePrimary now server.name, 0)
  | servers =>
    let scored := priorScores servers
    let explore :=
      if draw < mds.params.exploreProb then
        pickExploreTarget scored (mds.primaryIdx scored) pickDraw
      else none
    match explore with
    | some exploreIdx => (mds, exploreIdx)
    | none => mds.selectPrimary now scored (mds.primaryIdx scored)

variable {mds : LBStrategyMDS} {now : Time} {draw : ℚ} {pickDraw : Nat}

/-- No breaker is open, and none is on probation. -/
def AllClosed (mds : LBStrategyMDS) : Prop :=
  ∀ name cb, mds.circuits name = some cb → cb.open = false ∧ cb.recoverUntilTotal = 0

theorem AllClosed.isOpen (h : mds.AllClosed) (name : String) : mds.isOpen name = false := by
  unfold LBStrategyMDS.isOpen
  cases hCb : mds.circuits name with
  | none => rfl
  | some cb => exact (h name cb hCb).1

theorem AllClosed.circuitFor (h : mds.AllClosed) (name : String) :
    (mds.circuitFor name).open = false ∧ (mds.circuitFor name).recoverUntilTotal = 0 := by
  unfold LBStrategyMDS.circuitFor
  cases hCb : mds.circuits name with
  | none => exact ⟨rfl, rfl⟩
  | some cb => exact h name cb hCb

theorem scoreOne_of_warming (hClosed : mds.AllClosed) {c : ResolverCandidate}
    (hCold : c.metrics.totalSamples < mds.params.warmupSamples) :
    mds.scoreOne now c = priorScore c.server := by
  have hTotal : (c.metrics.snapshot now).totalSamples = c.metrics.totalSamples :=
    c.metrics.advance_totalSamples now
  have hWarming : mds.isWarmingLocked c.server.name (c.metrics.snapshot now).totalSamples
      mds.params.warmupSamples = true := by
    rw [hTotal]
    exact if_pos hCold
  unfold scoreOne
  simp [hWarming, hClosed.isOpen, priorScore, tailMs, penalty, softPreference]

theorem scoreAll_of_warming (hClosed : mds.AllClosed) {cs : List ResolverCandidate}
    (hCold : ∀ c ∈ cs, c.metrics.totalSamples < mds.params.warmupSamples) :
    mds.scoreAll now cs = priorScores (cs.map (·.server)) := by
  have hRaw : cs.map (mds.scoreOne now) = (cs.map (·.server)).map priorScore := by
    rw [map_map]
    exact map_congr_left fun c hc => scoreOne_of_warming hClosed (hCold c hc)
  unfold scoreAll priorScores
  rw [hRaw]

theorem pickHalfOpenProbe_of_closed (hClosed : mds.AllClosed) (cs : List ResolverCandidate) :
    mds.pickHalfOpenProbe now (mds.scoreAll now cs) = none := by
  cases hPick : mds.pickHalfOpenProbe now (mds.scoreAll now cs) with
  | none => rfl
  | some i =>
    obtain ⟨s, hs, hOpen, -⟩ := pickHalfOpenProbe_some hPick
    obtain ⟨c, -, -, hIsOpen⟩ := scoreAll_some hs
    rw [hIsOpen, hClosed.isOpen] at hOpen
    cases hOpen

theorem selectCandidateLocked_of_warming (hClosed : mds.AllClosed) {cs : List ResolverCandidate}
    (hCold : ∀ c ∈ cs, c.metrics.totalSamples < mds.params.warmupSamples) :
    mds.selectCandidateLocked now draw pickDraw cs =
      mds.selectByPriors now draw pickDraw (cs.map (·.server)) := by
  have hProbe : mds.pickHalfOpenProbe now (mds.scoreAll now cs) = none :=
    pickHalfOpenProbe_of_closed hClosed cs
  have hScores : mds.scoreAll now cs = priorScores (cs.map (·.server)) :=
    scoreAll_of_warming hClosed hCold
  unfold selectCandidateLocked
  match cs, hProbe, hScores with
  | [], _, _ => rfl
  | [c], _, _ => rfl
  | c₁ :: c₂ :: rest, hProbe, hScores =>
    dsimp only
    rw [hProbe, hScores]
    rfl

/-! ### Breakers do not matter to what is left -/

/-- The scheduler with other breakers. -/
def withCircuits (mds : LBStrategyMDS) (circuits : String → Option MdsCircuit) : LBStrategyMDS :=
  { mds with circuits := circuits }

variable (circuits : String → Option MdsCircuit)

theorem bestHealthyFrom_withCircuits (exclude : Option Nat) (scored : List MdsScored) :
    ∀ i best, (mds.withCircuits circuits).bestHealthyFrom exclude i best scored =
      mds.bestHealthyFrom exclude i best scored := by
  induction scored with
  | nil =>
    intro i best
    rfl
  | cons s rest ih =>
    intro i best
    unfold bestHealthyFrom
    simp only [ih]
    rfl

theorem bestOfAllFrom_withCircuits (scored : List MdsScored) :
    ∀ i best, (mds.withCircuits circuits).bestOfAllFrom i best scored =
      mds.bestOfAllFrom i best scored := by
  induction scored with
  | nil =>
    intro i best
    rfl
  | cons s rest ih =>
    intro i best
    unfold bestOfAllFrom
    simp only [ih]
    rfl

theorem becomePrimary_withCircuits (name : String) :
    (mds.withCircuits circuits).becomePrimary now name =
      (mds.becomePrimary now name).withCircuits circuits := by
  unfold becomePrimary
  by_cases hSame : mds.primaryName = name
  · rw [if_pos hSame, if_pos (show (mds.withCircuits circuits).primaryName = name from hSame)]
  · rw [if_neg hSame, if_neg (show ¬(mds.withCircuits circuits).primaryName = name from hSame)]
    rfl

/-- The result of a selection, with other breakers. -/
def resultWith (r : LBStrategyMDS × Nat) : LBStrategyMDS × Nat := (r.1.withCircuits circuits, r.2)

theorem selectBest_withCircuits (scored : List MdsScored) :
    (mds.withCircuits circuits).selectBest now scored =
      resultWith circuits (mds.selectBest now scored) := by
  unfold selectBest bestHealthy
  rw [bestHealthyFrom_withCircuits]
  split
  · exact Prod.ext (becomePrimary_withCircuits circuits _) rfl
  · split
    · rfl
    · dsimp only
      rw [bestOfAllFrom_withCircuits]
      exact Prod.ext (becomePrimary_withCircuits circuits _) rfl

theorem selectPrimary_withCircuits (scored : List MdsScored) (idx : Option Nat) :
    (mds.withCircuits circuits).selectPrimary now scored idx =
      resultWith circuits (mds.selectPrimary now scored idx) := by
  unfold selectPrimary
  split
  · exact selectBest_withCircuits circuits scored
  · split
    · exact selectBest_withCircuits circuits scored
    · unfold bestHealthy
      rw [bestHealthyFrom_withCircuits]
      split
      · rfl
      -- the challenge compares scores, and scores do not change with the breakers
      · show (if now - mds.primarySince < mds.params.dwell then _ else
          if mds.params.switchMargin ≤ _ ∧ mds.better _ _ = true then _ else _) = _
        split
        · rfl
        · split
          · exact Prod.ext (becomePrimary_withCircuits circuits _) rfl
          · rfl

theorem selectByPriors_withCircuits (servers : List ServerProps) :
    (mds.withCircuits circuits).selectByPriors now draw pickDraw servers =
      resultWith circuits (mds.selectByPriors now draw pickDraw servers) := by
  unfold selectByPriors
  match servers with
  | [] => rfl
  | [server] => exact Prod.ext (becomePrimary_withCircuits circuits _) rfl
  | _ :: _ :: _ =>
    have hParams : (mds.withCircuits circuits).params = mds.params := rfl
    have hIdx : (mds.withCircuits circuits).primaryIdx = mds.primaryIdx := rfl
    dsimp only
    rw [hParams, hIdx]
    split
    · rfl
    · exact selectPrimary_withCircuits circuits _ _

end LBStrategyMDS

/-! ## Runs with outcomes -/

/-- The scheduler with the metric stores of its resolvers. -/
structure PoolState where
  mds : LBStrategyMDS
  metrics : String → ResolverMetrics
  /-- what the selections returned, the most recent one first -/
  selected : List (Option ServerProps)

inductive PoolOp where
  /-- a selection; `since` is the second clock reading of `becomePrimary` -/
  | select (now since : Time) (draw : ℚ) (pickDraw : Nat) (servers : List ServerProps)
  /-- an outcome, digested by the metrics at `observedAt` and by the breaker at `now` -/
  | outcome (observedAt now : Time) (name : String) (o : ExchangeOutcome)

namespace PoolOp

def isSelect : PoolOp → Bool
  | .select .. => true
  | .outcome .. => false

end PoolOp

namespace PoolState

variable (s : PoolState)

def candidates (servers : List ServerProps) : List ResolverCandidate :=
  servers.map fun server => { server := server, metrics := s.metrics server.name }

/-- Scoring turns the epochs of the stores it reads. -/
def advanced (now : Time) (servers : List ServerProps) : String → ResolverMetrics := fun name =>
  if 2 ≤ servers.length ∧ name ∈ servers.map (·.name) then (s.metrics name).advance now
  else s.metrics name

def apply : PoolOp → PoolState
  | .select now since draw pickDraw servers =>
    let r := s.mds.selectAt now since draw pickDraw (s.candidates servers)
    { mds := r.1, metrics := s.advanced now servers, selected := servers[r.2]? :: s.selected }
  | .outcome observedAt now name o =>
    let m := (s.metrics name).observe observedAt o
    { s with
      mds := s.mds.observeFeedbackLocked now name o m.totalSamples
      metrics := update s.metrics name m }

def run (ops : List PoolOp) : PoolState := ops.foldl apply s

end PoolState

/-- A pool whose resolvers have no samples. -/
def newPoolState (params : MDSParams) (window : Duration) : PoolState :=
  { mds := newLBStrategyMDS params, metrics := fun _ => newResolverMetricsWithWindow window
    selected := [] }

/-- The scheduler without outcomes. -/
structure PriorState where
  mds : LBStrategyMDS
  selected : List (Option ServerProps)

namespace PriorState

/-- It sees the selections of a run only. -/
def apply (p : PriorState) : PoolOp → PriorState
  | .select now since draw pickDraw servers =>
    let r := p.mds.selectByPriors now draw pickDraw servers
    let mds' := if r.1.primaryName = p.mds.primaryName then r.1
      else { r.1 with primarySince := since }
    { mds := mds', selected := servers[r.2]? :: p.selected }
  | .outcome .. => p

def run (p : PriorState) (ops : List PoolOp) : PriorState := ops.foldl apply p

theorem run_filter_isSelect (ops : List PoolOp) :
    ∀ p : PriorState, p.run (ops.filter PoolOp.isSelect) = p.run ops := by
  induction ops with
  | nil =>
    intro p
    rfl
  | cons op ops ih =>
    intro p
    cases op with
    | select now since draw pickDraw servers => exact ih (p.apply _)
    | outcome observedAt now name o => exact ih p

end PriorState

/-! ## Cold runs -/

/-- No outcome matters yet: the breakers are closed, and but for them the
scheduler is the one without outcomes. -/
structure Warming (params : MDSParams) (s : PoolState) (p : PriorState) : Prop where
  params : s.mds.params = params
  closed : s.mds.AllClosed
  scheduler : s.mds = p.mds.withCircuits s.mds.circuits
  selected : s.selected = p.selected

namespace PoolState

variable {s : PoolState}

@[simp] theorem advanced_totalSamples (now : Time) (servers : List ServerProps) (name : String) :
    (s.advanced now servers name).totalSamples = (s.metrics name).totalSamples := by
  unfold advanced
  split
  · exact ResolverMetrics.advance_totalSamples _ _
  · rfl

theorem totalSamples_le_apply (op : PoolOp) (name : String) :
    (s.metrics name).totalSamples ≤ ((s.apply op).metrics name).totalSamples := by
  cases op with
  | select now since draw pickDraw servers =>
    show _ ≤ (s.advanced now servers name).totalSamples
    rw [advanced_totalSamples]
  | outcome observedAt now m o =>
    show _ ≤ (update s.metrics m ((s.metrics m).observe observedAt o) name).totalSamples
    by_cases hm : name = m
    · subst hm
      rw [update_self, ResolverMetrics.observe_totalSamples]
      exact Nat.le_succ _
    · rw [update_of_ne hm]

theorem totalSamples_le_run (ops : List PoolOp) (name : String) :
    ∀ s : PoolState, (s.metrics name).totalSamples ≤ ((s.run ops).metrics name).totalSamples := by
  induction ops with
  | nil =>
    intro s
    exact le_refl _
  | cons op ops ih =>
    intro s
    exact (s.totalSamples_le_apply op name).trans (ih (s.apply op))

end PoolState

namespace Warming

variable {params : MDSParams} {s : PoolState} {p : PriorState}

theorem select (h : Warming params s p)
    (hCold : ∀ name, (s.metrics name).totalSamples < params.warmupSamples) (now since : Time)
    (draw : ℚ) (pickDraw : Nat) (servers : List ServerProps) :
    Warming params (s.apply (.select now since draw pickDraw servers))
      (p.apply (.select now since draw pickDraw servers)) := by
  -- both select by the priors, from schedulers that differ in the breakers alone
  have hServers : (s.candidates servers).map (·.server) = servers := by
    simp [PoolState.candidates, comp_def]
  have hSelect : s.mds.selectCandidateLocked now draw pickDraw (s.candidates servers) =
      resultWith s.mds.circuits
        (p.mds.selectByPriors now draw pickDraw servers) := by
    rw [selectCandidateLocked_of_warming h.closed ?_, hServers]
    · conv_lhs => rw [h.scheduler]
      exact selectByPriors_withCircuits _ servers
    · intro c hc
      obtain ⟨server, -, rfl⟩ := mem_map.mp hc
      rw [h.params]
      exact hCold server.name
  have hName : s.mds.primaryName = p.mds.primaryName := by
    rw [h.scheduler]
    rfl
  -- the second clock reading goes to the new primary, in both or in none
  have hAt : s.mds.selectAt now since draw pickDraw (s.candidates servers) =
      resultWith s.mds.circuits
        ((p.apply (.select now since draw pickDraw servers)).mds,
          (p.mds.selectByPriors now draw pickDraw servers).2) := by
    unfold selectAt
    rw [hSelect, hName]
    show (if (p.mds.selectByPriors now draw pickDraw servers).1.primaryName = p.mds.primaryName
      then _ else _) = _
    unfold PriorState.apply
    dsimp only
    split
    · rfl
    · rfl
  have hMds : (s.apply (.select now since draw pickDraw servers)).mds =
      (p.apply (.select now since draw pickDraw servers)).mds.withCircuits s.mds.circuits :=
    congrArg Prod.fst hAt
  refine ⟨?_, ?_, ?_, ?_⟩
  · have hParams := s.mds.apply_params (.select now since draw pickDraw (s.candidates servers))
    exact hParams.trans h.params
  · rw [hMds]
    exact h.closed
  · rw [hMds]
    rfl
  · show servers[(s.mds.selectAt now since draw pickDraw (s.candidates servers)).2]? ::
      s.selected = _
    rw [hAt, h.selected]
    rfl

/-- An outcome of a warming resolver changes nothing that a selection reads. -/
theorem outcome (h : Warming params s p) (observedAt now : Time) {name : String}
    (o : ExchangeOutcome)
    (hCold : ((s.metrics name).observe observedAt o).totalSamples < params.warmupSamples) :
    Warming params (s.apply (.outcome observedAt now name o)) p := by
  refine ⟨h.params, ?_, ?_, h.selected⟩
  · intro m cb hCb
    by_cases hm : m = name
    · subst hm
      obtain ⟨hClosed, hZero⟩ := h.closed.circuitFor m
      have hEq := (circuits_observeFeedbackLocked_self o _).symm.trans hCb
      rw [Option.some.injEq] at hEq
      have hStep := MdsCircuit.observe_step s.mds.params now (s.mds.circuitFor m) o.hardFailure
        ((s.metrics m).observe observedAt o).totalSamples
      rw [hEq] at hStep
      rw [← h.params] at hCold
      generalize o.hardFailure = hard at hStep
      -- the breaker stays closed in every branch that is left
      cases hStep with
      | probeFailed hOpen => simp [hClosed] at hOpen
      | endsProbation hOn => omega
      | coldStart => exact ⟨hClosed, hZero⟩
      | opens _ _ hWarm => omega
      | counts _ hWarm => omega
      | closes hOpen => simp [hClosed] at hOpen
      | responds => exact ⟨hClosed, hZero⟩
    · exact h.closed m cb
        ((circuits_observeFeedbackLocked_of_ne hm o _).symm.trans hCb)
  -- an outcome changes the breakers and nothing else of the scheduler
  · exact congrArg (·.withCircuits (s.apply (.outcome observedAt now name o)).mds.circuits)
      h.scheduler

theorem run (ops : List PoolOp) :
    ∀ (s : PoolState) (p : PriorState), Warming params s p →
      (∀ name, ((s.run ops).metrics name).totalSamples < params.warmupSamples) →
      Warming params (s.run ops) (p.run ops) := by
  induction ops with
  | nil =>
    intro s p h _
    exact h
  | cons op ops ih =>
    intro s p h hCold
    -- a run that is cold at its end was cold after its first step
    have hNow : ∀ name, ((s.apply op).metrics name).totalSamples < params.warmupSamples := by
      intro name
      exact lt_of_le_of_lt (PoolState.totalSamples_le_run ops name (s.apply op)) (hCold name)
    refine ih (s.apply op) (p.apply op) ?_ hCold
    cases op with
    | select now since draw pickDraw servers =>
      refine h.select (fun name => ?_) now since draw pickDraw servers
      exact lt_of_le_of_lt (s.totalSamples_le_apply _ name) (hNow name)
    | outcome observedAt now name o =>
      refine h.outcome observedAt now o ?_
      have hTotal := hNow name
      rwa [show ((s.apply (.outcome observedAt now name o)).metrics name) =
        (s.metrics name).observe observedAt o from update_self ..] at hTotal

end Warming

/-- **Cold start.** Two runs of a new pool that make the same selections (times,
draws and candidates), in which no resolver reaches `warmupSamples` samples, select
the same resolvers, whatever outcomes come in between; and no breaker is open at any
point of either run. -/
theorem cold_start_noninterference {params : MDSParams} {window : Duration}
    {ops₁ ops₂ : List PoolOp} (hSame : ops₁.filter PoolOp.isSelect = ops₂.filter PoolOp.isSelect)
    (hCold₁ : ∀ name, (((newPoolState params window).run ops₁).metrics name).totalSamples <
      params.warmupSamples)
    (hCold₂ : ∀ name, (((newPoolState params window).run ops₂).metrics name).totalSamples <
      params.warmupSamples) :
    ((newPoolState params window).run ops₁).selected =
        ((newPoolState params window).run ops₂).selected ∧
      (∀ ops name, ops <+: ops₁ → ((newPoolState params window).run ops).mds.isOpen name = false) ∧
      ∀ ops name, ops <+: ops₂ →
        ((newPoolState params window).run ops).mds.isOpen name = false := by
  have hNew : Warming params (newPoolState params window) ⟨newLBStrategyMDS params, []⟩ :=
    ⟨rfl, fun name cb hCb => (nomatch hCb), rfl, rfl⟩
  -- a run stays cold up to each of its points
  have hClosed : ∀ whole : List PoolOp,
      (∀ name, (((newPoolState params window).run whole).metrics name).totalSamples <
        params.warmupSamples) →
      ∀ ops name, ops <+: whole →
        ((newPoolState params window).run ops).mds.isOpen name = false := by
    rintro whole hCold ops name ⟨rest, rfl⟩
    refine (Warming.run ops _ _ hNew fun m => ?_).closed.isOpen name
    have hLe := PoolState.totalSamples_le_run rest m ((newPoolState params window).run ops)
    rw [PoolState.run, PoolState.run, ← foldl_append] at hLe
    exact lt_of_le_of_lt hLe (hCold m)
  refine ⟨?_, hClosed ops₁ hCold₁, hClosed ops₂ hCold₂⟩
  rw [(Warming.run ops₁ _ _ hNew hCold₁).selected, (Warming.run ops₂ _ _ hNew hCold₂).selected,
    ← PriorState.run_filter_isSelect ops₁, ← PriorState.run_filter_isSelect ops₂, hSame]

/-- A selection between `a` and `b`, an outcome of `a`, and the selection again. -/
def coldOps (o : ExchangeOutcome) : List PoolOp :=
  let servers := [(freshCandidate "a").server, (freshCandidate "b").server]
  [.select 0 0 1 0 servers, .outcome Second Second "a" o,
    .select (9 * Second) (9 * Second) 1 0 servers]

/-- Whether `a` answers or times out does not matter to the second selection. -/
theorem cold_start_noninterference_timeout :
    ((newPoolState defaultMDSParams metricsWindow).run (coldOps .zero)).selected =
      ((newPoolState defaultMDSParams metricsWindow).run (coldOps timeoutOutcome)).selected := by
  have hCold : ∀ o name, (((newPoolState defaultMDSParams metricsWindow).run
      (coldOps o)).metrics name).totalSamples < defaultMDSParams.warmupSamples := by
    intro o name
    have hTotal : (((newPoolState defaultMDSParams metricsWindow).run
        (coldOps o)).metrics name).totalSamples = if name = "a" then 1 else 0 := by
      simp only [PoolState.run, coldOps, foldl_cons, foldl_nil, PoolState.apply,
        PoolState.advanced_totalSamples]
      split
      · next hName =>
        subst hName
        rw [update_self, ResolverMetrics.observe_totalSamples, PoolState.advanced_totalSamples]
        rfl
      · next hName =>
        rw [update_of_ne hName, PoolState.advanced_totalSamples]
        rfl
    rw [hTotal]
    split
    · decide
    · decide
  have hSame : (coldOps .zero).filter PoolOp.isSelect =
      (coldOps timeoutOutcome).filter PoolOp.isSelect := rfl
  exact (cold_start_noninterference hSame (hCold .zero) (hCold timeoutOutcome)).1

end DnscryptProxy
