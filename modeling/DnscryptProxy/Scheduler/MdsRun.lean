import DnscryptProxy.Base.Run
import DnscryptProxy.Scheduler.Paths

/-!
# Runs of the multi-dimensional scheduler

`ServersInfo` calls the scheduler under its lock, so a run is a sequence of
selections and feedbacks. Candidates, draws and outcomes are arbitrary. The
clock does not go backwards; `becomePrimary` reads it a second time.

Next to the scheduler, a state records what happened so far: the switches of
the primary, and the outcomes each breaker has digested.

* `selectCandidateLocked_breakers` — what a selection does to the breakers;
* `probesOpen_of_reach` — only open breakers are ever probed.
-/

namespace DnscryptProxy

open Base Option

/-! ## Operations -/

/-- A call of the scheduler. -/
inductive MdsOp where
  /-- `selectCandidateLocked` at `now`; `since` is what `becomePrimary` reads -/
  | select (now since : Time) (draw : ℚ) (pickDraw : Nat) (cs : List ResolverCandidate)
  /-- `observeFeedbackLocked` -/
  | feedback (now : Time) (name : String) (o : ExchangeOutcome) (total : Nat)

namespace LBStrategyMDS

variable (mds : LBStrategyMDS) (now since : Time) (draw : ℚ) (pickDraw : Nat)
  (cs : List ResolverCandidate)

/-- A selection whose `becomePrimary` reads the clock at `since`. -/
def selectAt : LBStrategyMDS × Nat :=
  let r := mds.selectCandidateLocked now draw pickDraw cs
  if r.1.primaryName = mds.primaryName then r else ({ r.1 with primarySince := since }, r.2)

def apply (mds : LBStrategyMDS) : MdsOp → LBStrategyMDS
  | .select now since draw pickDraw cs => (mds.selectAt now since draw pickDraw cs).1
  | .feedback now name o total => mds.observeFeedbackLocked now name o total

variable {mds mds' : LBStrategyMDS}

theorem apply_select_circuits : (mds.apply (.select now since draw pickDraw cs)).circuits =
      (mds.selectCandidateLocked now draw pickDraw cs).1.circuits := by
  show (mds.selectAt now since draw pickDraw cs).1.circuits = _
  unfold selectAt
  dsimp only
  split <;> rfl

theorem selectCandidateLocked_breakers (mds : LBStrategyMDS) (now : Time) (draw : ℚ)
    (pickDraw : Nat) (cs : List ResolverCandidate) :
    (mds.selectCandidateLocked now draw pickDraw cs).1.params = mds.params ∧
      ((mds.selectCandidateLocked now draw pickDraw cs).1.circuits = mds.circuits ∨
        ∃ name, mds.ProbeReady now name ∧
          (mds.selectCandidateLocked now draw pickDraw cs).1 = mds.markProbing name) := by
  by_cases hNe : cs = []
  · subst hNe
    exact ⟨rfl, .inl rfl⟩
  · generalize hSelect : mds.selectCandidateLocked now draw pickDraw cs = r
    obtain ⟨mds', i⟩ := r
    obtain ⟨c, -, ⟨-, hReady, rfl⟩ | ⟨hCirc, hParams, -⟩⟩ :=
      selectCandidateLocked_cases hNe hSelect
    · exact ⟨rfl, .inr ⟨c.server.name, hReady, rfl⟩⟩
    · exact ⟨hParams, .inl hCirc⟩

/-- What that means for the breaker of one resolver. -/
theorem apply_select_circuit (name : String) :
    (mds.apply (.select now since draw pickDraw cs)).circuits name = mds.circuits name ∨
      ∃ cb, mds.circuits name = some cb ∧ cb.open = true ∧ cb.probing = false ∧
        (mds.apply (.select now since draw pickDraw cs)).circuits name =
          some { cb with probing := true } := by
  rw [apply_select_circuits]
  rcases (mds.selectCandidateLocked_breakers now draw pickDraw cs).2 with
    hSame | ⟨m, ⟨cb, hCb, hOpen, hIdle, -⟩, hMark⟩
  · exact .inl (by rw [hSame])
  · rw [hMark]
    by_cases hm : name = m
    · subst hm
      exact .inr ⟨cb, hCb, hOpen, hIdle, by simp [markProbing, hCb]⟩
    · exact .inl (by simp [markProbing, hm])

@[simp] theorem apply_params (mds : LBStrategyMDS) (op : MdsOp) :
    (mds.apply op).params = mds.params := by
  cases op with
  | select now since draw pickDraw cs =>
    have hParams := (mds.selectCandidateLocked_breakers now draw pickDraw cs).1
    show (mds.selectAt now since draw pickDraw cs).1.params = mds.params
    unfold selectAt
    dsimp only
    split
    · exact hParams
    · exact hParams
  | feedback now name o total => rfl

/-- Only open breakers are probed, before and after an operation. -/
theorem ProbesOpen.apply (hWf : mds.ProbesOpen) (op : MdsOp) : (mds.apply op).ProbesOpen := by
  cases op with
  | select now since draw pickDraw cs =>
    intro name cb hCb
    rcases mds.apply_select_circuit now since draw pickDraw cs name with
      hSame | ⟨cb', -, hOpen, -, hMark⟩
    · exact hWf name cb (hSame ▸ hCb)
    · cases hMark.symm.trans hCb
      exact fun _ => hOpen
  | feedback now name o total => exact hWf.observeFeedbackLocked o total

end LBStrategyMDS

/-! ## Runs -/

/-- The primary changed. -/
structure Switch where
  /-- when the selection began -/
  decided : Time
  /-- the `primarySince` it left behind -/
  since : Time
  /-- the primary it took over from was a candidate, with a breaker that was not open -/
  deposed : Bool
deriving Repr, DecidableEq

/-- An outcome that a breaker has digested. -/
structure Feedback where
  /-- the lifetime sample count that came with it -/
  total : Nat
  hardFailure : Bool
  /-- it closed the breaker -/
  closing : Bool
deriving Repr, DecidableEq

structure MdsState where
  mds : LBStrategyMDS
  clock : Time
  /-- the most recent one first -/
  switches : List Switch
  /-- of each resolver, the most recent one first -/
  history : String → List Feedback

namespace MdsState

variable (s : MdsState)

/-- The primary is among the candidates, and its breaker is not open. -/
def primaryHealthy (cs : List ResolverCandidate) : Bool :=
  cs.any (fun c => decide (c.server.name = s.mds.primaryName)) && !s.mds.isOpen s.mds.primaryName

def select (now since : Time) (draw : ℚ) (pickDraw : Nat) (cs : List ResolverCandidate) :
    MdsState :=
  let mds' := s.mds.apply (.select now since draw pickDraw cs)
  { s with
    mds := mds'
    clock := since
    switches :=
      if mds'.primaryName = s.mds.primaryName then s.switches
      else { decided := now, since := since, deposed := s.primaryHealthy cs } :: s.switches }

def feedback (now : Time) (name : String) (o : ExchangeOutcome) (total : Nat) : MdsState :=
  let mds' := s.mds.apply (.feedback now name o total)
  { s with
    mds := mds'
    clock := now
    history := Function.update s.history name
      ({ total := total, hardFailure := o.hardFailure
         closing := s.mds.isOpen name && !mds'.isOpen name } :: s.history name) }

end MdsState

/-- The scheduler with parameters `params`, from its creation on. -/
def mdsMachine (params : MDSParams) : Machine MdsState MdsOp where
  init s := s.mds = newLBStrategyMDS params ∧ s.switches = [] ∧ s.history = fun _ => []
  step s
    | .select now since draw pickDraw cs =>
      if s.clock ≤ now ∧ now ≤ since then some (s.select now since draw pickDraw cs) else none
    | .feedback now name o total =>
      if s.clock ≤ now then some (s.feedback now name o total) else none

/-- A scheduler that has not been used yet. -/
def newMdsState (params : MDSParams) : MdsState :=
  { mds := newLBStrategyMDS params, clock := 0, switches := [], history := fun _ => [] }

theorem newMdsState_init (params : MDSParams) : (mdsMachine params).init (newMdsState params) :=
  ⟨rfl, rfl, rfl⟩

section Steps

variable {params : MDSParams} {s s' : MdsState} {ok : MdsState → MdsOp → Prop}

theorem mdsMachine_step_select {now since : Time} {draw : ℚ} {pickDraw : Nat}
    {cs : List ResolverCandidate} :
    (mdsMachine params).step s (.select now since draw pickDraw cs) = some s' ↔
      (s.clock ≤ now ∧ now ≤ since) ∧ s.select now since draw pickDraw cs = s' := by
  simp only [mdsMachine, ite_none_right_eq_some, some.injEq]

theorem mdsMachine_step_feedback {now : Time} {name : String} {o : ExchangeOutcome} {total : Nat} :
    (mdsMachine params).step s (.feedback now name o total) = some s' ↔
      s.clock ≤ now ∧ s.feedback now name o total = s' := by
  simp only [mdsMachine, ite_none_right_eq_some, some.injEq]

theorem mdsMachine_step {op : MdsOp} (h : (mdsMachine params).step s op = some s') :
    s'.mds = s.mds.apply op := by
  cases op with
  | select now since draw pickDraw cs =>
    rw [← (mdsMachine_step_select.mp h).2]
    rfl
  | feedback now name o total =>
    rw [← (mdsMachine_step_feedback.mp h).2]
    rfl

theorem params_of_reach (hs : (mdsMachine params).Reach ok s) : s.mds.params = params := by
  refine hs.invariant (P := fun s => s.mds.params = params) ?_ ?_
  · rintro s ⟨hNew, -⟩
    rw [hNew]
    rfl
  · intro s op s' ih _ hStep
    rw [mdsMachine_step hStep, LBStrategyMDS.apply_params]
    exact ih

theorem probesOpen_of_reach (hs : (mdsMachine params).Reach ok s) : s.mds.ProbesOpen := by
  refine hs.invariant (P := fun s => s.mds.ProbesOpen) ?_ ?_
  · rintro s ⟨hNew, -⟩ name cb hCb
    rw [hNew] at hCb
    cases hCb
  · intro s op s' ih _ hStep
    rw [mdsMachine_step hStep]
    exact ih.apply op

end Steps

end DnscryptProxy
