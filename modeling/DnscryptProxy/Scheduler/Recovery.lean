import DnscryptProxy.Scheduler.HalfOpen
import DnscryptProxy.Scheduler.MdsRun

/-!
# Recovery of an open resolver

A breaker closes only on the outcome of a query that was marked as its
half-open probe, so a resolver that is due must be marked when a query goes to
it. `selectCandidateLocked` marks it when it has candidates to score; with a
single candidate it returns early, before the probes are looked at.

* `LBStrategyMDS.Recovering.apply` — a mark stays until its resolver fails, or it
  closes the breaker;
* `recovery_probed_iff` — a query routed to a resolver that is due is its probe,
  and its success closes the breaker, exactly if there is a choice of resolvers
  and no older exchange with that resolver fails in between;
* `lone_resolver_stays_open` — the run of a proxy with one resolver.
-/

namespace DnscryptProxy

open Base Option List Bool

/-! ## The mark of a probe -/

/-- The resolver an operation brings a hard failure of. -/
def MdsOp.failureOf : MdsOp → Option String
  | .select .. => none
  | .feedback _ name o _ => if o.hardFailure then some name else none

namespace LBStrategyMDS

variable {mds : LBStrategyMDS} {name : String} {cb : MdsCircuit}

/-- The breaker of `name` is closed, or a success closes it. -/
def Recovering (name : String) (mds : LBStrategyMDS) : Prop :=
  ∃ cb, mds.circuits name = some cb ∧ (cb.open = true → cb.probing = true)

theorem Recovering.apply (h : mds.Recovering name) {op : MdsOp}
    (hOther : op.failureOf ≠ some name) : (mds.apply op).Recovering name := by
  obtain ⟨cb, hCb, hMark⟩ := h
  cases op with
  | select now since draw pickDraw cs =>
    rcases mds.apply_select_circuit now since draw pickDraw cs name with
      hSame | ⟨cb', -, -, -, hMarked⟩
    · exact ⟨cb, hSame.trans hCb, hMark⟩
    · exact ⟨_, hMarked, fun _ => rfl⟩
  | feedback now m o total =>
    by_cases hName : name = m
    · subst hName
      have hOk : o.hardFailure = false := by
        by_contra hHard
        exact hOther (if_pos (of_not_eq_false hHard))
      refine ⟨_, circuits_observeFeedbackLocked_self o total, ?_⟩
      -- a success closes the breaker, or finds it closed
      simp only [circuitFor, hCb, getD_some, MdsCircuit.observe, hOk, false_eq_true, if_false]
      split
      · intro hOpen
        cases hOpen
      · exact hMark
    · exact ⟨cb, (circuits_observeFeedbackLocked_of_ne hName o total).trans hCb, hMark⟩

theorem Recovering.foldl_apply (ops : List MdsOp) :
    ∀ mds : LBStrategyMDS, mds.Recovering name → (∀ op ∈ ops, op.failureOf ≠ some name) →
      (ops.foldl LBStrategyMDS.apply mds).Recovering name := by
  induction ops with
  | nil => exact fun mds h _ => h
  | cons op ops ih =>
    intro mds h hOther
    exact ih _ (h.apply (hOther op mem_cons_self))
      fun op' hOp' => hOther op' (mem_cons_of_mem op hOp')

theorem Recovering.closes (h : mds.Recovering name) (now : Time) {o : ExchangeOutcome}
    (hOk : o.hardFailure = false) (total : Nat) :
    (mds.observeFeedbackLocked now name o total).isOpen name = false := by
  obtain ⟨cb, hCb, hMark⟩ := h
  rw [isOpen, circuits_observeFeedbackLocked_self]
  simp only [circuitFor, hCb, getD_some, MdsCircuit.observe, hOk, false_eq_true,
    if_false, any_some]
  split
  · rfl
  · next hNot =>
    cases hOpen : cb.open with
    | false => rfl
    | true => simp [hOpen, hMark hOpen] at hNot

/-- The failure of any exchange with the resolver counts as that of the probe. -/
theorem isOpen_of_failure (hCb : mds.circuits name = some cb) (hOpen : cb.open = true)
    (hProbing : cb.probing = true) {o o' : ExchangeOutcome} (hHard : o.hardFailure = true)
    (hOk : o'.hardFailure = false) (now now' : Time) (total total' : Nat) :
    ((mds.observeFeedbackLocked now name o total).observeFeedbackLocked now' name o'
      total').isOpen name = true := by
  rw [isOpen, circuits_observeFeedbackLocked_self, circuitFor, circuits_observeFeedbackLocked_self]
  simp [circuitFor, hCb, MdsCircuit.observe, hOpen, hProbing, hHard, hOk]

/-! ## Selections that probe -/

/-- A query routed to a resolver that is due is marked as its half-open probe,
and a response to it closes the breaker, whatever of `between` happens before
that response. -/
def RecoveryProbed (mds : LBStrategyMDS) (now since : Time) (draw : ℚ) (pickDraw : Nat)
    (cs : List ResolverCandidate) (between : MdsOp → Prop) : Prop :=
  ∀ c, cs[(mds.selectAt now since draw pickDraw cs).2]? = some c →
    mds.ProbeReady now c.server.name →
    (mds.selectAt now since draw pickDraw cs).1.isProbing c.server.name = true ∧
      ∀ ops : List MdsOp, (∀ op ∈ ops, between op) → ∀ now' o total, o.hardFailure = false →
          ((ops.foldl apply (mds.selectAt now since draw pickDraw cs).1).observeFeedbackLocked now'
            c.server.name o total).isOpen c.server.name = false

/-- With one candidate no probe is marked. -/
theorem selectAt_singleton (mds : LBStrategyMDS) (now since : Time) (draw : ℚ) (pickDraw : Nat)
    (c : ResolverCandidate) :
    (mds.selectAt now since draw pickDraw [c]).1.circuits = mds.circuits ∧
      (mds.selectAt now since draw pickDraw [c]).2 = 0 := by
  constructor
  · show (mds.apply (.select now since draw pickDraw [c])).circuits = mds.circuits
    rw [apply_select_circuits]
    exact becomePrimary_circuits mds now c.server.name
  · unfold selectAt
    dsimp only
    split <;> rfl

/-- With a choice of candidates, a resolver that is due and selected is marked. -/
theorem selectAt_marks {now since : Time} {draw : ℚ} {pickDraw : Nat} {cs : List ResolverCandidate}
    (hLen : 2 ≤ cs.length) {c : ResolverCandidate}
    (hc : cs[(mds.selectAt now since draw pickDraw cs).2]? = some c)
    (hReady : mds.ProbeReady now c.server.name) :
    ∃ cb, (mds.selectAt now since draw pickDraw cs).1.circuits c.server.name = some cb ∧
      cb.open = true ∧ cb.probing = true := by
  have hPath : SelectionPath mds now draw pickDraw (mds.scoreAll now cs)
      (mds.selectCandidateLocked now draw pickDraw cs) := selectCandidateLocked_path hLen
  obtain ⟨c', hc', hCase⟩ := hPath.candidate
  obtain rfl : c = c' := by
    unfold selectAt at hc
    dsimp only at hc
    split at hc <;> simpa [hc] using hc'
  -- the selected resolver is open: it is the probe, or nobody is due, this one included
  obtain ⟨cb, hCb, hOpen, -⟩ := id hReady
  rcases hCase with ⟨-, hMark⟩ | ⟨-, -, hAll⟩
  · refine ⟨{ cb with probing := true }, ?_, hOpen, rfl⟩
    show (mds.apply (.select now since draw pickDraw cs)).circuits c.server.name = _
    rw [apply_select_circuits, hMark]
    simp [markProbing, hCb]
  · have hNot := hAll (isOpen_iff.mpr ⟨cb, hCb, hOpen⟩) c (mem_of_getElem? hc)
    exact absurd hReady hNot.2

/-- **Recovery is probed if there is a choice.** For every state of the
scheduler, a query routed to a resolver that is due becomes the probe whose
success closes the breaker exactly if there are two candidates or more, or the
only one is not due, and no failure of that resolver can come in before. -/
theorem recovery_probed_iff (mds : LBStrategyMDS) (now since : Time) (draw : ℚ) (pickDraw : Nat)
    {cs : List ResolverCandidate} (hNe : cs ≠ []) (between : MdsOp → Prop) :
    mds.RecoveryProbed now since draw pickDraw cs between ↔
      (2 ≤ cs.length ∨ ∀ c ∈ cs, ¬mds.ProbeReady now c.server.name) ∧
        ∀ c, cs[(mds.selectAt now since draw pickDraw cs).2]? = some c →
          mds.ProbeReady now c.server.name →
            ∀ op, between op → op.failureOf ≠ some c.server.name := by
  constructor
  · intro hProbed
    have hChoice : 2 ≤ cs.length ∨ ∀ c ∈ cs, ¬mds.ProbeReady now c.server.name := by
      match cs, hNe with
      | [c], _ =>
        right
        intro c' hc' hReady
        rw [mem_singleton] at hc'
        subst hc'
        -- the early return leaves the breaker as it was, without a mark
        obtain ⟨hCirc, hIdx⟩ := mds.selectAt_singleton now since draw pickDraw c'
        have hMarked := (hProbed c' (by rw [hIdx]; rfl) hReady).1
        rw [isProbing, hCirc] at hMarked
        rw [← isProbing, not_isProbing_of_ready hReady] at hMarked
        cases hMarked
      | _ :: _ :: _, _ =>
        left
        simp
    refine ⟨hChoice, fun c hc hReady op hOp hFails => ?_⟩
    have hLen := hChoice.resolve_right fun hNone =>
      hNone c (mem_of_getElem? hc) hReady
    obtain ⟨cb, hCb, hOpen, hProbing⟩ := selectAt_marks hLen hc hReady
    -- the failure takes the mark away, and the success comes to nothing
    cases op with
    | select _ _ _ _ _ => cases hFails
    | feedback now' name o total =>
      obtain ⟨hHard, ⟨⟩⟩ := ite_none_right_eq_some.mp hFails
      have hClosed := (hProbed c hc hReady).2 [.feedback now' c.server.name o total]
        (by simpa using hOp) now' .zero 0 rfl
      cases hClosed.symm.trans (isOpen_of_failure hCb hOpen hProbing hHard rfl ..)
  · rintro ⟨hChoice, hQuiet⟩ c hc hReady
    have hLen := hChoice.resolve_right fun hNone =>
      hNone c (mem_of_getElem? hc) hReady
    obtain ⟨cb, hCb, hOpen, hProbing⟩ := selectAt_marks hLen hc hReady
    refine ⟨isProbing_iff.mpr ⟨cb, hCb, hProbing⟩, ?_⟩
    intro ops hOps now' o total hOk
    have hKept := Recovering.foldl_apply ops _ ⟨cb, hCb, fun _ => hProbing⟩
      fun op hOp => hQuiet c hc hReady op (hOps op hOp)
    exact hKept.closes now' hOk total

/-- `a` and `b`, with the probe of `a` due: the query goes to `a` as its probe, and its success
closes the breaker if no other exchange with `a` fails before. -/
theorem recovery_probed_iff_due :
    dueScheduler.ProbeReady (20 * Second) "a" ∧
    dueScheduler.RecoveryProbed (20 * Second) (20 * Second) 1 0
      [freshCandidate "a", freshCandidate "b"] fun op => op.failureOf ≠ some "a" := by
  refine ⟨probeReady_of (by decide) (by decide),
    (recovery_probed_iff dueScheduler (20 * Second) (20 * Second) 1 0 (by simp) _).mpr
      ⟨.inl (by decide), fun c hc _ op hOp => ?_⟩⟩
  have hIdx : (dueScheduler.selectAt (20 * Second) (20 * Second) 1 0
      [freshCandidate "a", freshCandidate "b"]).2 = 0 := by decide +kernel
  cases hc
  exact hOp

end LBStrategyMDS

/-! ## One resolver -/

/-- A proxy with one server. -/
def loneScheduler : SchedulerState :=
  { servers := { twoResolvers with inner := twoResolvers.inner.take 1 }
    inFlight := []
    nextId := 0 }

theorem loneScheduler_init : schedulerMachine.init loneScheduler := ⟨rfl, rfl⟩

/-- The first query times out. -/
def loneOutage : List SchedulerLabel :=
  [.select 0 1 0, .feedback 0 (5 * Second) (5 * Second) (5 * Second) false
    { ExchangeOutcome.zero with timeout := true }]

/-- A query after the probe time, and its response. -/
def loneRecovery : List SchedulerLabel :=
  [.select (25 * Second) 1 0, .feedback 1 (26 * Second) (5 * Second) Second false .zero]

theorem loneOutage_isSome : (schedulerMachine.exec loneScheduler loneOutage).isSome = true := rfl

/-- The breaker of the only resolver is open. -/
def loneOpened : SchedulerState :=
  (schedulerMachine.exec loneScheduler loneOutage).get loneOutage_isSome

/-- With one resolver, the response to a query sent after the probe time leaves
the breaker open: the query was not marked as the probe. -/
theorem lone_resolver_stays_open :
    ∃ opened sent recovered : SchedulerState, schedulerMachine.Reach Machine.anyStep opened ∧
        opened.servers.mds.ProbeReady (25 * Second) "a" ∧
        schedulerMachine.step opened (.select (25 * Second) 1 0) = some sent ∧
        sent.inFlight = [⟨1, "a", false⟩] ∧
        schedulerMachine.exec opened loneRecovery = some recovered ∧
        recovered.inFlight = [] ∧ recovered.servers.mds.isOpen "a" = true := by
  have hOpen : loneOpened.servers.mds.isOpen "a" = true := by decide +kernel
  have hDue : loneOpened.servers.mds.probeDue (25 * Second) "a" = true := by decide +kernel
  refine ⟨loneOpened, _, _, Machine.Reach.exec_get (.init loneScheduler_init) loneOutage_isSome,
    LBStrategyMDS.probeReady_of hOpen hDue, rfl, ?_, (some_get rfl).symm, ?_, ?_⟩
  · decide +kernel
  · decide +kernel
  · decide +kernel

end DnscryptProxy
