import DnscryptProxy.Scheduler.MdsRun

/-!
# When a breaker opens

The breaker of a resolver keeps one counter through three regimes: cold start,
where failures do not count, ordinary operation, and the recovery probation that
follows a successful probe. This module says which outcomes the counter counts,
in terms of the outcomes alone, and that the breaker opens exactly when enough of
them are counted.

* `probationUntil`, `hardRun`, `countedFails` — read off the history of a resolver;
* `BreakerStep` — the branches of `observeFeedbackLocked`;
* `BreakerInv` — the breaker agrees with the history;
* `breaker_opens_iff` — over all runs: a closed breaker opens at an outcome exactly
  if the run of hard failures that ends there counts to the threshold.
-/

namespace DnscryptProxy

open Base List LBStrategyMDS Option

/-! ## The history of a resolver -/

/-- Up to which sample count a resolver with this history is on recovery
probation. The outcome that closed its breaker started it, and the next hard
failure ends it. -/
def probationUntil (warmup : Nat) : List Feedback → Option Nat
  | [] => none
  | f :: earlier =>
    if f.hardFailure then none
    else if f.closing then some ((f.total + warmup) % 2 ^ 64)
    else probationUntil warmup earlier

/-- The resolver is on probation when its sample count is `total`. -/
def onProbation (warmup : Nat) (h : List Feedback) (total : Nat) : Bool :=
  (probationUntil warmup h).any fun last => decide (total < last)

/-- The hard failures in a row at the end of a history, each with what was before
it. The most recent one comes first. -/
def hardRun : List Feedback → List (Feedback × List Feedback)
  | [] => []
  | f :: earlier => if f.hardFailure then (f, earlier) :: hardRun earlier else []

/-- A failure of a resolver that is warmed up and not on probation. -/
def isMature (warmup : Nat) (f : Feedback × List Feedback) : Bool :=
  decide (warmup ≤ f.1.total) && !onProbation warmup f.2 f.1.total

/-- A failure that ended a probation. -/
def endsProbation (warmup : Nat) (f : Feedback × List Feedback) : Bool :=
  onProbation warmup f.2 f.1.total

/-- What the run of hard failures at the end of a history counts: its mature
failures, and its first failure if that one ended a probation. -/
def countedFails (warmup : Nat) (h : List Feedback) : Nat :=
  (hardRun h).countP (isMature warmup) +
    if (hardRun h).getLast?.any (endsProbation warmup) then 1 else 0

section History

variable {warmup : Nat} {f : Feedback} {h : List Feedback} {total : Nat}

/-- On probation there was no failure yet. -/
theorem hardRun_of_onProbation (hOn : onProbation warmup h total = true) : hardRun h = [] := by
  cases h with
  | nil => rfl
  | cons f earlier =>
    by_cases hHard : f.hardFailure = true
    · simp [onProbation, probationUntil, hHard] at hOn
    · simp [hardRun, hHard]

theorem onProbation_cons_hard (hHard : f.hardFailure = true) :
    onProbation warmup (f :: h) total = false := by
  simp [onProbation, probationUntil, hHard]

theorem countedFails_cons_soft (hSoft : f.hardFailure = false) :
    countedFails warmup (f :: h) = 0 := by
  simp [countedFails, hardRun, hSoft]

theorem countedFails_cons_ends (hHard : f.hardFailure = true)
    (hOn : onProbation warmup h f.total = true) : countedFails warmup (f :: h) = 1 := by
  simp [countedFails, hardRun, hHard, hardRun_of_onProbation hOn, isMature, endsProbation, hOn]

theorem countedFails_cons_mature (hHard : f.hardFailure = true) (hWarm : warmup ≤ f.total)
    (hOff : onProbation warmup h f.total = false) :
    countedFails warmup (f :: h) = countedFails warmup h + 1 := by
  have hMature : isMature warmup (f, h) = true := by simp [isMature, hWarm, hOff]
  -- the first failure of the run is the new one only if there was no run before
  cases hRun : hardRun h with
  | nil => simp [countedFails, hardRun, hHard, hRun, hMature, endsProbation, hOff]
  | cons g rest =>
    simp only [countedFails, hardRun, hHard, hRun, if_true, countP_cons_of_pos hMature,
      getLast?_cons_cons]
    omega

/-- A probation goes back to an outcome that closed the breaker. -/
theorem exists_closing_of_onProbation (hOn : onProbation warmup h total = true) :
    ∃ f ∈ h, f.closing = true := by
  induction h with
  | nil => simp [onProbation, probationUntil] at hOn
  | cons f earlier ih =>
    by_cases hHard : f.hardFailure = true
    · rw [onProbation_cons_hard hHard] at hOn
      cases hOn
    · by_cases hClosing : f.closing = true
      · exact ⟨f, mem_cons_self, hClosing⟩
      · have hEarlier : onProbation warmup earlier total = true := by
          simpa [onProbation, probationUntil, hHard, hClosing] using hOn
        obtain ⟨g, hg, hClosing'⟩ := ih hEarlier
        exact ⟨g, mem_cons_of_mem f hg, hClosing'⟩

/-- The parts of a run of failures come from the history. -/
theorem mem_of_mem_hardRun {x : Feedback × List Feedback} :
    ∀ {h : List Feedback}, x ∈ hardRun h → x.1 ∈ h ∧ ∀ g ∈ x.2, g ∈ h := by
  intro h
  induction h with
  | nil =>
    intro hx
    cases hx
  | cons f earlier ih =>
    intro hx
    unfold hardRun at hx
    split at hx
    · rcases mem_cons.mp hx with rfl | hx
      · exact ⟨mem_cons_self, fun g hg => mem_cons_of_mem f hg⟩
      · obtain ⟨hHead, hRest⟩ := ih hx
        exact ⟨mem_cons_of_mem f hHead, fun g hg => mem_cons_of_mem f (hRest g hg)⟩
    · cases hx

theorem countedFails_cold (hCold : ∀ f ∈ h, f.total < warmup)
    (hClosing : ∀ f ∈ h, f.closing = true → warmup ≤ f.total) : countedFails warmup h = 0 := by
  have hMature : (hardRun h).countP (isMature warmup) = 0 := by
    rw [countP_eq_zero]
    intro x hx
    have hLt := hCold x.1 (mem_of_mem_hardRun hx).1
    simp [isMature, not_le.mpr hLt]
  have hEnds : (hardRun h).getLast?.any (endsProbation warmup) = false := by
    rw [any_eq_false_iff_get]
    intro hSome
    have hx := mem_of_getLast? (some_get hSome).symm
    -- a probation would need an outcome beyond cold start
    by_contra hOn
    rw [Bool.not_eq_false] at hOn
    obtain ⟨g, hg, hg'⟩ := exists_closing_of_onProbation hOn
    have hIn := (mem_of_mem_hardRun hx).2 g hg
    have := hClosing g hIn hg'
    have := hCold g hIn
    omega
  rw [countedFails, hMature, hEnds]
  rfl

end History

/-! ## One outcome -/

/-- The branches of `observeFeedbackLocked`, by whether the outcome is a hard
failure, with the breaker that each leaves behind. -/
inductive BreakerStep (params : MDSParams) (now : Time) (cb : MdsCircuit) (total : Nat) :
    Bool → MdsCircuit → Prop where
  /-- the half-open probe failed -/
  | probeFailed : cb.open = true → cb.probing = true → BreakerStep params now cb total true
        { cb with
          consecHardFails := (cb.consecHardFails + 1) % 2 ^ 32
          probing := false
          nextProbeAt := now + params.halfOpenInterval }
  /-- a failure on recovery probation -/
  | endsProbation : total < cb.recoverUntilTotal →
      BreakerStep params now cb total true { cb with recoverUntilTotal := 0, consecHardFails := 1 }
  /-- a failure of a new resolver -/
  | coldStart : cb.recoverUntilTotal ≤ total → total < params.warmupSamples →
      BreakerStep params now cb total true { cb with consecHardFails := 0 }
  /-- the failure that opens the breaker -/
  | opens : cb.open = false → cb.recoverUntilTotal ≤ total → params.warmupSamples ≤ total →
      params.breakerThreshold ≤ (cb.consecHardFails + 1) % 2 ^ 32 →
      BreakerStep params now cb total true
        { consecHardFails := (cb.consecHardFails + 1) % 2 ^ 32
          «open» := true
          openedAt := now
          nextProbeAt := now + params.halfOpenInterval
          probing := false
          recoverUntilTotal := 0 }
  /-- a failure that is counted -/
  | counts : cb.recoverUntilTotal ≤ total → params.warmupSamples ≤ total →
      (cb.open = false → (cb.consecHardFails + 1) % 2 ^ 32 < params.breakerThreshold) →
      BreakerStep params now cb total true
        { cb with consecHardFails := (cb.consecHardFails + 1) % 2 ^ 32 }
  /-- the half-open probe was answered -/
  | closes : cb.open = true → cb.probing = true → BreakerStep params now cb total false
        { cb with
          consecHardFails := 0
          «open» := false
          probing := false
          recoverUntilTotal := (total + params.warmupSamples) % 2 ^ 64 }
  /-- any other response -/
  | responds : BreakerStep params now cb total false { cb with consecHardFails := 0 }

theorem MdsCircuit.observe_step (params : MDSParams) (now : Time) (cb : MdsCircuit)
    (hard : Bool) (total : Nat) :
    BreakerStep params now cb total hard (cb.observe params now hard total) := by
  unfold MdsCircuit.observe
  cases hard with
  | false =>
    rw [if_neg (by simp)]
    split
    · next hProbe =>
      rw [Bool.and_eq_true] at hProbe
      exact .closes hProbe.1 hProbe.2
    · exact .responds
  | true =>
    rw [if_pos rfl]
    split
    · next hProbe =>
      rw [Bool.and_eq_true] at hProbe
      exact .probeFailed hProbe.1 hProbe.2
    · split
      · next hOn => exact .endsProbation hOn
      · next hOff =>
        split
        · next hCold => exact .coldStart (not_lt.mp hOff) hCold
        · next hWarm =>
          dsimp only
          split
          · next hOpens =>
            simp only [Bool.and_eq_true, Bool.not_eq_true', decide_eq_true_eq] at hOpens
            exact .opens hOpens.1 (not_lt.mp hOff) (not_lt.mp hWarm) hOpens.2
          · next hStays =>
            refine .counts (not_lt.mp hOff) (not_lt.mp hWarm) ?_
            intro hClosed
            simpa [hClosed] using hStays

/-! ## The breaker and the history -/

/-- The breaker agrees with the history of its resolver. -/
structure BreakerInv (params : MDSParams) (cb : MdsCircuit) (h : List Feedback) : Prop where
  /-- the probation of the breaker is that of the history, for later sample counts -/
  probation : ∀ total, (∀ f ∈ h, f.total < total) →
    (total < cb.recoverUntilTotal ↔ onProbation params.warmupSamples h total = true)
  /-- a closed breaker has counted what is to be counted; 1 is the seed of a probation -/
  counted : cb.open = false → cb.consecHardFails = countedFails params.warmupSamples h ∧
    cb.consecHardFails < max params.breakerThreshold 2
  /-- only a warmed-up resolver has an open breaker, and it is not on probation -/
  opened : cb.open = true → cb.recoverUntilTotal = 0 ∧ ∃ f ∈ h, params.warmupSamples ≤ f.total
  closings : ∀ f ∈ h, f.closing = true → params.warmupSamples ≤ f.total

/-- The history after an outcome that turned `cb` into `cb'`. -/
def observed (cb cb' : MdsCircuit) (hard : Bool) (total : Nat) (h : List Feedback) :
    List Feedback :=
  { total := total, hardFailure := hard, closing := cb.open && !cb'.open } :: h

namespace BreakerInv

variable {params : MDSParams} {now : Time} {cb cb' : MdsCircuit} {h : List Feedback}
variable {hard : Bool} {total : Nat}

theorem zero (params : MDSParams) : BreakerInv params .zero [] where
  probation total _ := by simp [MdsCircuit.zero, onProbation, probationUntil]
  counted _ := ⟨rfl, by simp [MdsCircuit.zero]⟩
  opened hOpen := by simp [MdsCircuit.zero] at hOpen
  closings f hf := by cases hf

/-- A new sample of an open breaker comes after one of a warmed-up resolver. -/
theorem warm_of_open (hInv : BreakerInv params cb h) (hOpen : cb.open = true)
    (hTotal : ∀ f ∈ h, f.total < total) : params.warmupSamples ≤ total := by
  obtain ⟨f, hf, hWarm⟩ := (hInv.opened hOpen).2
  have := hTotal f hf
  omega

/-- A failure after which no later sample count is on probation. -/
theorem probation_of_hard {h' : List Feedback} {f : Feedback} (hHard : f.hardFailure = true)
    (hDone : cb'.recoverUntilTotal ≤ f.total) :
    ∀ t, (∀ g ∈ f :: h', g.total < t) →
      (t < cb'.recoverUntilTotal ↔ onProbation params.warmupSamples (f :: h') t = true) := by
  intro t ht
  have hLater := ht f mem_cons_self
  rw [onProbation_cons_hard hHard]
  constructor
  · intro hLt
    omega
  · intro hOn
    cases hOn

section

variable (hInv : BreakerInv params cb h)
include hInv

theorem not_onProbation (hTotal : ∀ f ∈ h, f.total < total)
    (hOff : cb.recoverUntilTotal ≤ total) : onProbation params.warmupSamples h total = false := by
  rw [← Bool.not_eq_true, ← hInv.probation total hTotal]
  omega

section

variable (hThreshold : params.breakerThreshold < 2 ^ 32)
include hThreshold

/-- The counter of a closed breaker after a mature failure. -/
theorem succ_eq (hTotal : ∀ f ∈ h, f.total < total) (hClosed : cb.open = false)
    (hWarm : params.warmupSamples ≤ total) (hOff : cb.recoverUntilTotal ≤ total) (closing : Bool) :
    (cb.consecHardFails + 1) % 2 ^ 32 =
      countedFails params.warmupSamples (⟨total, true, closing⟩ :: h) := by
  obtain ⟨hCount, hBound⟩ := hInv.counted hClosed
  rw [countedFails_cons_mature rfl hWarm (hInv.not_onProbation hTotal hOff), ← hCount]
  -- the breaker would have opened long before the counter wraps
  exact Nat.mod_eq_of_lt (by omega)

/-- One outcome keeps the agreement. -/
theorem step
    (hTotal : ∀ f ∈ h, f.total < total) (hStep : BreakerStep params now cb total hard cb') :
    BreakerInv params cb' (observed cb cb' hard total h) := by
  have hClosings : ∀ f ∈ observed cb cb' hard total h, f.closing = true →
      params.warmupSamples ≤ f.total := by
    intro f hf hClosing
    rcases mem_cons.mp hf with rfl | hf
    · rw [Bool.and_eq_true] at hClosing
      exact hInv.warm_of_open hClosing.1 hTotal
    · exact hInv.closings f hf hClosing
  have hOpened : cb.open = true → ∃ f ∈ observed cb cb' hard total h,
      params.warmupSamples ≤ f.total := by
    intro hOpen
    exact ⟨_, mem_cons_self, hInv.warm_of_open hOpen hTotal⟩
  cases hStep with
  -- the breaker stays open, and an open one is not on probation
  | probeFailed hOpen hProbing =>
    have hZero := (hInv.opened hOpen).1
    refine ⟨probation_of_hard rfl (by simp [hZero]), ?_, fun _ => ⟨hZero, hOpened hOpen⟩, hClosings⟩
    intro hClosed
    exact absurd hOpen (by simpa using hClosed)
  -- the counter starts at one, for the failure that ended the probation
  | endsProbation hOn =>
    refine ⟨probation_of_hard rfl (Nat.zero_le _), ?_, fun hOpen => ⟨rfl, hOpened hOpen⟩, hClosings⟩
    intro _
    have hOn' := (hInv.probation total hTotal).mp hOn
    exact ⟨(countedFails_cons_ends rfl hOn').symm, by simp⟩
  -- the whole history is cold, so nothing in it counts
  | coldStart hOff hCold =>
    refine ⟨probation_of_hard rfl hOff, ?_, fun hOpen => ⟨(hInv.opened hOpen).1, hOpened hOpen⟩,
      hClosings⟩
    intro _
    refine ⟨(countedFails_cold ?_ hClosings).symm, by simp⟩
    intro f hf
    rcases mem_cons.mp hf with rfl | hf
    · exact hCold
    · exact (hTotal f hf).trans hCold
  | opens hClosed hOff hWarm hFull =>
    refine ⟨probation_of_hard rfl (Nat.zero_le _), ?_, fun _ => ⟨rfl, _, mem_cons_self, hWarm⟩,
      hClosings⟩
    intro hClosed'
    cases hClosed'
  -- one more mature failure, and still below the threshold if the breaker is closed
  | counts hOff hWarm hBelow =>
    refine ⟨probation_of_hard rfl hOff, ?_, fun hOpen => ⟨(hInv.opened hOpen).1, hOpened hOpen⟩,
      hClosings⟩
    intro hClosed
    refine ⟨hInv.succ_eq hThreshold hTotal hClosed hWarm hOff _, ?_⟩
    exact lt_of_lt_of_le (hBelow hClosed) (le_max_left _ _)
  -- the outcome is a closing one, so the probation of the history starts here
  | closes hOpen hProbing =>
    refine ⟨?_, ?_, ?_, hClosings⟩
    · intro t _
      simp [observed, onProbation, probationUntil, hOpen]
    · intro _
      exact ⟨(countedFails_cons_soft rfl).symm, by simp⟩
    · intro hOpen'
      cases hOpen'
  | responds =>
    refine ⟨?_, ?_, fun hOpen => ⟨(hInv.opened hOpen).1, hOpened hOpen⟩, hClosings⟩
    · -- a response that closes nothing leaves the probation as it was
      intro t ht
      have hEarlier := hInv.probation t fun f hf => ht f (mem_cons_of_mem _ hf)
      simpa [observed, onProbation, probationUntil] using hEarlier
    · intro _
      exact ⟨(countedFails_cons_soft rfl).symm, by simp⟩

/-- When a closed breaker opens. -/
theorem opens_iff (hTotal : ∀ f ∈ h, f.total < total) (hClosed : cb.open = false)
    (hStep : BreakerStep params now cb total hard cb') :
    cb'.open = true ↔ hard = true ∧ onProbation params.warmupSamples h total = false ∧
      params.warmupSamples ≤ total ∧
      params.breakerThreshold ≤
        countedFails params.warmupSamples (observed cb cb' hard total h) := by
  cases hStep with
  | probeFailed hOpen => simp [hClosed] at hOpen
  | endsProbation hOn =>
    have hOn' := (hInv.probation total hTotal).mp hOn
    simp [hClosed, hOn']
  | coldStart hOff hCold => simp [hClosed, not_le.mpr hCold]
  | opens _ hOff hWarm hFull =>
    have hCount := hInv.succ_eq hThreshold hTotal hClosed hWarm hOff (cb.open && !true)
    simp only [true_and, true_iff]
    exact ⟨hInv.not_onProbation hTotal hOff, hWarm, hCount ▸ hFull⟩
  | counts hOff hWarm hBelow =>
    have hLt := hBelow hClosed
    constructor
    · intro hOpen
      exact absurd hOpen (by simp [hClosed])
    · rintro ⟨-, -, -, hFull⟩
      rw [observed, ← hInv.succ_eq hThreshold hTotal hClosed hWarm hOff] at hFull
      omega
  | closes hOpen => simp [hClosed] at hOpen
  | responds => simp [hClosed]

end

/-- A response, or a failure during cold start, leaves the counter at zero. -/
theorem restarts (hTotal : ∀ f ∈ h, f.total < total)
    (hStep : BreakerStep params now cb total hard cb')
    (hRestart : hard = false ∨ total < params.warmupSamples) : cb'.consecHardFails = 0 := by
  cases hStep with
  | closes => rfl
  | responds => rfl
  | coldStart => rfl
  | probeFailed hOpen =>
    have := hInv.warm_of_open hOpen hTotal
    exact absurd (hRestart.resolve_left (by decide)) (by omega)
  | endsProbation hOn =>
    obtain ⟨f, hf, hClosing⟩ :=
      exists_closing_of_onProbation ((hInv.probation total hTotal).mp hOn)
    have := hInv.closings f hf hClosing
    have := hTotal f hf
    exact absurd (hRestart.resolve_left (by decide)) (by omega)
  | opens _ _ hWarm =>
    exact absurd (hRestart.resolve_left (by decide)) (by omega)
  | counts _ hWarm =>
    exact absurd (hRestart.resolve_left (by decide)) (by omega)

end

end BreakerInv

/-! ## Whole runs -/

/-- The lifetime sample count of a resolver grows with every outcome. -/
def IncreasingTotals (s : MdsState) : MdsOp → Prop
  | .select .. => True
  | .feedback _ name _ total => ∀ f ∈ s.history name, f.total < total

section Runs

variable {params : MDSParams} {s s' : MdsState}

theorem isOpen_eq_circuitFor (mds : LBStrategyMDS) (name : String) :
    mds.isOpen name = (mds.circuitFor name).open := by
  unfold isOpen circuitFor
  cases mds.circuits name with
  | none => rfl
  | some cb => rfl

/-- A selection does not touch what a breaker has learnt. -/
theorem BreakerInv.select {name : String} {h : List Feedback} {mds : LBStrategyMDS}
    (hInv : BreakerInv params (mds.circuitFor name) h) (now since : Time) (draw : ℚ)
    (pickDraw : Nat) (cs : List ResolverCandidate) :
    BreakerInv params ((mds.apply (.select now since draw pickDraw cs)).circuitFor name) h := by
  unfold circuitFor
  rcases mds.apply_select_circuit now since draw pickDraw cs name with
    hSame | ⟨cb, hCb, -, -, hMark⟩
  · rw [hSame]
    exact hInv
  · -- the mark of a probe
    rw [circuitFor, hCb] at hInv
    rw [hMark]
    exact ⟨hInv.probation, hInv.counted, hInv.opened, hInv.closings⟩

/-- What an outcome does to the breaker of its resolver and to its history. -/
theorem feedback_step (s : MdsState) (now : Time) (name : String) (o : ExchangeOutcome)
    (total : Nat) :
    BreakerStep s.mds.params now (s.mds.circuitFor name) total o.hardFailure
        ((s.feedback now name o total).mds.circuitFor name) ∧
      (s.feedback now name o total).history name = observed (s.mds.circuitFor name)
        ((s.feedback now name o total).mds.circuitFor name) o.hardFailure total
        (s.history name) := by
  have hAfter : (s.feedback now name o total).mds.circuitFor name =
      (s.mds.circuitFor name).observe s.mds.params now o.hardFailure total := by
    show (s.mds.observeFeedbackLocked now name o total).circuitFor name = _
    rw [circuitFor, circuits_observeFeedbackLocked_self, getD_some]
  constructor
  · rw [hAfter]
    exact MdsCircuit.observe_step ..
  · simp only [MdsState.feedback, Function.update_self, observed, isOpen_eq_circuitFor]

/-- In every run the breakers agree with the histories. -/
theorem breakerInv_of_reach (hThreshold : params.breakerThreshold < 2 ^ 32)
    (hs : (mdsMachine params).Reach IncreasingTotals s) (name : String) :
    BreakerInv params (s.mds.circuitFor name) (s.history name) := by
  induction hs with
  | init hInit =>
    obtain ⟨hNew, -, hHistory⟩ := hInit
    rw [hNew, hHistory]
    exact .zero params
  | @step s s' op hs hOk hStep ih =>
    cases op with
    | select now since draw pickDraw cs =>
      obtain ⟨-, rfl⟩ := mdsMachine_step_select.mp hStep
      exact ih.select now since draw pickDraw cs
    | feedback now m o total =>
      obtain ⟨-, rfl⟩ := mdsMachine_step_feedback.mp hStep
      by_cases hm : name = m
      · subst hm
        obtain ⟨hBranch, hHistory⟩ := feedback_step s now name o total
        rw [params_of_reach hs] at hBranch
        rw [hHistory]
        exact ih.step hThreshold hOk hBranch
      · have hCircuit : (s.feedback now m o total).mds.circuitFor name = s.mds.circuitFor name := by
          show (s.mds.observeFeedbackLocked now m o total).circuitFor name = _
          rw [circuitFor, circuits_observeFeedbackLocked_of_ne hm]
          rfl
        have hHistory : (s.feedback now m o total).history name = s.history name :=
          Function.update_of_ne hm _ _
        rw [hCircuit, hHistory]
        exact ih

end Runs

/-- A feedback meets the opening condition: a hard failure outside of recovery
probation, of a warmed-up resolver, at which the run of hard failures counts to
the threshold. -/
def ReachesThreshold (params : MDSParams) (s s' : MdsState) (name : String) (o : ExchangeOutcome)
    (total : Nat) : Prop :=
  o.hardFailure = true ∧ onProbation params.warmupSamples (s.history name) total = false ∧
    params.warmupSamples ≤ total ∧
    params.breakerThreshold ≤ countedFails params.warmupSamples (s'.history name)

/-- **When a breaker opens.** In every run in which the sample counts of each
resolver increase, a feedback takes the breaker of its resolver from closed to
open exactly if the breaker was closed and the feedback meets the opening
condition. A response and a failure during cold start put the counter back to
zero, and only open breakers are probed. -/
theorem breaker_opens_iff {params : MDSParams} (hThreshold : params.breakerThreshold < 2 ^ 32)
    {s : MdsState} (hs : (mdsMachine params).Reach IncreasingTotals s) :
    (∀ now name o total s', IncreasingTotals s (.feedback now name o total) →
      (mdsMachine params).step s (.feedback now name o total) = some s' →
      ((s.mds.isOpen name = false ∧ s'.mds.isOpen name = true) ↔
        s.mds.isOpen name = false ∧ ReachesThreshold params s s' name o total) ∧
      (o.hardFailure = false ∨ total < params.warmupSamples →
        (s'.mds.circuitFor name).consecHardFails = 0)) ∧
      s.mds.ProbesOpen := by
  refine ⟨?_, probesOpen_of_reach hs⟩
  intro now name o total s' hTotal hStep
  obtain ⟨-, rfl⟩ := mdsMachine_step_feedback.mp hStep
  have hInv := breakerInv_of_reach hThreshold hs name
  obtain ⟨hBranch, hHistory⟩ := feedback_step s now name o total
  rw [params_of_reach hs] at hBranch
  constructor
  · rw [isOpen_eq_circuitFor, isOpen_eq_circuitFor, ReachesThreshold, hHistory]
    refine and_congr_right fun hClosed => ?_
    exact hInv.opens_iff hThreshold hTotal hClosed hBranch
  · exact hInv.restarts hTotal hBranch

/-! ### A breaker that opens at once -/

/-- One failure of a resolver with one sample is enough. -/
def touchyParams : MDSParams :=
  { defaultMDSParams with warmupSamples := 1, breakerThreshold := 1 }

def timeoutOutcome : ExchangeOutcome := { ExchangeOutcome.zero with timeout := true }

/-- The first outcome of `a` is a timeout. -/
def touchyOpened : MdsState := (newMdsState touchyParams).feedback Second "a" timeoutOutcome 1

theorem touchyOpened_step : (mdsMachine touchyParams).step (newMdsState touchyParams)
    (.feedback Second "a" timeoutOutcome 1) = some touchyOpened :=
  mdsMachine_step_feedback.mpr ⟨by decide, rfl⟩

theorem touchyOpened_reach : (mdsMachine touchyParams).Reach IncreasingTotals touchyOpened := by
  refine .step (.init (newMdsState_init touchyParams)) ?_ touchyOpened_step
  intro f hf
  cases hf

/-- Two failures in a row are needed, of a resolver with one sample. -/
def patientParams : MDSParams := { touchyParams with breakerThreshold := 2 }

def mixedOutcome (n : Nat) : ExchangeOutcome := if n = 1 then .zero else timeoutOutcome

/-- After `n` outcomes of `a`: timeouts, but the second is an answer. -/
def mixedOutcomes : Nat → MdsState
  | 0 => newMdsState patientParams
  | n + 1 => (mixedOutcomes n).feedback (n * Second) "a" (mixedOutcome n) (n + 1)

/-- The third outcome, a timeout, leaves the breaker closed; the fourth opens it. -/
theorem breaker_opens_iff_mixed :
    (mixedOutcomes 3).mds.isOpen "a" = false ∧ (mixedOutcomes 4).mds.isOpen "a" = true := by
  have hTotals : ∀ n, IncreasingTotals (mixedOutcomes n)
      (.feedback (n * Second) "a" (mixedOutcome n) (n + 1)) := by
    intro n
    induction n with
    | zero => exact fun f hf => nomatch hf
    | succ n ih =>
      exact forall_mem_cons.mpr ⟨Nat.lt_succ_self _, fun f hf => Nat.lt_succ_of_lt (ih f hf)⟩
  have hStep : ∀ n, (mdsMachine patientParams).step (mixedOutcomes n)
      (.feedback (n * Second) "a" (mixedOutcome n) (n + 1)) = some (mixedOutcomes (n + 1)) := by
    intro n
    refine mdsMachine_step_feedback.mpr ⟨?_, rfl⟩
    cases n with
    | zero => decide
    | succ n => exact Int.mul_le_mul_of_nonneg_right (Int.ofNat_le.mpr n.le_succ) (by decide)
  have hReach : ∀ n, (mdsMachine patientParams).Reach IncreasingTotals (mixedOutcomes n) := by
    intro n
    induction n with
    | zero => exact .init (newMdsState_init patientParams)
    | succ n ih => exact .step ih (hTotals n) (hStep n)
  have hOpens := fun n => ((breaker_opens_iff (by decide) (hReach n)).1 _ "a" _ _ _ (hTotals n)
    (hStep n)).1
  constructor
  · -- the answer before it has put the counter back
    refine Bool.eq_false_iff.mpr fun hOpen => ?_
    obtain ⟨-, -, -, -, hCount⟩ := (hOpens 2).mp ⟨by decide, hOpen⟩
    exact absurd hCount (by decide)
  · exact ((hOpens 3).mpr ⟨by decide, by decide, by decide, by decide, by decide⟩).2

/-- A second timeout meets the opening condition as well, and the breaker does not
go from closed to open: it is open already. -/
theorem open_breaker_reaches_threshold :
    ∃ s s', (mdsMachine touchyParams).Reach IncreasingTotals s ∧
      IncreasingTotals s (.feedback (2 * Second) "a" timeoutOutcome 2) ∧
      (mdsMachine touchyParams).step s (.feedback (2 * Second) "a" timeoutOutcome 2) = some s' ∧
      ReachesThreshold touchyParams s s' "a" timeoutOutcome 2 ∧
      ¬(s.mds.isOpen "a" = false ∧ s'.mds.isOpen "a" = true) := by
  refine ⟨touchyOpened, _, touchyOpened_reach, ?_, mdsMachine_step_feedback.mpr ⟨by decide, rfl⟩,
    ⟨by decide, by decide, by decide, by decide⟩, by decide⟩
  intro f hf
  have hTotal : f.total = 1 := by
    have hOnly : touchyOpened.history "a" = [⟨1, true, false⟩] := by decide
    rw [hOnly, mem_singleton] at hf
    rw [hf]
  omega

end DnscryptProxy
