import DnscryptProxy.Base.Maps
import DnscryptProxy.Scheduler.Breaker

/-!
# Which resolver is probed next

A half-open probe is meant for the open resolver that has waited longest past its
next-probe time. `pickHalfOpenProbe` admits a resolver by `nextProbeAt`, but
compares by `openedAt`, and a probe that fails moves the former only. So the
resolver that opened first is picked again and again.

* `probeTarget_least` — the one picked opened first among those that are due;
* `ProbeClocks` — what the two timestamps have to do with each other, in all runs
  in which no probe fails while a breaker waits that opened later;
* `probe_longest_waiting` — in those runs, and in no others, a probe goes to the resolver that
  is due first, and so none is probed again before one that was due before it was re-armed;
* `failed_probe_goes_first` — in general it does not.
-/

namespace DnscryptProxy

open Base LBStrategyMDS Option List Function

namespace LBStrategyMDS

variable {mds : LBStrategyMDS} {now : Time}

/-! ## The pick -/

/-- The resolver that gets the half-open probe of a selection among `cs`. -/
def probeTarget (mds : LBStrategyMDS) (now : Time) (cs : List ResolverCandidate) : Option String :=
  (mds.pickHalfOpenProbe now (mds.scoreAll now cs)).bind fun i => cs[i]?.map (·.server.name)

theorem pickHalfOpenProbeFrom_least {scored : List MdsScored} {i j : Nat}
    {pick : Option (Nat × Time)} {t : Time}
    (h : mds.pickHalfOpenProbeFrom now i pick scored = some (j, t)) :
    (∀ p ∈ pick, t ≤ p.2) ∧ ∀ s ∈ scored, s.open = true → mds.probeDue now s.name = true →
        t ≤ (mds.circuitFor s.name).openedAt := by
  induction scored generalizing i pick with
  | nil =>
    obtain rfl : pick = some (j, t) := h
    refine ⟨?_, by simp⟩
    rintro p ⟨⟩
    exact le_rfl
  | cons s rest ih =>
    rw [pickHalfOpenProbeFrom] at h
    split at h
    · -- the pick after `s` opened no later than `s`, and than the pick before
      have hStep : ∀ pick', mds.pickHalfOpenProbeFrom now (i + 1) pick' rest = some (j, t) →
          (∃ p ∈ pick', p.2 ≤ (mds.circuitFor s.name).openedAt ∧ ∀ q ∈ pick, p.2 ≤ q.2) →
          (∀ q ∈ pick, t ≤ q.2) ∧ ∀ s' ∈ s :: rest, s'.open = true →
            mds.probeDue now s'.name = true → t ≤ (mds.circuitFor s'.name).openedAt := by
        rintro pick' h ⟨p, hp, hLe, hBefore⟩
        obtain ⟨hPick, hRest⟩ := ih h
        refine ⟨fun q hq => (hPick p hp).trans (hBefore q hq), ?_⟩
        intro s' hs' hOpen hDue
        rcases mem_cons.mp hs' with rfl | hs'
        · exact (hPick p hp).trans hLe
        · exact hRest s' hs' hOpen hDue
      cases pick with
      | none => exact hStep _ h ⟨_, rfl, le_rfl, by simp⟩
      | some q =>
        obtain ⟨k, earliest⟩ := q
        dsimp only at h
        split at h
        · next hLt =>
          refine hStep _ h ⟨_, rfl, le_rfl, ?_⟩
          rintro q ⟨⟩
          exact hLt.le
        · next hGe =>
          refine hStep _ h ⟨_, rfl, not_lt.mp hGe, ?_⟩
          rintro q ⟨⟩
          exact le_rfl
    · next hNot =>
      obtain ⟨hPick, hRest⟩ := ih h
      refine ⟨hPick, ?_⟩
      intro s' hs' hOpen hDue
      rcases mem_cons.mp hs' with rfl | hs'
      · exact absurd (by rw [hOpen, hDue]; rfl) hNot
      · exact hRest s' hs' hOpen hDue

/-- The resolver picked for a probe waits for one that is due, and no other
candidate of which that is true opened earlier. -/
theorem probeTarget_least {cs : List ResolverCandidate} {name : String}
    (h : mds.probeTarget now cs = some name) :
    ∃ cb, mds.circuits name = some cb ∧ cb.open = true ∧ cb.nextProbeAt ≤ now ∧
      ∀ c ∈ cs, ∀ cb', mds.circuits c.server.name = some cb' → cb'.open = true →
        cb'.probing = false → cb'.nextProbeAt ≤ now → cb.openedAt ≤ cb'.openedAt := by
  obtain ⟨i, hPick, hName⟩ := bind_eq_some_iff.mp h
  obtain ⟨c, hc, rfl⟩ := map_eq_some_iff.mp hName
  obtain ⟨⟨j, t⟩, hFrom, rfl⟩ := map_eq_some_iff.mp hPick
  -- the candidate behind the pick, with its time
  have hAt : ∃ s, (mds.scoreAll now cs)[j]? = some s ∧ s.open = true ∧
      mds.probeDue now s.name = true ∧ t = (mds.circuitFor s.name).openedAt := by
    refine pickHalfOpenProbeFrom_spec (P := fun j t => ∃ s, (mds.scoreAll now cs)[j]? = some s ∧
      s.open = true ∧ mds.probeDue now s.name = true ∧ t = (mds.circuitFor s.name).openedAt)
      (mds.scoreAll now cs) 0 none (by simp) ?_ j t hFrom
    intro k s hk hOpen hDue
    exact ⟨s, by simpa using hk, hOpen, hDue, rfl⟩
  obtain ⟨s, hs, hOpen, hDue, rfl⟩ := hAt
  obtain ⟨c', hc', hsName, hsOpen⟩ := scoreAll_some hs
  obtain rfl : c = c' := by simpa [hc] using hc'
  rw [hsName] at hDue hFrom
  obtain ⟨cb, hCb, hCbOpen, -, hCbDue⟩ := probeReady_of (hsOpen ▸ hOpen) hDue
  refine ⟨cb, hCb, hCbOpen, hCbDue, ?_⟩
  intro d hd cb' hCb' hOpen' hProbing' hDue'
  obtain ⟨sd, hsd, hsdName, hsdOpen⟩ := exists_scored mds now hd
  have hLeast := (pickHalfOpenProbeFrom_least hFrom).2 sd hsd
    (by rw [hsdOpen]; exact isOpen_iff.mpr ⟨cb', hCb', hOpen'⟩)
    (by simp [hsdName, probeDue, hCb', hProbing', hDue'])
  simpa [circuitFor, hCb, hsdName, hCb'] using hLeast

end LBStrategyMDS

/-! ## The two timestamps -/

/-- The condition on a step: a probe fails only while every other breaker that waits
for its probe, and is due before the failed one is due again, opened before that one. -/
def LastOpenedFails (s : MdsState) : MdsOp → Prop
  | .select _ _ _ _ _ => True
  | .feedback now name o _ =>
    ∀ cb, s.mds.circuits name = some cb → cb.open = true → cb.probing = true →
      o.hardFailure = true →
      ∀ other cb', other ≠ name → s.mds.circuits other = some cb' → cb'.open = true →
        cb'.probing = false → cb'.nextProbeAt < now + s.mds.params.halfOpenInterval →
        cb'.openedAt < cb.openedAt

/-- The timestamps of the open breakers: a probe is due an interval after the breaker
was last armed, and what waits to be due earlier has opened earlier. -/
structure ProbeClocks (interval : Duration) (clock : Time)
    (circuits : String → Option MdsCircuit) : Prop where
  opened : ∀ name cb, circuits name = some cb → cb.open = true →
    cb.openedAt + interval ≤ cb.nextProbeAt
  armed : ∀ name cb, circuits name = some cb → cb.open = true → cb.nextProbeAt ≤ clock + interval
  ordered : ∀ name cb other cb', circuits name = some cb → cb.open = true →
    circuits other = some cb' → cb'.open = true → cb'.probing = false →
    cb'.nextProbeAt < cb.nextProbeAt → cb'.openedAt < cb.openedAt

namespace ProbeClocks

variable {interval : Duration} {clock now : Time} {circuits : String → Option MdsCircuit}

variable {name : String}

theorem later (h : ProbeClocks interval clock circuits) (hLe : clock ≤ now) :
    ProbeClocks interval now circuits where
  opened := h.opened
  armed name cb hCb hOpen := by
    have := h.armed name cb hCb hOpen
    linarith
  ordered := h.ordered

/-- A breaker whose timestamps stay, or that is not open, changes nothing. -/
theorem update_same (h : ProbeClocks interval clock circuits) {cb : MdsCircuit}
    (hSame : cb.open = true → ∃ old, circuits name = some old ∧ old.open = true ∧
      old.openedAt = cb.openedAt ∧ old.nextProbeAt = cb.nextProbeAt ∧
      (cb.probing = false → old.probing = false)) :
    ProbeClocks interval clock (update circuits name (some cb)) := by
  -- every open breaker afterwards was there before, with the same timestamps
  have hOld : ∀ m cm, update circuits name (some cb) m = some cm → cm.open = true →
      ∃ old, circuits m = some old ∧ old.open = true ∧ old.openedAt = cm.openedAt ∧
        old.nextProbeAt = cm.nextProbeAt ∧ (cm.probing = false → old.probing = false) := by
    intro m cm hCm hOpen
    rcases update_some_eq_some.mp hCm with ⟨rfl, rfl⟩ | ⟨-, hCm⟩
    · exact hSame hOpen
    · exact ⟨cm, hCm, hOpen, rfl, rfl, id⟩
  constructor
  · intro m cm hCm hOpen
    obtain ⟨old, hGet, hO, hAt, hNext, -⟩ := hOld m cm hCm hOpen
    rw [← hAt, ← hNext]
    exact h.opened m old hGet hO
  · intro m cm hCm hOpen
    obtain ⟨old, hGet, hO, -, hNext, -⟩ := hOld m cm hCm hOpen
    rw [← hNext]
    exact h.armed m old hGet hO
  · intro m cm k ck hCm hOpen hCk hOpen' hWaits
    obtain ⟨old, hGet, hO, hAt, hNext, -⟩ := hOld m cm hCm hOpen
    obtain ⟨old', hGet', hO', hAt', hNext', hProbing⟩ := hOld k ck hCk hOpen'
    rw [← hAt, ← hNext, ← hAt', ← hNext']
    exact h.ordered m old k old' hGet hO hGet' hO' (hProbing hWaits)

/-- A breaker that is armed now is the last one due; that is in order if no breaker
that waits opened later. -/
theorem update_armed (h : ProbeClocks interval now circuits) {cb : MdsCircuit}
    (hNext : cb.nextProbeAt = now + interval) (hOpened : cb.openedAt ≤ now)
    (hLast : ∀ other cb', other ≠ name → circuits other = some cb' → cb'.open = true →
      cb'.probing = false → cb'.nextProbeAt < cb.nextProbeAt → cb'.openedAt < cb.openedAt) :
    ProbeClocks interval now (update circuits name (some cb)) := by
  constructor
  · intro m cm hCm hOpen
    rcases update_some_eq_some.mp hCm with ⟨rfl, rfl⟩ | ⟨-, hCm⟩
    · linarith
    · exact h.opened m cm hCm hOpen
  · intro m cm hCm hOpen
    rcases update_some_eq_some.mp hCm with ⟨rfl, rfl⟩ | ⟨-, hCm⟩
    · exact hNext.le
    · exact h.armed m cm hCm hOpen
  · intro m cm k ck hCm hOpen hCk hOpen' hWaits hLt
    rcases update_some_eq_some.mp hCm with ⟨rfl, rfl⟩ | ⟨-, hOld⟩
    · rcases update_some_eq_some.mp hCk with ⟨-, rfl⟩ | ⟨hk, hOld'⟩
      · exact absurd hLt (lt_irrefl _)
      · exact hLast k ck hk hOld' hOpen' hWaits hLt
    · rcases update_some_eq_some.mp hCk with ⟨rfl, rfl⟩ | ⟨-, hOld'⟩
      · -- nothing is due later than the breaker armed now
        have := h.armed m cm hOld hOpen
        linarith
      · exact h.ordered m cm k ck hOld hOpen hOld' hOpen' hWaits hLt

/-- An outcome that meets the condition keeps the clocks. -/
theorem feedback {s : MdsState} {o : ExchangeOutcome} {total : Nat}
    (h : ProbeClocks s.mds.params.halfOpenInterval now s.mds.circuits)
    (hLast : LastOpenedFails s (.feedback now name o total)) :
    ProbeClocks s.mds.params.halfOpenInterval now
      (s.mds.observeFeedbackLocked now name o total).circuits := by
  rw [LastOpenedFails] at hLast
  generalize s.mds = mds at h hLast ⊢
  have hBranch := (mds.circuitFor name).observe_step mds.params now o.hardFailure total
  -- an open breaker is there before the outcome
  have hGet : (mds.circuitFor name).open = true →
      mds.circuits name = some (mds.circuitFor name) := by
    unfold circuitFor
    cases mds.circuits name with
    | none => intro hOpen; cases hOpen
    | some cb => intro _; rfl
  show ProbeClocks _ _ (update mds.circuits name (some _))
  generalize hHard : o.hardFailure = hard at hBranch hLast ⊢
  generalize hNew : (mds.circuitFor name).observe mds.params now hard total = cb' at hBranch ⊢
  cases hBranch with
  | probeFailed hOpen hProbing =>
    have hCb := hGet hOpen
    refine h.update_armed rfl ?_ ?_
    · have hOpened := h.opened name _ hCb hOpen
      have hArmed := h.armed name _ hCb hOpen
      linarith
    · exact hLast (mds.circuitFor name) hCb hOpen hProbing rfl
  | opens =>
    refine h.update_armed rfl le_rfl ?_
    intro other cb' _ hOther hOpen' _ hLt
    have hOpened := h.opened other cb' hOther hOpen'
    linarith
  | closes => exact h.update_same fun hOpen => by cases hOpen
  | endsProbation => exact h.update_same fun hOpen => ⟨_, hGet hOpen, hOpen, rfl, rfl, id⟩
  | coldStart => exact h.update_same fun hOpen => ⟨_, hGet hOpen, hOpen, rfl, rfl, id⟩
  | counts => exact h.update_same fun hOpen => ⟨_, hGet hOpen, hOpen, rfl, rfl, id⟩
  | responds => exact h.update_same fun hOpen => ⟨_, hGet hOpen, hOpen, rfl, rfl, id⟩

theorem of_reach {params : MDSParams} {s : MdsState}
    (hs : (mdsMachine params).Reach LastOpenedFails s) :
    ProbeClocks params.halfOpenInterval s.clock s.mds.circuits := by
  refine (hs.invariant (P := fun s => s.mds.params = params ∧
    ProbeClocks params.halfOpenInterval s.clock s.mds.circuits) ?_ ?_).2
  · rintro s ⟨hNew, -⟩
    rw [hNew]
    refine ⟨rfl, ?_, ?_, ?_⟩
    · intro name cb hCb
      cases hCb
    · intro name cb hCb
      cases hCb
    · intro name cb other cb' hCb
      cases hCb
  · rintro s op s' ⟨hParams, ih⟩ hOk hStep
    refine ⟨by rw [mdsMachine_step hStep, apply_params, hParams], ?_⟩
    cases op with
    | select now since draw pickDraw cs =>
      obtain ⟨⟨hNow, hSince⟩, rfl⟩ := mdsMachine_step_select.mp hStep
      have hLater := ih.later (hNow.trans hSince)
      show ProbeClocks _ since (s.mds.apply (.select now since draw pickDraw cs)).circuits
      rw [apply_select_circuits]
      -- a probe that is marked keeps its timestamps
      rcases (s.mds.selectCandidateLocked_breakers now draw pickDraw cs).2 with
        hSame | ⟨name, ⟨cb, hCb, hOpen, -⟩, hMark⟩
      · rw [hSame]
        exact hLater
      · rw [hMark]
        show ProbeClocks _ _ (update s.mds.circuits name _)
        rw [hCb]
        exact hLater.update_same fun _ => ⟨cb, hCb, hOpen, rfl, rfl, nofun⟩
    | feedback now name o total =>
      obtain ⟨hNow, rfl⟩ := mdsMachine_step_feedback.mp hStep
      rw [← hParams] at ih ⊢
      exact (ih.later hNow).feedback hOk

end ProbeClocks

/-! ## Fairness -/

namespace LBStrategyMDS

/-- Whichever candidate is picked for a probe, no open candidate without a probe in
flight is due earlier. -/
def ProbesLongestWaiting (mds : LBStrategyMDS) : Prop :=
  ∀ now cs name cb, mds.probeTarget now cs = some name → mds.circuits name = some cb →
    ∀ c ∈ cs, ∀ cb', mds.circuits c.server.name = some cb' → cb'.open = true →
      cb'.probing = false → cb.nextProbeAt ≤ cb'.nextProbeAt

theorem probesLongestWaiting_of_clocks {mds : LBStrategyMDS} {interval : Duration} {clock : Time}
    (h : ProbeClocks interval clock mds.circuits) : mds.ProbesLongestWaiting := by
  intro now cs name cb hTarget hCb c hc cb' hCb' hOpen' hProbing'
  obtain ⟨picked, hPicked, hOpen, hDue, hLeast⟩ := probeTarget_least hTarget
  obtain rfl : picked = cb := by simpa [hPicked] using hCb
  -- who is due earlier opened earlier, and is due now as well
  by_contra hLt
  rw [not_le] at hLt
  have hEarlier := h.ordered name picked c.server.name cb' hCb hOpen hCb' hOpen' hProbing' hLt
  have hLe := hLeast c hc cb' hCb' hOpen' hProbing' (hLt.le.trans hDue)
  exact absurd hEarlier (not_lt.mpr hLe)

end LBStrategyMDS

variable {o : ExchangeOutcome} {name : String} {s : MdsState} {total : Nat} {now : Time}

theorem MdsCircuit.observe_nextProbeAt (params : MDSParams) (now : Time) (cb : MdsCircuit)
    (hard : Bool) (total : Nat) :
    (cb.observe params now hard total).nextProbeAt = cb.nextProbeAt ∨
      (cb.observe params now hard total).nextProbeAt = now + params.halfOpenInterval := by
  have hBranch := cb.observe_step params now hard total
  generalize cb.observe params now hard total = cb' at hBranch ⊢
  cases hBranch with
  | probeFailed => exact .inr rfl
  | opens => exact .inr rfl
  | _ => exact .inl rfl

/-- The breaker of `name` was armed at `t` or later. -/
def ArmedSince (params : MDSParams) (name : String) (t : Time) (s : MdsState) : Prop :=
  s.mds.params = params ∧ t ≤ s.clock ∧
    ∃ cb, s.mds.circuits name = some cb ∧ t + params.halfOpenInterval ≤ cb.nextProbeAt

/-- A breaker is never armed for an earlier time. -/
theorem ArmedSince.step {params : MDSParams} {t : Time} {s s' : MdsState}
    {op : MdsOp} (h : ArmedSince params name t s)
    (hStep : (mdsMachine params).step s op = some s') : ArmedSince params name t s' := by
  obtain ⟨hParams, hClock, cb, hCb, hNext⟩ := h
  refine ⟨by rw [mdsMachine_step hStep, apply_params, hParams], ?_⟩
  cases op with
  | select now since draw pickDraw cs =>
    obtain ⟨⟨hNow, hSince⟩, rfl⟩ := mdsMachine_step_select.mp hStep
    refine ⟨hClock.trans (hNow.trans hSince), ?_⟩
    rcases s.mds.apply_select_circuit now since draw pickDraw cs name with
      hSame | ⟨cb', hCb', -, -, hMark⟩
    · exact ⟨cb, hSame.trans hCb, hNext⟩
    · obtain rfl : cb = cb' := by simpa [hCb] using hCb'
      exact ⟨_, hMark, hNext⟩
  | feedback now m o total =>
    obtain ⟨hNow, rfl⟩ := mdsMachine_step_feedback.mp hStep
    refine ⟨hClock.trans hNow, ?_⟩
    show ∃ cb, (s.mds.observeFeedbackLocked now m o total).circuits name = some cb ∧ _
    by_cases hm : name = m
    · subst hm
      refine ⟨_, circuits_observeFeedbackLocked_self o total, ?_⟩
      have hFor : s.mds.circuitFor name = cb := by simp [circuitFor, hCb]
      rw [hFor, hParams]
      rcases cb.observe_nextProbeAt params now o.hardFailure total with hEq | hEq
      · rw [hEq]
        exact hNext
      · rw [hEq]
        linarith
    · exact ⟨cb, by rw [circuits_observeFeedbackLocked_of_ne hm, hCb], hNext⟩

/-- The outcome `o` fails the half-open probe of `name`. -/
def MdsState.FailsProbe (s : MdsState) (name : String) (o : ExchangeOutcome) : Prop :=
  ∃ cb, s.mds.circuits name = some cb ∧ cb.open = true ∧ cb.probing = true ∧ o.hardFailure = true

theorem MdsState.FailsProbe.armedSince {params : MDSParams} {s s' : MdsState}
    {t : Time} (h : s.FailsProbe name o)
    (hParams : s.mds.params = params)
    (hStep : (mdsMachine params).step s (.feedback t name o total) = some s') :
    ArmedSince params name t s' := by
  obtain ⟨cb, hCb, hOpen, hProbing, hHard⟩ := h
  obtain ⟨-, rfl⟩ := mdsMachine_step_feedback.mp hStep
  have hFor : s.mds.circuitFor name = cb := by simp [circuitFor, hCb]
  refine ⟨hParams, le_rfl, _, circuits_observeFeedbackLocked_self o total, ?_⟩
  rw [hFor, hParams, hHard]
  simp [MdsCircuit.observe, hOpen, hProbing]

/-- Of two breakers that are due, the first is probed unless the second opened earlier. -/
theorem LBStrategyMDS.probeTarget_pair {mds : LBStrategyMDS} {c d : ResolverCandidate}
    {cb cb' : MdsCircuit} (hCb : mds.circuits c.server.name = some cb) (hOpen : cb.open = true)
    (hWaits : cb.probing = false) (hDue : cb.nextProbeAt ≤ now)
    (hCb' : mds.circuits d.server.name = some cb') (hLe : cb.openedAt ≤ cb'.openedAt) :
    mds.probeTarget now [c, d] = some c.server.name := by
  have hNot : ¬ cb'.openedAt < cb.openedAt := not_lt.mpr hLe
  simp [probeTarget, pickHalfOpenProbe, pickHalfOpenProbeFrom, scoreAll, normalize, scoreOne,
    isOpen, probeDue, hCb, hOpen, hWaits, hDue, hCb', hNot]

/-- The order of the probes is right after an outcome only if that met the condition:
otherwise a resolver that failed its probe is the next one again, with another due for
longer. -/
theorem LastOpenedFails.of_probesLongestWaiting
    (h : (s.feedback now name o total).mds.ProbesLongestWaiting) :
    LastOpenedFails s (.feedback now name o total) := by
  intro cb hCb hOpen hProbing hHard other cb' hNe hOther hOpen' hWaits hDue
  by_contra hLate
  have hFor : s.mds.circuitFor name = cb := by simp [circuitFor, hCb]
  have hArmed : (s.feedback now name o total).mds.circuits name = some
      { cb with
        consecHardFails := (cb.consecHardFails + 1) % 2 ^ 32
        probing := false
        nextProbeAt := now + s.mds.params.halfOpenInterval } := by
    refine (circuits_observeFeedbackLocked_self o total).trans ?_
    simp [hFor, MdsCircuit.observe, hHard, hOpen, hProbing]
  have hKept : (s.feedback now name o total).mds.circuits other = some cb' :=
    (circuits_observeFeedbackLocked_of_ne hNe o total).trans hOther
  have hTarget := probeTarget_pair (c := freshCandidate name) (d := freshCandidate other) hArmed
    hOpen rfl le_rfl hKept (not_lt.mp hLate)
  have hLe := h _ _ name _ hTarget hArmed (freshCandidate other) (by simp) cb' hKept hOpen' hWaits
  exact absurd hDue (not_lt.mpr hLe)

/-- In the runs whose steps meet the condition, and in no others, a probe always goes to a
resolver that no other one has waited longer than. There a resolver that failed its probe
at `t` is not probed again before one that was due before `t`. -/
theorem probe_longest_waiting (params : MDSParams) :
    (∀ s, (mdsMachine params).Reach LastOpenedFails s → s.mds.ProbesLongestWaiting) ∧
    (∀ s op s', (mdsMachine params).step s op = some s' → s'.mds.ProbesLongestWaiting →
      LastOpenedFails s op) ∧
    (0 ≤ params.halfOpenInterval →
      ∀ s₁ s₂ s name o t total, (mdsMachine params).Reach LastOpenedFails s₁ →
        s₁.FailsProbe name o → LastOpenedFails s₁ (.feedback t name o total) →
        (mdsMachine params).step s₁ (.feedback t name o total) = some s₂ →
        ((mdsMachine params).startAt s₂).Reach LastOpenedFails s →
        ∀ now cs, s.mds.probeTarget now cs = some name →
          ∀ c ∈ cs, ∀ cb', s.mds.circuits c.server.name = some cb' → cb'.open = true →
            cb'.probing = false → t ≤ cb'.nextProbeAt) := by
  have hFair : ∀ s, (mdsMachine params).Reach LastOpenedFails s → s.mds.ProbesLongestWaiting :=
    fun s hs => probesLongestWaiting_of_clocks (ProbeClocks.of_reach hs)
  refine ⟨hFair, ?_, ?_⟩
  · intro s op s' hStep hAfter
    cases op with
    | select => trivial
    | feedback now name o total =>
      obtain ⟨-, rfl⟩ := mdsMachine_step_feedback.mp hStep
      exact .of_probesLongestWaiting hAfter
  intro hInterval s₁ s₂ s name o t total hs₁ hFails hOk hStep hs now cs hTarget
    c hc cb' hCb' hOpen' hProbing'
  have hArmed : ArmedSince params name t s := by
    refine hs.invariant (P := ArmedSince params name t) ?_ fun _ _ _ ih _ hNext => ih.step hNext
    rintro _ rfl
    exact hFails.armedSince (params_of_reach hs₁) hStep
  obtain ⟨-, -, cb, hCb, hNext⟩ := hArmed
  have hReach := (Machine.Reach.step hs₁ hOk hStep).of_startAt hs
  have hLe := hFair s hReach now cs name cb hTarget hCb c hc cb' hCb' hOpen' hProbing'
  linarith

/-! ### Two resolvers -/

theorem LastOpenedFails.of_not_probing (h : s.mds.isProbing name = false) :
    LastOpenedFails s (.feedback now name o total) := by
  intro cb hCb _ hProbing
  simp [isProbing, hCb, hProbing] at h

theorem MdsState.select_circuits_none {now since : Time} {draw : ℚ}
    {pickDraw : Nat} {cs : List ResolverCandidate} {m : String} (h : s.mds.circuits m = none) :
    (s.select now since draw pickDraw cs).mds.circuits m = none := by
  rcases s.mds.apply_select_circuit now since draw pickDraw cs m with hSame | ⟨cb, hCb, -⟩
  · exact hSame.trans h
  · rw [h] at hCb
    cases hCb

def twoCandidates : List ResolverCandidate :=
  let candidate (name : String) : ResolverCandidate :=
    { server := { name, initialRtt := 10, noFilter := false, dnssec := false }
      metrics := newResolverMetricsWithWindow metricsWindow }
  [candidate "a", candidate "b"]

/-- `a` opened, and its probe is out. -/
def probedOnce : MdsState := touchyOpened.select (11 * Second) (11 * Second) 1 0 twoCandidates

/-- The probe of `a` failed. -/
def probeFailed : MdsState := probedOnce.feedback (12 * Second) "a" timeoutOutcome 2

/-- Then `b` opened. -/
def rearmedOnce : MdsState := probeFailed.feedback (13 * Second) "b" timeoutOutcome 1

/-- `a` failed its probe before `b` opened, and is the first to be probed again. -/
theorem probe_longest_waiting_rearmed :
    rearmedOnce.mds.ProbesLongestWaiting ∧
      rearmedOnce.mds.probeTarget (30 * Second) twoCandidates = some "a" ∧
      ∀ cb', rearmedOnce.mds.circuits "b" = some cb' → cb'.open = true → cb'.probing = false →
        12 * Second ≤ cb'.nextProbeAt := by
  -- the condition holds at every step: a probe fails only once, with no other breaker there
  have hOpened : (mdsMachine touchyParams).Reach LastOpenedFails touchyOpened :=
    .step (.init (newMdsState_init touchyParams)) (.of_not_probing rfl) touchyOpened_step
  have hProbed : (mdsMachine touchyParams).Reach LastOpenedFails probedOnce :=
    .step (l := .select (11 * Second) (11 * Second) 1 0 twoCandidates) hOpened trivial
      (mdsMachine_step_select.mpr ⟨by decide, rfl⟩)
  have hOk : LastOpenedFails probedOnce (.feedback (12 * Second) "a" timeoutOutcome 2) := by
    intro cb _ _ _ _ other cb' hNe hCb'
    have hNone : touchyOpened.mds.circuits other = none := update_of_ne hNe _ _
    rw [probedOnce, MdsState.select_circuits_none hNone] at hCb'
    cases hCb'
  have hFails : probedOnce.FailsProbe "a" timeoutOutcome := by
    have hAny : (probedOnce.mds.circuits "a").any (fun cb => cb.open && cb.probing) = true := by
      decide +kernel
    obtain ⟨cb, hCb, hBoth⟩ := any_eq_true _ _ |>.mp hAny
    rw [Bool.and_eq_true] at hBoth
    exact ⟨cb, hCb, hBoth.1, hBoth.2, rfl⟩
  have hStep : (mdsMachine touchyParams).step probedOnce
      (.feedback (12 * Second) "a" timeoutOutcome 2) = some probeFailed :=
    mdsMachine_step_feedback.mpr ⟨by decide, rfl⟩
  have hFrom : ((mdsMachine touchyParams).startAt probeFailed).Reach LastOpenedFails rearmedOnce :=
    .step (l := .feedback (13 * Second) "b" timeoutOutcome 1) (.init rfl)
      (.of_not_probing (by decide +kernel))
      (show (mdsMachine touchyParams).step _ _ = _ from
        mdsMachine_step_feedback.mpr ⟨by decide, rfl⟩)
  have hTarget : rearmedOnce.mds.probeTarget (30 * Second) twoCandidates = some "a" := by
    decide +kernel
  obtain ⟨hFair, -, hAgain⟩ := probe_longest_waiting touchyParams
  refine ⟨hFair _ ((Machine.Reach.step hProbed hOk hStep).of_startAt hFrom), hTarget, ?_⟩
  exact hAgain (by decide) probedOnce _ rearmedOnce "a" timeoutOutcome (12 * Second) 2 hProbed
    hFails hOk hStep hFrom (30 * Second) twoCandidates hTarget _
    (mem_cons_of_mem _ mem_cons_self)

/-- Both open, `a` first; the probe of `a` fails when `b` has been due for a second. -/
def unfairRun : List MdsOp :=
  [.feedback (1 * Second) "a" timeoutOutcome 1, .feedback (2 * Second) "b" timeoutOutcome 1,
    .select (11 * Second) (11 * Second) 1 0 twoCandidates,
    .feedback (13 * Second) "a" timeoutOutcome 2]

/-- Ten seconds later `a` is probed again, and `b` still has not been. -/
theorem failed_probe_goes_first :
    ∃ s, (mdsMachine touchyParams).Reach Machine.anyStep s ∧
      s.mds.probeTarget (23 * Second) twoCandidates = some "a" ∧
      (s.mds.circuits "a").map (·.nextProbeAt) = some (23 * Second) ∧
      (s.mds.circuits "b").map (fun cb => (cb.open, cb.probing, cb.nextProbeAt)) =
        some (true, false, 12 * Second) := by
  have hRun : ((mdsMachine touchyParams).exec (newMdsState touchyParams) unfairRun).map
      (fun s => (s.mds.probeTarget (23 * Second) twoCandidates,
        (s.mds.circuits "a").map (·.nextProbeAt),
        (s.mds.circuits "b").map (fun cb => (cb.open, cb.probing, cb.nextProbeAt)))) =
      some (some "a", some (23 * Second), some (true, false, 12 * Second)) := by decide +kernel
  obtain ⟨s, hs, hEq⟩ := map_eq_some_iff.mp hRun
  simp only [Prod.mk.injEq] at hEq
  exact ⟨s, Machine.Reach.exec (fun _ _ _ => trivial) (.init (newMdsState_init touchyParams)) hs,
    hEq⟩

end DnscryptProxy
