import DnscryptProxy.Scheduler.MdsRun
import Mathlib.Algebra.BigOperators.Finprod

/-!
# The sticky primary

A selection moves the primary only along two of its paths: when there is no
healthy primary to stick to, or when a challenger leads by the margin and the
primary has dwelt long enough. Half-open probes and exploration are one query
long.

* `SelectionPath.primary` — the two paths, and what they require;
* `StickyRun` — what holds throughout a run;
* `primary_is_sticky` — the result over all runs: a healthy primary is deposed at
  most once in every dwell interval, and the switch counters agree.
-/

namespace DnscryptProxy

open Base LBStrategyMDS List Function

namespace LBStrategyMDS

variable {mds mds' : LBStrategyMDS} {now : Time}

/-! ## Switch counters -/

/-- The total of the switches is the sum over the resolvers. -/
def SwitchesCounted (mds : LBStrategyMDS) : Prop :=
  mds.switchesByName.HasFiniteSupport ∧ mds.totalSwitches = ∑ᶠ name, mds.switchesByName name

theorem finsum_update_succ {f : String → Nat} (hf : f.HasFiniteSupport) (a : String) :
    (update f a (f a + 1)).HasFiniteSupport ∧ ∑ᶠ x, update f a (f a + 1) x = ∑ᶠ x, f x + 1 := by
  have hSplit : update f a (f a + 1) = fun x => f x + (Pi.single a 1 : String → Nat) x := by
    funext x
    by_cases hx : x = a
    · subst hx
      simp
    · simp [hx]
  have hSingle : (Pi.single a 1 : String → Nat).HasFiniteSupport :=
    (Set.finite_singleton a).subset Pi.support_single_subset
  rw [hSplit]
  refine ⟨hf.add hSingle, ?_⟩
  have hOne : ∑ᶠ x, (Pi.single a 1 : String → Nat) x = 1 := by
    rw [finsum_eq_single _ a fun x hx => Pi.single_eq_of_ne hx 1]
    exact Pi.single_eq_same a 1
  -- the sum splits into the old one and the single new switch
  rw [finsum_add_distrib hf hSingle, hOne]

theorem SwitchesCounted.becomePrimary (h : mds.SwitchesCounted) (now : Time) (name : String) :
    (mds.becomePrimary now name).SwitchesCounted := by
  unfold LBStrategyMDS.becomePrimary
  split
  · exact h
  · obtain ⟨hFinite, hSum⟩ := finsum_update_succ h.1 name
    exact ⟨hFinite, hSum.symm ▸ congrArg (· + 1) h.2⟩

/-! ## One selection -/

/-- Nothing about the primary differs between the two schedulers. -/
structure SamePrimary (mds mds' : LBStrategyMDS) : Prop where
  name : mds'.primaryName = mds.primaryName
  since : mds'.primarySince = mds.primarySince
  total : mds'.totalSwitches = mds.totalSwitches
  byName : mds'.switchesByName = mds.switchesByName

theorem SamePrimary.counted (h : mds.SamePrimary mds') (hCounted : mds.SwitchesCounted) :
    mds'.SwitchesCounted := by
  unfold SwitchesCounted
  rw [h.total, h.byName]
  exact hCounted

/-- What it takes to depose a healthy primary. -/
structure Outscored (mds : LBStrategyMDS) (now : Time) (scored : List MdsScored)
    (name : String) : Prop where
  dwelt : mds.params.dwell ≤ now - mds.primarySince
  margin : ∃ new ∈ scored, ∃ old ∈ scored, new.name = name ∧ old.name = mds.primaryName ∧
    mds.params.switchMargin ≤ new.base - old.base

variable {draw : ℚ} {pickDraw : Nat} {cs : List ResolverCandidate} {scored : List MdsScored}
variable {r : LBStrategyMDS × Nat}

theorem SelectionPath.primary (h : SelectionPath mds now draw pickDraw scored r) :
    mds.SamePrimary r.1 ∨ ∃ name, r.1 = mds.becomePrimary now name ∧
      (mds.NoPrimary scored ∨ mds.Outscored now scored name) := by
  cases h with
  | probe => exact .inl ⟨rfl, rfl, rfl, rfl⟩
  | explore => exact .inl ⟨rfl, rfl, rfl, rfl⟩
  | stay => exact .inl ⟨rfl, rfl, rfl, rfl⟩
  | @switch p j primary other _ hIdx hPrimary _ hOther hDwell hMargin =>
    refine .inr ⟨other.name, rfl, .inr ⟨hDwell, other, ?_, primary, ?_, rfl, ?_, hMargin⟩⟩
    · exact mem_of_getElem? (bestHealthy_some hOther).1
    · exact mem_of_getElem? hPrimary
    · exact primaryIdx_some hIdx hPrimary
  | @best j s _ hNone _ => exact .inr ⟨s.name, rfl, .inl hNone⟩
  | @lastResort j s _ hNone _ _ => exact .inr ⟨s.name, rfl, .inl hNone⟩

/-- A probe is not a switch. -/
theorem SelectionPath.primary_of_probe (h : SelectionPath mds now draw pickDraw scored r)
    (hProbe : mds.pickHalfOpenProbe now scored ≠ none) : mds.SamePrimary r.1 := by
  cases h with
  | probe => exact ⟨rfl, rfl, rfl, rfl⟩
  | explore hNone => exact absurd hNone hProbe
  | stay hNone => exact absurd hNone hProbe
  | switch hNone => exact absurd hNone hProbe
  | best hNone => exact absurd hNone hProbe
  | lastResort hNone => exact absurd hNone hProbe

/-- A primary that is a candidate with a closed breaker is one to stick to. -/
theorem not_noPrimary {c : ResolverCandidate} (hc : c ∈ cs)
    (hName : c.server.name = mds.primaryName)
    (hClosed : mds.isOpen mds.primaryName = false) : ¬mds.NoPrimary (mds.scoreAll now cs) := by
  intro hNone
  obtain ⟨s, hs, hsName, -⟩ := exists_scored mds now hc
  -- some entry has the name of the primary, so there is a first one
  cases hIdx : mds.primaryIdx (mds.scoreAll now cs) with
  | none =>
    have hNot := findIdx?_eq_none_iff.mp hIdx s hs
    rw [hsName, hName] at hNot
    simp at hNot
  | some p =>
    obtain ⟨hLt, -, -⟩ := findIdx?_eq_some_iff_getElem.mp hIdx
    have hGet := getElem?_eq_getElem hLt
    have hOpen := hNone p _ hIdx hGet
    obtain ⟨c', -, hName', hOpen'⟩ := scoreAll_some hGet
    rw [hOpen', ← hName', primaryIdx_some hIdx hGet, hClosed] at hOpen
    cases hOpen

/-- The scheduler after `name` took over, with the second clock reading. -/
def switchedTo (mds : LBStrategyMDS) (now since : Time) (name : String) : LBStrategyMDS :=
  { mds.becomePrimary now name with primarySince := since }

theorem switchedTo_primaryName (now since : Time) (name : String) :
    (mds.switchedTo now since name).primaryName = name := by
  unfold switchedTo becomePrimary
  split
  · next h => exact h
  · rfl

theorem selectAt_primary (hLen : 2 ≤ cs.length) (since : Time) :
    mds.SamePrimary (mds.selectAt now since draw pickDraw cs).1 ∨ ∃ name, name ≠ mds.primaryName ∧
        (mds.selectAt now since draw pickDraw cs).1 = mds.switchedTo now since name ∧
        (mds.NoPrimary (mds.scoreAll now cs) ∨ mds.Outscored now (mds.scoreAll now cs) name) := by
  have hPath : SelectionPath mds now draw pickDraw (mds.scoreAll now cs)
      (mds.selectCandidateLocked now draw pickDraw cs) := selectCandidateLocked_path hLen
  unfold selectAt
  rcases hPath.primary with hSame | ⟨name, hEq, hWhy⟩
  · rw [if_pos hSame.name]
    exact .inl hSame
  · by_cases hName : name = mds.primaryName
    · -- the same resolver again
      have hSame : mds.SamePrimary (mds.selectCandidateLocked now draw pickDraw cs).1 := by
        rw [hEq, becomePrimary, if_pos hName.symm]
        exact ⟨rfl, rfl, rfl, rfl⟩
      rw [if_pos hSame.name]
      exact .inl hSame
    · have hNew : (mds.selectCandidateLocked now draw pickDraw cs).1.primaryName ≠
          mds.primaryName := by
        rw [hEq]
        exact fun h => hName ((mds.switchedTo_primaryName now since name).symm.trans h)
      rw [if_neg hNew]
      refine .inr ⟨name, hName, ?_, hWhy⟩
      rw [hEq]
      rfl

theorem SamePrimary.selectAt
    (h : mds.SamePrimary (mds.selectCandidateLocked now draw pickDraw cs).1)
    (since : Time) : mds.SamePrimary (mds.selectAt now since draw pickDraw cs).1 := by
  unfold LBStrategyMDS.selectAt
  rw [if_pos h.name]
  exact h

end LBStrategyMDS

/-! ## Whole runs -/

/-- Candidate lists of two distinctly named resolvers or more. -/
def DistinctLists (_ : MdsState) : MdsOp → Prop
  | .select _ _ _ _ cs => 2 ≤ cs.length ∧ (cs.map (·.server.name)).Nodup
  | .feedback .. => True

/-- What holds throughout a run. -/
structure StickyRun (params : MDSParams) (s : MdsState) : Prop where
  counted : s.mds.SwitchesCounted
  /-- every switch has its time, and it is not in the future -/
  past : ∀ sw ∈ s.switches, sw.decided ≤ sw.since ∧ sw.since ≤ s.clock
  /-- the primary is there since the last switch -/
  latest : ∀ sw ∈ s.switches, sw.since ≤ s.mds.primarySince
  /-- a switch that deposes a healthy primary has waited after all earlier ones -/
  spaced : s.switches.Pairwise fun later earlier =>
    later.deposed = true → params.dwell ≤ later.decided - earlier.since

namespace StickyRun

variable {params : MDSParams} {s s' : MdsState}

variable {cs : List ResolverCandidate}

theorem primaryHealthy_iff :
    s.primaryHealthy cs = true ↔ (∃ c ∈ cs, c.server.name = s.mds.primaryName) ∧
      s.mds.isOpen s.mds.primaryName = false := by
  simp [MdsState.primaryHealthy]

/-- A healthy primary is deposed only by a resolver that outscores it. -/
theorem outscored_of_switch {now since : Time} {draw : ℚ} {pickDraw : Nat}
    (hLen : 2 ≤ cs.length) (hHealthy : s.primaryHealthy cs = true)
    (hSwitch : (s.select now since draw pickDraw cs).mds.primaryName ≠ s.mds.primaryName) :
    s.mds.Outscored now (s.mds.scoreAll now cs)
      (s.select now since draw pickDraw cs).mds.primaryName := by
  obtain ⟨⟨c, hc, hName⟩, hClosed⟩ := primaryHealthy_iff.mp hHealthy
  have hMds : (s.select now since draw pickDraw cs).mds =
      (s.mds.selectAt now since draw pickDraw cs).1 := rfl
  rw [hMds] at hSwitch ⊢
  -- no switch, a switch without a primary to stick to, or a challenger that won
  rcases s.mds.selectAt_primary hLen since with hSame | ⟨name, -, hEq, hNone | hOut⟩
  · exact absurd hSame.name hSwitch
  · exact absurd hNone (not_noPrimary hc hName hClosed)
  · rw [hEq, switchedTo_primaryName]
    exact hOut

theorem select (h : StickyRun params s) (hParams : s.mds.params = params) {now since : Time}
    {draw : ℚ} {pickDraw : Nat} (hNow : s.clock ≤ now)
    (hSince : now ≤ since) (hLen : 2 ≤ cs.length) :
    StickyRun params (s.select now since draw pickDraw cs) := by
  have hMds : (s.select now since draw pickDraw cs).mds =
      (s.mds.selectAt now since draw pickDraw cs).1 := rfl
  have hPast : ∀ sw ∈ s.switches, sw.decided ≤ sw.since ∧ sw.since ≤ since := by
    intro sw hsw
    obtain ⟨hOrder, hClock⟩ := h.past sw hsw
    exact ⟨hOrder, hClock.trans (hNow.trans hSince)⟩
  rcases s.mds.selectAt_primary hLen since with hSame | ⟨name, hNe, hEq, -⟩
  · -- no switch
    have hSwitches : (s.select now since draw pickDraw cs).switches = s.switches :=
      if_pos hSame.name
    refine ⟨hSame.counted h.counted, ?_, ?_, ?_⟩
    · rw [hSwitches]
      exact hPast
    · rw [hSwitches, hMds, hSame.since]
      exact h.latest
    · rw [hSwitches]
      exact h.spaced
  · have hName : (s.select now since draw pickDraw cs).mds.primaryName ≠ s.mds.primaryName := by
      rw [hMds, hEq, switchedTo_primaryName]
      exact hNe
    have hSwitches : (s.select now since draw pickDraw cs).switches =
        ⟨now, since, s.primaryHealthy cs⟩ :: s.switches := if_neg hName
    refine ⟨?_, ?_, ?_, ?_⟩
    · rw [hMds, hEq]
      exact h.counted.becomePrimary now name
    · rw [hSwitches]
      intro sw hsw
      rcases mem_cons.mp hsw with rfl | hsw
      · exact ⟨hSince, le_refl since⟩
      · exact hPast sw hsw
    · rw [hSwitches, hMds, hEq]
      intro sw hsw
      rcases mem_cons.mp hsw with rfl | hsw
      · exact le_refl since
      · exact (hPast sw hsw).2
    · -- a deposed primary has dwelt, and it is there since the last switch
      rw [hSwitches, pairwise_cons]
      refine ⟨?_, h.spaced⟩
      intro earlier hEarlier hDeposed
      have hDwelt := (outscored_of_switch hLen hDeposed hName).dwelt
      have hLatest := h.latest earlier hEarlier
      rw [hParams] at hDwelt
      exact hDwelt.trans (Int.sub_le_sub_left hLatest now)

theorem feedback (h : StickyRun params s) {now : Time} (name : String) (o : ExchangeOutcome)
    (total : Nat) (hNow : s.clock ≤ now) : StickyRun params (s.feedback now name o total) := by
  refine ⟨h.counted, ?_, h.latest, h.spaced⟩
  intro sw hsw
  obtain ⟨hOrder, hClock⟩ := h.past sw hsw
  exact ⟨hOrder, hClock.trans hNow⟩

theorem of_reach (hs : (mdsMachine params).Reach DistinctLists s) : StickyRun params s := by
  have hBoth : s.mds.params = params ∧ StickyRun params s := by
    refine hs.invariant (P := fun s => s.mds.params = params ∧ StickyRun params s) ?_ ?_
    · rintro s ⟨hNew, hSwitches, -⟩
      refine ⟨by rw [hNew]; rfl, ?_, ?_, ?_, ?_⟩
      · rw [hNew]
        refine ⟨?_, ?_⟩
        · exact Set.finite_empty.subset fun name hName => hName rfl
        · exact (finsum_zero (α := String)).symm
      -- no switch so far: the rest is about an empty list
      all_goals simp [hSwitches]
    · intro s op s' ⟨hParams, ih⟩ hOk hStep
      have hParams' : s'.mds.params = params := by
        rw [mdsMachine_step hStep, apply_params]
        exact hParams
      refine ⟨hParams', ?_⟩
      cases op with
      | select now since draw pickDraw cs =>
        obtain ⟨⟨hNow, hSince⟩, rfl⟩ := mdsMachine_step_select.mp hStep
        exact ih.select hParams hNow hSince hOk.1
      | feedback now name o total =>
        obtain ⟨hNow, rfl⟩ := mdsMachine_step_feedback.mp hStep
        exact ih.feedback name o total hNow
  exact hBoth.2

/-- A healthy primary is deposed at most once in an interval of length `dwell`. -/
theorem deposed_le_one (h : StickyRun params s) (t : Time) :
    (s.switches.filter fun sw => sw.deposed &&
      decide (t ≤ sw.decided ∧ sw.decided < t + params.dwell)).length ≤ 1 := by
  have hSpaced := h.spaced.filter fun sw => sw.deposed &&
    decide (t ≤ sw.decided ∧ sw.decided < t + params.dwell)
  generalize hInside : (s.switches.filter fun sw => sw.deposed &&
    decide (t ≤ sw.decided ∧ sw.decided < t + params.dwell)) = inside at hSpaced
  match inside, hInside, hSpaced with
  | [], _, _ => simp
  | [_], _, _ => simp
  | later :: earlier :: rest, hInside, hSpaced =>
    have hMem : ∀ sw ∈ later :: earlier :: rest, sw ∈ s.switches ∧ sw.deposed = true ∧
        t ≤ sw.decided ∧ sw.decided < t + params.dwell := by
      intro sw hsw
      rw [← hInside, mem_filter, Bool.and_eq_true, decide_eq_true_eq] at hsw
      exact hsw
    -- the later of two has waited for `dwell` after the earlier, which is in the interval too
    obtain ⟨-, hDeposed, -, hBefore⟩ := hMem later (by simp)
    obtain ⟨hOld, -, hAfter, -⟩ := hMem earlier (by simp)
    have hGap := (pairwise_cons.mp hSpaced).1 earlier (by simp) hDeposed
    have hOrder := (h.past earlier hOld).1
    linarith

end StickyRun

/-- **The primary is sticky.** In every run over lists of distinctly named
resolvers: the switch counters agree; a switch that deposes a healthy primary
comes at least `dwell` after every switch before it, so at most one falls into
any interval of that length; and a selection deposes a primary that is a
candidate with a breaker that is not open only after `dwell` and for a lead of
`switchMargin`. Half-open probes and exploration leave the primary alone. -/
theorem primary_is_sticky {params : MDSParams} {s : MdsState}
    (hs : (mdsMachine params).Reach DistinctLists s) :
    s.mds.SwitchesCounted ∧ (s.switches.Pairwise fun later earlier =>
        later.deposed = true → params.dwell ≤ later.decided - earlier.since) ∧
      (∀ t, (s.switches.filter fun sw => sw.deposed &&
        decide (t ≤ sw.decided ∧ sw.decided < t + params.dwell)).length ≤ 1) ∧
      ∀ now since draw pickDraw cs s', DistinctLists s (.select now since draw pickDraw cs) →
        (mdsMachine params).step s (.select now since draw pickDraw cs) = some s' →
        ((∃ c ∈ cs, c.server.name = s.mds.primaryName) → s.mds.isOpen s.mds.primaryName = false →
          s'.mds.primaryName ≠ s.mds.primaryName →
          params.dwell ≤ now - s.mds.primarySince ∧
            ∃ new ∈ s.mds.scoreAll now cs, ∃ old ∈ s.mds.scoreAll now cs,
              new.name = s'.mds.primaryName ∧ old.name = s.mds.primaryName ∧
                params.switchMargin ≤ new.base - old.base) ∧
        (s.mds.pickHalfOpenProbe now (s.mds.scoreAll now cs) ≠ none ∨
            s.mds.Explores now draw pickDraw cs →
          s.mds.SamePrimary s'.mds) := by
  have hRun := StickyRun.of_reach hs
  have hParams := params_of_reach hs
  refine ⟨hRun.counted, hRun.spaced, hRun.deposed_le_one, ?_⟩
  intro now since draw pickDraw cs s' hOk hStep
  obtain ⟨-, rfl⟩ := mdsMachine_step_select.mp hStep
  constructor
  · intro hPresent hClosed hSwitch
    have hHealthy := StickyRun.primaryHealthy_iff.mpr ⟨hPresent, hClosed⟩
    have hOut := StickyRun.outscored_of_switch hOk.1 hHealthy hSwitch
    rw [← hParams]
    exact ⟨hOut.dwelt, hOut.margin⟩
  · intro hPath
    refine LBStrategyMDS.SamePrimary.selectAt ?_ since
    rcases hPath with hProbe | hExplores
    · exact (selectCandidateLocked_path hOk.1).primary_of_probe hProbe
    · obtain ⟨j, -, hEq⟩ := selectCandidateLocked_explores hOk.1 hExplores
      rw [hEq]
      exact ⟨rfl, rfl, rfl, rfl⟩

/-- `a` falls behind after the first selection; the next ones are 1 s and 6 s later. -/
def fallingBehind : List MdsOp :=
  let behind := { freshCandidate "a" with server.initialRtt := 200 }
  [.select Second Second 1 0 [freshCandidate "a", freshCandidate "b"],
    .select (2 * Second) (2 * Second) 1 0 [behind, freshCandidate "b"],
    .select (7 * Second) (7 * Second) 1 0 [behind, freshCandidate "b"]]

/-- Of the two switches in this run, the second deposes `a`, which is healthy: it comes
with the third selection. -/
theorem primary_is_sticky_behind :
    ∃ s, (mdsMachine defaultMDSParams).Reach DistinctLists s ∧ s.mds.SwitchesCounted ∧
      s.mds.totalSwitches = 2 ∧ s.mds.primaryName = "b" ∧
      ∃ later earlier, s.switches = [later, earlier] ∧ later.deposed = true ∧
        5 * Second ≤ later.decided - earlier.since := by
  have hRun : ((mdsMachine defaultMDSParams).exec (newMdsState defaultMDSParams) fallingBehind).map
      (fun s => (s.mds.totalSwitches, s.mds.primaryName, s.switches)) =
        some (2, "b", [⟨7 * Second, 7 * Second, true⟩, ⟨Second, Second, false⟩]) := by
    decide +kernel
  obtain ⟨s, hs, hEnd⟩ := Option.map_eq_some_iff.mp hRun
  simp only [Prod.mk.injEq] at hEnd
  have hLists : ∀ op ∈ fallingBehind, ∀ s, DistinctLists s op := by
    simp [fallingBehind, DistinctLists, freshCandidate]
  have hReach := Machine.Reach.exec hLists (.init (newMdsState_init defaultMDSParams)) hs
  obtain ⟨hCounted, hSpaced, -⟩ := primary_is_sticky hReach
  rw [hEnd.2.2] at hSpaced
  exact ⟨s, hReach, hCounted, hEnd.1, hEnd.2.1, _, _, hEnd.2.2, rfl,
    (pairwise_cons.mp hSpaced).1 _ (mem_singleton_self _) rfl⟩

end DnscryptProxy
