import DnscryptProxy.Scheduler.Selection

/-!
# Who gets a query

The results about open breakers and about exploration that are read off the paths
of a selection.

* `explorable_of_pick` — exploration uses neither the primary nor an open resolver,
  and warming ones first;
* `open_resolver_excluded` — a resolver with an open breaker gets a query only
  as a probe that is due, or when all breakers are open and none is due.
-/

namespace DnscryptProxy

open Option List

namespace LBStrategyMDS

variable {mds mds' : LBStrategyMDS} {now : Time} {draw : ℚ} {pickDraw : Nat}
variable {cs : List ResolverCandidate} {i : Nat}

/-! ## Exploration -/

/-- The candidate is judged under warmup semantics. -/
def IsWarming (mds : LBStrategyMDS) (now : Time) (c : ResolverCandidate) : Bool :=
  mds.isWarmingLocked c.server.name (c.metrics.snapshot now).totalSamples mds.params.warmupSamples

/-- Exploration may use this candidate: it is not the primary, and its breaker
is not open. -/
def Explorable (mds : LBStrategyMDS) (c : ResolverCandidate) : Prop :=
  c.server.name ≠ mds.primaryName ∧ mds.isOpen c.server.name = false

/-- The exploration path is taken. -/
def Explores (mds : LBStrategyMDS) (now : Time) (draw : ℚ) (pickDraw : Nat)
    (cs : List ResolverCandidate) : Prop :=
  mds.pickHalfOpenProbe now (mds.scoreAll now cs) = none ∧ draw < mds.params.exploreProb ∧
    pickExploreTarget (mds.scoreAll now cs) (mds.primaryIdx (mds.scoreAll now cs)) pickDraw ≠ none

theorem pickExploreTarget_ne_none {scored : List MdsScored} {primary : Option Nat} {k : Nat}
    (hk : k ∈ exploreIdxs scored primary) : pickExploreTarget scored primary pickDraw ≠ none := by
  have hPick : ∀ pool : List Nat, 0 < pool.length → pool[pickDraw % pool.length]? ≠ none := by
    intro pool hPos hNone
    rw [getElem?_eq_none_iff] at hNone
    have hLt := Nat.mod_lt pickDraw hPos
    omega
  have hHealthy := length_pos_of_mem hk
  unfold pickExploreTarget
  dsimp only
  split
  · next hWarm =>
    rw [if_neg (by omega)]
    exact hPick _ hWarm
  · rw [if_neg (by omega)]
    exact hPick _ hHealthy

/-- A candidate that exploration may use is among its indices. -/
theorem mem_exploreIdxs_of_explorable {k : Nat} {c : ResolverCandidate} (hc : cs[k]? = some c)
    (h : mds.Explorable c) :
    k ∈ exploreIdxs (mds.scoreAll now cs) (mds.primaryIdx (mds.scoreAll now cs)) := by
  obtain ⟨s, hs, hName, hOpen⟩ := exists_scored_at mds now hc
  refine mem_exploreIdxs.mpr ⟨_, hs, ?_, hOpen.trans h.2⟩
  intro hIdx
  exact h.1 (hName.symm.trans (primaryIdx_some hIdx.symm hs))

theorem primaryIdx_of_name (hNames : (cs.map (·.server.name)).Nodup) {c : ResolverCandidate}
    (hc : cs[i]? = some c) (hName : c.server.name = mds.primaryName) :
    mds.primaryIdx (mds.scoreAll now cs) = some i := by
  obtain ⟨s, hs, hsName, -⟩ := exists_scored_at mds now hc
  cases hIdx : mds.primaryIdx (mds.scoreAll now cs) with
  | none =>
    have hNot := findIdx?_eq_none_iff.mp hIdx s (mem_of_getElem? hs)
    rw [hsName, hName] at hNot
    simp at hNot
  | some p =>
    -- the candidates at `p` and at `i` have the same name
    obtain ⟨hLt, -, -⟩ := findIdx?_eq_some_iff_getElem.mp hIdx
    have hp := getElem?_eq_getElem hLt
    obtain ⟨c', hc', hName', -⟩ := scoreAll_some hp
    rw [length_scoreAll, ← length_map (·.server.name)] at hLt
    refine congrArg some ((getElem?_inj hLt hNames).mp ?_)
    rw [getElem?_map, getElem?_map, hc, hc', map_some, map_some, hName,
      ← hName', primaryIdx_some hIdx hp]

theorem explorable_of_pick (hNames : (cs.map (·.server.name)).Nodup)
    (h : pickExploreTarget (mds.scoreAll now cs) (mds.primaryIdx (mds.scoreAll now cs)) pickDraw =
      some i) :
    ∃ c, cs[i]? = some c ∧ mds.Explorable c ∧
      ((∃ c' ∈ cs, mds.Explorable c' ∧ mds.IsWarming now c' = true) →
        mds.IsWarming now c = true) := by
  obtain ⟨hMem, hFirst⟩ := pickExploreTarget_spec h
  have hWarm : ∀ (k : Nat) (c : ResolverCandidate), cs[k]? = some c →
      (mds.scoreAll now cs)[k]?.any (·.warming) = mds.IsWarming now c := by
    intro k c hc
    obtain ⟨best, worst, hEq⟩ := scoreAll_getElem? mds now cs k
    rw [hEq, hc]
    rfl
  obtain ⟨s, hs, hNe, hClosed⟩ := mem_exploreIdxs.mp hMem
  obtain ⟨c, hc, -, hOpen⟩ := scoreAll_some hs
  refine ⟨c, hc, ⟨?_, hOpen ▸ hClosed⟩, ?_⟩
  · intro hName
    exact hNe (primaryIdx_of_name hNames hc hName).symm
  · rintro ⟨c', hc', ⟨hOther, hClosed'⟩, hWarming⟩
    rw [← hWarm i c hc]
    -- the warming candidate is among the indices of exploration
    obtain ⟨k, hk⟩ := getElem?_of_mem hc'
    refine hFirst ⟨k, ?_, (hWarm k c' hk).trans hWarming⟩
    exact mem_exploreIdxs_of_explorable hk ⟨hOther, hClosed'⟩

/-! ## Open breakers -/

theorem selectCandidateLocked_explores (hLen : 2 ≤ cs.length)
    (h : mds.Explores now draw pickDraw cs) :
    ∃ j, pickExploreTarget (mds.scoreAll now cs) (mds.primaryIdx (mds.scoreAll now cs)) pickDraw =
        some j ∧ mds.selectCandidateLocked now draw pickDraw cs = (mds, j) := by
  obtain ⟨hPick, hDraw, hSome⟩ := h
  obtain ⟨j, hj⟩ := ne_none_iff_exists'.mp hSome
  refine ⟨j, hj, ?_⟩
  rw [selectCandidateLocked_of_two_le hLen]
  dsimp only
  rw [hPick, if_pos hDraw, hj]

/-- **Open breakers are left out.** The selection is in range. A resolver whose
breaker is open is returned only as a half-open probe that was due, or when
every breaker is open and none is due. Exploration returns neither the primary
nor an open resolver, and a warming one if there is one. -/
theorem open_resolver_excluded (hLen : 2 ≤ cs.length)
    (hNames : (cs.map (·.server.name)).Nodup)
    (h : mds.selectCandidateLocked now draw pickDraw cs = (mds', i)) :
    ∃ c, cs[i]? = some c ∧ (mds.isOpen c.server.name = true →
        (mds.ProbeReady now c.server.name ∧ mds'.isProbing c.server.name = true) ∨
          ∀ c' ∈ cs, mds.isOpen c'.server.name = true ∧ ¬mds.ProbeReady now c'.server.name) ∧
      (mds.Explores now draw pickDraw cs → mds' = mds ∧ mds.Explorable c) ∧
      (mds.pickHalfOpenProbe now (mds.scoreAll now cs) = none → draw < mds.params.exploreProb →
        (∃ c' ∈ cs, mds.Explorable c' ∧ mds.IsWarming now c' = true) →
        mds.Explores now draw pickDraw cs ∧ mds.IsWarming now c = true) := by
  have hPath : SelectionPath mds now draw pickDraw (mds.scoreAll now cs) (mds', i) :=
    h ▸ selectCandidateLocked_path hLen
  obtain ⟨c, hc, hCase⟩ := hPath.candidate
  -- the exploration path, if it is taken, returned this candidate
  have hExplored : mds.Explores now draw pickDraw cs → mds' = mds ∧ mds.Explorable c ∧
      ((∃ c' ∈ cs, mds.Explorable c' ∧ mds.IsWarming now c' = true) →
        mds.IsWarming now c = true) := by
    intro hExplores
    obtain ⟨j, hj, hEq⟩ := selectCandidateLocked_explores hLen hExplores
    rw [h] at hEq
    obtain ⟨rfl, rfl⟩ := Prod.mk.inj hEq
    obtain ⟨c', hc', hGood, hFirst⟩ := explorable_of_pick hNames hj
    obtain rfl : c = c' := by simpa [hc] using hc'
    exact ⟨rfl, hGood, hFirst⟩
  refine ⟨c, hc, ?_, fun hExplores => ⟨(hExplored hExplores).1, (hExplored hExplores).2.1⟩, ?_⟩
  · intro hC
    rcases hCase with ⟨hReady, rfl⟩ | ⟨-, -, hAll⟩
    · exact .inl ⟨hReady, (isProbing_markProbing hReady _).mpr (.inl rfl)⟩
    · exact .inr (hAll hC)
  · rintro hPick hDraw ⟨c', hc', hGood, hWarming⟩
    obtain ⟨k, hk⟩ := getElem?_of_mem hc'
    have hExplores : mds.Explores now draw pickDraw cs :=
      ⟨hPick, hDraw, pickExploreTarget_ne_none (mem_exploreIdxs_of_explorable hk hGood)⟩
    exact ⟨hExplores, (hExplored hExplores).2.2 ⟨c', hc', hGood, hWarming⟩⟩

end LBStrategyMDS

/-- A resolver without a history. -/
def freshCandidate (name : String) : ResolverCandidate where
  server := { name := name, initialRtt := 20, noFilter := false, dnssec := false }
  metrics := newResolverMetricsWithWindow metricsWindow

/-- The breaker of `a` is open, and its probe is due since 10 s. -/
def dueScheduler : LBStrategyMDS :=
  { newLBStrategyMDS defaultMDSParams with
    circuits := Function.update (fun _ => none) "a"
      (some { MdsCircuit.zero with «open» := true, nextProbeAt := 10 * Second }) }

/-- At 20 s the selection between `a` and `b` is the probe of `a`. -/
theorem open_resolver_excluded_due :
    ∃ mds', dueScheduler.selectCandidateLocked (20 * Second) 1 0
        [freshCandidate "a", freshCandidate "b"] = (mds', 0) ∧
      dueScheduler.isOpen "a" = true ∧ mds'.isProbing "a" = true := by
  have hIdx : (dueScheduler.selectCandidateLocked (20 * Second) 1 0
      [freshCandidate "a", freshCandidate "b"]).2 = 0 := by decide +kernel
  have hOpen : dueScheduler.isOpen "a" = true := by decide
  have hSelect : dueScheduler.selectCandidateLocked (20 * Second) 1 0
      [freshCandidate "a", freshCandidate "b"] = (_, 0) := Prod.ext rfl hIdx
  obtain ⟨c, hc, hExcluded, -⟩ :=
    LBStrategyMDS.open_resolver_excluded (by decide) (by decide) hSelect
  obtain rfl : freshCandidate "a" = c := by simpa using hc
  rcases hExcluded hOpen with ⟨-, hProbing⟩ | hAll
  · exact ⟨_, hSelect, hOpen, hProbing⟩
  · -- the breaker of `b` is closed
    have hClosed := (hAll (freshCandidate "b") (by simp)).1
    exact absurd hClosed (by decide)

end DnscryptProxy
