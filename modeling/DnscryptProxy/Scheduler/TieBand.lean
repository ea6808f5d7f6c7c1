import DnscryptProxy.Base.Champion
import DnscryptProxy.Scheduler.Mds
import Mathlib.Data.List.MinMax

/-!
# How far soft preferences reach

`better` lets soft preferences and names decide inside the tie band, which makes
it a banded comparison (`Base.bandBetter`) that is not transitive; `bestHealthy`
is a champion for it (`Base.champion`). Soft preferences are meant for near ties
with the best candidate. Step by step they can lead further down:

* `bestHealthy_champion` — the loop as a champion of the eligible candidates;
* `nearBest_iff` — for given base scores, the candidate chosen is within the band
  of the best one, whatever the soft scores, the names and the order, exactly if
  no eligible candidate below the band is within the band of one inside it.
-/

namespace DnscryptProxy

open Base List Prod

namespace LBStrategyMDS

variable (mds : LBStrategyMDS)

/-! ## The loop -/

/-- The candidates that `bestHealthy` looks at, from index `i` on. -/
def eligibleFrom (exclude : Option Nat) : Nat → List MdsScored → List MdsScored
  | _, [] => []
  | i, s :: rest =>
    if some i = exclude ∨ s.open = true then eligibleFrom exclude (i + 1) rest
    else s :: eligibleFrom exclude (i + 1) rest

variable (scored : List MdsScored) (exclude : Option Nat)

/-- The candidates that `bestHealthy` chooses from: neither excluded nor open. -/
def eligible : List MdsScored :=
  eligibleFrom exclude 0 scored

theorem eligibleFrom_of_closed (i : Nat) {scored : List MdsScored}
    (h : ∀ s ∈ scored, s.open = false) : eligibleFrom none i scored = scored := by
  induction scored generalizing i with
  | nil => rfl
  | cons s rest ih =>
    have hClosed : ¬(some i = none ∨ s.open = true) := by
      rw [h s mem_cons_self]
      simp
    unfold eligibleFrom
    rw [if_neg hClosed, ih (i + 1) fun s' hs' => h s' (mem_cons_of_mem s hs')]

/-- What decides inside the tie band. -/
def softBetter (a b : MdsScored) : Bool :=
  if a.soft ≠ b.soft then decide (b.soft < a.soft) else decide (a.name < b.name)

theorem softBetter_of_lt {a b : MdsScored} (h : b.soft < a.soft) : softBetter a b = true := by
  unfold softBetter
  rw [if_pos h.ne']
  exact decide_eq_true h

theorem better_eq_bandBetter :
    mds.better = bandBetter mds.params.tieBand (·.base) softBetter := rfl

theorem bestHealthyFrom_champion (exclude : Option Nat) (i : Nat)
    (best : Option (Nat × MdsScored)) (scored : List MdsScored) :
    (mds.bestHealthyFrom exclude i best scored).map snd =
      champion mds.better (best.map snd) (eligibleFrom exclude i scored) := by
  induction scored generalizing i best with
  | nil =>
    rfl
  | cons s rest ih =>
    unfold bestHealthyFrom eligibleFrom
    split
    · exact ih (i + 1) best
    · cases best with
      | none => exact ih (i + 1) (some (i, s))
      | some b =>
        rw [Option.map_some, champion_some_cons]
        show Option.map snd (if mds.better s b.2 then _ else _) = _
        split
        · exact ih (i + 1) (some (i, s))
        · exact ih (i + 1) (some b)

theorem bestHealthy_champion : (mds.bestHealthy scored exclude).map snd =
      champion mds.better none (eligible scored exclude) :=
  mds.bestHealthyFrom_champion exclude 0 none scored

/-! ## Near the best -/

/-- The base scores of the candidates that `bestHealthy` chooses from. -/
def eligibleBases : List ℚ :=
  (eligible scored exclude).map (·.base)

/-- The candidate that `bestHealthy` returns is within the tie band of the best one. -/
def NearBest : Prop :=
  ∀ i w, mds.bestHealthy scored exclude = some (i, w) →
    ∀ base ∈ eligibleBases scored exclude, base - mds.params.tieBand ≤ w.base

/-- Some base score is below the band of the best one, but within the band of one
that is not. -/
def HasDrift (band : ℚ) (bases : List ℚ) : Prop :=
  ∃ best ∈ bases, (∀ base ∈ bases, base ≤ best) ∧
    ∃ inside ∈ bases, ∃ below ∈ bases, best - band ≤ inside ∧ below < best - band ∧
      inside - below ≤ band

theorem nearBest_of_not_hasDrift (hBand : 0 ≤ mds.params.tieBand) {scored : List MdsScored}
    {exclude : Option Nat} (hNone : ¬HasDrift mds.params.tieBand (eligibleBases scored exclude)) :
    mds.NearBest scored exclude := by
  intro i w hBest base hBase
  by_contra hLow
  obtain ⟨s, hs, rfl⟩ := mem_map.mp hBase
  have hChampion : champion mds.better none (eligible scored exclude) = some w := by
    rw [← bestHealthy_champion, hBest]
    rfl
  -- the greatest base score is at least the one that is too far away
  obtain ⟨top, hTop⟩ : ∃ top, (eligible scored exclude).argmax (·.base) = some top := by
    rw [← Option.ne_none_iff_exists', ne_eq, argmax_eq_none]
    exact ne_nil_of_mem hs
  have hMax : ∀ t ∈ eligible scored exclude, t.base ≤ top.base := fun t ht =>
    le_of_mem_argmax ht hTop
  have hFar : w.base < top.base - mds.params.tieBand := by
    have := hMax s hs
    linarith
  obtain ⟨inside, hIn, below, hBelow, hFacts⟩ :=
    exists_drift hBand (argmax_mem hTop) hChampion hFar
  refine hNone ⟨top.base, mem_map_of_mem (argmax_mem hTop), ?_, inside.base,
    mem_map_of_mem hIn, below.base, mem_map_of_mem hBelow, hFacts⟩
  intro base hBase
  obtain ⟨t, ht, rfl⟩ := mem_map.mp hBase
  exact hMax t ht

/-! ## Far from the best -/

/-- A healthy candidate with the scores given. -/
def scoredAs (name : String) (base soft : ℚ) : MdsScored :=
  { name, warming := false, «open» := false, tailMs := 0, cost := 0, penalty := 0, base, soft }

/-- Candidates in an order, and with soft scores, that lead from the best of them
to one below the band. -/
def driftingList (rest : List ℚ) (best inside below : ℚ) : List MdsScored :=
  (rest.map (scoredAs "" · 0) ++ [scoredAs "" best 1]) ++
    [scoredAs "" inside 2, scoredAs "" below 3]

theorem eligible_driftingList (rest : List ℚ) (best inside below : ℚ) :
    eligible (driftingList rest best inside below) none = driftingList rest best inside below := by
  refine eligibleFrom_of_closed 0 ?_
  intro s hs
  simp only [driftingList, mem_append, mem_map, mem_cons, not_mem_nil, or_false] at hs
  rcases hs with (⟨b, -, rfl⟩ | rfl) | rfl | rfl <;> rfl

theorem champion_driftingList {rest : List ℚ} {best inside below : ℚ}
    (hBand : 0 ≤ mds.params.tieBand) (hMax : ∀ base ∈ rest, base ≤ best)
    (hIn : best - mds.params.tieBand ≤ inside) (hStep : inside - below ≤ mds.params.tieBand) :
    champion mds.better none (driftingList rest best inside below) =
      some (scoredAs "" below 3) := by
  -- each of the last three has a higher soft score, and is not too far below
  have hBest : ∀ s ∈ rest.map (scoredAs "" · 0), mds.better (scoredAs "" best 1) s = true := by
    intro s hs
    obtain ⟨base, hBase, rfl⟩ := mem_map.mp hs
    refine bandBetter_of_prefers hBand ?_ (softBetter_of_lt (by norm_num [scoredAs]))
    have := hMax base hBase
    show base - best ≤ _
    linarith
  have hInside : mds.better (scoredAs "" inside 2) (scoredAs "" best 1) = true := by
    refine bandBetter_of_prefers hBand ?_ (softBetter_of_lt (by norm_num [scoredAs]))
    show best - inside ≤ _
    linarith
  have hBelow : mds.better (scoredAs "" below 3) (scoredAs "" inside 2) = true :=
    bandBetter_of_prefers hBand hStep (softBetter_of_lt (by norm_num [scoredAs]))
  unfold driftingList
  rw [champion_append, champion_append_singleton hBest, champion_some_cons, if_pos hInside,
    champion_some_cons, if_pos hBelow]
  rfl

/-- Base scores with a drift are those of a list that `bestHealthy` drifts along. -/
theorem exists_not_nearBest (hBand : 0 ≤ mds.params.tieBand) {bases : List ℚ}
    (hDrift : HasDrift mds.params.tieBand bases) :
    ∃ scored, (eligibleBases scored none).Perm bases ∧ ¬mds.NearBest scored none := by
  obtain ⟨best, hBest, hMax, inside, hIn, below, hBelow, hInside, hFar, hStep⟩ := hDrift
  -- the three are different scores, so they can be taken out one after the other
  have hBelowInside : below ≠ inside := by
    rintro rfl
    linarith
  have hBelowBest : below ≠ best := by
    rintro rfl
    linarith
  have hInsideBest : inside ≠ best := by
    rintro rfl
    linarith
  let rest := ((bases.erase best).erase inside).erase below
  have hPerm : bases.Perm (best :: inside :: below :: rest) := by
    have hIn' : inside ∈ bases.erase best := (mem_erase_of_ne hInsideBest).mpr hIn
    have hBelow' : below ∈ (bases.erase best).erase inside := by
      rw [mem_erase_of_ne hBelowInside, mem_erase_of_ne hBelowBest]
      exact hBelow
    exact (perm_cons_erase hBest).trans
      (.cons best ((perm_cons_erase hIn').trans (.cons inside (perm_cons_erase hBelow'))))
  have hBases : eligibleBases (driftingList rest best inside below) none =
      rest ++ [best, inside, below] := by
    unfold eligibleBases
    rw [eligible_driftingList]
    simp [driftingList, Function.comp_def, scoredAs]
  have hRest : ∀ base ∈ rest, base ≤ best := fun base hBase =>
    hMax base (mem_of_mem_erase (mem_of_mem_erase (mem_of_mem_erase hBase)))
  refine ⟨driftingList rest best inside below, ?_, ?_⟩
  · rw [hBases]
    have hSwap : (rest ++ [best, inside, below]).Perm ([best, inside, below] ++ rest) :=
      perm_append_comm
    exact hSwap.trans hPerm.symm
  · intro hNear
    have hChampion := mds.champion_driftingList hBand hRest hInside hStep
    rw [← eligible_driftingList, ← bestHealthy_champion, Option.map_eq_some_iff] at hChampion
    obtain ⟨⟨i, w⟩, hw, rfl⟩ := hChampion
    exact absurd (hNear i _ hw best (by simp [hBases])) (not_le.mpr hFar)

theorem HasDrift.of_perm {band : ℚ} {bases bases' : List ℚ} (h : bases.Perm bases')
    (hDrift : HasDrift band bases) : HasDrift band bases' := by
  obtain ⟨best, hBest, hMax, inside, hIn, below, hBelow, hFacts⟩ := hDrift
  exact ⟨best, h.mem_iff.mp hBest, fun base hBase => hMax base (h.mem_iff.mpr hBase), inside,
    h.mem_iff.mp hIn, below, h.mem_iff.mp hBelow, hFacts⟩

/-- Given the base scores of the eligible candidates, `bestHealthy` stays within
the tie band of the best of them, whatever the soft scores, the names, the order
and the candidates that are not eligible, exactly if there is no drift. -/
theorem nearBest_iff (hBand : 0 ≤ mds.params.tieBand) (scored : List MdsScored)
    (exclude : Option Nat) :
    (∀ scored' exclude', (eligibleBases scored' exclude').Perm (eligibleBases scored exclude) →
        mds.NearBest scored' exclude') ↔
      ¬HasDrift mds.params.tieBand (eligibleBases scored exclude) := by
  constructor
  · intro hNear hDrift
    obtain ⟨scored', hPerm, hNot⟩ := mds.exists_not_nearBest hBand hDrift
    exact hNot (hNear scored' none hPerm)
  · intro hNone scored' exclude' hPerm
    exact mds.nearBest_of_not_hasDrift hBand fun hDrift => hNone (hDrift.of_perm hPerm)

/-- Two resolvers far apart. -/
theorem nearBest_iff_far_apart :
    0 ≤ (newLBStrategyMDS defaultMDSParams).params.tieBand ∧
      (newLBStrategyMDS defaultMDSParams).NearBest [scoredAs "a" 1 0, scoredAs "b" 0 2] none := by
  have hNonneg : 0 ≤ (newLBStrategyMDS defaultMDSParams).params.tieBand := by decide +kernel
  refine ⟨hNonneg, ((newLBStrategyMDS defaultMDSParams).nearBest_iff hNonneg _ _).mpr ?_ _ _
    (List.Perm.refl _)⟩
  rintro ⟨best, -, hMax, inside, hIn, below, hBelow, hInside, hFar, hStep⟩
  have hBases : eligibleBases [scoredAs "a" 1 0, scoredAs "b" 0 2] none = [1, 0] := by
    decide +kernel
  have hBand : (newLBStrategyMDS defaultMDSParams).params.tieBand = 3 / 100 := rfl
  rw [hBases] at hIn hBelow hMax
  simp only [mem_cons, not_mem_nil, or_false] at hIn hBelow
  rcases hIn with rfl | rfl <;> rcases hBelow with rfl | rfl <;> linarith

/-- Four resolvers without samples: the better their stamps, the slower they are. -/
def driftCandidates : List ResolverCandidate :=
  let candidate (name : String) (initialRtt : Int) (noFilter dnssec : Bool) : ResolverCandidate :=
    { server := { name, initialRtt, noFilter, dnssec }
      metrics := newResolverMetricsWithWindow metricsWindow }
  [candidate "a" 10 false false, candidate "b" 12 true false, candidate "c" 14 true true,
    candidate "d" 110 false false]

/-- The first primary of these is `c`, although `a` is better by more than the tie band. -/
theorem not_nearBest_driftCandidates :
    let mds := newLBStrategyMDS defaultMDSParams
    (mds.selectCandidateLocked 0 1 0 driftCandidates).1.primaryName = "c" ∧
      ¬mds.NearBest (mds.scoreAll 0 driftCandidates) none := by
  refine ⟨by decide +kernel, fun hNear => ?_⟩
  have hBest : ((newLBStrategyMDS defaultMDSParams).bestHealthy
      ((newLBStrategyMDS defaultMDSParams).scoreAll 0 driftCandidates) none).map
        (fun c => (c.1, c.2.base)) = some (2, 96 / 100) := by decide +kernel
  obtain ⟨⟨i, w⟩, hw, hEq⟩ := Option.map_eq_some_iff.mp hBest
  have hBase : w.base = 96 / 100 := congrArg snd hEq
  have hLe := hNear i w hw 1 (by decide +kernel)
  rw [hBase] at hLe
  exact absurd hLe (by decide +kernel)

end LBStrategyMDS

end DnscryptProxy
