import DnscryptProxy.Base.MinMax
import DnscryptProxy.Scheduler.Mds

/-!
# Scores against each other

The second loop of `scoreAll` turns tail latencies into costs by min-max
normalisation (`Base.minMax`), over whatever tails and penalties the first loop
has found. One tail that moves can move the bounds of all costs.

* `bestTail_eq_min`, `worstTail_eq_max` — one candidate against the rest;
* `lead_antitone` — a candidate that gets slower, or is penalised more, never
  gains on another one.
-/

namespace DnscryptProxy

open Base List

namespace LBStrategyMDS

/-! ## The bounds -/

theorem bestTail_mem : ∀ {ts : List ℚ}, ts ≠ [] → bestTail ts ∈ ts
  | [], h => absurd rfl h
  | [t], _ => mem_singleton_self t
  | t :: u :: ts, _ => by
    have ih : bestTail (u :: ts) ∈ u :: ts := bestTail_mem (cons_ne_nil u ts)
    unfold bestTail
    rcases min_choice t (bestTail (u :: ts)) with h | h
    · rw [h]
      exact mem_cons_self
    · rw [h]
      exact mem_cons_of_mem t ih

theorem bestTail_le : ∀ {ts : List ℚ} {t : ℚ}, t ∈ ts → bestTail ts ≤ t
  | [u], t, h => (mem_singleton.mp h).symm.le
  | u :: v :: ts, t, h => by
    rcases mem_cons.mp h with rfl | h
    · exact min_le_left _ _
    · exact (min_le_right _ _).trans (bestTail_le h)

/-- The greatest tail, or the zero that the running maximum starts with. -/
theorem worstTail_mem (ts : List ℚ) : worstTail ts = 0 ∨ worstTail ts ∈ ts := by
  induction ts with
  | nil => exact .inl rfl
  | cons t ts ih =>
    unfold worstTail
    rcases max_choice t (worstTail ts) with h | h
    · rw [h]
      exact .inr mem_cons_self
    · rw [h]
      exact ih.imp_right (mem_cons_of_mem t)

theorem worstTail_nonneg (ts : List ℚ) : 0 ≤ worstTail ts := by
  induction ts with
  | nil => exact le_rfl
  | cons t ts ih => exact ih.trans (le_max_right _ _)

theorem le_worstTail {ts : List ℚ} {t : ℚ} (h : t ∈ ts) : t ≤ worstTail ts := by
  induction ts with
  | nil => cases h
  | cons u ts ih =>
    rcases mem_cons.mp h with rfl | h
    · exact le_max_left _ _
    · exact (ih h).trans (le_max_right _ _)

section OneAgainstTheRest

variable {ts rest : List ℚ} {x : ℚ}

theorem bestTail_eq_min (hPerm : ts.Perm (x :: rest)) (hRest : rest ≠ []) :
    bestTail ts = min x (bestTail rest) := by
  have hNe : ts ≠ [] := by
    rintro rfl
    cases hPerm.length_eq
  apply le_antisymm
  · rcases min_choice x (bestTail rest) with h | h
    · rw [h]
      exact bestTail_le (hPerm.mem_iff.mpr mem_cons_self)
    · rw [h]
      exact bestTail_le (hPerm.mem_iff.mpr (mem_cons_of_mem x (bestTail_mem hRest)))
  · rcases mem_cons.mp (hPerm.mem_iff.mp (bestTail_mem hNe)) with h | h
    · exact (min_le_left _ _).trans h.ge
    · exact (min_le_right _ _).trans (bestTail_le h)

theorem worstTail_eq_max (hPerm : ts.Perm (x :: rest)) :
    worstTail ts = max x (worstTail rest) := by
  apply le_antisymm
  · rcases worstTail_mem ts with h | h
    · rw [h]
      exact (worstTail_nonneg rest).trans (le_max_right _ _)
    · rcases mem_cons.mp (hPerm.mem_iff.mp h) with h | h
      · exact h.le.trans (le_max_left _ _)
      · exact (le_worstTail h).trans (le_max_right _ _)
  · refine max_le (le_worstTail (hPerm.mem_iff.mpr mem_cons_self)) ?_
    rcases worstTail_mem rest with h | h
    · rw [h]
      exact worstTail_nonneg ts
    · exact le_worstTail (hPerm.mem_iff.mpr (mem_cons_of_mem x h))

end OneAgainstTheRest

/-! ## Scores -/

/-- The second loop of `scoreAll`, over what the first one has left. -/
def normalizeAll (raw : List MdsScored) : List MdsScored :=
  raw.map (normalize (bestTail (raw.map (·.tailMs))) (worstTail (raw.map (·.tailMs))))

/-- The base score of the candidate at `i`. -/
def baseAt (scored : List MdsScored) (i : Nat) : ℚ := (scored[i]?.map (·.base)).getD 0

/-- How far the candidate at `i` is ahead of the one at `j`. -/
def lead (scored : List MdsScored) (i j : Nat) : ℚ := baseAt scored i - baseAt scored j

/-- The spread below which all candidates count as equally fast. -/
def spreadCutoff : ℚ := 1 / 1000000000

section Lead

variable {raw : List MdsScored} {i j : Nat} {x y : MdsScored}

theorem baseAt_normalizeAll (hx : raw[i]? = some x) :
    baseAt (normalizeAll raw) i =
      1 - minMax spreadCutoff (bestTail (raw.map (·.tailMs))) (worstTail (raw.map (·.tailMs)))
        x.tailMs - x.penalty := by
  unfold baseAt normalizeAll
  rw [getElem?_map, hx]
  rfl

/-- The lead of one candidate over another, as a function of its own tail: the
rest enters through its bounds only, and the other candidate is within them. -/
theorem lead_normalizeAll {rest : List ℚ} (hNe : i ≠ j) (hx : raw[i]? = some x)
    (hy : raw[j]? = some y) (hRest : (raw.map (·.tailMs)).eraseIdx i = rest) :
    bestTail rest ≤ y.tailMs ∧ y.tailMs ≤ worstTail rest ∧
      lead (normalizeAll raw) i j = y.penalty - x.penalty -
        minMaxGap spreadCutoff (bestTail rest) (worstTail rest) y.tailMs x.tailMs := by
  obtain ⟨hLt, hGet⟩ := List.getElem?_eq_some_iff.mp hx
  have hPerm : (raw.map (·.tailMs)).Perm (x.tailMs :: rest) := by
    have h := getElem_cons_eraseIdx_perm (l := raw.map (·.tailMs)) (n := i)
      (by simpa using hLt)
    rw [getElem_map, hGet, hRest] at h
    exact h.symm
  have hMem : y.tailMs ∈ rest := by
    rw [← hRest]
    refine mem_eraseIdx_iff_getElem?.mpr ⟨j, hNe.symm, ?_⟩
    rw [getElem?_map, hy]
    rfl
  refine ⟨bestTail_le hMem, le_worstTail hMem, ?_⟩
  unfold lead
  rw [baseAt_normalizeAll hx, baseAt_normalizeAll hy,
    bestTail_eq_min hPerm (ne_nil_of_mem hMem), worstTail_eq_max hPerm]
  unfold minMaxGap
  ring

end Lead

/-- A candidate that gets slower, or is penalised more, never gains on another
one, although its tail may move the bounds of all costs. Every cost lies between
zero and one, and the fastest candidate has cost zero. -/
theorem lead_antitone (raw : List MdsScored) :
    (∀ (i j : Nat) (x y x' : MdsScored), i ≠ j → raw[i]? = some x → raw[j]? = some y →
      x.tailMs ≤ x'.tailMs → x.penalty ≤ x'.penalty →
      lead (normalizeAll (raw.set i x')) i j ≤ lead (normalizeAll raw) i j) ∧
    (∀ s ∈ normalizeAll raw, 0 ≤ s.cost ∧ s.cost ≤ 1) ∧
    (∀ s ∈ normalizeAll raw, (∀ t ∈ normalizeAll raw, s.tailMs ≤ t.tailMs) → s.cost = 0) ∧
    (∀ (mds : LBStrategyMDS) (now : Time) (cs : List ResolverCandidate),
      raw = cs.map (mds.scoreOne now) → mds.scoreAll now cs = normalizeAll raw) := by
  refine ⟨?_, ?_, ?_, ?_⟩
  · intro i j x y x' hNe hx hy hTail hPenalty
    obtain ⟨hLt, -⟩ := List.getElem?_eq_some_iff.mp hx
    have hx' : (raw.set i x')[i]? = some x' := getElem?_set_self hLt
    have hy' : (raw.set i x')[j]? = some y := by
      rw [getElem?_set_ne hNe]
      exact hy
    -- the rest is the same before and after
    have hRest : ((raw.set i x').map (·.tailMs)).eraseIdx i = (raw.map (·.tailMs)).eraseIdx i := by
      rw [map_set, eraseIdx_set_eq]
    obtain ⟨hBest, hWorst, hLead⟩ := lead_normalizeAll hNe hx hy rfl
    obtain ⟨-, -, hLead'⟩ := lead_normalizeAll hNe hx' hy' hRest
    have hCutoff : (0 : ℚ) ≤ spreadCutoff := by
      unfold spreadCutoff
      norm_num
    have hGap := minMaxGap_monotone hCutoff hBest hWorst hTail
    linarith
  · intro s hs
    obtain ⟨r, -, rfl⟩ := mem_map.mp hs
    exact minMax_mem_Icc
  · intro s hs hFastest
    obtain ⟨r, hr, rfl⟩ := mem_map.mp hs
    have hMem : r.tailMs ∈ raw.map (·.tailMs) := mem_map_of_mem hr
    -- the least tail belongs to a candidate, which is not faster
    have hBest : bestTail (raw.map (·.tailMs)) = r.tailMs := by
      refine le_antisymm (bestTail_le hMem) ?_
      obtain ⟨b, hb, hEq⟩ := mem_map.mp (bestTail_mem (ne_nil_of_mem hMem))
      rw [← hEq]
      exact hFastest (normalize _ _ b) (mem_map_of_mem hb)
    show minMax spreadCutoff _ _ _ = 0
    rw [hBest, minMax_lo]
  · rintro mds now cs rfl
    rfl

/-- A candidate as the first loop of `scoreAll` leaves it. -/
def rawScore (name : String) (tail penalty : ℚ) : MdsScored :=
  { name, warming := false, «open» := false, tailMs := tail, cost := 0, penalty, base := 0,
    soft := 0 }

/-- The fastest of three resolvers becomes the slowest. -/
theorem lead_antitone_fastest_to_slowest :
    lead (normalizeAll [rawScore "a" 90 0, rawScore "b" 20 0, rawScore "c" 60 0]) 0 1 ≤
      lead (normalizeAll [rawScore "a" 10 0, rawScore "b" 20 0, rawScore "c" 60 0]) 0 1 :=
  (lead_antitone [rawScore "a" 10 0, rawScore "b" 20 0, rawScore "c" 60 0]).1 0 1
    (rawScore "a" 10 0) (rawScore "b" 20 0) (rawScore "a" 90 0) (by decide) rfl rfl
    (by norm_num [rawScore]) le_rfl

end LBStrategyMDS

end DnscryptProxy
