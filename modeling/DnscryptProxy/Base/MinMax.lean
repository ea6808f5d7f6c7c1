import Mathlib.Algebra.Order.Field.Basic
import Mathlib.Order.Monotone.Union
import Mathlib.Tactic.Linarith

/-!
# Min-max normalisation

Values between a least and a greatest one, expressed as a share of the spread;
when the spread is negligible, every share is zero. Moving one value can move
both bounds, and with them every share.

* `minMax_mem_Icc` — a share lies between zero and one;
* `minMaxGap_monotone` — raising one value, with the bounds following it,
  never makes it look smaller next to another one.
-/

namespace DnscryptProxy.Base

variable {K : Type*} [Field K] [LinearOrder K]

/-- The place of `t` between `lo` and `hi`, as a share of the spread. A spread of
at most `ε` counts as none. -/
def minMax (ε lo hi t : K) : K :=
  if ε < hi - lo then max 0 (min 1 ((t - lo) / (hi - lo))) else 0

section Share

variable {ε lo hi t : K}

theorem minMax_of_spread_le (h : hi - lo ≤ ε) : minMax ε lo hi t = 0 :=
  if_neg (not_lt.mpr h)

@[simp] theorem minMax_lo : minMax ε lo hi lo = 0 := by
  unfold minMax
  split
  · rw [sub_self, zero_div]
    exact max_eq_left (min_le_right 1 0)
  · rfl

variable [IsStrictOrderedRing K]

theorem minMax_mem_Icc : minMax ε lo hi t ∈ Set.Icc 0 1 := by
  unfold minMax
  split
  · exact ⟨le_max_left _ _, max_le zero_le_one (min_le_left _ _)⟩
  · exact ⟨le_rfl, zero_le_one⟩

/-- Between the bounds nothing is cut off. -/
theorem minMax_of_mem (hε : 0 ≤ ε) (hSpread : ε < hi - lo) (hlo : lo ≤ t) (hhi : t ≤ hi) :
    minMax ε lo hi t = (t - lo) / (hi - lo) := by
  have hPos : 0 < hi - lo := hε.trans_lt hSpread
  have hLe : (t - lo) / (hi - lo) ≤ 1 := (div_le_one hPos).mpr (by linarith)
  have hGe : 0 ≤ (t - lo) / (hi - lo) := div_nonneg (by linarith) hPos.le
  unfold minMax
  rw [if_pos hSpread, min_eq_right hLe, max_eq_right hGe]

theorem minMax_hi (hε : 0 ≤ ε) (hSpread : ε < hi - lo) : minMax ε lo hi hi = 1 := by
  have hPos : 0 < hi - lo := hε.trans_lt hSpread
  rw [minMax_of_mem hε hSpread (by linarith) le_rfl, div_self hPos.ne']

end Share

/-- The share of `x` less the share of `y`, where `x` is one more value next to
those between `m` and `M`. -/
def minMaxGap (ε m M y x : K) : K :=
  minMax ε (min x m) (max x M) x - minMax ε (min x m) (max x M) y

section Gap

variable [IsStrictOrderedRing K] {ε m M y : K}

/-- Below all others `x` has share zero, and a rise of `x` shrinks the other shares. -/
theorem minMaxGap_monotoneOn_Iic (hε : 0 ≤ ε) (hm : m ≤ y) (hM : y ≤ M) :
    MonotoneOn (minMaxGap ε m M y) (Set.Iic m) := by
  have hGap : ∀ x ∈ Set.Iic m, minMaxGap ε m M y x = -minMax ε x M y := by
    intro x hx
    unfold minMaxGap
    rw [min_eq_left hx, max_eq_right (hx.trans (hm.trans hM)), minMax_lo, zero_sub]
  intro x hx x' hx' hLe
  rw [hGap x hx, hGap x' hx', neg_le_neg_iff]
  by_cases hSpread : ε < M - x'
  · have hPos' : 0 < M - x' := hε.trans_lt hSpread
    have hPos : 0 < M - x := by linarith
    rw [minMax_of_mem hε hSpread (hx'.trans hm) hM,
      minMax_of_mem hε (by linarith) (hx.trans hm) hM, div_le_div_iff₀ hPos' hPos]
    -- cross-multiplied, the difference is `(x' - x) * (M - y)`
    have hProd : 0 ≤ (x' - x) * (M - y) := mul_nonneg (by linarith) (by linarith)
    linarith
  · rw [minMax_of_spread_le (not_lt.mp hSpread)]
    exact minMax_mem_Icc.1

/-- Among the others `x` moves and the bounds stay. -/
theorem minMaxGap_monotoneOn_Icc (hε : 0 ≤ ε) :
    MonotoneOn (minMaxGap ε m M y) (Set.Icc m M) := by
  have hGap : ∀ x ∈ Set.Icc m M, minMaxGap ε m M y x = minMax ε m M x - minMax ε m M y := by
    rintro x ⟨hmx, hxM⟩
    unfold minMaxGap
    rw [min_eq_right hmx, max_eq_right hxM]
  intro x hx x' hx' hLe
  rw [hGap x hx, hGap x' hx', sub_le_sub_iff_right]
  by_cases hSpread : ε < M - m
  · have hPos : 0 < M - m := hε.trans_lt hSpread
    rw [minMax_of_mem hε hSpread hx.1 hx.2, minMax_of_mem hε hSpread hx'.1 hx'.2,
      div_le_div_iff_of_pos_right hPos]
    linarith
  · rw [minMax_of_spread_le (not_lt.mp hSpread), minMax_of_spread_le (not_lt.mp hSpread)]

/-- Above all others `x` has share one, and a rise of `x` shrinks the other shares. -/
theorem minMaxGap_monotoneOn_Ici (hε : 0 ≤ ε) (hm : m ≤ y) (hM : y ≤ M) :
    MonotoneOn (minMaxGap ε m M y) (Set.Ici M) := by
  have hGap : ∀ x ∈ Set.Ici M, minMaxGap ε m M y x = minMax ε m x x - minMax ε m x y := by
    intro x hx
    unfold minMaxGap
    rw [min_eq_right ((hm.trans hM).trans hx), max_eq_left hx]
  intro x hx x' hx' hLe
  rw [hGap x hx, hGap x' hx']
  have hx : M ≤ x := hx
  by_cases hSpread : ε < x - m
  · have hPos : 0 < x - m := hε.trans_lt hSpread
    have hSpread' : ε < x' - m := by linarith
    rw [minMax_hi hε hSpread, minMax_hi hε hSpread', sub_le_sub_iff_left,
      minMax_of_mem hε hSpread hm (by linarith), minMax_of_mem hε hSpread' hm (by linarith)]
    exact div_le_div_of_nonneg_left (by linarith) hPos (by linarith)
  · rw [minMax_of_spread_le (not_lt.mp hSpread), minMax_of_spread_le (not_lt.mp hSpread), sub_zero]
    by_cases hSpread' : ε < x' - m
    · rw [minMax_hi hε hSpread', sub_nonneg]
      exact minMax_mem_Icc.2
    · rw [minMax_of_spread_le (not_lt.mp hSpread'), minMax_of_spread_le (not_lt.mp hSpread'),
        sub_zero]

theorem minMaxGap_monotone (hε : 0 ≤ ε) (hm : m ≤ y) (hM : y ≤ M) :
    Monotone (minMaxGap ε m M y) := by
  have hBetween : m ≤ M := hm.trans hM
  have hAbove : MonotoneOn (minMaxGap ε m M y) (Set.Ici m) := by
    rw [← Set.Icc_union_Ici_eq_Ici hBetween]
    exact (minMaxGap_monotoneOn_Icc hε).union_right (minMaxGap_monotoneOn_Ici hε hm hM)
      (isGreatest_Icc hBetween) isLeast_Ici
  exact (minMaxGap_monotoneOn_Iic hε hm hM).Iic_union_Ici hAbove

end Gap

end DnscryptProxy.Base
