import Mathlib.Algebra.Ring.Nat
import Mathlib.Order.Lattice
import Mathlib.Tactic.Common

/-!
# Order statistics and counts

The `r`-th smallest of some samples, against how many of them are below a bound.
A histogram only knows such counts; where the order of the buckets follows the
order of the samples, the bucket at which the running count reaches `r` is the
bucket of the `r`-th smallest sample.

Main rules:

* `countP_lt_of_ranked`, `le_countP_of_ranked` — the counts around the sample;
* `ranked_mono` — a higher rank, a greater sample;
* `reached_at_bucket` — the running count at the bucket of the sample.
-/

namespace DnscryptProxy.Base

open List

/-! ## The samples in order -/

section Ranked

variable {α : Type*} [LinearOrder α]

/-- The samples in order. -/
def sorted (xs : List α) : List α := xs.mergeSort fun a b => decide (a ≤ b)

/-- The `r`-th smallest sample, from the first on. -/
def ranked (xs : List α) (r : Nat) : Option α := (sorted xs)[r - 1]?

variable {xs : List α} {r : Nat} {q : α}

theorem sorted_perm (xs : List α) : (sorted xs).Perm xs := mergeSort_perm xs _

theorem sorted_pairwise (xs : List α) : (sorted xs).Pairwise (· ≤ ·) := by
  have h : (sorted xs).Pairwise fun a b => decide (a ≤ b) = true := by
    refine pairwise_mergeSort ?_ ?_ xs
    · intro a b c hab hbc
      exact decide_eq_true (le_trans (of_decide_eq_true hab) (of_decide_eq_true hbc))
    · intro a b
      simpa using le_total a b
  exact h.imp of_decide_eq_true

theorem exists_ranked (hr : 1 ≤ r) (hLen : r ≤ xs.length) : ∃ q, ranked xs r = some q := by
  have hLt : r - 1 < (sorted xs).length := by
    rw [(sorted_perm xs).length_eq]
    omega
  exact ⟨_, getElem?_eq_getElem hLt⟩

theorem mem_of_ranked (h : ranked xs r = some q) : q ∈ xs :=
  (sorted_perm xs).mem_iff.mp (mem_of_getElem? h)

theorem le_countP_of_ranked (hr : 1 ≤ r) (h : ranked xs r = some q) :
    r ≤ xs.countP fun x => decide (x ≤ q) := by
  obtain ⟨hLt, hq⟩ := List.getElem?_eq_some_iff.mp h
  -- the sample is the last of the first `r` in order
  have hAll : ∀ x ∈ (sorted xs).take r, x ≤ q := by
    intro x hx
    obtain ⟨i, hi, rfl⟩ := mem_iff_getElem.mp hx
    rw [length_take] at hi
    rw [getElem_take, ← hq]
    rcases Nat.lt_or_eq_of_le (show i ≤ r - 1 by omega) with hi' | rfl
    · exact pairwise_iff_getElem.mp (sorted_pairwise xs) _ _ _ _ hi'
    · exact le_refl _
  calc r = ((sorted xs).take r).length := by
        rw [length_take]
        omega
    _ = ((sorted xs).take r).countP fun x => decide (x ≤ q) :=
        (countP_eq_length.mpr fun x hx => decide_eq_true (hAll x hx)).symm
    _ ≤ (sorted xs).countP fun x => decide (x ≤ q) := (take_sublist r _).countP_le
    _ = xs.countP fun x => decide (x ≤ q) := (sorted_perm xs).countP_eq _

theorem countP_lt_of_ranked (hr : 1 ≤ r) (h : ranked xs r = some q) :
    (xs.countP fun x => decide (x < q)) < r := by
  obtain ⟨hLt, hq⟩ := List.getElem?_eq_some_iff.mp h
  have hNone : ((sorted xs).drop (r - 1)).countP (fun x => decide (x < q)) = 0 := by
    rw [countP_eq_zero]
    intro x hx
    obtain ⟨i, hi, rfl⟩ := mem_iff_getElem.mp hx
    rw [getElem_drop, decide_eq_true_eq, not_lt, ← hq]
    rcases Nat.eq_zero_or_pos i with rfl | hi'
    · exact le_refl _
    · exact pairwise_iff_getElem.mp (sorted_pairwise xs) _ _ _ _ (by omega)
  calc (xs.countP fun x => decide (x < q))
      = (sorted xs).countP fun x => decide (x < q) := ((sorted_perm xs).countP_eq _).symm
    _ = ((sorted xs).take (r - 1)).countP fun x => decide (x < q) := by
        conv_lhs => rw [← take_append_drop (r - 1) (sorted xs)]
        rw [countP_append, hNone, add_zero]
    _ ≤ ((sorted xs).take (r - 1)).length := countP_le_length
    _ < r := by
        rw [length_take]
        omega

theorem ranked_mono {r' : Nat} {q' : α} (hLe : r ≤ r') (h : ranked xs r = some q)
    (h' : ranked xs r' = some q') : q ≤ q' := by
  obtain ⟨hLt, rfl⟩ := List.getElem?_eq_some_iff.mp h
  obtain ⟨hLt', rfl⟩ := List.getElem?_eq_some_iff.mp h'
  rcases Nat.lt_or_eq_of_le (show r - 1 ≤ r' - 1 by omega) with hi | hi
  · exact pairwise_iff_getElem.mp (sorted_pairwise xs) _ _ _ _ hi
  · exact le_of_eq (by congr 1)

end Ranked

/-! ## Buckets -/

section Buckets

variable {α : Type*}

/-- How many samples are in each of the first `n` buckets. -/
def bucketCounts (bucket : α → Nat) (n : Nat) (xs : List α) : List Nat :=
  (range n).map fun b => xs.countP fun x => decide (bucket x = b)

theorem countP_lt_succ (bucket : α → Nat) (k : Nat) (xs : List α) :
    (xs.countP fun x => decide (bucket x < k + 1)) =
      (xs.countP fun x => decide (bucket x < k)) + xs.countP fun x => decide (bucket x = k) := by
  induction xs with
  | nil => rfl
  | cons x xs ih =>
    simp only [countP_cons, ih, decide_eq_true_eq]
    rcases Nat.lt_trichotomy (bucket x) k with h | h | h
    · rw [if_pos (by omega), if_pos h, if_neg (by omega)]
      omega
    · rw [if_pos (by omega), if_neg (by omega), if_pos h]
      omega
    · rw [if_neg (by omega), if_neg (by omega), if_neg (by omega)]
      omega

/-- The running count of the buckets before the `k`-th. -/
theorem sum_take_bucketCounts (bucket : α → Nat) {n k : Nat} (hk : k ≤ n) (xs : List α) :
    ((bucketCounts bucket n xs).take k).sum = xs.countP fun x => decide (bucket x < k) := by
  rw [bucketCounts, ← map_take, take_range, min_eq_left hk]
  clear hk
  induction k with
  | zero => simp
  | succ k ih =>
    rw [range_succ, map_append, sum_append, ih, countP_lt_succ]
    simp

end Buckets

theorem reached_at_bucket {α : Type*} [LinearOrder α] {xs : List α} {r : Nat} {q : α}
    {bucket : α → Nat} {n : Nat} (hr : 1 ≤ r) (h : ranked xs r = some q)
    (hMono : ∀ x ∈ xs, ∀ y ∈ xs, x ≤ y → bucket x ≤ bucket y) (hBucket : bucket q < n) :
    ((bucketCounts bucket n xs).take (bucket q)).sum < r ∧
      r ≤ ((bucketCounts bucket n xs).take (bucket q + 1)).sum := by
  have hMem := mem_of_ranked h
  rw [sum_take_bucketCounts bucket (le_of_lt hBucket), sum_take_bucketCounts bucket hBucket]
  constructor
  · refine lt_of_le_of_lt (countP_mono_left ?_) (countP_lt_of_ranked hr h)
    intro x hx hLt
    -- a sample that is not less is in this bucket or behind it
    rw [decide_eq_true_eq] at hLt ⊢
    by_contra hNot
    exact absurd (hMono q hMem x hx (not_lt.mp hNot)) (not_le.mpr hLt)
  · refine le_trans (le_countP_of_ranked hr h) (countP_mono_left ?_)
    intro x hx hLe
    rw [decide_eq_true_eq] at hLe ⊢
    exact Nat.lt_succ_of_le (hMono x hx q hMem hLe)

end DnscryptProxy.Base
