import Mathlib.Data.List.Nodup
import Mathlib.Data.Set.Function

/-!
# Keeping the first of each kind

A loop that remembers the keys it has seen and keeps an element only if its key
is new. Its result has one element for each key (`nodup_distinctOn`), and the same
keys (`mem_map_distinctOn`). Where no two elements share a key it is the list without
repetitions, in order of first appearance (`distinctOn_eq_eraseDups`). Sorted by a linear
order it depends on nothing but what is in the list (`sort_distinct_congr`).
-/

namespace DnscryptProxy.Base

open List

variable {α κ : Type} [DecidableEq κ]

/-- The elements of a list whose key is neither in `seen` nor that of an earlier
element. -/
def distinctOn (key : α → κ) (seen : List κ) : List α → List α
  | [] => []
  | a :: as =>
    if key a ∈ seen then distinctOn key seen as
    else a :: distinctOn key (key a :: seen) as

section Keys

variable (key : α → κ)

theorem distinctOn_sublist (as : List α) : ∀ seen, (distinctOn key seen as).Sublist as := by
  induction as with
  | nil => exact fun _ => List.Sublist.slnil
  | cons a as ih =>
    intro seen
    rw [distinctOn]
    split
    · exact (ih seen).cons a
    · exact (ih _).cons_cons a

theorem mem_map_distinctOn (as : List α) : ∀ (seen : List κ) (k : κ),
    k ∈ (distinctOn key seen as).map key ↔ k ∈ as.map key ∧ k ∉ seen := by
  induction as with
  | nil =>
    intro seen k
    simp [distinctOn]
  | cons a as ih =>
    intro seen k
    rw [distinctOn]
    by_cases hSeen : key a ∈ seen
    · rw [if_pos hSeen, ih, map_cons, mem_cons]
      refine and_congr_left fun hNot => ⟨.inr, ?_⟩
      rintro (rfl | hMem)
      · exact absurd hSeen hNot
      · exact hMem
    · rw [if_neg hSeen, map_cons, map_cons, mem_cons, mem_cons, ih, mem_cons]
      by_cases hKey : k = key a
      · subst hKey
        simp [hSeen]
      · simp [hKey]

theorem nodup_distinctOn (as : List α) : ∀ seen, ((distinctOn key seen as).map key).Nodup := by
  induction as with
  | nil => exact fun _ => nodup_nil
  | cons a as ih =>
    intro seen
    rw [distinctOn]
    split
    · exact ih seen
    · rw [map_cons, nodup_cons]
      refine ⟨fun hMem => ?_, ih _⟩
      exact ((mem_map_distinctOn key as _ _).mp hMem).2 mem_cons_self

theorem distinctOn_eq_self {as : List α} (hNodup : (as.map key).Nodup) :
    ∀ {seen : List κ}, (∀ a ∈ as, key a ∉ seen) → distinctOn key seen as = as := by
  induction as with
  | nil => exact fun _ => rfl
  | cons a as ih =>
    intro seen hNew
    rw [map_cons, nodup_cons] at hNodup
    rw [distinctOn, if_neg (hNew a mem_cons_self), ih hNodup.2]
    intro b hb
    rw [mem_cons, not_or]
    refine ⟨fun hEq => hNodup.1 ?_, hNew b (mem_cons_of_mem a hb)⟩
    rw [← hEq]
    exact mem_map_of_mem hb

end Keys

/-- The elements that are left out were before, or are repetitions. -/
theorem distinctOn_eq_filter [DecidableEq α] {key : α → κ} (as : List α) :
    ∀ before : List α, Set.InjOn key {a | a ∈ before ∨ a ∈ as} →
      distinctOn key (before.map key) as = (as.filter (· ∉ before)).eraseDups := by
  induction as with
  | nil => exact fun _ _ => rfl
  | cons a as ih =>
    intro before hInj
    have hSeen : key a ∈ before.map key ↔ a ∈ before := by
      constructor
      · intro hMem
        obtain ⟨b, hb, hKey⟩ := mem_map.mp hMem
        rwa [hInj (.inr mem_cons_self) (.inl hb) hKey.symm]
      · exact mem_map_of_mem
    rw [distinctOn]
    by_cases hBefore : a ∈ before
    · rw [if_pos (hSeen.mpr hBefore), filter_cons_of_neg (by simpa using hBefore)]
      exact ih before (hInj.mono fun b hb => hb.imp_right (mem_cons_of_mem a))
    · rw [if_neg (hSeen.not.mpr hBefore), filter_cons_of_pos (by simpa using hBefore),
        eraseDups_cons, filter_filter, ← map_cons,
        ih (a :: before) (hInj.mono ?_)]
      · congr 2
        refine filter_congr fun b _ => ?_
        simp [mem_cons, not_or, Bool.beq_eq_decide_eq]
      · rintro b (hb | hb)
        · rcases mem_cons.mp hb with rfl | hb
          · exact .inr mem_cons_self
          · exact .inl hb
        · exact .inr (mem_cons_of_mem a hb)

/-- With a key that tells the elements apart, repetitions are dropped. -/
theorem distinctOn_eq_eraseDups [DecidableEq α] {key : α → κ} {as : List α}
    (h : Set.InjOn key {a | a ∈ as}) : distinctOn key [] as = as.eraseDups := by
  have hInj : Set.InjOn key {a | a ∈ [] ∨ a ∈ as} :=
    h.mono fun a ha => ha.resolve_left not_mem_nil
  have hEq := distinctOn_eq_filter as [] hInj
  rwa [filter_eq_self.mpr (by simp)] at hEq

/-! ## Sorting -/

section Sorted

variable {α : Type} [LE α] [DecidableLE α] [Std.IsLinearOrder α]

theorem mergeSort_congr {as bs : List α} (h : as.Perm bs) :
    as.mergeSort (fun a b => decide (a ≤ b)) = bs.mergeSort fun a b => decide (a ≤ b) := by
  have hSorted : ∀ l : List α,
      (l.mergeSort fun a b => decide (a ≤ b)).Pairwise fun a b => decide (a ≤ b) = true := by
    refine pairwise_mergeSort ?_ ?_
    · intro a b c hab hbc
      exact decide_eq_true (Std.le_trans (of_decide_eq_true hab) (of_decide_eq_true hbc))
    · intro a b
      simpa using Std.le_total (a := a) (b := b)
  refine List.Perm.eq_of_pairwise ?_ (hSorted as) (hSorted bs) ?_
  · intro a b _ _ hab hba
    exact Std.le_antisymm (of_decide_eq_true hab) (of_decide_eq_true hba)
  · exact (mergeSort_perm as _).trans (h.trans (mergeSort_perm bs _).symm)

theorem sort_distinct_congr [DecidableEq α] {as bs : List α} (h : ∀ a, a ∈ as ↔ a ∈ bs) :
    (distinctOn id [] as).mergeSort (fun a b => decide (a ≤ b)) =
      (distinctOn id [] bs).mergeSort fun a b => decide (a ≤ b) := by
  have hNodup : ∀ l : List α, (distinctOn id [] l).Nodup := fun l => by
    simpa using nodup_distinctOn id l []
  have hMem : ∀ (l : List α) a, a ∈ distinctOn id [] l ↔ a ∈ l := fun l a => by
    simpa using mem_map_distinctOn id l [] a
  refine mergeSort_congr ((perm_ext_iff_of_nodup (hNodup as) (hNodup bs)).mpr fun a => ?_)
  rw [hMem, hMem, h]

end Sorted

end DnscryptProxy.Base
