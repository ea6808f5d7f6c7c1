import Mathlib.Data.List.Basic

/-!
# Cutting texts

Texts are lists. The last place of an element cuts a text in two.
-/

namespace DnscryptProxy.Base

variable {α : Type*} {s : List α}

open List

/-! ## Places in a text -/

/-- The last element of a kind. -/
theorem exists_last_of {p : α → Prop} (h : ∃ c ∈ s, p c) :
    ∃ front c back, s = front ++ c :: back ∧ p c ∧ ∀ d ∈ back, ¬ p d := by
  induction s with
  | nil =>
    obtain ⟨c, hc, -⟩ := h
    cases hc
  | cons a s ih =>
    by_cases hRest : ∃ c ∈ s, p c
    · obtain ⟨front, c, back, rfl, hc, hBack⟩ := ih hRest
      exact ⟨a :: front, c, back, rfl, hc, hBack⟩
    · obtain ⟨c, hMem, hc⟩ := h
      rcases mem_cons.mp hMem with rfl | hMem
      · exact ⟨[], c, s, rfl, hc, fun d hd hpd => hRest ⟨d, hd, hpd⟩⟩
      · exact absurd ⟨c, hMem, hc⟩ hRest

theorem exists_last {c : α} (h : c ∈ s) :
    ∃ front back, s = front ++ c :: back ∧ c ∉ back := by
  obtain ⟨front, _, back, hEq, rfl, hBack⟩ := exists_last_of (p := (· = c)) ⟨c, h, rfl⟩
  exact ⟨front, back, hEq, fun hMem => hBack _ hMem rfl⟩

/-- Joined parts: all but the first have the separator in front. -/
theorem intercalate_cons (c : α) (first : List α) (rest : List (List α)) :
    [c].intercalate (first :: rest) = first ++ rest.flatMap (c :: ·) := by
  induction rest generalizing first with
  | nil => rw [intercalate_singleton, flatMap_nil, append_nil]
  | cons next rest ih =>
    rw [intercalate_cons_cons, ih, flatMap_cons, append_assoc, cons_append, nil_append, cons_append]

theorem intercalate_concat (c : α) {parts : List (List α)} (h : parts ≠ [])
    (last : List α) : [c].intercalate (parts ++ [last]) = [c].intercalate parts ++ c :: last := by
  obtain ⟨first, rest, rfl⟩ := exists_cons_of_ne_nil h
  rw [cons_append, intercalate_cons, intercalate_cons, flatMap_append, append_assoc]
  simp

/-- Joined parts that are not empty are not empty. -/
theorem intercalate_eq_nil_iff {c : α} {parts : List (List α)}
    (h : ∀ part ∈ parts, part ≠ []) : [c].intercalate parts = [] ↔ parts = [] := by
  cases parts with
  | nil => exact ⟨fun _ => rfl, fun _ => rfl⟩
  | cons first rest =>
    rw [intercalate_cons, append_eq_nil_iff]
    refine ⟨fun hNil => absurd hNil.1 (h first mem_cons_self), fun hNil => ?_⟩
    cases hNil

theorem splitOn_of_not_mem [DecidableEq α] {sep : α} (h : sep ∉ s) :
    s.splitOn sep = [s] := by
  have hSplit : ([sep].intercalate [s]).splitOn sep = [s] :=
    splitOn_intercalate sep (fun l hl => mem_singleton.mp hl ▸ h) (cons_ne_nil _ _)
  rwa [intercalate_singleton] at hSplit

/-- The first part ends at the first separator. -/
theorem exists_splitOn_eq [DecidableEq α] (sep : α) (s : List α) :
    ∃ rest, s.splitOn sep = s.takeWhile (· ≠ sep) :: rest := by
  induction s with
  | nil => exact ⟨[], by simp⟩
  | cons a s ih =>
    obtain ⟨rest, hRest⟩ := ih
    rw [splitOn, splitOnP_cons_eq_if_modifyHead, ← splitOn, hRest]
    by_cases hEq : a = sep
    · exact ⟨s.takeWhile (· ≠ sep) :: rest, by simp [hEq]⟩
    · exact ⟨rest, by simp [hEq]⟩

end DnscryptProxy.Base
