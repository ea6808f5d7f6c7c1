import Mathlib.Logic.Function.Basic

/-!
# Finite maps as functions

A Go map is a function into `Option`. These are the lemmas that say where a
value of an updated function comes from.
-/

namespace DnscryptProxy.Base

open Function

variable {α β : Type*} [DecidableEq α] {f : α → Option β} {a b : α} {x y : β}

/-- A value is the one just written, or stands somewhere else and is an old one. -/
theorem update_eq_iff {g : α → β} :
    update g a x b = y ↔ b = a ∧ x = y ∨ b ≠ a ∧ g b = y := by
  by_cases h : b = a
  · subst h
    simp
  · simp [h]

/-- An entry after `m[a] = x`. -/
theorem update_some_eq_some :
    update f a (some x) b = some y ↔ b = a ∧ x = y ∨ b ≠ a ∧ f b = some y := by
  rw [update_eq_iff, Option.some.injEq]

/-- An entry after `delete(m, a)`. -/
theorem update_none_eq_some :
    update f a none b = some y ↔ b ≠ a ∧ f b = some y := by
  rw [update_eq_iff]
  simp

end DnscryptProxy.Base
