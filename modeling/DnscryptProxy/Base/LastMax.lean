import Mathlib.Order.Basic
import Mathlib.Tactic.Common

/-!
# The last maximum

A search through a list that keeps the best value so far and lets a later one of the same
rank replace it. Not every element has a value: `value r a` says that `a` is one of `r`.

`LastMax` cuts the list at the element the winner comes from. `append_of_lt` and
`append_of_le` are the two things a step of such a search can do, `first` is where it starts.
-/

namespace DnscryptProxy.Base

open List

variable {ρ α β : Type*} [Preorder β]

/-- `a` is a value of an element; before it no value has a higher rank, behind it all have a
lower one. -/
def LastMax (value : ρ → α → Prop) (rank : α → β) (rs : List ρ) (a : α) : Prop :=
  ∃ before r after, rs = before ++ r :: after ∧ value r a ∧
    (∀ r' ∈ before, ∀ a', value r' a' → rank a' ≤ rank a) ∧
    ∀ r' ∈ after, ∀ a', value r' a' → rank a' < rank a

namespace LastMax

variable {value : ρ → α → Prop} {rank : α → β} {rs : List ρ} {r : ρ} {a a' : α}

/-- An element has one value at most. -/
def Single (value : ρ → α → Prop) : Prop := ∀ r a a', value r a → value r a' → a = a'

theorem exists_value (h : LastMax value rank rs a) : ∃ r ∈ rs, value r a := by
  obtain ⟨before, r, after, rfl, hValue, -, -⟩ := h
  exact ⟨r, by simp, hValue⟩

theorem bound (hSingle : Single value) (h : LastMax value rank rs a) (hr : r ∈ rs)
    (hValue : value r a') : rank a' ≤ rank a := by
  obtain ⟨before, r₀, after, rfl, hWinner, hBefore, hAfter⟩ := h
  rcases mem_append.mp hr with hr | hr
  · exact hBefore r hr a' hValue
  · rcases mem_cons.mp hr with rfl | hr
    · exact le_of_eq (congrArg rank (hSingle r a' a hValue hWinner))
    · exact le_of_lt (hAfter r hr a' hValue)

theorem first (hNone : ∀ r' ∈ rs, ∀ a', ¬ value r' a') (hValue : value r a) :
    LastMax value rank (rs ++ [r]) a :=
  ⟨rs, r, [], rfl, hValue, fun r' hr' a' hValue' => absurd hValue' (hNone r' hr' a'),
    fun _ h => absurd h not_mem_nil⟩

/-- An element without a value, or with one of a lower rank, changes nothing. -/
theorem append_of_lt (h : LastMax value rank rs a) (hLt : ∀ a', value r a' → rank a' < rank a) :
    LastMax value rank (rs ++ [r]) a := by
  obtain ⟨before, r₀, after, rfl, hWinner, hBefore, hAfter⟩ := h
  refine ⟨before, r₀, after ++ [r], by simp, hWinner, hBefore, fun r' hr' => ?_⟩
  rcases mem_append.mp hr' with hr' | hr'
  · exact hAfter r' hr'
  · rw [mem_singleton.mp hr']
    exact hLt

/-- A value of at least the same rank replaces the winner. -/
theorem append_of_le (hSingle : Single value) (h : LastMax value rank rs a) (hValue : value r a')
    (hLe : rank a ≤ rank a') : LastMax value rank (rs ++ [r]) a' :=
  ⟨rs, r, [], rfl, hValue, fun _ hr' _ hValue' => (h.bound hSingle hr' hValue').trans hLe,
    fun _ h => absurd h not_mem_nil⟩

end LastMax

end DnscryptProxy.Base
