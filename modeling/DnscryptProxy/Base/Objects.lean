import Mathlib.Logic.Function.Basic

/-!
# Objects behind pointers

The objects of one type, in the order of their creation; a pointer is a place
in that list, and nil is `none`. Objects are created and changed in place.
-/

namespace DnscryptProxy.Base

variable {α : Type*}

/-- The pointer `ptr` is not nil, and the object behind it is `a`. -/
def Reads (objects : List α) (ptr : Option Nat) (a : α) : Prop :=
  ∃ p, ptr = some p ∧ objects[p]? = some a

namespace Reads

variable {objects : List α} {ptr : Option Nat} {a : α} {p : Nat} {f : α → α}

theorem bind_eq (h : Reads objects ptr a) : (ptr.bind fun p => objects[p]?) = some a := by
  obtain ⟨p, rfl, hp⟩ := h
  exact hp

/-- Nobody has a pointer to an object that does not exist yet. -/
theorem ne_length (h : Reads objects ptr a) : ptr ≠ some objects.length := by
  obtain ⟨p, rfl, hp⟩ := h
  have hLt := (List.getElem?_eq_some_iff.mp hp).1
  intro hEq
  rw [Option.some.injEq] at hEq
  exact absurd (hEq ▸ hLt) (Nat.lt_irrefl _)

theorem append (h : Reads objects ptr a) (b : α) : Reads (objects ++ [b]) ptr a := by
  obtain ⟨p, rfl, hp⟩ := h
  have hLt := (List.getElem?_eq_some_iff.mp hp).1
  exact ⟨p, rfl, (List.getElem?_append_left hLt).trans hp⟩

theorem last (objects : List α) (b : α) : Reads (objects ++ [b]) (some objects.length) b :=
  ⟨objects.length, rfl, List.getElem?_concat_length⟩

theorem modify_self (h : objects[p]? = some a) : Reads (objects.modify p f) (some p) (f a) :=
  ⟨p, rfl, by simp [h]⟩

theorem modify_of_ne (h : Reads objects ptr a) (hNe : ptr ≠ some p) :
    Reads (objects.modify p f) ptr a := by
  obtain ⟨q, rfl, hq⟩ := h
  have hpq : p ≠ q := by
    rintro rfl
    exact hNe rfl
  exact ⟨q, rfl, by simp [hq, hpq]⟩

end Reads

end DnscryptProxy.Base
