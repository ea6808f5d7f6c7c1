import Mathlib.Data.List.Basic

/-!
# Computations that can panic

A computation in `Except (Halt ε)` returns a value, returns an error, or
panics. `slice`, `index` and `store` are the accesses that panic when they are out
of range; `slice_eq`, `index_eq` and `store_eq` are the equations a proof about a program
uses, with the range check as a side condition, and `slice_append` reads a list
that was put together from parts. `writes` is what a loop of stores leaves behind.
-/

namespace DnscryptProxy.Base

open List

/-- Why a computation did not return a value. -/
inductive Halt (ε : Type) where
  | panic
  | error (err : ε)
deriving Repr, DecidableEq

variable {ε α β : Type}

/-- A call that returns a value or an error. -/
def returns (r : Except ε α) : Except (Halt ε) α :=
  match r with
  | .ok a => .ok a
  | .error e => .error (.error e)

/-- `l[i:j]`. -/
def slice (l : List α) (i j : Nat) : Except (Halt ε) (List α) :=
  if i ≤ j ∧ j ≤ l.length then .ok ((l.take j).drop i) else .error .panic

/-- `l[i]`. -/
def index (l : List α) (i : Nat) : Except (Halt ε) α :=
  match l[i]? with
  | some a => .ok a
  | none => .error .panic

/-- `l[i] = a`. -/
def store (l : List α) (i : Nat) (a : α) : Except (Halt ε) (List α) :=
  if i < l.length then .ok (l.set i a) else .error .panic

theorem slice_eq {l : List α} {i j : Nat} (hOrder : i ≤ j) (hEnd : j ≤ l.length) :
    (slice l i j : Except (Halt ε) (List α)) = .ok ((l.take j).drop i) :=
  if_pos ⟨hOrder, hEnd⟩

/-- The slice between two parts of a list. -/
theorem slice_append (a b c : List α) {i j : Nat} (hi : i = a.length)
    (hj : j = a.length + b.length) :
    (slice (a ++ (b ++ c)) i j : Except (Halt ε) (List α)) = .ok b := by
  subst hi hj
  rw [slice_eq (by omega) (by simp only [length_append]; omega), take_length_add_append,
    take_left, drop_left]

theorem index_eq {l : List α} {i : Nat} {a : α} (h : l[i]? = some a) :
    (index l i : Except (Halt ε) α) = .ok a := by
  rw [index, h]

theorem store_eq {l : List α} {i : Nat} (h : i < l.length) (a : α) :
    (store l i a : Except (Halt ε) (List α)) = .ok (l.set i a) :=
  if_pos h

theorem returns_eq_ok {r : Except ε α} {a : α} : returns r = .ok a ↔ r = .ok a := by
  cases r <;> simp [returns]

theorem returns_ne_panic (r : Except ε α) : returns r ≠ .error .panic := by
  cases r <;> simp [returns]

@[simp]
theorem ok_bind (a : α) (f : α → Except (Halt ε) β) : ((.ok a : Except (Halt ε) α) >>= f) = f a :=
  rfl

/-- A sequence returns what its second part does on the value of the first. -/
theorem bind_eq_ok {t : Except (Halt ε) α} {f : α → Except (Halt ε) β} {b : β} :
    (t >>= f) = .ok b ↔ ∃ a, t = .ok a ∧ f a = .ok b := by
  cases t with
  | error e => simp [bind, Except.bind]
  | ok a => simp [bind, Except.bind]

theorem bind_ne_panic {t : Except (Halt ε) α} {f : α → Except (Halt ε) β}
    (ht : t ≠ .error .panic) (hf : ∀ a, t = .ok a → f a ≠ .error .panic) :
    (t >>= f) ≠ .error .panic := by
  cases t with
  | error e => exact fun h => ht (by simpa [bind, Except.bind] using h)
  | ok a => exact hf a rfl

/-! ## Writing at several indices -/

section Writes

/-- `l[place i] = value i`, for each `i` of a list. -/
def writes (place : Nat → Nat) (value : Nat → α) (is : List Nat) (l : List α) : List α :=
  is.foldl (fun l i => l.set (place i) (value i)) l

variable {place : Nat → Nat} {value : Nat → α}

theorem length_writes (is : List Nat) (l : List α) :
    (writes place value is l).length = l.length := by
  induction is generalizing l with
  | nil => rfl
  | cons i is ih => exact (ih _).trans length_set

theorem getElem?_writes_of_not_mem {is : List Nat} {j : Nat} (h : ∀ i ∈ is, place i ≠ j)
    (l : List α) : (writes place value is l)[j]? = l[j]? := by
  induction is generalizing l with
  | nil => rfl
  | cons i is ih =>
    have hRest := ih (fun i' hi' => h i' (mem_cons_of_mem i hi')) (l.set (place i) (value i))
    exact hRest.trans (getElem?_set_ne (h i mem_cons_self))

theorem getElem?_writes {is : List Nat} (hNodup : (is.map place).Nodup) {i : Nat} (hi : i ∈ is)
    (l : List α) (hPlace : place i < l.length) :
    (writes place value is l)[place i]? = some (value i) := by
  induction is generalizing l with
  | nil => cases hi
  | cons i' is ih =>
    rw [map_cons, nodup_cons] at hNodup
    rcases mem_cons.mp hi with rfl | hi
    · -- no later write goes to this place
      have hLater : ∀ j ∈ is, place j ≠ place i := fun j hj hEq =>
        hNodup.1 (hEq ▸ mem_map_of_mem hj)
      exact (getElem?_writes_of_not_mem hLater _).trans (getElem?_set_self hPlace)
    · exact ih hNodup.2 hi _ (by rwa [length_set])

end Writes

end DnscryptProxy.Base
