import Mathlib.Algebra.BigOperators.Fin
import Mathlib.Data.Nat.ModEq

/-!
# A ring of epochs

A bounded store keeps the last `n` epochs in a ring of `n` accumulators. It knows
the slot of the current epoch, clears a slot when the ring turns, and clears all
of them when it has slept for a whole turn. `Ring.Holds` relates such a ring to
the full history of items, each tagged with the number of its epoch.

* `Ring.Holds.rotate_iterate`, `Ring.Holds.clear`, `Ring.Holds.push` — the
  operations of the ring, on the history;
* `Ring.Holds.sum_slots` — a counter summed over the ring counts the items of the
  last `n` epochs.
-/

namespace DnscryptProxy.Base

open List Function Bool

open scoped BigOperators

/-! ## Counting by fibers -/

/-- Items counted separately for each key are counted once. -/
theorem sum_countP_fiber {α ι : Type*} [Fintype ι] [DecidableEq ι] (key : α → ι) (p : α → Bool)
    (l : List α) : ∑ i, l.countP (fun a => p a && decide (key a = i)) = l.countP p := by
  induction l with
  | nil => simp
  | cons a rest ih =>
    -- the new item is counted at its own key alone
    have hOne : ∑ i, (if (p a && decide (key a = i)) = true then 1 else 0) =
        if p a = true then 1 else 0 := by
      cases p a with
      | false => simp
      | true => simp
    simp only [countP_cons, Finset.sum_add_distrib, ih, hOne]

/-! ## Windows of a history -/

namespace Ring

section Windows

variable {n k : Nat} {α : Type*} {h : List (Nat × α)}

/-- The items of the last `n` epochs, seen from epoch `k`. -/
def windowItems (n k : Nat) (h : List (Nat × α)) : List α :=
  (h.filter fun x => decide (k < x.1 + n)).map Prod.snd

/-- Those of them that belong into slot `i`. -/
def slotItems (n k : Nat) (h : List (Nat × α)) (i : Nat) : List α :=
  (h.filter fun x => decide (k < x.1 + n) && decide (x.1 % n = i)).map Prod.snd

theorem slotItems_congr {k' : Nat} {i : Nat}
    (hSame : ∀ x ∈ h, x.1 % n = i → (k < x.1 + n ↔ k' < x.1 + n)) :
    slotItems n k h i = slotItems n k' h i := by
  unfold slotItems
  congr 1
  refine filter_congr fun x hx => ?_
  by_cases hi : x.1 % n = i
  · simp [hi, hSame x hx hi]
  · simp [hi]

theorem slotItems_eq_nil {i : Nat} (hNone : ∀ x ∈ h, x.1 % n = i → x.1 + n ≤ k) :
    slotItems n k h i = [] := by
  unfold slotItems
  rw [map_eq_nil_iff, filter_eq_nil_iff]
  intro x hx hIn
  rw [and_eq_true, decide_eq_true_eq, decide_eq_true_eq] at hIn
  have := hNone x hx hIn.2
  omega

end Windows

end Ring

/-! ## Rings -/

/-- `n` accumulators, one of them current. -/
structure Ring (n : Nat) (β : Type*) where
  slots : Fin n → β
  cur : Fin n

namespace Ring

variable {n : Nat} [NeZero n] {α β : Type*}

/-- The next slot becomes current and is emptied. -/
def rotate (empty : β) (r : Ring n β) : Ring n β :=
  { slots := update r.slots (r.cur + 1) empty, cur := r.cur + 1 }

/-- After `m` epochs without a look, all slots are emptied. -/
def clear (empty : β) (m : Nat) (r : Ring n β) : Ring n β :=
  { slots := fun _ => empty, cur := r.cur + Fin.ofNat n m }

/-- An item goes into the current slot. -/
def push (g : β → β) (r : Ring n β) : Ring n β :=
  { r with slots := update r.slots r.cur (g (r.slots r.cur)) }

/-- The ring `r` at epoch `k` holds the history `h`, where `f` accumulates items. -/
structure Holds (f : List α → β) (r : Ring n β) (k : Nat) (h : List (Nat × α)) : Prop where
  past : ∀ x ∈ h, x.1 ≤ k
  cur : (r.cur : Nat) = k % n
  slots : ∀ i : Fin n, r.slots i = f (slotItems n k h i)

variable {f : List α → β} {r : Ring n β} {k : Nat} {h : List (Nat × α)}

theorem Holds.empty (f : List α → β) : Holds f ⟨fun _ => f [], (0 : Fin n)⟩ 0 [] where
  past x hx := by cases hx
  cur := by simp
  slots _ := rfl

/-- One turn of the ring. -/
theorem Holds.rotate (hr : Holds f r k h) : Holds f (r.rotate (f [])) (k + 1) h := by
  have hCur : ((r.cur + 1 : Fin n) : Nat) = (k + 1) % n := by
    rw [Fin.val_add, hr.cur, Fin.val_one', Nat.mod_add_mod, ← Nat.add_mod_mod]
    simp
  refine ⟨fun x hx => (hr.past x hx).trans (Nat.le_succ k), hCur, ?_⟩
  intro i
  show update r.slots (r.cur + 1) (f []) i = _
  by_cases hi : i = r.cur + 1
  · -- what this slot held is now `n` epochs old
    rw [hi, update_self, slotItems_eq_nil]
    intro x hx hSlot
    rw [hCur] at hSlot
    have hPast := hr.past x hx
    by_contra hIn
    have hDvd : n ∣ k + 1 - x.1 := (Nat.modEq_iff_dvd' (by omega)).mp hSlot
    have := Nat.le_of_dvd (by omega) hDvd
    omega
  · rw [update_of_ne hi, hr.slots i]
    refine congrArg f (slotItems_congr fun x _ hSlot => ?_)
    -- an item that leaves the window now belongs into the slot that is emptied
    have hNe : x.1 + n ≠ k + 1 := by
      intro hEq
      refine hi (Fin.ext ?_)
      rw [hCur, ← hEq, Nat.add_mod_right]
      exact hSlot.symm
    omega

theorem Holds.rotate_iterate (hr : Holds f r k h) (m : Nat) :
    Holds f ((Ring.rotate (f []))^[m] r) (k + m) h := by
  induction m with
  | zero => exact hr
  | succ m ih =>
    rw [iterate_succ_apply']
    exact ih.rotate

theorem Holds.clear (hr : Holds f r k h) {m : Nat} (hm : n ≤ m) :
    Holds f (r.clear (f []) m) (k + m) h := by
  refine ⟨fun x hx => (hr.past x hx).trans (Nat.le_add_right k m), ?_, ?_⟩
  · show ((r.cur + Fin.ofNat n m : Fin n) : Nat) = (k + m) % n
    rw [Fin.val_add, hr.cur, Fin.val_ofNat, ← Nat.add_mod]
  · intro i
    rw [slotItems_eq_nil]
    · rfl
    · intro x hx _
      have := hr.past x hx
      omega

theorem Holds.push (hr : Holds f r k h) {g : β → β} {a : α}
    (hf : ∀ items, f (items ++ [a]) = g (f items)) : Holds f (r.push g) k (h ++ [(k, a)]) := by
  have hn : 0 < n := Nat.pos_of_ne_zero (NeZero.ne n)
  refine ⟨?_, hr.cur, ?_⟩
  · intro x hx
    rcases mem_append.mp hx with hx | hx
    · exact hr.past x hx
    · rw [mem_singleton.mp hx]
  · intro i
    show update r.slots r.cur (g (r.slots r.cur)) i = _
    by_cases hi : i = r.cur
    · subst hi
      have hItems : slotItems n k (h ++ [(k, a)]) r.cur = slotItems n k h r.cur ++ [a] := by
        simp [slotItems, filter_append, hr.cur, hn]
      rw [update_self, hr.slots, hItems, hf]
    · have hOther : ¬k % n = i := by
        intro hEq
        exact hi (Fin.ext (hEq.symm.trans hr.cur.symm))
      have hItems : slotItems n k (h ++ [(k, a)]) i = slotItems n k h i := by
        simp [slotItems, filter_append, hOther]
      rw [update_of_ne hi, hr.slots, hItems]

theorem Holds.sum_slots (hr : Holds f r k h) {c : β → Nat} {p : α → Bool}
    (hc : ∀ items, c (f items) = items.countP p) :
    ∑ i, c (r.slots i) = (windowItems n k h).countP p := by
  have hn : 0 < n := Nat.pos_of_ne_zero (NeZero.ne n)
  have hSlot : ∀ i : Fin n, c (r.slots i) = h.countP fun x =>
      (decide (k < x.1 + n) && p x.2) && decide ((⟨x.1 % n, Nat.mod_lt _ hn⟩ : Fin n) = i) := by
    intro i
    rw [hr.slots, hc, slotItems, countP_map, countP_filter]
    refine countP_congr fun x _ => ?_
    simp only [comp_apply, and_eq_true, decide_eq_true_eq, Fin.ext_iff]
    tauto
  simp only [hSlot]
  rw [sum_countP_fiber, windowItems, countP_map, countP_filter]
  refine countP_congr fun x _ => ?_
  simp only [comp_apply, and_eq_true]
  tauto

end Ring

end DnscryptProxy.Base
