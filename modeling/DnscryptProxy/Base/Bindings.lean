import DnscryptProxy.Base.Maps

/-!
# Names bound to objects

A map from keys to pointers, with the objects they point at: an object is
named by the moment of its creation, so that two lookups can be asked whether
they return the same object. No two keys share an object.

* `Extends R b b'` — every key of `b` is bound to the same object in `b'`, and
  the contents of that object went from `x` to some `x'` with `R x x'`;
* `ensure_extends`, `modify_extends`, `modifyAll_extends` — the operations
  never rebind a key;
* `get?_ensure`, `get?_modify`, `get?_modifyAll` — what a lookup returns after
  them.
-/

namespace DnscryptProxy.Base

open Option List Function

structure Bindings (κ α : Type*) where
  ids : κ → Option Nat
  objects : List α
  allocated : ∀ k i, ids k = some i → i < objects.length
  distinct : ∀ k l i, ids k = some i → ids l = some i → k = l

namespace Bindings

section Objects

variable {κ α : Type*} {b b' b'' : Bindings κ α} {k : κ} {i : Nat} {f : α → α}
  {R : α → α → Prop}

def empty : Bindings κ α :=
  { ids := fun _ => none, objects := [], allocated := nofun, distinct := nofun }

def get? (b : Bindings κ α) (k : κ) : Option α := (b.ids k).bind fun i => b.objects[i]?

/-- Change the object bound to `k` in place. -/
def modify (b : Bindings κ α) (k : κ) (f : α → α) : Bindings κ α where
  ids := b.ids
  objects :=
    match b.ids k with
    | some i => b.objects.modify i f
    | none => b.objects
  allocated l j h := by
    split
    · rw [length_modify]
      exact b.allocated l j h
    · exact b.allocated l j h
  distinct := b.distinct

/-- Change the objects bound to `ks`, one after the other. -/
def modifyAll (b : Bindings κ α) (ks : List κ) (f : α → α) : Bindings κ α :=
  ks.foldl (fun b k => b.modify k f) b

theorem exists_object (h : b.ids k = some i) :
    ∃ x, b.objects[i]? = some x ∧ b.get? k = some x := by
  have hLt := b.allocated k i h
  refine ⟨b.objects[i], getElem?_eq_getElem hLt, ?_⟩
  rw [get?, h, bind_some, getElem?_eq_getElem hLt]

theorem get?_eq_none (h : b.ids k = none) : b.get? k = none := by
  rw [get?, h, bind_none]

/-- Every key keeps its object, whose contents change along `R`. -/
def Extends (R : α → α → Prop) (b b' : Bindings κ α) : Prop :=
  ∀ k i x, b.ids k = some i → b.objects[i]? = some x →
    b'.ids k = some i ∧ ∃ x', b'.objects[i]? = some x' ∧ R x x'

theorem Extends.refl (hRefl : ∀ x, R x x) (b : Bindings κ α) : Extends R b b :=
  fun _ _ x hi hx => ⟨hi, x, hx, hRefl x⟩

theorem Extends.trans (hTrans : ∀ {x y z}, R x y → R y z → R x z)
    (h : Extends R b b') (h' : Extends R b' b'') : Extends R b b'' := by
  intro k i x hi hx
  obtain ⟨hi', y, hy, hxy⟩ := h k i x hi hx
  obtain ⟨hi'', z, hz, hyz⟩ := h' k i y hi' hy
  exact ⟨hi'', z, hz, hTrans hxy hyz⟩

theorem Extends.exists_id (h : Extends R b b') (hk : ∃ i, b.ids k = some i) :
    ∃ i, b'.ids k = some i := by
  obtain ⟨i, hi⟩ := hk
  obtain ⟨x, hx, -⟩ := exists_object hi
  exact ⟨i, (h k i x hi hx).1⟩

theorem modify_extends (hRefl : ∀ x, R x x) (hf : ∀ x, R x (f x)) (b : Bindings κ α) (k : κ) :
    Extends R b (b.modify k f) := by
  intro l i x hi hx
  refine ⟨hi, ?_⟩
  show ∃ x', (match b.ids k with
    | some j => b.objects.modify j f
    | none => b.objects)[i]? = some x' ∧ R x x'
  split
  · next j _ =>
    rw [getElem?_modify, hx]
    by_cases hEq : j = i
    · exact ⟨f x, by simp [hEq], hf x⟩
    · exact ⟨x, by simp [hEq], hRefl x⟩
  · exact ⟨x, hx, hRefl x⟩

theorem modifyAll_extends (hRefl : ∀ x, R x x) (hTrans : ∀ {x y z}, R x y → R y z → R x z)
    (hf : ∀ x, R x (f x)) (b : Bindings κ α) (ks : List κ) :
    Extends R b (b.modifyAll ks f) := by
  induction ks generalizing b with
  | nil => exact .refl hRefl b
  | cons k ks ih => exact (modify_extends hRefl hf b k).trans hTrans (ih (b.modify k f))

end Objects

section Keys

variable {κ α : Type*} [DecidableEq κ] {b : Bindings κ α} {k : κ} {i : Nat} {a : α}

/-- Create an object for `k`, with contents `a`, if there is none. -/
def ensure (b : Bindings κ α) (k : κ) (a : α) : Bindings κ α :=
  match h : b.ids k with
  | some _ => b
  | none =>
    { ids := update b.ids k (some b.objects.length)
      objects := b.objects ++ [a]
      allocated := by
        intro l i hl
        rw [length_append, length_singleton]
        rcases update_some_eq_some.mp hl with ⟨-, rfl⟩ | ⟨-, hOld⟩
        · exact Nat.lt_succ_self _
        · exact Nat.lt_succ_of_lt (b.allocated l i hOld)
      distinct := by
        intro l l' i hl hl'
        rcases update_some_eq_some.mp hl with ⟨rfl, rfl⟩ | ⟨-, hOld⟩
        · rcases update_some_eq_some.mp hl' with ⟨rfl, -⟩ | ⟨-, hOld'⟩
          · rfl
          · exact absurd (b.allocated l' _ hOld') (Nat.lt_irrefl _)
        · rcases update_some_eq_some.mp hl' with ⟨rfl, rfl⟩ | ⟨-, hOld'⟩
          · exact absurd (b.allocated l _ hOld) (Nat.lt_irrefl _)
          · exact b.distinct l l' i hOld hOld' }

theorem ensure_of_some (h : b.ids k = some i) : b.ensure k a = b := by
  unfold ensure
  split
  · rfl
  · next hNone =>
    rw [hNone] at h
    cases h

theorem ensure_of_none (h : b.ids k = none) :
    (b.ensure k a).ids = update b.ids k (some b.objects.length) ∧
      (b.ensure k a).objects = b.objects ++ [a] := by
  unfold ensure
  split
  · next hSome =>
    rw [hSome] at h
    cases h
  · exact ⟨rfl, rfl⟩

theorem ids_ensure (b : Bindings κ α) (k : κ) (a : α) : ∃ i, (b.ensure k a).ids k = some i := by
  cases h : b.ids k with
  | some i => exact ⟨i, (ensure_of_some h).symm ▸ h⟩
  | none =>
    rw [(ensure_of_none h).1]
    exact ⟨b.objects.length, update_self ..⟩

theorem ensure_extends {R : α → α → Prop} (hRefl : ∀ x, R x x) (b : Bindings κ α) (k : κ)
    (a : α) : Extends R b (b.ensure k a) := by
  cases h : b.ids k with
  | some i =>
    rw [ensure_of_some h]
    exact .refl hRefl b
  | none =>
    intro l i x hi hx
    have hNe : l ≠ k := by
      rintro rfl
      rw [h] at hi
      cases hi
    rw [(ensure_of_none h).1, (ensure_of_none h).2]
    refine ⟨(update_of_ne hNe ..).trans hi, x, ?_, hRefl x⟩
    exact (getElem?_append_left (b.allocated l i hi)).trans hx

theorem get?_ensure (b : Bindings κ α) (k l : κ) (a : α) :
    (b.ensure k a).get? l = if l = k then some ((b.get? k).getD a) else b.get? l := by
  cases h : b.ids k with
  | some i =>
    obtain ⟨x, -, hGet⟩ := exists_object h
    rw [ensure_of_some h, hGet, getD_some]
    split
    · next hEq => rw [hEq, hGet]
    · rfl
  | none =>
    rw [get?_eq_none h, getD_none, get?, (ensure_of_none h).1, (ensure_of_none h).2]
    by_cases hEq : l = k
    · subst hEq
      simp
    · rw [if_neg hEq, update_of_ne hEq]
      cases hl : b.ids l with
      | none => rw [get?_eq_none hl, bind_none]
      | some j =>
        rw [get?, hl, bind_some, bind_some, getElem?_append_left (b.allocated l j hl)]

theorem get?_modify (b : Bindings κ α) (k l : κ) (f : α → α) :
    (b.modify k f).get? l = if l = k then (b.get? k).map f else b.get? l := by
  cases h : b.ids k with
  | none =>
    have hSame : (b.modify k f).get? l = b.get? l := by simp [get?, modify, h]
    rw [hSame, get?_eq_none h, map_none]
    split
    · next hEq => rw [hEq, get?_eq_none h]
    · rfl
  | some i =>
    by_cases hEq : l = k
    · subst hEq
      simp [get?, modify, h]
    · rw [if_neg hEq]
      cases hl : b.ids l with
      | none => simp [get?, modify, hl]
      | some j =>
        -- different keys, different objects
        have hNe : i ≠ j := by
          rintro rfl
          exact hEq (b.distinct l k i hl h)
        simp [get?, modify, hl, h, getElem?_modify, hNe]

theorem get?_modifyAll {ks : List κ} (hNodup : ks.Nodup) (b : Bindings κ α) (l : κ) (f : α → α) :
    (b.modifyAll ks f).get? l = if l ∈ ks then (b.get? l).map f else b.get? l := by
  induction ks generalizing b with
  | nil => rfl
  | cons k ks ih =>
    obtain ⟨hk, hRest⟩ := nodup_cons.mp hNodup
    show ((b.modify k f).modifyAll ks f).get? l = _
    rw [ih hRest, get?_modify]
    by_cases hEq : l = k
    · subst hEq
      simp [hk]
    · simp [hEq]

end Keys

end Bindings

end DnscryptProxy.Base
