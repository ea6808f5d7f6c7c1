import Mathlib.Data.List.Basic

/-!
# The bits that two byte strings begin with

How many elements two lists have in common at their front, and the bits of a byte
string from the most significant one on. A length in bits is some whole bytes and
a part of one byte more (`take_bitsOf_eq_iff`); the bits that two bytes share are
the leading zeros of their exclusive or (`sharedPrefix_byteBits`).
-/

namespace DnscryptProxy.Base

open List Option

/-! ## A common front -/

section Shared

variable {α : Type*} [DecidableEq α]

/-- How many elements two lists have in common at their front. -/
def sharedPrefix : List α → List α → Nat
  | a :: as, b :: bs => if a = b then sharedPrefix as bs + 1 else 0
  | _, _ => 0

theorem sharedPrefix_cons (a b : α) (as bs : List α) :
    sharedPrefix (a :: as) (b :: bs) = if a = b then sharedPrefix as bs + 1 else 0 := rfl

theorem sharedPrefix_le : ∀ (as bs : List α), sharedPrefix as bs ≤ as.length
  | [], _ => Nat.zero_le _
  | _ :: _, [] => Nat.zero_le _
  | a :: as, b :: bs => by
    rw [sharedPrefix_cons, length_cons]
    split
    · exact Nat.succ_le_succ (sharedPrefix_le as bs)
    · exact Nat.zero_le _

theorem sharedPrefix_append_left (l as bs : List α) :
    sharedPrefix (l ++ as) (l ++ bs) = l.length + sharedPrefix as bs := by
  induction l with
  | nil => rw [nil_append, nil_append, length_nil, Nat.zero_add]
  | cons a l ih =>
    rw [cons_append, cons_append, sharedPrefix_cons, if_pos rfl, ih, length_cons]
    omega

/-- Where the fronts differ, what follows does not matter. -/
theorem sharedPrefix_append_of_ne :
    ∀ {u v : List α}, u.length = v.length → u ≠ v → ∀ as bs,
      sharedPrefix (u ++ as) (v ++ bs) = sharedPrefix u v := by
  intro u
  induction u with
  | nil =>
    intro v hLen hNe
    exact absurd (length_eq_zero_iff.mp hLen.symm).symm hNe
  | cons a u ih =>
    intro v hLen hNe as bs
    cases v with
    | nil => cases hLen
    | cons b v =>
      rw [cons_append, cons_append, sharedPrefix_cons, sharedPrefix_cons]
      by_cases hEq : a = b
      · rw [if_pos hEq, if_pos hEq, ih (Nat.succ.inj hLen)]
        rintro rfl
        exact hNe (by rw [hEq])
      · rw [if_neg hEq, if_neg hEq]

end Shared

/-- Two lists of bits agree as far as their exclusive or is zero. -/
theorem sharedPrefix_xor :
    ∀ {u v : List Bool}, u.length = v.length →
      sharedPrefix u v = sharedPrefix (zipWith xor u v) (replicate u.length false) := by
  intro u
  induction u with
  | nil =>
    intro v _
    rfl
  | cons a u ih =>
    intro v hLen
    cases v with
    | nil => cases hLen
    | cons b v =>
      rw [zipWith_cons_cons, length_cons, replicate_succ, sharedPrefix_cons,
        sharedPrefix_cons, ih (Nat.succ.inj hLen)]
      have hXor : ∀ a b : Bool, a = b ↔ xor a b = false := by decide
      exact if_congr (hXor a b) rfl rfl

/-! ## The bits of bytes -/

/-- The bits of a byte, the most significant one first. -/
def byteBits (x : UInt8) : List Bool := (range 8).map fun i => x.toNat.testBit (7 - i)

/-- The bits of a byte string. -/
def bitsOf (bs : List UInt8) : List Bool := bs.flatMap byteBits

theorem length_byteBits (x : UInt8) : (byteBits x).length = 8 := rfl

theorem bitsOf_cons (x : UInt8) (bs : List UInt8) : bitsOf (x :: bs) = byteBits x ++ bitsOf bs :=
  rfl

theorem length_bitsOf (bs : List UInt8) : (bitsOf bs).length = 8 * bs.length := by
  induction bs with
  | nil => rfl
  | cons x bs ih =>
    rw [bitsOf_cons, length_append, ih, length_byteBits, length_cons]
    omega

theorem byteBits_xor (a b : UInt8) :
    byteBits (a ^^^ b) = zipWith xor (byteBits a) (byteBits b) := by
  unfold byteBits
  rw [zipWith_map, zipWith_self]
  refine map_congr_left fun i _ => ?_
  rw [UInt8.toNat_xor, Nat.testBit_xor]

theorem byteBits_injective {a b : UInt8} (h : byteBits a = byteBits b) : a = b := by
  refine UInt8.toNat_inj.mp (Nat.eq_of_testBit_eq fun i => ?_)
  by_cases hi : i < 8
  · have hAt : (byteBits a)[7 - i]? = (byteBits b)[7 - i]? := by rw [h]
    unfold byteBits at hAt
    rw [getElem?_map, getElem?_map, getElem?_range (by omega), map_some,
      map_some, show 7 - (7 - i) = i by omega] at hAt
    exact some.inj hAt
  · have hSmall : ∀ x : UInt8, x.toNat.testBit i = false := by
      intro x
      refine Nat.testBit_lt_two_pow (Nat.lt_of_lt_of_le x.toNat_lt ?_)
      exact Nat.pow_le_pow_right (by decide) (Nat.not_lt.mp hi)
    rw [hSmall, hSmall]

theorem bitsOf_injective : ∀ {as bs : List UInt8}, bitsOf as = bitsOf bs → as = bs := by
  intro as
  induction as with
  | nil =>
    intro bs h
    have hLen := congrArg length h
    rw [length_bitsOf, length_bitsOf, length_nil] at hLen
    exact (length_eq_zero_iff.mp (by omega)).symm
  | cons a as ih =>
    intro bs h
    cases bs with
    | nil =>
      have hLen := congrArg length h
      rw [length_bitsOf, length_bitsOf, length_cons, length_nil] at hLen
      omega
    | cons b bs =>
      obtain ⟨hHead, hTail⟩ := append_inj h rfl
      rw [byteBits_injective hHead, ih hTail]

theorem take_bitsOf (bs : List UInt8) (q : Nat) :
    (bitsOf bs).take (8 * q) = bitsOf (bs.take q) := by
  induction q generalizing bs with
  | zero => rfl
  | succ q ih =>
    cases bs with
    | nil => rfl
    | cons x bs =>
      rw [bitsOf_cons, take_succ_cons, bitsOf_cons, show 8 * (q + 1) = 8 + 8 * q by omega,
        ← length_byteBits x, take_length_add_append, length_byteBits, ih]

/-- A length in bits: whole bytes, and a part of the next one. -/
theorem take_bitsOf_eq_iff {as bs : List UInt8} {q r : Nat} {a b : UInt8} (ha : as[q]? = some a)
    (hb : bs[q]? = some b) (hr : r ≤ 8) :
    (bitsOf as).take (8 * q + r) = (bitsOf bs).take (8 * q + r) ↔
      as.take q = bs.take q ∧ (byteBits a).take r = (byteBits b).take r := by
  have hSplit : ∀ {l : List UInt8} {x : UInt8}, l[q]? = some x →
      (bitsOf l).take (8 * q + r) = bitsOf (l.take q) ++ (byteBits x).take r := by
    intro l x hx
    obtain ⟨hLt, rfl⟩ := List.getElem?_eq_some_iff.mp hx
    rw [take_add, take_bitsOf]
    congr 1
    have hDrop : (bitsOf l).drop (8 * q) = bitsOf (l.drop q) := by
      have hAppend : bitsOf (l.take q) ++ bitsOf (l.drop q) = bitsOf l := by
        rw [bitsOf, bitsOf, ← flatMap_append, take_append_drop, bitsOf]
      have hFront : (bitsOf (l.take q)).length = 8 * q := by
        rw [length_bitsOf, length_take_of_le (Nat.le_of_lt hLt)]
      rw [← hAppend, ← hFront, drop_left]
    rw [hDrop, drop_eq_getElem_cons hLt, bitsOf_cons,
      take_append_of_le_length (by rw [length_byteBits]; exact hr)]
  have hLen : (bitsOf (as.take q)).length = (bitsOf (bs.take q)).length := by
    obtain ⟨hA, -⟩ := List.getElem?_eq_some_iff.mp ha
    obtain ⟨hB, -⟩ := List.getElem?_eq_some_iff.mp hb
    rw [length_bitsOf, length_bitsOf, length_take_of_le (Nat.le_of_lt hA),
      length_take_of_le (Nat.le_of_lt hB)]
  rw [hSplit ha, hSplit hb]
  constructor
  · intro h
    obtain ⟨hFront, hPart⟩ := append_inj h hLen
    exact ⟨bitsOf_injective hFront, hPart⟩
  · rintro ⟨hFront, hPart⟩
    rw [hFront, hPart]

/-- The bits that two bytes share are the leading zeros of their exclusive or. -/
theorem sharedPrefix_byteBits (a b : UInt8) :
    sharedPrefix (byteBits a) (byteBits b) =
      sharedPrefix (byteBits (a ^^^ b)) (replicate 8 false) := by
  rw [byteBits_xor]
  exact sharedPrefix_xor rfl

end DnscryptProxy.Base
