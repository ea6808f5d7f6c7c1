import Mathlib.Data.List.Basic

/-!
# The longest stored beginning of a list

What a radix or crit-bit tree answers to `LongestPrefix`: of the keys that a list
begins with, the longest one. There is at most one key of each length, so the
answer is determined by the set of keys (`longestPrefix_eq_some`,
`longestPrefix_eq_none`).
-/

namespace DnscryptProxy.Base

open List

variable {α : Type*} [DecidableEq α]

variable {keys : List (List α)}

/-- The longest key of at most `n` elements that `s` begins with. -/
def longestPrefixUpTo (keys : List (List α)) (s : List α) : Nat → Option (List α)
  | 0 => if [] ∈ keys then some [] else none
  | n + 1 => if s.take (n + 1) ∈ keys then some (s.take (n + 1)) else longestPrefixUpTo keys s n

/-- The longest key that `s` begins with. -/
def longestPrefix (keys : List (List α)) (s : List α) : Option (List α) :=
  longestPrefixUpTo keys s s.length

theorem longestPrefixUpTo_eq_some {s p : List α} {n : Nat} (hn : n ≤ s.length) :
    longestPrefixUpTo keys s n = some p ↔ p ∈ keys ∧ p <+: s ∧ p.length ≤ n ∧
        ∀ k ∈ keys, k <+: s → k.length ≤ n → k.length ≤ p.length := by
  induction n with
  | zero =>
    rw [longestPrefixUpTo]
    constructor
    · intro h
      split at h
      · next hMem =>
        obtain rfl : [] = p := Option.some.inj h
        exact ⟨hMem, nil_prefix, Nat.le_refl _, fun k _ _ hk => hk⟩
      · cases h
    · rintro ⟨hMem, -, hLen, -⟩
      obtain rfl : p = [] := length_eq_zero_iff.mp (Nat.le_zero.mp hLen)
      rw [if_pos hMem]
  | succ n ih =>
    have hTake : (s.take (n + 1)).length = n + 1 := by
      rw [length_take]
      omega
    rw [longestPrefixUpTo]
    by_cases hMem : s.take (n + 1) ∈ keys
    · rw [if_pos hMem]
      constructor
      · intro h
        obtain rfl : s.take (n + 1) = p := Option.some.inj h
        exact ⟨hMem, take_prefix _ _, Nat.le_of_eq hTake,
          fun k _ _ hk => Nat.le_trans hk (Nat.le_of_eq hTake.symm)⟩
      · rintro ⟨hp, hPrefix, hLen, hMax⟩
        -- `s.take (n + 1)` is as long as a key may be
        have hLong := hMax _ hMem (List.take_prefix _ _) (Nat.le_of_eq hTake)
        rw [hTake] at hLong
        rw [prefix_iff_eq_take.mp hPrefix, Nat.le_antisymm hLen hLong]
    · rw [if_neg hMem, ih (Nat.le_of_succ_le hn)]
      -- no key has exactly `n + 1` elements
      have hShort : ∀ k ∈ keys, k <+: s → k.length ≤ n + 1 → k.length ≤ n := by
        intro k hk hPrefix hLen
        by_contra hLong
        apply hMem
        have hEq : k.length = n + 1 := by omega
        rw [← hEq, ← prefix_iff_eq_take.mp hPrefix]
        exact hk
      constructor
      · rintro ⟨hp, hPrefix, hLen, hMax⟩
        exact ⟨hp, hPrefix, Nat.le_succ_of_le hLen,
          fun k hk hkp hkl => hMax k hk hkp (hShort k hk hkp hkl)⟩
      · rintro ⟨hp, hPrefix, hLen, hMax⟩
        exact ⟨hp, hPrefix, hShort p hp hPrefix hLen,
          fun k hk hkp hkl => hMax k hk hkp (Nat.le_succ_of_le hkl)⟩

theorem longestPrefix_eq_some {s p : List α} :
    longestPrefix keys s = some p ↔
      p ∈ keys ∧ p <+: s ∧ ∀ k ∈ keys, k <+: s → k.length ≤ p.length := by
  rw [longestPrefix, longestPrefixUpTo_eq_some (Nat.le_refl _)]
  constructor
  · rintro ⟨hp, hPrefix, -, hMax⟩
    exact ⟨hp, hPrefix, fun k hk hkp => hMax k hk hkp hkp.length_le⟩
  · rintro ⟨hp, hPrefix, hMax⟩
    exact ⟨hp, hPrefix, hPrefix.length_le, fun k hk hkp _ => hMax k hk hkp⟩

theorem longestPrefix_eq_none {s : List α} :
    longestPrefix keys s = none ↔ ∀ k ∈ keys, ¬ k <+: s := by
  constructor
  · intro h k hk hPrefix
    -- among the keys that `s` begins with there is a longest one
    have hAny : ∀ n ≤ s.length, longestPrefixUpTo keys s n = none → n < k.length := by
      intro n hn hNone
      by_contra hLe
      induction n with
      | zero =>
        obtain rfl : k = [] := length_eq_zero_iff.mp (by omega)
        rw [longestPrefixUpTo, if_pos hk] at hNone
        cases hNone
      | succ n ih =>
        rw [longestPrefixUpTo] at hNone
        split at hNone
        · cases hNone
        · next hMem =>
          apply ih (by omega) hNone
          intro hLt
          apply hMem
          have hEq : k.length = n + 1 := by omega
          rw [← hEq, ← prefix_iff_eq_take.mp hPrefix]
          exact hk
    exact absurd hPrefix.length_le (Nat.not_le.mpr (hAny _ (Nat.le_refl _) h))
  · intro h
    cases hSome : longestPrefix keys s with
    | none => rfl
    | some p =>
      obtain ⟨hp, hPrefix, -⟩ := longestPrefix_eq_some.mp hSome
      exact absurd hPrefix (h p hp)

/-- The answer depends on the set of keys only. -/
theorem longestPrefix_congr {keys keys' : List (List α)} (h : ∀ k, k ∈ keys ↔ k ∈ keys')
    (s : List α) : longestPrefix keys s = longestPrefix keys' s := by
  ext p
  simp only [longestPrefix_eq_some, h]

end DnscryptProxy.Base
