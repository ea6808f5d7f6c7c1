import Mathlib.Data.List.Basic

/-!
# Slices over a heap of backing arrays

A slice is a window into a backing array: a start offset, a length and a
capacity. Two slices may share an array, so a write through one can be seen
through the other. `append` writes in place while the capacity allows it and
moves to a fresh array otherwise; `copy` moves overlapping windows as if
through a temporary.

The lemmas say what each operation does to the slice it is given
(`read_append`, `read_store_self`) and what it leaves alone
(`read_store_of_disjoint`, `read_append_frame`): the aliasing questions about
a program reduce to these two kinds.
-/

namespace DnscryptProxy.Base

open List

/-! ## Overwriting a stretch of a list -/

/-- `l` with `xs` written over the elements from index `i` on. -/
def overwrite {α : Type*} (l : List α) (i : Nat) (xs : List α) : List α :=
  l.take i ++ xs ++ l.drop (i + xs.length)

section Overwrite

variable {α : Type*}

theorem length_overwrite {l : List α} {i : Nat} {xs : List α} (h : i + xs.length ≤ l.length) :
    (overwrite l i xs).length = l.length := by
  simp only [overwrite, length_append, length_take, length_drop]
  omega

theorem overwrite_getElem? {l : List α} {i : Nat} {xs : List α} (h : i + xs.length ≤ l.length)
    (j : Nat) :
    (overwrite l i xs)[j]? = if i ≤ j ∧ j < i + xs.length then xs[j - i]? else l[j]? := by
  have hTake : (l.take i).length = i := by
    rw [length_take]
    omega
  rw [overwrite, append_assoc, getElem?_append, hTake, getElem?_append]
  by_cases h1 : j < i
  · rw [if_pos h1, if_neg (by omega), getElem?_take_of_lt h1]
  · rw [if_neg h1]
    by_cases h2 : j - i < xs.length
    · rw [if_pos h2, if_pos (by omega)]
    · rw [if_neg h2, if_neg (by omega), getElem?_drop]
      congr 1
      omega

theorem overwrite_all {l xs : List α} (h : xs.length = l.length) : overwrite l 0 xs = xs := by
  simp [overwrite, h]

/-- Overwriting one element, read with a default. -/
theorem overwrite_singleton_getD {l : List α} {i : Nat} (h : i < l.length) (x d : α) (j : Nat) :
    (overwrite l i [x]).getD j d = if j = i then x else l.getD j d := by
  rw [getD_eq_getElem?_getD, overwrite_getElem? h, length_singleton]
  by_cases hj : j = i
  · rw [if_pos (by omega), if_pos hj, hj, Nat.sub_self]
    rfl
  · rw [if_neg (by omega), if_neg hj, getD_eq_getElem?_getD]

end Overwrite

/-! ## Heap and slices -/

/-- A window of `len` elements, extensible to `cap`, of array `arr` from
offset `off`. -/
structure Slice where
  arr : Nat
  off : Nat
  len : Nat
  cap : Nat
deriving Repr, DecidableEq

/-- The backing arrays allocated so far. -/
structure Heap (α : Type*) where
  arrays : List (List α)
deriving Repr, DecidableEq

/-- How much room a reallocation asks for: at least the new length. -/
structure Growth where
  newCap : Nat → Nat → Nat
  le_newCap : ∀ old need, need ≤ newCap old need

namespace Heap

variable {α : Type*}

/-- The contents of array `k`. -/
def array (h : Heap α) (k : Nat) : List α := h.arrays.getD k []

/-- The elements a slice shows. -/
def read (h : Heap α) (s : Slice) : List α := ((h.array s.arr).drop s.off).take s.len

/-- Write `xs` into array `k` from index `i` on. -/
def store (h : Heap α) (k i : Nat) (xs : List α) : Heap α :=
  ⟨h.arrays.set k (overwrite (h.array k) i xs)⟩

/-- A fresh array holding `xs` and `spare` unused cells, and the slice of `xs`. -/
def alloc [Inhabited α] (h : Heap α) (xs : List α) (spare : Nat) : Heap α × Slice :=
  (⟨h.arrays ++ [xs ++ replicate spare default]⟩,
    { arr := h.arrays.length, off := 0, len := xs.length, cap := xs.length + spare })

/-- `append(s, x)`: in place while `len < cap`, else into a larger array. -/
def append [Inhabited α] (g : Growth) (h : Heap α) (s : Slice) (x : α) : Heap α × Slice :=
  if s.len < s.cap then
    (h.store s.arr (s.off + s.len) [x], { s with len := s.len + 1 })
  else
    h.alloc (h.read s ++ [x]) (g.newCap s.cap (s.len + 1) - (s.len + 1))

/-- `copy(dst, src)`: the shorter of the two lengths, overlap allowed. -/
def copy (h : Heap α) (dst src : Slice) : Heap α :=
  h.store dst.arr dst.off ((h.read src).take dst.len)

/-- A slice that lies inside an allocated array. -/
structure Valid (h : Heap α) (s : Slice) : Prop where
  alloc : s.arr < h.arrays.length
  len_le : s.len ≤ s.cap
  cap_le : s.off + s.cap ≤ (h.array s.arr).length

end Heap

/-- `s[i:]`. -/
def Slice.dropFirst (s : Slice) (i : Nat) : Slice :=
  { arr := s.arr, off := s.off + i, len := s.len - i, cap := s.cap - i }

/-- `s[:j]`. -/
def Slice.keepFirst (s : Slice) (j : Nat) : Slice := { s with len := j }

namespace Heap

variable {α : Type*} {h : Heap α} {s u : Slice} {xs : List α}

/-! ## Reading -/

theorem read_getElem? (h : Heap α) (s : Slice) (j : Nat) :
    (h.read s)[j]? = if j < s.len then (h.array s.arr)[s.off + j]? else none := by
  unfold read
  by_cases hj : j < s.len
  · rw [if_pos hj, getElem?_take_of_lt hj, getElem?_drop]
  · rw [if_neg hj, getElem?_eq_none]
    rw [length_take]
    omega

theorem Valid.length_read (hs : h.Valid s) : (h.read s).length = s.len := by
  have hLen := hs.len_le
  have hCap := hs.cap_le
  rw [read, length_take, length_drop]
  omega

/-- A shorter slice with the same start shows a prefix. -/
theorem read_eq_take (hArr : s.arr = u.arr) (hOff : s.off = u.off) (hLen : s.len ≤ u.len) :
    h.read s = (h.read u).take s.len := by
  rw [read, read, hArr, hOff, take_take, Nat.min_eq_left hLen]

/-! ## Storing -/

theorem array_store (h : Heap α) (k i j : Nat) (xs : List α) (hk : k < h.arrays.length) :
    (h.store k i xs).array j = if j = k then overwrite (h.array k) i xs else h.array j := by
  by_cases hj : j = k
  · subst hj
    simp [store, array, hk]
  · rw [if_neg hj]
    simp [store, array, getD_eq_getElem?_getD, getElem?_set_ne (Ne.symm hj)]

/-- A write outside the window of `u`, or into another array, is not seen
through `u`. -/
theorem read_store_of_disjoint {k i : Nat} (hk : k < h.arrays.length)
    (hFit : i + xs.length ≤ (h.array k).length)
    (hDis : u.arr ≠ k ∨ u.off + u.len ≤ i ∨ i + xs.length ≤ u.off) :
    (h.store k i xs).read u = h.read u := by
  apply ext_getElem?
  intro j
  rw [read_getElem?, read_getElem?, array_store _ _ _ _ _ hk]
  by_cases hj : j < u.len
  · rw [if_pos hj, if_pos hj]
    by_cases hArr : u.arr = k
    · rw [if_pos hArr, overwrite_getElem? hFit, if_neg (by omega), hArr]
    · rw [if_neg hArr]
  · rw [if_neg hj, if_neg hj]

/-- A write inside the window of `s` overwrites what `s` shows. -/
theorem read_store_self (hs : h.Valid s) {i : Nat} (hFit : i + xs.length ≤ s.len) :
    (h.store s.arr (s.off + i) xs).read s = overwrite (h.read s) i xs := by
  have hLen := hs.len_le
  have hCap := hs.cap_le
  apply ext_getElem?
  intro j
  rw [overwrite_getElem? (by rw [hs.length_read]; exact hFit), read_getElem?,
    array_store _ _ _ _ _ hs.alloc, if_pos rfl, overwrite_getElem? (by omega), read_getElem?]
  by_cases hj : j < s.len
  · rw [if_pos hj, if_pos hj]
    by_cases hIn : i ≤ j ∧ j < i + xs.length
    · rw [if_pos (by omega), if_pos hIn]
      congr 1
      omega
    · rw [if_neg (by omega), if_neg hIn]
  · rw [if_neg hj, if_neg hj, if_neg (by omega)]

theorem Valid.store {k i : Nat} (hu : h.Valid u) (hk : k < h.arrays.length)
    (hFit : i + xs.length ≤ (h.array k).length) : (h.store k i xs).Valid u := by
  refine ⟨by simpa [Heap.store] using hu.alloc, hu.len_le, ?_⟩
  rw [array_store _ _ _ _ _ hk]
  split
  · next hArr =>
    rw [length_overwrite hFit, ← hArr]
    exact hu.cap_le
  · exact hu.cap_le

/-! ## Copying -/

theorem Valid.dropFirst (hs : h.Valid s) {i : Nat} (hi : i ≤ s.len) : h.Valid (s.dropFirst i) := by
  have hLen := hs.len_le
  have hCap := hs.cap_le
  refine ⟨hs.alloc, ?_, ?_⟩
  · simp only [Slice.dropFirst]
    omega
  · simp only [Slice.dropFirst]
    omega

theorem copy_fits (hs : h.Valid s) (src : Slice) :
    s.off + ((h.read src).take s.len).length ≤ (h.array s.arr).length := by
  have hLen := hs.len_le
  have hCap := hs.cap_le
  have hTake : ((h.read src).take s.len).length ≤ s.len := length_take_le ..
  omega

theorem Valid.copy (hu : h.Valid u) (hs : h.Valid s) (src : Slice) : (h.copy s src).Valid u :=
  hu.store hs.alloc (copy_fits hs src)

/-- Copying into another array is not seen through `u`. -/
theorem read_copy_of_ne (hs : h.Valid s) (src : Slice) (hNe : s.arr ≠ u.arr) :
    (h.copy s src).read u = h.read u :=
  read_store_of_disjoint hs.alloc (copy_fits hs src) (.inl (Ne.symm hNe))

/-! ## Allocating and appending -/

section Alloc

variable [Inhabited α]

theorem array_alloc_of_lt {k : Nat} (hk : k < h.arrays.length) (spare : Nat) :
    (h.alloc xs spare).1.array k = h.array k := by
  simp [alloc, array, getD_eq_getElem?_getD, getElem?_append_left hk]

theorem read_alloc (h : Heap α) (xs : List α) (spare : Nat) :
    (h.alloc xs spare).1.read (h.alloc xs spare).2 = xs := by
  simp [alloc, read, array, getD_eq_getElem?_getD]

theorem valid_alloc (h : Heap α) (xs : List α) (spare : Nat) :
    (h.alloc xs spare).1.Valid (h.alloc xs spare).2 := by
  refine ⟨by simp [alloc], by simp [alloc], ?_⟩
  simp [alloc, array, getD_eq_getElem?_getD]

/-- Allocation is not seen through slices that exist already. -/
theorem read_alloc_frame (hu : h.Valid u) (xs : List α) (spare : Nat) :
    (h.alloc xs spare).1.read u = h.read u := by
  rw [read, read, array_alloc_of_lt hu.alloc]

theorem Valid.alloc_frame (hu : h.Valid u) (xs : List α) (spare : Nat) :
    (h.alloc xs spare).1.Valid u := by
  have hLt := hu.alloc
  refine ⟨by simp only [Heap.alloc, length_append]; omega, hu.len_le, ?_⟩
  rw [array_alloc_of_lt hu.alloc]
  exact hu.cap_le

variable {g : Growth}

/-- With spare room the appended slice keeps its array and start. -/
theorem append_of_lt (hRoom : s.len < s.cap) (x : α) :
    h.append g s x = (h.store s.arr (s.off + s.len) [x], { s with len := s.len + 1 }) := by
  rw [append, if_pos hRoom]

/-- Without spare room the appended slice lives in a fresh array. -/
theorem append_arr_of_ge (hFull : ¬ s.len < s.cap) (x : α) :
    (h.append g s x).2.arr = h.arrays.length := by
  rw [append, if_neg hFull]
  rfl

theorem valid_append (hs : h.Valid s) (x : α) :
    (h.append g s x).1.Valid (h.append g s x).2 := by
  have hCap := hs.cap_le
  by_cases hRoom : s.len < s.cap
  · have hFit : s.off + s.len + [x].length ≤ (h.array s.arr).length := by
      simp only [length_singleton]
      omega
    have hOld := hs.store hs.alloc hFit
    rw [append_of_lt hRoom]
    exact ⟨hOld.alloc, hRoom, hOld.cap_le⟩
  · rw [append, if_neg hRoom]
    exact valid_alloc ..

/-- What the appended slice shows. -/
theorem read_append (hs : h.Valid s) (x : α) :
    (h.append g s x).1.read (h.append g s x).2 = h.read s ++ [x] := by
  have hCap := hs.cap_le
  by_cases hRoom : s.len < s.cap
  · have hLen := hs.length_read
    have hFit : s.off + s.len + [x].length ≤ (h.array s.arr).length := by
      simp only [length_singleton]
      omega
    rw [append_of_lt hRoom]
    -- in place: compare element by element, below, at and beyond the old length
    apply ext_getElem?
    intro j
    rw [read_getElem?, array_store _ _ _ _ _ hs.alloc, if_pos rfl, overwrite_getElem? hFit,
      getElem?_append, hLen, read_getElem?, length_singleton]
    show (if j < s.len + 1 then if s.off + s.len ≤ s.off + j ∧ s.off + j < s.off + s.len + 1
      then [x][s.off + j - (s.off + s.len)]? else (h.array s.arr)[s.off + j]? else none) = _
    by_cases hj : j < s.len
    · rw [if_pos (by omega), if_neg (by omega), if_pos hj, if_pos hj]
    · rw [if_neg hj]
      by_cases hEq : j = s.len
      · subst hEq
        simp
      · rw [if_neg (by omega)]
        simp only [getElem?_singleton]
        rw [if_neg (by omega)]
  · rw [append, if_neg hRoom, read_alloc]

/-- The slice appended to shows what it showed before: the new element
lands behind it. -/
theorem read_append_frame (hs : h.Valid s) (x : α) :
    (h.append g s x).1.read s = h.read s := by
  have hCap := hs.cap_le
  by_cases hRoom : s.len < s.cap
  · rw [append_of_lt hRoom]
    apply read_store_of_disjoint hs.alloc
    · simp only [length_singleton]
      omega
    · exact .inr (.inl (Nat.le_refl _))
  · rw [append, if_neg hRoom, read_alloc_frame hs]

theorem Valid.append_frame (hs : h.Valid s) (x : α) : (h.append g s x).1.Valid s := by
  have hCap := hs.cap_le
  by_cases hRoom : s.len < s.cap
  · rw [append_of_lt hRoom]
    apply hs.store hs.alloc
    simp only [length_singleton]
    omega
  · rw [append, if_neg hRoom]
    exact hs.alloc_frame ..

/-- Appending elsewhere is not seen through `u`. -/
theorem read_append_of_ne (hs : h.Valid s) (hu : h.Valid u) (hNe : s.arr ≠ u.arr) (x : α) :
    (h.append g s x).1.read u = h.read u := by
  have hCap := hs.cap_le
  by_cases hRoom : s.len < s.cap
  · rw [append_of_lt hRoom]
    apply read_store_of_disjoint hs.alloc
    · simp only [length_singleton]
      omega
    · exact .inl (Ne.symm hNe)
  · rw [append, if_neg hRoom, read_alloc_frame hu]

/-- Once apart, an append keeps two slices apart. -/
theorem append_arr_ne (hu : h.Valid u) (hNe : s.arr ≠ u.arr) (x : α) :
    (h.append g s x).2.arr ≠ u.arr := by
  by_cases hRoom : s.len < s.cap
  · rw [append_of_lt hRoom]
    exact hNe
  · rw [append_arr_of_ge hRoom]
    exact Nat.ne_of_gt hu.alloc

theorem append_len (h : Heap α) (s : Slice) (hs : h.Valid s) (x : α) :
    (h.append g s x).2.len = s.len + 1 := by
  by_cases hRoom : s.len < s.cap
  · rw [append_of_lt hRoom]
  · rw [append, if_neg hRoom]
    simp [alloc, hs.length_read]

end Alloc

end Heap

/-- A slice together with the heap it lives in. -/
structure Buffer (α : Type*) where
  heap : Heap α
  slice : Slice
  valid : heap.Valid slice

namespace Buffer

variable {α : Type*}

/-- The elements the slice shows. -/
def contents (b : Buffer α) : List α := b.heap.read b.slice

end Buffer

end DnscryptProxy.Base
