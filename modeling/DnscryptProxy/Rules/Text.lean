import DnscryptProxy.Base.IpText
import DnscryptProxy.Reload.Lists

/-!
# What the text library does on ASCII

`TextLib` leaves open what `strings.ToLower`, `strings.TrimSpace` and
`StringReverse` do to texts that are not ASCII. `TextLib.Lawful` is what they do
on ASCII, that a text in lower case stays as it is, that ASCII bytes at the front of
a text do not change what becomes of the rest, and that `net.ParseIP` is the parser
of `Base.IpText`. `asciiText` is a library with these laws.
-/

namespace DnscryptProxy

open Base List

/-! ## Splitting and searching -/

/-- `strings.Split` is that of the library. -/
theorem splitByte_eq_splitOn (sep : UInt8) (s : Bytes) : splitByte sep s = s.splitOn sep := by
  rw [splitOn_eq_splitOnP]
  induction s with
  | nil => rfl
  | cons b rest ih =>
    rw [splitByte, splitOnP_cons_eq_if_modifyHead, ih]
    by_cases h : b = sep
    · rw [if_pos h, if_pos (beq_iff_eq.mpr h)]
    · rw [if_neg h, if_neg fun h' => h (beq_iff_eq.mp h')]
      cases hSplit : splitOnP (· == sep) rest with
      | nil => exact absurd hSplit (splitOnP_ne_nil _ _)
      | cons first others => rfl

theorem lastIndexByte_eq_none {s : Bytes} {c : UInt8} (h : c ∉ s) : lastIndexByte s c = none := by
  unfold lastIndexByte
  rw [idxOf?_eq_none_iff.mpr fun hMem => h (mem_reverse.mp hMem)]
  rfl

/-! ## ASCII -/

/-- A text of ASCII bytes. -/
def IsAscii (s : Bytes) : Prop := ∀ c ∈ s, c < 128

/-- A text of ASCII bytes that are neither blanks nor control characters. -/
def IsGraphic (s : Bytes) : Prop := ∀ c ∈ s, 33 ≤ c ∧ c ≤ 126

/-- The bytes that make a pattern a wildcard. -/
def isMark (c : UInt8) : Bool :=
  decide (c = '*'.toUInt8 ∨ c = '?'.toUInt8 ∨ c = '['.toUInt8)

structure TextLib.Lawful (lib : TextLib) : Prop where
  trimSpace_eq : ∀ s, IsGraphic s → lib.trimSpace s = s
  toLower_eq : ∀ s, IsAscii s → lib.toLower s = s.map lowerByte
  toLower_toLower : ∀ s, lib.toLower (lib.toLower s) = lib.toLower s
  /-- it goes from byte to byte where these are ASCII -/
  toLower_cons : ∀ c s, c < 128 → lib.toLower (c :: s) = lowerByte c :: lib.toLower s
  /-- wildcards have no case, in any text -/
  mark_mem_toLower : ∀ s c, isMark c = true → (c ∈ lib.toLower s ↔ c ∈ s)
  stringReverse_eq : ∀ s, IsAscii s → lib.stringReverse s = s.reverse
  isIP_eq : ∀ s, lib.isIP s = (parseIP s).isSome

theorem IsGraphic.isAscii {s : Bytes} (h : IsGraphic s) : IsAscii s :=
  fun c hc => UInt8.lt_of_le_of_lt (h c hc).2 (by decide)

/-- The ASCII blanks of `strings.TrimSpace`. -/
def isBlank (c : UInt8) : Bool := decide (c = 32 ∨ (9 ≤ c ∧ c ≤ 13))

/-- The library on ASCII texts; every byte counts as a rune. -/
def asciiText : TextLib where
  trimSpace s := ((s.dropWhile isBlank).reverse.dropWhile isBlank).reverse
  toLower s := s.map lowerByte
  stringReverse s := s.reverse
  globOk _ := true
  isIP s := (parseIP s).isSome
  parseCIDR _ := none

theorem dropWhile_isBlank {s : Bytes} (h : IsGraphic s) : s.dropWhile isBlank = s := by
  cases s with
  | nil => rfl
  | cons c rest =>
    have hc := (h c mem_cons_self).1
    have hNot : isBlank c = false := by
      simp only [isBlank, decide_eq_false_iff_not, not_or, not_and]
      constructor
      · rintro rfl
        exact absurd hc (by decide)
      · intro _ hLe
        exact absurd (UInt8.le_trans hc hLe) (by decide)
    rw [dropWhile_cons, hNot]
    rfl

theorem lowerByte_eq_mark {b c : UInt8} (hc : isMark c = true) : lowerByte b = c ↔ b = c := by
  have hMark : ∀ n < 256, ['*'.toUInt8, '?'.toUInt8, '['.toUInt8].all fun c =>
      lowerByte (UInt8.ofNat n) = c ↔ UInt8.ofNat n = c := by
    decide +kernel
  have := all_eq_true.mp (hMark b.toNat b.toNat_lt) c (by simpa [isMark] using hc)
  rwa [UInt8.ofNat_toNat, decide_eq_true_iff] at this

theorem lowerByte_lowerByte (c : UInt8) : lowerByte (lowerByte c) = lowerByte c := by
  have hAll : ∀ n < 256, lowerByte (lowerByte (UInt8.ofNat n)) = lowerByte (UInt8.ofNat n) := by
    decide +kernel
  have := hAll c.toNat c.toNat_lt
  rwa [UInt8.ofNat_toNat] at this

theorem asciiText_lawful : asciiText.Lawful where
  trimSpace_eq s hs := by
    have hRev : IsGraphic s.reverse := fun c hc => hs c (mem_reverse.mp hc)
    show ((s.dropWhile isBlank).reverse.dropWhile isBlank).reverse = s
    rw [dropWhile_isBlank hs, dropWhile_isBlank hRev, reverse_reverse]
  toLower_eq _ _ := rfl
  toLower_toLower s := by
    show (s.map lowerByte).map lowerByte = s.map lowerByte
    rw [map_map]
    exact map_congr_left fun c _ => lowerByte_lowerByte c
  toLower_cons _ _ _ := rfl
  mark_mem_toLower s c hc := by
    show c ∈ s.map lowerByte ↔ c ∈ s
    simp only [mem_map, lowerByte_eq_mark hc, exists_eq_right]
  stringReverse_eq _ _ := rfl
  isIP_eq _ := rfl

end DnscryptProxy
