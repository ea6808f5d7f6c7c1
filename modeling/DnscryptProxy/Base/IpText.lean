import DnscryptProxy.Base.Text
import Mathlib.Data.List.TakeWhile

/-!
# The text of an IP address

The usual texts of IPv4 and IPv6 addresses, and the parser for them. An address
is its sixteen bytes; an IPv4 address is the one that is mapped into IPv6. The
parser takes every spelling: upper case, leading zeros in a group, zeros that
are written out, an IPv4 address at the end. The printer writes one: lower case,
no leading zeros, the longest run of zero groups as `::`.

* `parseIP_ipText` — the text of an address is parsed as this address, so that
  two addresses with one text are the same (`ipText_injective`);
* `parseIP_bytes` — what is parsed has no other bytes than digits, colons and
  periods.
-/

namespace DnscryptProxy.Base

open List Option

/-! ## Digits -/

def period : UInt8 := 46
def colon : UInt8 := 58
def percent : UInt8 := 37

/-- The value of a hexadecimal digit. -/
def hexValue (c : UInt8) : Option Nat :=
  if 48 ≤ c ∧ c ≤ 57 then some (c.toNat - 48)
  else if 97 ≤ c ∧ c ≤ 102 then some (c.toNat - 87)
  else if 65 ≤ c ∧ c ≤ 70 then some (c.toNat - 55)
  else none

def isHex (c : UInt8) : Bool := (hexValue c).isSome

def isDigit (c : UInt8) : Bool := decide (48 ≤ c ∧ c ≤ 57)

/-- The digit for a value below 16. -/
def hexDigit (n : Nat) : UInt8 := if n < 10 then UInt8.ofNat (48 + n) else UInt8.ofNat (87 + n)

theorem hexValue_hexDigit : ∀ {n : Nat}, n < 16 → hexValue (hexDigit n) = some n := by
  decide

theorem isHex_hexDigit {n : Nat} (h : n < 16) : isHex (hexDigit n) = true := by
  rw [isHex, hexValue_hexDigit h]
  rfl

theorem isHex_of_isDigit {c : UInt8} (h : isDigit c = true) : isHex c = true := by
  have hc : 48 ≤ c ∧ c ≤ 57 := by simpa [isDigit] using h
  rw [isHex, hexValue, if_pos hc]
  rfl

/-! ## IPv4 -/

/-- A text of words that can be told apart at its front determines the words. -/
theorem flatMap_injective {α β : Type*} {word : α → List β} (hNe : ∀ x, word x ≠ [])
    (hCut : ∀ x y s t, word x ++ s = word y ++ t → x = y ∧ s = t) :
    ∀ {xs ys : List α}, xs.flatMap word = ys.flatMap word → xs = ys := by
  intro xs
  induction xs with
  | nil =>
    intro ys h
    cases ys with
    | nil => rfl
    | cons y ys => exact absurd (append_eq_nil_iff.mp h.symm).1 (hNe y)
  | cons x xs ih =>
    intro ys h
    cases ys with
    | nil => exact absurd (append_eq_nil_iff.mp h).1 (hNe x)
    | cons y ys =>
      obtain ⟨rfl, hRest⟩ := hCut x y _ _ h
      rw [ih hRest]

/-- A byte in decimal. -/
def octetText (x : UInt8) : List UInt8 :=
  (if 100 ≤ x then [hexDigit (x.toNat / 100)] else []) ++
    (if 10 ≤ x then [hexDigit (x.toNat / 10 % 10)] else []) ++ [hexDigit (x.toNat % 10)]

/-- A decimal number below 256, without leading zeros. -/
def parseOctet (ds : List UInt8) : Option UInt8 :=
  if ds = [] ∨ ds.all isDigit = false ∨ (ds.length ≠ 1 ∧ ds.head? = some 48) then none
  else
    let n := ds.foldl (fun n c => n * 10 + (c.toNat - 48)) 0
    if 255 < n then none else some (UInt8.ofNat n)

def ipv4Text (ip : List UInt8) : List UInt8 := [period].intercalate (ip.map octetText)

def parseIPv4 (s : List UInt8) : Option (List UInt8) :=
  let fields := s.splitOn period
  if fields.length = 4 then fields.mapM parseOctet else none

theorem octet_facts : ∀ n < 256, parseOctet (octetText (UInt8.ofNat n)) = some (UInt8.ofNat n) ∧
      (octetText (UInt8.ofNat n)).all isDigit = true := by
  decide +kernel

theorem parseOctet_octetText (x : UInt8) : parseOctet (octetText x) = some x := by
  have h := (octet_facts x.toNat x.toNat_lt).1
  rwa [UInt8.ofNat_toNat] at h

theorem octetText_digits (x : UInt8) : ∀ c ∈ octetText x, isDigit c = true := by
  have h := (octet_facts x.toNat x.toNat_lt).2
  rw [UInt8.ofNat_toNat] at h
  exact all_eq_true.mp h

theorem mapM_parseOctet (ip : List UInt8) : (ip.map octetText).mapM parseOctet = some ip := by
  induction ip with
  | nil => rfl
  | cons x ip ih => rw [map_cons, mapM_cons, parseOctet_octetText, ih]; rfl

theorem parseIPv4_ipv4Text {ip : List UInt8} (h : ip.length = 4) :
    parseIPv4 (ipv4Text ip) = some ip := by
  have hSplit : (ipv4Text ip).splitOn period = ip.map octetText := by
    apply splitOn_intercalate
    · intro l hl hMem
      obtain ⟨x, -, rfl⟩ := mem_map.mp hl
      have := octetText_digits x _ hMem
      cases this
    · intro hNil
      rw [map_eq_nil_iff.mp hNil] at h
      cases h
  rw [parseIPv4, hSplit, if_pos (by rw [length_map, h]), mapM_parseOctet]

theorem mem_intercalate {α : Type*} {x c : α} {ls : List (List α)}
    (h : c ∈ [x].intercalate ls) : c = x ∨ ∃ l ∈ ls, c ∈ l := by
  induction ls with
  | nil => cases h
  | cons l ls ih =>
    cases ls with
    | nil => exact .inr ⟨l, mem_cons_self, by simpa using h⟩
    | cons l' ls =>
      rw [intercalate_cons_cons, append_assoc, mem_append, mem_append, mem_singleton] at h
      rcases h with h | h | h
      · exact .inr ⟨l, mem_cons_self, h⟩
      · exact .inl h
      · rcases ih h with rfl | ⟨l'', hMem, hc⟩
        · exact .inl rfl
        · exact .inr ⟨l'', mem_cons_of_mem _ hMem, hc⟩

theorem mapM_eq_some {α β : Type} {f : α → Option β} {l : List α} {r : List β}
    (h : l.mapM f = some r) : r.length = l.length ∧ ∀ a ∈ l, ∃ b, f a = some b := by
  induction l generalizing r with
  | nil =>
    obtain rfl : r = [] := by simpa using h.symm
    exact ⟨rfl, fun a ha => nomatch ha⟩
  | cons a l ih =>
    rw [mapM_cons] at h
    obtain ⟨b, hb, hLater⟩ := bind_eq_some_iff.mp h
    obtain ⟨rest, hRest, hr⟩ := bind_eq_some_iff.mp hLater
    obtain rfl : b :: rest = r := some.inj hr
    obtain ⟨hLen, hAll⟩ := ih hRest
    refine ⟨by rw [length_cons, length_cons, hLen], fun a' ha' => ?_⟩
    rcases mem_cons.mp ha' with rfl | ha'
    · exact ⟨b, hb⟩
    · exact hAll a' ha'

theorem parseOctet_digits {ds : List UInt8} {x : UInt8} (h : parseOctet ds = some x) :
    ∀ c ∈ ds, isDigit c = true := by
  unfold parseOctet at h
  split at h
  · cases h
  · next hOk =>
    have hAll : ds.all isDigit = true := by
      cases hDigits : ds.all isDigit with
      | true => rfl
      | false => exact absurd (.inr (.inl hDigits)) hOk
    exact all_eq_true.mp hAll

theorem parseIPv4_some {s ip : List UInt8} (h : parseIPv4 s = some ip) :
    ip.length = 4 ∧ ∀ c ∈ s, isDigit c = true ∨ c = period := by
  dsimp only [parseIPv4] at h
  split at h
  · next hFour =>
    obtain ⟨hLen, hAll⟩ := mapM_eq_some h
    refine ⟨by rw [hLen, hFour], fun c hc => ?_⟩
    have hJoin : [period].intercalate (s.splitOn period) = s := intercalate_splitOn period
    rw [← hJoin] at hc
    rcases mem_intercalate hc with rfl | ⟨field, hField, hc⟩
    · exact .inr rfl
    · obtain ⟨x, hx⟩ := hAll field hField
      exact .inl (parseOctet_digits hx c hc)
  · cases h

/-! ## Groups of an IPv6 address -/

/-- Two bytes make a group. -/
def groupsOf : List UInt8 → List Nat
  | hi :: lo :: rest => (hi.toNat * 256 + lo.toNat) :: groupsOf rest
  | _ => []

def groupBytes (g : Nat) : List UInt8 := [UInt8.ofNat (g / 256), UInt8.ofNat g]

/-- A group in hexadecimal, without leading zeros. -/
def hexText (g : Nat) : List UInt8 :=
  (if 0x1000 ≤ g then [hexDigit (g / 4096)] else []) ++
    ((if 0x100 ≤ g then [hexDigit (g / 256 % 16)] else []) ++
      ((if 0x10 ≤ g then [hexDigit (g / 16 % 16)] else []) ++ [hexDigit (g % 16)]))

/-- The number that hexadecimal digits write. -/
def hexNumber (ds : List UInt8) : Nat := ds.foldl (fun n c => n * 16 + (hexValue c).getD 0) 0

def groupsText (gs : List Nat) : List UInt8 := [colon].intercalate (gs.map hexText)

theorem hexText_isHex {g : Nat} (h : g < 65536) : ∀ c ∈ hexText g, isHex c = true := by
  intro c hc
  simp only [hexText, mem_append, mem_ite_nil_right, mem_singleton] at hc
  rcases hc with ⟨_, rfl⟩ | ⟨_, rfl⟩ | ⟨_, rfl⟩ | rfl
  all_goals exact isHex_hexDigit (by omega)

theorem hexText_length (g : Nat) : 1 ≤ (hexText g).length ∧ (hexText g).length ≤ 4 := by
  simp only [hexText, length_append, length_singleton]
  split <;> split <;> split <;> simp

theorem hexNumber_hexText {g : Nat} (h : g < 65536) : hexNumber (hexText g) = g := by
  have h1 : hexValue (hexDigit (g % 16)) = some (g % 16) := hexValue_hexDigit (by omega)
  have h2 : hexValue (hexDigit (g / 16 % 16)) = some (g / 16 % 16) := hexValue_hexDigit (by omega)
  have h3 : hexValue (hexDigit (g / 256 % 16)) = some (g / 256 % 16) :=
    hexValue_hexDigit (by omega)
  have h4 : hexValue (hexDigit (g / 4096)) = some (g / 4096) := hexValue_hexDigit (by omega)
  unfold hexText hexNumber
  split <;> split <;> split <;>
    simp only [nil_append, cons_append, foldl_cons, foldl_nil, h1, h2, h3, h4, getD_some] <;> omega

theorem groupBytes_eq (hi lo : UInt8) : groupBytes (hi.toNat * 256 + lo.toNat) = [hi, lo] := by
  have hHi := hi.toNat_lt
  have hLo := lo.toNat_lt
  rw [groupBytes]
  congr 1
  · apply UInt8.toNat_inj.mp
    rw [UInt8.toNat_ofNat']
    omega
  · congr 1
    apply UInt8.toNat_inj.mp
    rw [UInt8.toNat_ofNat']
    omega

/-- The bytes of a list of groups. -/
def bytesOf (gs : List Nat) : List UInt8 := gs.flatMap groupBytes

theorem bytesOf_groupsOf {n : Nat} : ∀ {ip : List UInt8}, ip.length = 2 * n →
    bytesOf (groupsOf ip) = ip := by
  induction n with
  | zero =>
    intro ip h
    rw [length_eq_zero_iff.mp h]
    rfl
  | succ n ih =>
    intro ip h
    match ip, h with
    | hi :: lo :: rest, h =>
      have hRest : rest.length = 2 * n := by
        simp only [length_cons] at h
        omega
      rw [groupsOf, bytesOf, flatMap_cons, groupBytes_eq]
      show hi :: lo :: bytesOf (groupsOf rest) = _
      rw [ih hRest]

theorem groupsOf_lt (ip : List UInt8) : ∀ g ∈ groupsOf ip, g < 65536 := by
  fun_induction groupsOf ip with
  | case1 hi lo rest ih =>
    intro g hg
    rcases mem_cons.mp hg with rfl | hg
    · have hHi := hi.toNat_lt
      have hLo := lo.toNat_lt
      omega
    · exact ih g hg
  | case2 => intro g hg; cases hg

theorem length_bytesOf (gs : List Nat) : (bytesOf gs).length = 2 * gs.length := by
  induction gs with
  | nil => rfl
  | cons g gs ih =>
    show (groupBytes g ++ bytesOf gs).length = _
    rw [length_append, ih, length_cons]
    show 2 + 2 * gs.length = _
    omega

theorem length_groupsOf {n : Nat} {ip : List UInt8} (h : ip.length = 2 * n) :
    (groupsOf ip).length = n := by
  have hBytes := length_bytesOf (groupsOf ip)
  rw [bytesOf_groupsOf h] at hBytes
  omega

theorem bytesOf_append (gs hs : List Nat) : bytesOf (gs ++ hs) = bytesOf gs ++ bytesOf hs :=
  flatMap_append

theorem bytesOf_replicate_zero (n : Nat) :
    bytesOf (replicate n 0) = replicate (2 * n) 0 := by
  induction n with
  | zero => rfl
  | succ n ih =>
    show groupBytes 0 ++ bytesOf (replicate n 0) = _
    rw [ih, Nat.mul_succ, Nat.add_comm, replicate_add]
    rfl

/-! ## The longest run of zeros -/

/-- The number of zero groups from index `i` on. -/
def runLength (gs : List Nat) (i : Nat) : Nat := ((gs.drop i).takeWhile (· = 0)).length

/-- The first of the longest runs of at least two zero groups, from `start` to
`stop`; they are equal if there is none. -/
def zeroRun (gs : List Nat) : Nat × Nat :=
  (range gs.length).foldl
    (fun run i =>
      if 2 ≤ runLength gs i ∧ run.2 - run.1 < runLength gs i then (i, i + runLength gs i)
      else run)
    (0, 0)

/-- A stretch of zeros between two indices. -/
structure ZerosBetween (gs : List Nat) (start stop : Nat) : Prop where
  le : start ≤ stop
  bound : stop ≤ gs.length
  zeros : (gs.take stop).drop start = replicate (stop - start) 0

theorem zerosBetween_runLength {gs : List Nat} {i : Nat} (hi : i ≤ gs.length) :
    ZerosBetween gs i (i + runLength gs i) := by
  have hPrefix := takeWhile_prefix (fun g : Nat => decide (g = 0)) (l := gs.drop i)
  have hLen : runLength gs i ≤ (gs.drop i).length := hPrefix.length_le
  rw [length_drop] at hLen
  refine ⟨Nat.le_add_right _ _, by omega, ?_⟩
  rw [drop_take, Nat.add_sub_cancel_left, runLength, ← prefix_iff_eq_take.mp hPrefix]
  apply eq_replicate_of_mem
  intro g hg
  simpa using mem_takeWhile_imp hg

theorem zerosBetween_zeroRun (gs : List Nat) :
    ZerosBetween gs (zeroRun gs).1 (zeroRun gs).2 := by
  -- every run that the fold has kept is a stretch of zeros
  refine foldlRecOn (motive := fun run : Nat × Nat => ZerosBetween gs run.1 run.2) _ _
    ⟨le_refl _, by simp, by simp⟩ fun run hRun i hi => ?_
  split
  · exact zerosBetween_runLength (le_of_lt (mem_range.mp hi))
  · exact hRun

/-- Groups with those between `start` and `stop` left out, if there are any. -/
def elidedText (gs : List Nat) (start stop : Nat) : List UInt8 :=
  if start = stop then groupsText gs
  else groupsText (gs.take start) ++ (colon :: colon :: groupsText (gs.drop stop))

/-- The text of eight groups. -/
def ipv6Text (gs : List Nat) : List UInt8 := elidedText gs (zeroRun gs).1 (zeroRun gs).2

theorem ZerosBetween.split {gs : List Nat} {start stop : Nat} (h : ZerosBetween gs start stop) :
    gs = gs.take start ++ (replicate (stop - start) 0 ++ gs.drop stop) := by
  have hTake : (gs.take stop).take start = gs.take start := by
    rw [take_take, min_eq_left h.le]
  calc gs = gs.take stop ++ gs.drop stop := (take_append_drop stop gs).symm
    _ = ((gs.take stop).take start ++ (gs.take stop).drop start) ++ gs.drop stop := by
        rw [take_append_drop start (gs.take stop)]
    _ = _ := by rw [hTake, h.zeros, append_assoc]

/-! ## The parser for IPv6 -/

/-- The bytes so far, where `::` was, and the rest of the text. -/
abbrev Groups := List UInt8 × Option Nat × List UInt8

/-- What follows a group. -/
def afterGroup (next : List UInt8 → List UInt8 → Option Nat → Option Groups)
    (rest ip : List UInt8) (ellipsis : Option Nat) : Option Groups :=
  match rest with
  | [] => some (ip, ellipsis, [])
  | [_] => none
  | c :: d :: rest =>
    if c ≠ colon then none
    else if d = colon then
      if ellipsis.isSome then none
      else
        match rest with
        | [] => some (ip, some ip.length, [])
        | _ :: _ => next rest ip (some ip.length)
    else next (d :: rest) ip ellipsis

/-- Another group follows. -/
theorem afterGroup_colon (next : List UInt8 → List UInt8 → Option Nat → Option Groups) {d : UInt8}
    (hd : d ≠ colon) (rest ip : List UInt8) (ellipsis : Option Nat) :
    afterGroup next (colon :: d :: rest) ip ellipsis = next (d :: rest) ip ellipsis := by
  show (if colon ≠ colon then none else if d = colon then _ else next (d :: rest) ip ellipsis) = _
  rw [if_neg (not_not.mpr rfl), if_neg hd]

/-- At most `n` groups. -/
def parseGroups : Nat → List UInt8 → List UInt8 → Option Nat → Option Groups
  | 0, s, ip, ellipsis => some (ip, ellipsis, s)
  | n + 1, s, ip, ellipsis =>
    let digits := s.takeWhile isHex
    let rest := s.dropWhile isHex
    if digits = [] ∨ 4 < digits.length then none
    else if rest.head? = some period then
      -- an IPv4 address in place of the last two groups
      if (ellipsis = none ∧ ip.length ≠ 12) ∨ 12 < ip.length then none
      else (parseIPv4 s).map fun fields => (ip ++ fields, ellipsis, [])
    else afterGroup (parseGroups n) rest (ip ++ groupBytes (hexNumber digits)) ellipsis

/-- Fill in the zeros for `::`. -/
def expand (r : Groups) : Option (List UInt8) :=
  let (ip, ellipsis, rest) := r
  if rest ≠ [] then none
  else if ip.length < 16 then
    ellipsis.map fun k => ip.take k ++ (replicate (16 - ip.length) 0 ++ ip.drop k)
  else if ellipsis.isSome then none
  else some ip

def parseIPv6 (s : List UInt8) : Option (List UInt8) :=
  -- an address with a zone is not taken
  if percent ∈ s then none
  else if s.take 2 = [colon, colon] then
    if s.drop 2 = [] then some (replicate 16 0)
    else (parseGroups 8 (s.drop 2) [] (some 0)).bind expand
  else (parseGroups 8 s [] none).bind expand

/-! ## Addresses -/

/-- The front of an IPv4 address in its sixteen bytes. -/
def v4InV6 : List UInt8 := replicate 10 0 ++ [255, 255]

/-- The IPv4 address that is mapped into IPv6. -/
def unmap (ip : List UInt8) : Option (List UInt8) :=
  if ip.take 12 = v4InV6 then some (ip.drop 12) else none

theorem unmap_eq_some {ip v4 : List UInt8} (h : unmap ip = some v4) : ip = v4InV6 ++ v4 := by
  unfold unmap at h
  split at h
  · next hFront => rw [← some.inj h, ← hFront, take_append_drop]
  · cases h

/-- The text of an address. -/
def ipText (ip : List UInt8) : List UInt8 :=
  match unmap ip with
  | some v4 => ipv4Text v4
  | none => ipv6Text (groupsOf ip)

/-- The address of a text, in sixteen bytes. -/
def parseIP (s : List UInt8) : Option (List UInt8) :=
  match s.find? fun c => decide (c = period ∨ c = colon ∨ c = percent) with
  | none => none
  | some c =>
    if c = period then (parseIPv4 s).map (v4InV6 ++ ·)
    else if c = colon then parseIPv6 s
    else none

/-! ## Reading what was written -/

section RoundTrip

variable {gs : List Nat} {rest : List UInt8} {s : List UInt8}

theorem isHex_colon : isHex colon = false := by decide

theorem groupsText_singleton (g : Nat) : groupsText [g] = hexText g := by
  simp [groupsText]

theorem groupsText_cons_cons (g g' : Nat) (gs : List Nat) :
    groupsText (g :: g' :: gs) = hexText g ++ (colon :: groupsText (g' :: gs)) := by
  rfl

theorem groupsText_head (hNe : gs ≠ []) (hLt : ∀ g ∈ gs, g < 65536)
    (tail : List UInt8) : ∃ c rest, groupsText gs ++ tail = c :: rest ∧ isHex c = true := by
  have hFirst : ∀ (g : Nat) (rest : List UInt8), g < 65536 →
      ∃ c rest', hexText g ++ rest = c :: rest' ∧ isHex c = true := by
    intro g rest hg
    cases hText : hexText g with
    | nil =>
      have := (hexText_length g).1
      rw [hText] at this
      simp at this
    | cons c cs =>
      refine ⟨c, cs ++ rest, rfl, hexText_isHex hg c ?_⟩
      rw [hText]
      exact mem_cons_self
  match gs, hNe with
  | [g], _ =>
    rw [groupsText_singleton]
    exact hFirst g tail (hLt g mem_cons_self)
  | g :: g' :: gs, _ =>
    rw [groupsText_cons_cons, append_assoc]
    exact hFirst g _ (hLt g mem_cons_self)

/-- One group, up to a byte that is neither a digit nor a period. -/
theorem parseGroups_group {g : Nat} (hg : g < 65536)
    (hRest : ∀ c ∈ rest.head?, isHex c = false ∧ c ≠ period) (n : Nat) (ip : List UInt8)
    (ellipsis : Option Nat) :
    parseGroups (n + 1) (hexText g ++ rest) ip ellipsis =
      afterGroup (parseGroups n) rest (ip ++ groupBytes g) ellipsis := by
  have hStop : rest.takeWhile isHex = [] ∧ rest.dropWhile isHex = rest := by
    cases rest with
    | nil => exact ⟨rfl, rfl⟩
    | cons c rest =>
      have hc := (hRest c rfl).1
      rw [takeWhile_cons, dropWhile_cons, hc]
      exact ⟨rfl, rfl⟩
  have hTake : (hexText g ++ rest).takeWhile isHex = hexText g := by
    rw [takeWhile_append_of_pos (hexText_isHex hg), hStop.1, append_nil]
  have hDrop : (hexText g ++ rest).dropWhile isHex = rest := by
    rw [dropWhile_append_of_pos (hexText_isHex hg), hStop.2]
  have hLen := hexText_length g
  have hNotPeriod : rest.head? ≠ some period := fun hEq => (hRest period hEq).2 rfl
  have hDigits : ¬ (hexText g = [] ∨ 4 < (hexText g).length) := by
    rintro (hNil | hLong)
    · rw [hNil] at hLen
      simp at hLen
    · omega
  rw [parseGroups]
  simp only [hTake, hDrop]
  rw [if_neg hDigits, if_neg hNotPeriod, hexNumber_hexText hg]

theorem colon_stops {c : UInt8} (hc : c ∈ (colon :: rest).head?) :
    isHex c = false ∧ c ≠ period := by
  obtain rfl : colon = c := by simpa using hc
  exact ⟨isHex_colon, by decide⟩

/-- Groups joined by colons, up to the end or to `::`. -/
theorem parseGroups_groupsText {tail : List UInt8}
    (hTail : tail = [] ∨ ∃ rest, tail = colon :: colon :: rest) :
    ∀ {gs : List Nat} {n : Nat} (ip : List UInt8) (ellipsis : Option Nat), gs ≠ [] →
      (∀ g ∈ gs, g < 65536) → gs.length ≤ n →
      parseGroups n (groupsText gs ++ tail) ip ellipsis =
        afterGroup (parseGroups (n - gs.length)) tail (ip ++ bytesOf gs) ellipsis := by
  intro gs
  induction gs with
  | nil => exact fun _ _ hNe => absurd rfl hNe
  | cons g gs ih =>
    intro n ip ellipsis _ hLt hLen
    obtain ⟨m, rfl⟩ : ∃ m, n = m + 1 := ⟨n - 1, by simp only [length_cons] at hLen; omega⟩
    have hg := hLt g mem_cons_self
    cases gs with
    | nil =>
      rw [groupsText_singleton, parseGroups_group hg]
      · simp [bytesOf]
      · rcases hTail with rfl | ⟨rest, rfl⟩
        · intro c hc
          cases hc
        · exact fun _ => colon_stops
    | cons g' gs =>
      have hLt' : ∀ x ∈ g' :: gs, x < 65536 := fun x hx => hLt x (mem_cons_of_mem _ hx)
      obtain ⟨c, rest, hHead, hc⟩ := groupsText_head (cons_ne_nil g' gs) hLt' tail
      have hColon : c ≠ colon := fun hEq => by rw [hEq, isHex_colon] at hc; cases hc
      rw [groupsText_cons_cons, append_assoc, cons_append, parseGroups_group hg]
      · rw [hHead, afterGroup_colon _ hColon, ← hHead,
          ih (ip ++ groupBytes g) ellipsis (cons_ne_nil g' gs) hLt'
            (by simp only [length_cons] at hLen ⊢; omega)]
        have hCount : m + 1 - (g :: g' :: gs).length = m - (g' :: gs).length := by
          simp only [length_cons]
          omega
        rw [hCount, append_assoc]
        rfl
      · exact fun _ => colon_stops

/-- Groups without `::` behind them. -/
theorem parseGroups_last {n : Nat} (ip : List UInt8) (ellipsis : Option Nat)
    (hNe : gs ≠ []) (hLt : ∀ g ∈ gs, g < 65536) (hLen : gs.length ≤ n) :
    parseGroups n (groupsText gs) ip ellipsis = some (ip ++ bytesOf gs, ellipsis, []) := by
  have h := parseGroups_groupsText (.inl rfl) ip ellipsis hNe hLt hLen
  rwa [append_nil] at h

/-- Groups with `::` between them. -/
theorem parseGroups_ellipsis {gs hs : List Nat} (hNe : gs ≠ []) (hLt : ∀ g ∈ gs, g < 65536)
    (hLt' : ∀ g ∈ hs, g < 65536) (hLen : gs.length + hs.length ≤ 8) :
    parseGroups 8 (groupsText gs ++ (colon :: colon :: groupsText hs)) [] none =
      some (bytesOf gs ++ bytesOf hs, some (bytesOf gs).length, []) := by
  rw [parseGroups_groupsText (.inr ⟨_, rfl⟩) [] none hNe hLt (by omega), nil_append]
  cases hs with
  | nil => simp [groupsText, bytesOf, afterGroup]
  | cons h hs =>
    obtain ⟨c, rest, hHead, -⟩ := groupsText_head (cons_ne_nil h hs) hLt' []
    rw [append_nil] at hHead
    rw [hHead, afterGroup, if_neg (not_not.mpr rfl), if_pos rfl, if_neg (by simp), ← hHead]
    exact parseGroups_last _ _ (cons_ne_nil h hs) hLt' (by omega)

theorem groupsText_bytes (hLt : ∀ g ∈ gs, g < 65536) :
    ∀ c ∈ groupsText gs, isHex c = true ∨ c = colon := by
  intro c hc
  rcases mem_intercalate hc with rfl | ⟨l, hl, hc⟩
  · exact .inr rfl
  · obtain ⟨g, hg, rfl⟩ := mem_map.mp hl
    exact .inl (hexText_isHex (hLt g hg) c hc)

theorem ipv6Text_bytes (hLt : ∀ g ∈ gs, g < 65536) :
    ∀ c ∈ ipv6Text gs, isHex c = true ∨ c = colon := by
  intro c hc
  unfold ipv6Text elidedText at hc
  split at hc
  · exact groupsText_bytes hLt c hc
  · simp only [mem_append, mem_cons] at hc
    rcases hc with hc | rfl | rfl | hc
    · exact groupsText_bytes (fun g hg => hLt g (mem_of_mem_take hg)) c hc
    · exact .inr rfl
    · exact .inr rfl
    · exact groupsText_bytes (fun g hg => hLt g (mem_of_mem_drop hg)) c hc

theorem colon_mem_ipv6Text (hLen : gs.length = 8) : colon ∈ ipv6Text gs := by
  unfold ipv6Text elidedText
  split
  · match gs, hLen with
    | g :: g' :: gs, _ =>
      exact mem_append_right _ mem_cons_self
  · exact mem_append_right _ mem_cons_self

/-- A text that begins with a digit does not begin with `::`. -/
theorem take_two_ne {c : UInt8} (hs : s = c :: rest)
    (hc : isHex c = true) : s.take 2 ≠ [colon, colon] := by
  intro hEq
  rw [hs, take_succ_cons] at hEq
  rw [(cons.inj hEq).1, isHex_colon] at hc
  cases hc

theorem not_percent (h : ∀ c ∈ s, isHex c = true ∨ c = colon) : percent ∉ s := by
  intro hMem
  rcases h _ hMem with hHex | hEq
  · cases hHex
  · cases hEq

/-- The zeros that were left out are filled in again. -/
theorem expand_ellipsis (front back : List UInt8) {n : Nat} (hn : 0 < n)
    (hLen : front.length + n + back.length = 16) :
    expand (front ++ back, some front.length, []) = some (front ++ (replicate n 0 ++ back)) := by
  have hTotal : (front ++ back).length = front.length + back.length := length_append
  have hCount : 16 - (front ++ back).length = n := by omega
  simp only [expand, ne_eq, not_true_eq_false, if_false]
  rw [if_pos (by omega), map_some, hCount, take_left, drop_left]

theorem parseIPv6_elidedText {start stop : Nat} (hLen : gs.length = 8)
    (hLt : ∀ g ∈ gs, g < 65536) (hRun : ZerosBetween gs start stop)
    (hPercent : percent ∉ elidedText gs start stop) :
    parseIPv6 (elidedText gs start stop) = some (bytesOf gs) := by
  rw [parseIPv6, if_neg hPercent, elidedText]
  by_cases hNone : start = stop
  · -- nothing is left out
    have hNe : gs ≠ [] := by
      rintro rfl
      cases hLen
    obtain ⟨c, rest, hHead, hc⟩ := groupsText_head hNe hLt []
    rw [append_nil] at hHead
    rw [if_pos hNone, if_neg (take_two_ne hHead hc), parseGroups_last [] none hNe hLt (by omega)]
    have hBytes := length_bytesOf gs
    simp only [nil_append, bind_some, expand, ne_eq, not_true_eq_false, if_false]
    rw [if_neg (by omega)]
    rfl
  rw [if_neg hNone]
  have hLe := hRun.le
  have hBound := hRun.bound
  have hPre : ∀ g ∈ gs.take start, g < 65536 := fun g hg => hLt g (mem_of_mem_take hg)
  have hPost : ∀ g ∈ gs.drop stop, g < 65536 := fun g hg => hLt g (mem_of_mem_drop hg)
  have hPreLen : (gs.take start).length = start := by
    rw [length_take]
    omega
  have hPostLen : (gs.drop stop).length = 8 - stop := by rw [length_drop, hLen]
  have hBytes : bytesOf gs = bytesOf (gs.take start) ++
      (replicate (2 * (stop - start)) 0 ++ bytesOf (gs.drop stop)) := by
    rw [← bytesOf_replicate_zero, ← bytesOf_append, ← bytesOf_append, ← hRun.split]
  have hExpand := expand_ellipsis (bytesOf (gs.take start)) (bytesOf (gs.drop stop))
    (n := 2 * (stop - start)) (by omega) (by rw [length_bytesOf, length_bytesOf]; omega)
  rw [hBytes]
  by_cases hFront : gs.take start = []
  · -- the text begins with `::`
    rw [hFront] at hExpand ⊢
    show (if [colon, colon] = [colon, colon] then if groupsText (gs.drop stop) = [] then _
      else (parseGroups 8 (groupsText (gs.drop stop)) [] (some 0)).bind expand else _) = _
    rw [if_pos rfl]
    by_cases hBack : gs.drop stop = []
    · rw [hBack] at hPostLen ⊢
      rw [hFront] at hPreLen
      simp only [length_nil] at hPreLen hPostLen
      rw [if_pos (show groupsText [] = [] from rfl), ← hPreLen, show stop = 8 by omega]
      rfl
    · obtain ⟨c, rest, hHead, -⟩ := groupsText_head hBack hPost []
      rw [append_nil] at hHead
      rw [if_neg (by rw [hHead]; exact cons_ne_nil _ _),
        parseGroups_last [] (some 0) hBack hPost (by omega)]
      exact hExpand
  · obtain ⟨c, rest, hHead, hc⟩ :=
      groupsText_head hFront hPre (colon :: colon :: groupsText (gs.drop stop))
    rw [if_neg (take_two_ne hHead hc), parseGroups_ellipsis hFront hPre hPost (by omega)]
    exact hExpand

theorem parseIPv6_ipv6Text (hLen : gs.length = 8) (hLt : ∀ g ∈ gs, g < 65536) :
    parseIPv6 (ipv6Text gs) = some (bytesOf gs) :=
  parseIPv6_elidedText hLen hLt (zerosBetween_zeroRun gs) (not_percent (ipv6Text_bytes hLt))

/-- The first separator decides about the kind of address. -/
theorem find_separator {c : UInt8} (hc : c = period ∨ c = colon) (hMem : c ∈ s)
    (hOnly : ∀ d ∈ s, isHex d = true ∨ d = c) :
    (s.find? fun d => decide (d = period ∨ d = colon ∨ d = percent)) = some c := by
  cases hFind : s.find? fun d => decide (d = period ∨ d = colon ∨ d = percent) with
  | none =>
    have hNot := find?_eq_none.mp hFind c hMem
    rcases hc with rfl | rfl <;> simp at hNot
  | some d =>
    have hSep : d = period ∨ d = colon ∨ d = percent := by simpa using find?_some hFind
    rcases hOnly d (mem_of_find?_eq_some hFind) with hHex | rfl
    · rcases hSep with rfl | rfl | rfl <;> cases hHex
    · rfl

/-- An IPv4 address is parsed as one that is mapped into IPv6. -/
theorem parseIP_of_parseIPv4 {s ip : List UInt8} (h : parseIPv4 s = some ip) :
    parseIP s = some (v4InV6 ++ ip) := by
  have hPeriod : period ∈ s := by
    by_contra hNot
    rw [parseIPv4, splitOn_of_not_mem hNot] at h
    cases h
  have hFind := find_separator (.inl rfl) hPeriod
    fun d hd => ((parseIPv4_some h).2 d hd).imp isHex_of_isDigit id
  rw [parseIP]
  simp only [hFind, if_true]
  rw [h, map_some]

theorem parseIP_ipText {ip : List UInt8} (h : ip.length = 16) : parseIP (ipText ip) = some ip := by
  cases hUnmap : unmap ip with
  | some v4 =>
    have hEq := unmap_eq_some hUnmap
    have hFour : v4.length = 4 := by
      rw [hEq, length_append] at h
      exact Nat.add_left_cancel h
    rw [ipText, hUnmap]
    rw [parseIP_of_parseIPv4 (parseIPv4_ipv4Text hFour), hEq]
  | none =>
    have hGroups : (groupsOf ip).length = 8 := length_groupsOf h
    have hLt := groupsOf_lt ip
    have hFind := find_separator (.inr rfl) (colon_mem_ipv6Text hGroups) (ipv6Text_bytes hLt)
    rw [ipText, hUnmap, parseIP]
    simp only [hFind]
    rw [if_neg (by decide), if_pos trivial, parseIPv6_ipv6Text hGroups hLt,
      bytesOf_groupsOf (n := 8) h]

theorem ipText_injective {a b : List UInt8} (ha : a.length = 16) (hb : b.length = 16)
    (h : ipText a = ipText b) : a = b := by
  have hParse := parseIP_ipText ha
  rw [h, parseIP_ipText hb] at hParse
  exact (some.inj hParse).symm

end RoundTrip

variable {s ip : List UInt8}

/-! ## What is accepted -/

/-- The bytes of an address text. -/
def isAddrByte (c : UInt8) : Bool := isHex c || decide (c = period) || decide (c = colon)

theorem isAddrByte_of_isHex {c : UInt8} (h : isHex c = true) : isAddrByte c = true := by
  rw [isAddrByte, h]
  rfl

theorem parseIPv4_isAddrByte (h : parseIPv4 s = some ip) :
    ∀ c ∈ s, isAddrByte c = true := by
  intro c hc
  rcases (parseIPv4_some h).2 c hc with hDigit | rfl
  · exact isAddrByte_of_isHex (isHex_of_isDigit hDigit)
  · rfl

theorem afterGroup_cases {next : List UInt8 → List UInt8 → Option Nat → Option Groups}
    {rest ip : List UInt8} {ellipsis : Option Nat} {r : Groups}
    (h : afterGroup next rest ip ellipsis = some r) :
    (r.1 = ip ∧ ∀ c ∈ rest, c = colon) ∨
      ∃ rest' ellipsis', next rest' ip ellipsis' = some r ∧ ∀ c ∈ rest, c = colon ∨ c ∈ rest' := by
  match rest with
  | [] =>
    obtain rfl : (ip, ellipsis, []) = r := some.inj h
    exact .inl ⟨rfl, fun c hc => nomatch hc⟩
  | [_] => cases h
  | c :: d :: rest =>
    by_cases hc : c = colon
    · subst hc
      by_cases hd : d = colon
      · subst hd
        rw [afterGroup.eq_def] at h
        simp only [ne_eq, not_true_eq_false, if_false, if_true] at h
        split at h
        · cases h
        · split at h
          · obtain rfl := some.inj h
            refine .inl ⟨rfl, fun c hc => ?_⟩
            simpa using hc
          · refine .inr ⟨_, _, h, fun c hc => ?_⟩
            simpa using hc
      · rw [afterGroup_colon next hd] at h
        exact .inr ⟨_, _, h, fun c hc => mem_cons.mp hc⟩
    · rw [afterGroup.eq_def] at h
      simp [hc] at h

/-- What the groups of a text are made of. -/
theorem parseGroups_some {n : Nat} : ∀ {s ip : List UInt8} {ellipsis : Option Nat} {r : Groups},
    parseGroups n s ip ellipsis = some r → ip.length + 2 * n ≤ 16 →
      r.1.length ≤ 16 ∧ ∀ c ∈ s, isAddrByte c = true ∨ c ∈ r.2.2 := by
  induction n with
  | zero =>
    intro s ip ellipsis r h hLen
    obtain rfl : (ip, ellipsis, s) = r := some.inj h
    exact ⟨by simpa using hLen, fun c hc => .inr hc⟩
  | succ n ih =>
    intro s ip ellipsis r h hLen
    dsimp only [parseGroups] at h
    split at h
    · cases h
    split at h
    · split at h
      · cases h
      · next hPlace =>
        obtain ⟨fields, hFields, rfl⟩ := map_eq_some_iff.mp h
        have hFour := (parseIPv4_some hFields).1
        refine ⟨?_, fun c hc => .inl (parseIPv4_isAddrByte hFields c hc)⟩
        rw [length_append, hFour]
        omega
    · -- the digits, and what follows them
      have hSplit : ∀ c ∈ s, isHex c = true ∨ c ∈ s.dropWhile isHex := by
        intro c hc
        rw [← takeWhile_append_dropWhile (p := isHex) (l := s), mem_append] at hc
        exact hc.imp_left fun h => mem_takeWhile_imp h
      rcases afterGroup_cases h with ⟨hIp, hColons⟩ | ⟨rest', ellipsis', hNext, hColons⟩
      · refine ⟨?_, fun c hc => .inl ?_⟩
        · rw [hIp, length_append]
          show ip.length + 2 ≤ 16
          omega
        · rcases hSplit c hc with hHex | hRest
          · exact isAddrByte_of_isHex hHex
          · rw [hColons c hRest]
            rfl
      · obtain ⟨hLength, hBytes⟩ := ih hNext (by
          rw [length_append]
          show ip.length + 2 + 2 * n ≤ 16
          omega)
        refine ⟨hLength, fun c hc => ?_⟩
        rcases hSplit c hc with hHex | hRest
        · exact .inl (isAddrByte_of_isHex hHex)
        · rcases hColons c hRest with rfl | hLater
          · exact .inl rfl
          · exact hBytes c hLater

theorem expand_some {r : Groups} {ip : List UInt8} (h : expand r = some ip)
    (hLen : r.1.length ≤ 16) : ip.length = 16 ∧ r.2.2 = [] := by
  obtain ⟨front, ellipsis, rest⟩ := r
  dsimp only [expand] at h hLen
  split at h
  · cases h
  next hRest =>
  refine ⟨?_, not_not.mp hRest⟩
  split at h
  · obtain ⟨k, -, rfl⟩ := map_eq_some_iff.mp h
    simp only [length_append, length_take, length_replicate, length_drop]
    omega
  · split at h
    · cases h
    · obtain rfl : front = ip := some.inj h
      omega

theorem parseIPv6_some (h : parseIPv6 s = some ip) :
    ip.length = 16 ∧ ∀ c ∈ s, isAddrByte c = true := by
  -- the groups of a text that is used up
  have hGroups : ∀ {t : List UInt8} {ellipsis : Option Nat},
      (parseGroups 8 t [] ellipsis).bind expand = some ip →
      ip.length = 16 ∧ ∀ c ∈ t, isAddrByte c = true := by
    intro t ellipsis hBind
    obtain ⟨r, hParse, hExpand⟩ := bind_eq_some_iff.mp hBind
    obtain ⟨hLength, hBytes⟩ := parseGroups_some hParse (by simp)
    obtain ⟨hIp, hRest⟩ := expand_some hExpand hLength
    refine ⟨hIp, fun c hc => ?_⟩
    rcases hBytes c hc with hAddr | hMem
    · exact hAddr
    · rw [hRest] at hMem
      cases hMem
  unfold parseIPv6 at h
  split at h
  · cases h
  split at h
  · next hFront =>
    have hSplit : ∀ c ∈ s, c = colon ∨ c ∈ s.drop 2 := by
      intro c hc
      rw [← take_append_drop 2 s, hFront] at hc
      simpa using hc
    split at h
    · next hEmpty =>
      obtain rfl := some.inj h
      refine ⟨by simp, fun c hc => ?_⟩
      rcases hSplit c hc with rfl | hMem
      · rfl
      · rw [hEmpty] at hMem
        cases hMem
    · obtain ⟨hLength, hBytes⟩ := hGroups h
      refine ⟨hLength, fun c hc => ?_⟩
      rcases hSplit c hc with rfl | hMem
      · rfl
      · exact hBytes c hMem
  · exact hGroups h

theorem parseIP_bytes (h : parseIP s = some ip) :
    ip.length = 16 ∧ 2 ≤ s.length ∧ ∀ c ∈ s, isAddrByte c = true := by
  have hLong : 2 ≤ s.length := by
    match s with
    | [] => cases h
    | [c] =>
      -- a single separator is no address
      exfalso
      rw [parseIP] at h
      by_cases hPeriod : c = period
      · subst hPeriod
        cases h
      · by_cases hColon : c = colon
        · subst hColon
          cases h
        · by_cases hPercent : c = percent
          · subst hPercent
            cases h
          · simp [hPeriod, hColon, hPercent] at h
    | c :: d :: rest => simp
  unfold parseIP at h
  split at h
  · cases h
  split at h
  · obtain ⟨fields, hFields, rfl⟩ := map_eq_some_iff.mp h
    refine ⟨?_, hLong, parseIPv4_isAddrByte hFields⟩
    rw [length_append, (parseIPv4_some hFields).1]
    rfl
  · split at h
    · obtain ⟨hLength, hBytes⟩ := parseIPv6_some h
      exact ⟨hLength, hLong, hBytes⟩
    · cases h

end DnscryptProxy.Base
