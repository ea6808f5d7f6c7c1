import DnscryptProxy.Crypto.Certs

/-!
# The text of TXT records

The DNS library hands out the strings of a TXT record in escaped form, and
`FetchCurrentDNSCryptCert` concatenates them before `PackTXTRR` takes the escapes
back. So an escape is read next to whatever the following byte, or the following
string, begins with.

* `packTXTRRAt_eq` — the loop over indices, in which every access is checked, is
  the function of `Certs`;
* `packTXTRR_escapeTxt` — the escapes are taken back, whatever follows.
-/

namespace DnscryptProxy

open Base List

/-! ## The escapes of the library -/

def backslash : UInt8 := 92
def quote : UInt8 := 34

/-- The decimal digit of a number below ten. -/
def digitOf (n : Nat) : UInt8 := UInt8.ofNat (48 + n)

/-- A byte, as the DNS library writes it. -/
def escapeByte (b : UInt8) : Bytes :=
  if b = quote ∨ b = backslash then [backslash, b]
  else if b < 32 ∨ 126 < b then
    [backslash, digitOf (b.toNat / 100), digitOf (b.toNat / 10 % 10), digitOf (b.toNat % 10)]
  else [b]

/-- A string of a TXT record, as the DNS library writes it. -/
def escapeTxt (s : Bytes) : Bytes := s.flatMap escapeByte

/-! ## The loop over indices -/

/-- `dddToByte(bs[i:])`. -/
def dddToByteAt (bs : Bytes) (i : Nat) : GoCall (Option UInt8) := do
  let s ← slice bs i bs.length
  return dddToByte (← index s 0) (← index s 1) (← index s 2)

/-- Three digits from index `i` on. -/
def threeDigitsAt (bs : Bytes) (i : Nat) : GoCall Bool :=
  if i + 2 < bs.length then do
    return isDigit (← index bs i) && isDigit (← index bs (i + 1)) && isDigit (← index bs (i + 2))
  else .ok false

/-- The loop of `PackTXTRR`, at index `i` with `msg` so far. -/
def packTXTRRAt (bs : Bytes) (i : Nat) (msg : Bytes) : GoCall Bytes :=
  if _h : i < bs.length then do
    let c ← index bs i
    if c = 92 then
      if i + 1 = bs.length then .ok msg
      else if ← threeDigitsAt bs (i + 1) then
        -- a number above 255 is left out
        packTXTRRAt bs (i + 4) (msg ++ (← dddToByteAt bs (i + 1)).toList)
      else packTXTRRAt bs (i + 2) (msg ++ [unescape (← index bs (i + 1))])
    else packTXTRRAt bs (i + 1) (msg ++ [c])
  else .ok msg
termination_by bs.length - i

section Loop

theorem index_append_add (pre rest : Bytes) (k : Nat) :
    (index (pre ++ rest) (pre.length + k) : GoCall UInt8) = index rest k := by
  rw [index, index, getElem?_append_right (Nat.le_add_right _ _), Nat.add_sub_cancel_left]

theorem index_append (pre rest : Bytes) (c : UInt8) :
    (index (pre ++ c :: rest) pre.length : GoCall UInt8) = .ok c :=
  index_append_add pre (c :: rest) 0

theorem threeDigitsAt_append (pre rest : Bytes) (k : Nat) :
    threeDigitsAt (pre ++ rest) (pre.length + k) = threeDigitsAt rest k := by
  have hLt : pre.length + (k + 2) < (pre ++ rest).length ↔ k + 2 < rest.length := by
    rw [length_append]
    omega
  unfold threeDigitsAt
  simp only [Nat.add_assoc, hLt, index_append_add]

theorem dddToByteAt_append (pre : Bytes) {rest : Bytes} {k : Nat} (hk : k ≤ rest.length) :
    dddToByteAt (pre ++ rest) (pre.length + k) = dddToByteAt rest k := by
  have hLe : pre.length + k ≤ (pre ++ rest).length := by
    rw [length_append]
    omega
  unfold dddToByteAt
  rw [slice_eq hLe (Nat.le_refl _), slice_eq hk (Nat.le_refl _), take_length,
    take_length, drop_length_add_append]

variable (pre rest msg : Bytes)

/-- A byte that is not a backslash. -/
theorem packTXTRRAt_plain {c : UInt8} (hc : c ≠ 92) :
    packTXTRRAt (pre ++ c :: rest) pre.length msg =
      packTXTRRAt ((pre ++ [c]) ++ rest) (pre ++ [c]).length (msg ++ [c]) := by
  have hLt : pre.length < (pre ++ c :: rest).length := by simp
  rw [packTXTRRAt, dif_pos hLt, index_append, ok_bind, if_neg hc, append_cons]
  simp

/-- A backslash and the byte behind it. -/
theorem packTXTRRAt_escaped {d : UInt8} (hDigits : threeDigitsAt (92 :: d :: rest) 1 = .ok false) :
    packTXTRRAt (pre ++ 92 :: d :: rest) pre.length msg =
      packTXTRRAt ((pre ++ [92, d]) ++ rest) (pre ++ [92, d]).length (msg ++ [unescape d]) := by
  have hLt : pre.length < (pre ++ 92 :: d :: rest).length := by simp
  have hEnd : pre.length + 1 ≠ (pre ++ 92 :: d :: rest).length := by simp
  rw [packTXTRRAt, dif_pos hLt, index_append, ok_bind, if_pos rfl, if_neg hEnd,
    threeDigitsAt_append, hDigits, ok_bind, if_neg (by decide), index_append_add]
  simp [index]

/-- A backslash and three digits. -/
theorem packTXTRRAt_digits {d e f : UInt8}
    (hDigits : (isDigit d && isDigit e && isDigit f) = true) :
    packTXTRRAt (pre ++ 92 :: d :: e :: f :: rest) pre.length msg =
      packTXTRRAt ((pre ++ [92, d, e, f]) ++ rest) (pre ++ [92, d, e, f]).length
        (msg ++ (dddToByte d e f).toList) := by
  have hLt : pre.length < (pre ++ 92 :: d :: e :: f :: rest).length := by simp
  have hEnd : pre.length + 1 ≠ (pre ++ 92 :: d :: e :: f :: rest).length := by simp
  have hThree : threeDigitsAt (92 :: d :: e :: f :: rest) 1 = .ok true := by
    rw [← hDigits]
    rfl
  rw [packTXTRRAt, dif_pos hLt, index_append, ok_bind, if_pos rfl, if_neg hEnd,
    threeDigitsAt_append, hThree, ok_bind, if_pos rfl, dddToByteAt_append _ (by simp)]
  have hByte : dddToByteAt (92 :: d :: e :: f :: rest) 1 = .ok (dddToByte d e f) := by
    rw [dddToByteAt, slice_eq (by simp) (Nat.le_refl _), take_length]
    rfl
  rw [hByte, ok_bind]
  simp

/-- The loop has come to `rest`. -/
theorem packTXTRRAt_append :
    packTXTRRAt (pre ++ rest) pre.length msg = .ok (msg ++ packTXTRR rest) := by
  fun_induction packTXTRR rest generalizing pre msg with
  | case1 =>
    rw [packTXTRRAt, dif_neg (by simp), append_nil]
  | case2 =>
    -- the text ends with a backslash
    rw [packTXTRRAt, dif_pos (by simp), index_append, ok_bind, if_pos rfl, if_pos (by simp),
      append_nil]
  | case3 c hc =>
    rw [packTXTRRAt_plain _ _ _ hc, packTXTRRAt, dif_neg (by simp)]
  | case4 d =>
    rw [packTXTRRAt_escaped _ _ _ rfl, packTXTRRAt, dif_neg (by simp)]
  | case5 c d hc ih =>
    rw [packTXTRRAt_plain _ _ _ hc, ih, append_assoc]
    rfl
  | case6 d e ih =>
    rw [packTXTRRAt_escaped _ _ _ rfl, ih, append_assoc]
    rfl
  | case7 c d e hc ih =>
    rw [packTXTRRAt_plain _ _ _ hc, ih, append_assoc]
    rfl
  | case8 c d e f rest hc ih =>
    rw [packTXTRRAt_plain _ _ _ hc, ih, append_assoc]
    rfl
  | case9 c d e f rest hc hDigits ih =>
    obtain rfl : c = 92 := not_not.mp hc
    rw [packTXTRRAt_digits _ _ _ hDigits, ih, append_assoc]
  | case10 c d e f rest hc hDigits ih =>
    obtain rfl : c = 92 := not_not.mp hc
    have hThree : threeDigitsAt (92 :: d :: e :: f :: rest) 1 = .ok false := by
      rw [← Bool.eq_false_iff.mpr hDigits]
      rfl
    rw [packTXTRRAt_escaped _ _ _ hThree, ih, append_assoc]
    rfl

theorem packTXTRRAt_eq (bs : Bytes) : packTXTRRAt bs 0 [] = .ok (packTXTRR bs) :=
  packTXTRRAt_append [] bs []

end Loop

/-! ## Escapes are taken back -/

theorem dddToByte_digits (b : UInt8) :
    (isDigit (digitOf (b.toNat / 100)) && isDigit (digitOf (b.toNat / 10 % 10)) &&
        isDigit (digitOf (b.toNat % 10))) = true ∧
      dddToByte (digitOf (b.toNat / 100)) (digitOf (b.toNat / 10 % 10)) (digitOf (b.toNat % 10)) =
        some b := by
  have hAll : ∀ n < 256, (isDigit (digitOf (n / 100)) && isDigit (digitOf (n / 10 % 10)) &&
        isDigit (digitOf (n % 10))) = true ∧
      dddToByte (digitOf (n / 100)) (digitOf (n / 10 % 10)) (digitOf (n % 10)) =
        some (UInt8.ofNat n) := by
    decide +kernel
  have hByte := hAll b.toNat b.toNat_lt
  rwa [UInt8.ofNat_toNat] at hByte

/-- A byte that is not a backslash stands for itself. -/
theorem packTXTRR_plain {c : UInt8} (hc : c ≠ 92) (rest : Bytes) :
    packTXTRR (c :: rest) = c :: packTXTRR rest := by
  match rest with
  | [] => simp [packTXTRR, hc]
  | [d] => simp [packTXTRR, hc]
  | [d, e] => simp [packTXTRR, hc]
  | d :: e :: f :: rest => simp [packTXTRR, hc]

/-- Behind a backslash a byte that is not a digit stands for itself, if it is not one
of `t`, `r` and `n`. -/
theorem packTXTRR_escaped {c : UInt8} (hDigit : isDigit c = false) (hc : unescape c = c)
    (rest : Bytes) : packTXTRR (92 :: c :: rest) = c :: packTXTRR rest := by
  match rest with
  | [] => simp [packTXTRR, hc]
  | [d] => simp [packTXTRR, hc]
  | d :: e :: rest => simp [packTXTRR, hc, hDigit]

/-- An escaped byte is read back, whatever follows it. -/
theorem packTXTRR_escapeByte (b : UInt8) (rest : Bytes) :
    packTXTRR (escapeByte b ++ rest) = b :: packTXTRR rest := by
  unfold escapeByte
  split
  · next hMark =>
    rcases hMark with rfl | rfl
    · exact packTXTRR_escaped (by decide) (by decide) rest
    · exact packTXTRR_escaped (by decide) (by decide) rest
  · next hMark =>
    split
    · obtain ⟨hDigits, hByte⟩ := dddToByte_digits b
      show packTXTRR (92 :: _ :: _ :: _ :: rest) = _
      rw [packTXTRR, if_neg (by decide), if_pos hDigits, hByte]
      rfl
    · exact packTXTRR_plain (fun h => hMark (.inr h)) rest

theorem packTXTRR_escapeTxt (s rest : Bytes) :
    packTXTRR (escapeTxt s ++ rest) = s ++ packTXTRR rest := by
  induction s with
  | nil => rfl
  | cons b s ih =>
    rw [escapeTxt, flatMap_cons, append_assoc, packTXTRR_escapeByte]
    exact congrArg (b :: ·) ih

/-- The strings of a TXT record, escaped and concatenated, are read back; and on every
text the loop returns, with no access out of range. -/
theorem txt_unescaping :
    (∀ strings : List Bytes, packTXTRR (strings.map escapeTxt).flatten = strings.flatten) ∧
    ∀ text : Bytes, packTXTRRAt text 0 [] = .ok (packTXTRR text) := by
  refine ⟨fun strings => ?_, packTXTRRAt_eq⟩
  induction strings with
  | nil => rfl
  | cons s strings ih =>
    rw [map_cons, flatten_cons, packTXTRR_escapeTxt, ih, flatten_cons]

end DnscryptProxy
