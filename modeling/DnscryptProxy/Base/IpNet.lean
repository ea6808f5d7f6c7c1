import DnscryptProxy.Base.BitPrefix
import DnscryptProxy.Base.IpText

/-!
# Networks of IP addresses

A network is a network number and a mask, both as bytes. `parseCIDR` reads the
text of one; the network it returns is one of 4 or of 16 bytes, with the mask of a
length in bits (`parseCIDR_some`), and `maskSize` reads this length back
(`maskSize_cidrMask`).
-/

namespace DnscryptProxy.Base

open List Option

@[ext]
structure IPNet where
  ip : List UInt8
  mask : List UInt8
deriving Repr, DecidableEq

/-! ## Masks -/

/-- The mask of `l` bytes whose first `n` bits are set. -/
def cidrMask : (l n : Nat) → List UInt8
  | 0, _ => []
  | l + 1, n =>
    if 8 ≤ n then 255 :: cidrMask l (n - 8) else ~~~(255 >>> UInt8.ofNat n) :: cidrMask l 0

/-- How many bits of a byte are set before the first one that is not. -/
def leadingOnes (v : UInt8) : Nat := sharedPrefix (byteBits v) (replicate 8 true)

/-- The number of set bits, where no set bit follows one that is not set. -/
def simpleMaskLength : List UInt8 → Option Nat
  | [] => some 0
  | v :: rest =>
    if v = 255 then (simpleMaskLength rest).map (8 + ·)
    -- the first other byte: what follows its leading bits is zero
    else if v = ~~~(255 >>> UInt8.ofNat (leadingOnes v)) ∧ rest.all (· == 0) then
      some (leadingOnes v)
    else none

/-- How many bits of a mask are set, and how many it has. -/
def maskSize (m : List UInt8) : Nat × Nat :=
  match simpleMaskLength m with
  | some n => (n, 8 * m.length)
  | none => (0, 0)

@[simp]
theorem length_cidrMask (l n : Nat) : (cidrMask l n).length = l := by
  induction l generalizing n with
  | zero => rfl
  | succ l ih =>
    unfold cidrMask
    split
    · rw [length_cons, ih]
    · rw [length_cons, ih]

theorem drop_cidrMask (k l n : Nat) : (cidrMask (k + l) n).drop k = cidrMask l (n - 8 * k) := by
  induction k generalizing n with
  | zero => rw [Nat.zero_add]; rfl
  | succ k ih =>
    rw [Nat.add_right_comm, cidrMask]
    split
    · rw [drop_succ_cons, ih, show n - 8 - 8 * k = n - 8 * (k + 1) by omega]
    · rw [drop_succ_cons, ih, show n - 8 * (k + 1) = 0 - 8 * k by omega]

theorem cidrMask_zero (l : Nat) : cidrMask l 0 = replicate l 0 := by
  induction l with
  | zero => rfl
  | succ l ih =>
    rw [cidrMask, if_neg (by decide), ih, replicate_succ]
    rfl

theorem leadingOnes_maskByte : ∀ n < 8,
    ~~~(255 >>> UInt8.ofNat n) ≠ 255 ∧ leadingOnes (~~~(255 >>> UInt8.ofNat n)) = n := by
  decide

theorem simpleMaskLength_cidrMask {l : Nat} : ∀ {n : Nat}, n ≤ 8 * l →
    simpleMaskLength (cidrMask l n) = some n := by
  induction l with
  | zero =>
    intro n hn
    obtain rfl : n = 0 := by omega
    rfl
  | succ l ih =>
    intro n hn
    unfold cidrMask
    by_cases hWhole : 8 ≤ n
    · rw [if_pos hWhole, simpleMaskLength, if_pos rfl, ih (by omega), map_some,
        Nat.add_sub_cancel' hWhole]
    · obtain ⟨hNe, hOnes⟩ := leadingOnes_maskByte n (not_le.mp hWhole)
      rw [if_neg hWhole, simpleMaskLength, if_neg hNe, hOnes, cidrMask_zero]
      exact if_pos ⟨rfl, by simp⟩

theorem maskSize_cidrMask {l n : Nat} (h : n ≤ 8 * l) : maskSize (cidrMask l n) = (n, 8 * l) := by
  rw [maskSize, simpleMaskLength_cidrMask h, length_cidrMask]

/-! ## Network numbers -/

/-- The bits of an address that a mask keeps; an address and a mask of different
families are first brought to 4 bytes, where that is possible. -/
def ipMask (ip mask : List UInt8) : Option (List UInt8) :=
  let mask :=
    if mask.length = 16 ∧ ip.length = 4 ∧ (mask.take 12).all (· == 255) then mask.drop 12 else mask
  let ip := if mask.length = 4 ∧ ip.length = 16 ∧ ip.take 12 = v4InV6 then ip.drop 12 else ip
  if ip.length ≠ mask.length then none else some (zipWith (· &&& ·) ip mask)

theorem ipMask_sixteen {ip mask : List UInt8} (hIp : ip.length = 16) (hMask : mask.length = 16) :
    ipMask ip mask = some (zipWith (· &&& ·) ip mask) := by
  simp [ipMask, hIp, hMask]

theorem ipMask_four {ip mask : List UInt8} (hIp : ip.length = 4) (hMask : mask.length = 4) :
    ipMask (v4InV6 ++ ip) mask = some (zipWith (· &&& ·) ip mask) := by
  have hLen : v4InV6.length = 12 := rfl
  simp [ipMask, hIp, hMask, hLen]

/-- The network number and the mask, both of 4 or both of 16 bytes. -/
def networkNumberAndMask (net : IPNet) : Option (List UInt8 × List UInt8) :=
  let v4 := if net.ip.length = 4 then some net.ip
    else if net.ip.length = 16 then unmap net.ip else none
  match v4 with
  | some ip =>
    if net.mask.length = 4 then some (ip, net.mask)
    else if net.mask.length = 16 then some (ip, net.mask.drop 12)
    else none
  | none => if net.ip.length = 16 ∧ net.mask.length = 16 then some (net.ip, net.mask) else none

/-! ## The text of a network -/

def slash : UInt8 := 47

/-- The text of an address of 4 or 16 bytes. -/
def ipString (ip : List UInt8) : List UInt8 :=
  if ip.length = 4 then ipv4Text ip else ipText ip

/-- `address/length`, or the mask in hexadecimal where it has no length. -/
def IPNet.string (net : IPNet) : List UInt8 :=
  match networkNumberAndMask net with
  | none => [60, 110, 105, 108, 62] -- `<nil>`
  | some (ip, m) =>
    match simpleMaskLength m with
    | none =>
      ipString ip ++ slash :: m.flatMap fun b => [hexDigit (b.toNat / 16), hexDigit (b.toNat % 16)]
    -- at most 128 bits: the length is written as a byte is
    | some n => ipString ip ++ slash :: octetText (UInt8.ofNat n)

/-- The value of decimal digits. -/
def decimalValue (ds : List UInt8) : Nat := ds.foldl (fun n c => n * 10 + (c.toNat - 48)) 0

/-- How many bytes the address of a text has. -/
def addrBytes (addr : List UInt8) : Nat := if (parseIPv4 addr).isSome then 4 else 16

/-- An address and the network it is in, from the text `address/length`. -/
def parseCIDR (s : List UInt8) : Option (List UInt8 × IPNet) :=
  match s.dropWhile (· ≠ slash) with
  | [] => none
  | _ :: digits =>
    let addr := s.takeWhile (· ≠ slash)
    match parseIP addr with
    | none => none
    | some ip =>
      let n := decimalValue digits
      if digits = [] ∨ digits.all isDigit = false ∨ 8 * addrBytes addr < n then none
      else
        let m := cidrMask (addrBytes addr) n
        some (ip, { ip := (ipMask ip m).getD [], mask := m })

theorem addrBytes_cases (addr : List UInt8) : addrBytes addr = 4 ∨ addrBytes addr = 16 := by
  unfold addrBytes
  split
  · exact .inl rfl
  · exact .inr rfl

/-- An address under a mask of its own family. -/
theorem length_ipMask_parseIP {addr ip : List UInt8} (h : parseIP addr = some ip) (n : Nat) :
    ((ipMask ip (cidrMask (addrBytes addr) n)).getD []).length = addrBytes addr := by
  cases hV4 : parseIPv4 addr with
  | some v4 =>
    rw [parseIP_of_parseIPv4 hV4] at h
    obtain rfl := some.inj h
    have hBytes : addrBytes addr = 4 := by simp [addrBytes, hV4]
    have hFour := (parseIPv4_some hV4).1
    rw [hBytes, ipMask_four hFour (length_cidrMask 4 n), getD_some, length_zipWith,
      hFour, length_cidrMask, min_self]
  | none =>
    have hBytes : addrBytes addr = 16 := by simp [addrBytes, hV4]
    have hSixteen := (parseIP_bytes h).1
    rw [hBytes, ipMask_sixteen hSixteen (length_cidrMask 16 n), getD_some,
      length_zipWith, hSixteen, length_cidrMask, min_self]

/-- A network of `l` bytes, with the mask of `n` bits. -/
structure IsNetwork (net : IPNet) (l n : Nat) : Prop where
  ip_length : net.ip.length = l
  bound : n ≤ 8 * l
  mask_eq : net.mask = cidrMask l n

theorem IsNetwork.maskSize_eq {net : IPNet} {l n : Nat} (h : IsNetwork net l n) :
    (maskSize net.mask).1 = n := by
  rw [h.mask_eq, maskSize_cidrMask h.bound]

theorem parseCIDR_some {s ip : List UInt8} {net : IPNet} (h : parseCIDR s = some (ip, net)) :
    ∃ l n, (l = 4 ∨ l = 16) ∧ IsNetwork net l n := by
  unfold parseCIDR at h
  split at h
  · cases h
  · next digits _ =>
    dsimp only at h
    split at h
    · cases h
    · next ip' hParse =>
      split at h
      · cases h
      · next hDigits =>
        obtain ⟨-, rfl⟩ := Prod.mk.inj (some.inj h)
        refine ⟨_, decimalValue digits, addrBytes_cases _,
          ⟨length_ipMask_parseIP hParse _, ?_, rfl⟩⟩
        exact not_lt.mp fun hLt => hDigits (.inr (.inr hLt))

/-! ## Networks with one text -/

/-- The text of an IPv6 network has its address in front of the slash. -/
theorem string_eq {net : IPNet} {n : Nat} (h : IsNetwork net 16 n) :
    ∃ t l, net.string = t ++ slash :: octetText (UInt8.ofNat l) ∧ parseIP t = some net.ip ∧
      (unmap net.ip = none → l = n) := by
  have hIp := h.ip_length
  have hMask : net.mask.length = 16 := by rw [h.mask_eq, length_cidrMask]
  cases hUnmap : unmap net.ip with
  | none =>
    refine ⟨ipText net.ip, n, ?_, parseIP_ipText hIp, fun _ => rfl⟩
    simp only [IPNet.string, networkNumberAndMask, hIp, hMask, hUnmap, ipString, and_self, if_true,
      Nat.reduceEqDiff, if_false]
    rw [h.mask_eq, simpleMaskLength_cidrMask h.bound]
  | some v4 =>
    have hEq := unmap_eq_some hUnmap
    have hFour : v4.length = 4 := by
      rw [hEq, length_append] at hIp
      exact Nat.add_left_cancel hIp
    refine ⟨ipv4Text v4, n - 96, ?_, ?_, fun hNone => by cases hNone⟩
    · simp only [IPNet.string, networkNumberAndMask, hIp, hMask, hUnmap, ipString, hFour, if_true,
        Nat.reduceEqDiff, if_false]
      have hBound := h.bound
      rw [h.mask_eq, drop_cidrMask 12 4, simpleMaskLength_cidrMask (by omega)]
    · rw [parseIP_of_parseIPv4 (parseIPv4_ipv4Text hFour), hEq]

/-- An address text, a slash and digits are read in one way. -/
theorem slash_cut {t t' ip : List UInt8} {x y : UInt8} (h : parseIP t = some ip)
    (hEq : t ++ slash :: octetText x = t' ++ slash :: octetText y) : t = t' ∧ x = y := by
  have hText : slash ∉ t := fun hMem => by cases (parseIP_bytes h).2.2 _ hMem
  have hDigits : slash ∉ octetText x := fun hMem => by cases octetText_digits x _ hMem
  obtain ⟨hFront, -, hBack⟩ := (append_cons_inj_of_notMem hText hDigits).mp hEq
  refine ⟨hFront, ?_⟩
  have hParse := parseOctet_octetText x
  rw [hBack, parseOctet_octetText] at hParse
  exact (some.inj hParse).symm

/-- IPv6 networks with one text have the same number, and outside the addresses that
are mapped from IPv4 the same length. -/
theorem string_injective {a b : IPNet} {n m : Nat} (ha : IsNetwork a 16 n) (hb : IsNetwork b 16 m)
    (h : a.string = b.string) : a.ip = b.ip ∧ (unmap a.ip = none → n = m) := by
  obtain ⟨t, l, hA, hParse, hLen⟩ := string_eq ha
  obtain ⟨t', l', hB, hParse', hLen'⟩ := string_eq hb
  rw [hA, hB] at h
  obtain ⟨rfl, hNum⟩ := slash_cut hParse h
  have hIp : a.ip = b.ip := some.inj (hParse.symm.trans hParse')
  refine ⟨hIp, fun hNone => ?_⟩
  rw [hLen hNone, hLen' (hIp ▸ hNone)] at hNum
  have hn := ha.bound
  have hm := hb.bound
  have hVal := congrArg UInt8.toNat hNum
  rw [UInt8.toNat_ofNat', UInt8.toNat_ofNat'] at hVal
  omega

end DnscryptProxy.Base
