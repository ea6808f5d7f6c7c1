import DnscryptProxy.Base.Distinct
import DnscryptProxy.Base.IpNet
import DnscryptProxy.Dns.Message

/-!
# The fingerprint of the network

`buildNetworkInterfaceFingerprint` of `netmon.go`: of every interface that is up and not a loopback
the name, the index and its global addresses, IPv6 addresses by their prefix only; all sorted and
hashed. `sha256` is any function to 32 bytes.

`NetworkChange` are the changes that are to go unnoticed.

* `interfacePart_congr` — an interface is described by the set of its addresses;
* `fingerprint_congr` — a network is described by its interfaces in any order;
* `fingerprint_unnoticed` — no sequence of such changes is noticed;
* `fingerprint_of_loopback_host` — of the host bits of an IPv6 address those are noticed that make
  it another kind of address.
-/

namespace DnscryptProxy

open Base

/-! ## Kinds of addresses -/

/-- `net.IP.Equal`. -/
def ipEqual (ip x : Bytes) : Bool :=
  if ip.length = x.length then ip = x
  else if ip.length = 4 ∧ x.length = 16 then x = v4InV6 ++ ip
  else if ip.length = 16 ∧ x.length = 4 then ip = v4InV6 ++ x
  else false

def IPv4bcast : Bytes := v4InV6 ++ [255, 255, 255, 255]
def IPv4zero : Bytes := v4InV6 ++ [0, 0, 0, 0]
def IPv6unspecified : Bytes := List.replicate 16 0
def IPv6loopback : Bytes := List.replicate 15 0 ++ [1]

/-- `net.IP.IsUnspecified`. -/
def isUnspecified (ip : Bytes) : Bool := ipEqual ip IPv4zero || ipEqual ip IPv6unspecified

/-- `net.IP.IsLoopback`. -/
def isLoopback (ip : Bytes) : Bool :=
  match ipTo4 ip with
  | some ip4 => ip4.getD 0 0 = 127
  | none => ipEqual ip IPv6loopback

/-- `net.IP.IsMulticast`. -/
def isMulticast (ip : Bytes) : Bool :=
  match ipTo4 ip with
  | some ip4 => ip4.getD 0 0 &&& 0xf0 = 0xe0
  | none => ip.length = 16 ∧ ip.getD 0 0 = 0xff

/-- `net.IP.IsLinkLocalUnicast`. -/
def isLinkLocalUnicast (ip : Bytes) : Bool :=
  match ipTo4 ip with
  | some ip4 => ip4.getD 0 0 = 169 ∧ ip4.getD 1 0 = 254
  | none => ip.length = 16 ∧ ip.getD 0 0 = 0xfe ∧ ip.getD 1 0 &&& 0xc0 = 0x80

/-- `net.IP.IsGlobalUnicast`. -/
def isGlobalUnicast (ip : Bytes) : Bool :=
  (ip.length = 4 ∨ ip.length = 16) && !ipEqual ip IPv4bcast && !isUnspecified ip &&
    !isLoopback ip && !isMulticast ip && !isLinkLocalUnicast ip

/-! ## The fingerprint -/

/-- `networkInterfaceSnapshot`. -/
structure NetworkInterfaceSnapshot where
  name : Bytes
  index : Int
  mtu : Int
  flags : Nat
  hardwareAddr : Bytes
  /-- pointers, which may be `nil` -/
  addrs : List (Option IPNet)
deriving Repr, DecidableEq

def FlagUp : Nat := 1
def FlagLoopback : Nat := 4

/-- `strconv.Itoa`. -/
def itoa (n : Int) : Bytes := ascii (toString n)

/-- `hex.EncodeToString`. -/
def hexEncode (b : Bytes) : Bytes :=
  b.flatMap fun v => [hexDigit (v.toNat / 16), hexDigit (v.toNat % 16)]

/-- `sort.Strings`. -/
def sortStrings (l : List Bytes) : List Bytes := l.mergeSort fun a b => decide (a ≤ b)

/-- The text of an address, if it counts. -/
def addressText : Option IPNet → Option Bytes
  | none => none
  | some addr =>
    if addr.ip = [] ∨ isGlobalUnicast addr.ip = false then none
    else
      let ip := if ipTo4 addr.ip = none then (ipMask addr.ip addr.mask).getD addr.ip else addr.ip
      let (prefixLength, bits) := maskSize addr.mask
      let mask :=
        if bits = 0 then ascii "/mask=" ++ hexEncode addr.mask else ascii "/" ++ itoa prefixLength
      some (ipString ip ++ mask)

namespace NetworkInterfaceSnapshot

variable (iface : NetworkInterfaceSnapshot)

/-- Loopbacks and interfaces that are down do not count. -/
def Skipped : Prop := iface.flags &&& FlagLoopback ≠ 0 ∨ iface.flags &&& FlagUp = 0

instance : Decidable iface.Skipped := inferInstanceAs (Decidable (_ ∨ _))

/-- The addresses, each one once. -/
def addresses : List Bytes := distinctOn id [] (iface.addrs.filterMap addressText)

/-- What is written of an interface. -/
def part : Bytes :=
  ascii "name=" ++ iface.name ++ ascii "|index=" ++ itoa iface.index ++ ascii "|addrs=" ++
    (ascii ",").intercalate (sortStrings iface.addresses)

end NetworkInterfaceSnapshot

/-- The parts of all interfaces that count. -/
def interfaceParts (interfaces : List NetworkInterfaceSnapshot) : List Bytes :=
  (interfaces.filter fun iface => ¬ iface.Skipped).map (·.part)

/-- What `hashNetworkFingerprint` writes to the hash. -/
def hashInput (parts : List Bytes) : Bytes := (sortStrings parts).flatMap (· ++ [0])

section Fingerprint

variable (sha256 : Bytes → Vector UInt8 32)

def hashNetworkFingerprint (parts : List Bytes) : Bytes :=
  hexEncode (sha256 (hashInput parts)).toList

def buildNetworkInterfaceFingerprint (interfaces : List NetworkInterfaceSnapshot) : Bytes :=
  hashNetworkFingerprint sha256 (interfaceParts interfaces)

end Fingerprint

theorem hexDigit_inj {m n : Nat} (hm : m < 16) (hn : n < 16) (h : hexDigit m = hexDigit n) :
    m = n := by
  have hValue := hexValue_hexDigit hm
  rw [h, hexValue_hexDigit hn] at hValue
  exact (Option.some.inj hValue).symm

theorem hexEncode_injective : Function.Injective hexEncode := by
  intro b
  induction b with
  | nil =>
    intro b' h
    cases b' with
    | nil => rfl
    | cons => cases h
  | cons v b ih =>
    intro b' h
    cases b' with
    | nil => cases h
    | cons v' b' =>
      simp only [hexEncode, List.flatMap_cons, List.cons_append, List.nil_append,
        List.cons.injEq] at h
      obtain ⟨hHigh, hLow, hRest⟩ := h
      have hv := v.toNat_lt
      have hv' := v'.toNat_lt
      have hDiv := hexDigit_inj (by omega) (by omega) hHigh
      have hMod := hexDigit_inj (by omega) (by omega) hLow
      have hByte : v = v' := UInt8.toNat_inj.mp (by omega)
      rw [hByte, ih hRest]

theorem length_hexEncode (b : Bytes) : (hexEncode b).length = 2 * b.length := by
  induction b with
  | nil => rfl
  | cons v b ih =>
    rw [hexEncode, List.flatMap_cons, List.length_append, ← hexEncode, ih, List.length_cons]
    simp only [List.length_cons, List.length_nil]
    omega

variable (sha256 : Bytes → Vector UInt8 32)

theorem fingerprint_ne_nil (interfaces : List NetworkInterfaceSnapshot) :
    buildNetworkInterfaceFingerprint sha256 interfaces ≠ [] := by
  intro hNil
  have hLen := congrArg List.length hNil
  rw [buildNetworkInterfaceFingerprint, hashNetworkFingerprint, length_hexEncode,
    Vector.length_toList] at hLen
  cases hLen

/-! ## What does not matter -/

theorem interfacePart_congr {a b : NetworkInterfaceSnapshot} (hName : a.name = b.name)
    (hIndex : a.index = b.index)
    (hAddrs : ∀ t, (∃ addr ∈ a.addrs, addressText addr = some t) ↔
      ∃ addr ∈ b.addrs, addressText addr = some t) : a.part = b.part := by
  have hSorted : sortStrings a.addresses = sortStrings b.addresses := by
    refine sort_distinct_congr fun t => ?_
    rw [List.mem_filterMap, List.mem_filterMap]
    exact hAddrs t
  rw [NetworkInterfaceSnapshot.part, NetworkInterfaceSnapshot.part, hName, hIndex, hSorted]

theorem fingerprint_congr {as bs : List NetworkInterfaceSnapshot}
    (h : (interfaceParts as).Perm (interfaceParts bs)) :
    buildNetworkInterfaceFingerprint sha256 as = buildNetworkInterfaceFingerprint sha256 bs := by
  have hSorted : sortStrings (interfaceParts as) = sortStrings (interfaceParts bs) :=
    mergeSort_congr h
  rw [buildNetworkInterfaceFingerprint, buildNetworkInterfaceFingerprint, hashNetworkFingerprint,
    hashNetworkFingerprint, hashInput, hashInput, hSorted]

/-- Two addresses under one mask have the same prefix. -/
def SamePrefix (ip ip' mask : Bytes) : Prop :=
  ∃ p, ipMask ip mask = some p ∧ ipMask ip' mask = some p

/-- An IPv6 address, other than those that stand for IPv4 ones, that counts. -/
def IsGlobalIPv6 (ip : Bytes) : Prop := isGlobalUnicast ip = true ∧ ipTo4 ip = none

/-- What may happen to an interface. -/
inductive InterfaceChange : NetworkInterfaceSnapshot → NetworkInterfaceSnapshot → Prop
  | mtu (iface) (mtu : Int) : InterfaceChange iface { iface with mtu }
  | hardwareAddr (iface) (hardwareAddr : Bytes) : InterfaceChange iface { iface with hardwareAddr }
  | flags (iface) (flags : Nat) (hUp : flags &&& FlagUp = iface.flags &&& FlagUp)
      (hLoopback : flags &&& FlagLoopback = iface.flags &&& FlagLoopback) :
      InterfaceChange iface { iface with flags }
  | permuted (iface) (addrs : List (Option IPNet)) (h : iface.addrs.Perm addrs) :
      InterfaceChange iface { iface with addrs }
  | duplicated (iface) (addr : Option IPNet) (h : addr ∈ iface.addrs) :
      InterfaceChange iface { iface with addrs := addr :: iface.addrs }
  | nonGlobal (iface) (addr : IPNet) (h : isGlobalUnicast addr.ip = false) :
      InterfaceChange iface { iface with addrs := some addr :: iface.addrs }
  | hostBits (iface) (addr : IPNet) (ip : Bytes) (rest : List (Option IPNet))
      (h : iface.addrs = some addr :: rest) (hSame : SamePrefix addr.ip ip addr.mask)
      (hBefore : IsGlobalIPv6 addr.ip) (hAfter : IsGlobalIPv6 ip) :
      InterfaceChange iface { iface with addrs := some { addr with ip } :: rest }

/-- What may happen to a network. -/
inductive NetworkChange : List NetworkInterfaceSnapshot → List NetworkInterfaceSnapshot → Prop
  | permuted (as bs) (h : as.Perm bs) : NetworkChange as bs
  | skipped (iface : NetworkInterfaceSnapshot) (rest) (h : iface.Skipped) :
      NetworkChange rest (iface :: rest)
  | changed (a b : NetworkInterfaceSnapshot) (rest) (h : InterfaceChange a b) :
      NetworkChange (a :: rest) (b :: rest)

/-- One network becomes the other by such changes, one after the other, forth and back. -/
def Unnoticed : List NetworkInterfaceSnapshot → List NetworkInterfaceSnapshot → Prop :=
  Relation.EqvGen NetworkChange

/-- The host bits of a global IPv6 address are not in its text. -/
theorem addressText_hostBits {addr : IPNet} {ip : Bytes} (hSame : SamePrefix addr.ip ip addr.mask)
    (hBefore : IsGlobalIPv6 addr.ip) (hAfter : IsGlobalIPv6 ip) :
    addressText (some { addr with ip }) = addressText (some addr) := by
  obtain ⟨p, hp, hp'⟩ := hSame
  have hCounts : ∀ {x : Bytes}, IsGlobalIPv6 x → ¬ (x = [] ∨ isGlobalUnicast x = false) := by
    rintro x ⟨hGlobal, -⟩ (rfl | hNot)
    · cases hGlobal
    · rw [hGlobal] at hNot
      cases hNot
  unfold addressText
  dsimp only
  rw [if_neg (hCounts hBefore), if_neg (hCounts hAfter), if_pos hBefore.2, if_pos hAfter.2, hp, hp',
    Option.getD_some, Option.getD_some]

theorem InterfaceChange.sound {a b : NetworkInterfaceSnapshot} (h : InterfaceChange a b) :
    (a.Skipped ↔ b.Skipped) ∧ a.part = b.part := by
  cases h with
  | mtu | hardwareAddr => exact ⟨Iff.rfl, rfl⟩
  | flags flags hUp hLoopback =>
    refine ⟨?_, rfl⟩
    unfold NetworkInterfaceSnapshot.Skipped
    rw [hUp, hLoopback]
  | permuted addrs h =>
    refine ⟨Iff.rfl, interfacePart_congr rfl rfl fun t => ?_⟩
    simp only [h.mem_iff]
  | duplicated addr h =>
    refine ⟨Iff.rfl, interfacePart_congr rfl rfl fun t => ?_⟩
    rw [List.exists_mem_cons_iff, or_iff_right_of_imp]
    exact fun hText => ⟨addr, h, hText⟩
  | nonGlobal addr h =>
    refine ⟨Iff.rfl, interfacePart_congr rfl rfl fun t => ?_⟩
    have hNone : addressText (some addr) = none := if_pos (.inr h)
    simp only [List.exists_mem_cons_iff, hNone, reduceCtorEq, false_or]
  | hostBits addr ip rest h hSame hBefore hAfter =>
    refine ⟨Iff.rfl, interfacePart_congr rfl rfl fun t => ?_⟩
    simp only [h, List.exists_mem_cons_iff, addressText_hostBits hSame hBefore hAfter]

theorem NetworkChange.sound {as bs : List NetworkInterfaceSnapshot} (h : NetworkChange as bs) :
    (interfaceParts as).Perm (interfaceParts bs) := by
  unfold interfaceParts
  cases h with
  | permuted _ _ h => exact (h.filter _).map _
  | skipped iface _ h => rw [List.filter_cons_of_neg (by simpa using h)]
  | changed a b rest h =>
    obtain ⟨hSkipped, hPart⟩ := h.sound
    by_cases hSkip : a.Skipped
    · rw [List.filter_cons_of_neg (by simpa using hSkip),
        List.filter_cons_of_neg (by simpa using hSkipped.mp hSkip)]
    · rw [List.filter_cons_of_pos (by simpa using hSkip),
        List.filter_cons_of_pos (by simpa using hSkipped.not.mp hSkip), List.map_cons,
        List.map_cons, hPart]

theorem fingerprint_unnoticed {as bs : List NetworkInterfaceSnapshot} (h : Unnoticed as bs) :
    buildNetworkInterfaceFingerprint sha256 as = buildNetworkInterfaceFingerprint sha256 bs := by
  induction h with
  | rel as bs h => exact fingerprint_congr sha256 h.sound
  | refl => rfl
  | symm as bs _ ih => exact ih.symm
  | trans as bs cs _ _ ih ih' => exact ih.trans ih'

/-- An interface with one address of a network of 64 bits. -/
def ethernet (ip : Bytes) : NetworkInterfaceSnapshot :=
  { name := ascii "eth0", index := 2, mtu := 1500, flags := FlagUp, hardwareAddr := []
    addrs := [some { ip := ip, mask := cidrMask 16 64 }] }

/-- `::2`. -/
def hostTwo : Bytes := List.replicate 15 0 ++ [2]

/-- `::2` and `::1` differ in host bits, and `::1` does not count: it is the loopback address. So
the fingerprint changes, unless the hash has a collision there. -/
theorem fingerprint_of_loopback_host :
    SamePrefix hostTwo IPv6loopback (cidrMask 16 64) ∧
    hashInput (interfaceParts [ethernet hostTwo]) ≠
      hashInput (interfaceParts [ethernet IPv6loopback]) ∧
    ∀ sha256 : Bytes → Vector UInt8 32, sha256 (hashInput (interfaceParts [ethernet hostTwo])) ≠
        sha256 (hashInput (interfaceParts [ethernet IPv6loopback])) →
      buildNetworkInterfaceFingerprint sha256 [ethernet hostTwo] ≠
        buildNetworkInterfaceFingerprint sha256 [ethernet IPv6loopback] := by
  refine ⟨⟨List.replicate 16 0, by decide, by decide⟩, by decide +kernel, ?_⟩
  intro sha256 hHash hEq
  exact hHash (Vector.toList_inj.mp (hexEncode_injective hEq))

end DnscryptProxy
