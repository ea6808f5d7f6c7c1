import DnscryptProxy.Anon.Route
import DnscryptProxy.Base.BitPrefix
import DnscryptProxy.Base.IpText

/-!
# The farthest relay

`findFarthestRoute` for a DNSCrypt server: of the relays in the address family of
the server, one that shares the fewest leading bits with it. Addresses come from
stamps, where an IPv6 address stands in square brackets. `ExtractHostAndPort`
leaves the brackets in place, and `net.ParseIP` does not take them.

* `mem_bestRelays_iff` — the loop keeps the relays with the fewest bits;
* `farthest_relay` — a relay is found as it should be just when there is none to
  find, or the server has an IPv4 address and some relay is registered.
-/

namespace DnscryptProxy

open Base List

/-! ## Addresses in stamps -/

/-- The library with `net.ParseIP` itself. -/
def stdNet (net : NetLib) : NetLib := { net with parseIP := fun s => parseIP (utf8 s.toList) }

inductive AddrFamily where
  | ipv4
  | ipv6
deriving Repr, DecidableEq

/-- The number that decimal digits stand for. -/
def digitsValue (ds : List Char) : Nat :=
  ds.foldl (fun n c => 10 * n + (c.toNat - '0'.toNat)) 0

/-- The end of an address: nothing, or a port as `validatePort` of the stamp library
takes it. -/
inductive PortSuffix : List Char → Prop where
  | none : PortSuffix []
  | port {ds : List Char} : ds ≠ [] → (∀ c ∈ ds, c.isDigit = true) → digitsValue ds < 65536 →
      PortSuffix (':' :: ds)

/-- The address of a server or relay as the stamp library leaves it, its family, and
its 4 or 16 bytes. -/
inductive StampAddr : String → AddrFamily → Bytes → Prop where
  | ipv4 {host port : List Char} {ip : Bytes} : parseIPv4 (utf8 host) = some ip →
      PortSuffix port → StampAddr (String.ofList (host ++ port)) .ipv4 ip
  | ipv6 {host port : List Char} {ip : Bytes} : parseIPv6 (utf8 host) = some ip →
      PortSuffix port → StampAddr (String.ofList ('[' :: (host ++ ']' :: port))) .ipv6 ip

/-- A DNSCrypt relay at an address of this family. -/
def RelayAt (family : AddrFamily) (stamp : ServerStamp) (addr : Bytes) : Prop :=
  stamp.proto = .dnsCryptRelay ∧ StampAddr stamp.serverAddrStr family addr

/-- The leading bits that two addresses of a family share. -/
def sharedBits (a b : Bytes) : Nat := sharedPrefix (bitsOf a) (bitsOf b)

/-- What `findFarthestRoute` is for: a relay is found if the list has one in the
family of the server, and no other one shares fewer bits with the server. -/
structure FindsFarthest (family : AddrFamily) (serverAddr : Bytes) (relayStamps : List ServerStamp)
    (result : Option ServerStamp) : Prop where
  found : result.isSome = true ↔ ∃ stamp ∈ relayStamps, ∃ addr, RelayAt family stamp addr
  farthest : ∀ stamp, result = some stamp → stamp ∈ relayStamps ∧ ∃ addr,
    RelayAt family stamp addr ∧ ∀ other ∈ relayStamps, ∀ addr', RelayAt family other addr' →
      sharedBits serverAddr addr ≤ sharedBits serverAddr addr'

/-! ## Hosts and ports -/

theorem splitLastColon_append {host ds : List Char} (h : ':' ∉ ds) :
    splitLastColon (host ++ ':' :: ds) = some (host, ds) := by
  have hTake : ((host ++ ':' :: ds).reverse.takeWhile (· ≠ ':')).reverse = ds := by
    rw [reverse_append, reverse_cons, append_assoc, singleton_append,
      takeWhile_append_of_pos, takeWhile_cons_of_neg (by simp), append_nil,
      reverse_reverse]
    intro c hc
    rw [mem_reverse] at hc
    refine decide_eq_true ?_
    rintro rfl
    exact h hc
  unfold splitLastColon
  rw [hTake, length_append, length_cons, if_pos (by omega)]
  congr 2
  rw [show host.length + (ds.length + 1) - ds.length - 1 = host.length by omega, take_left]

theorem splitLastColon_of_not_mem {s : List Char} (h : ':' ∉ s) : splitLastColon s = none := by
  have hTake : s.reverse.takeWhile (· ≠ ':') = s.reverse := by
    refine takeWhile_eq_self_iff.mpr fun c hc => decide_eq_true ?_
    rintro rfl
    exact h (mem_reverse.mp hc)
  unfold splitLastColon
  rw [hTake, reverse_reverse, if_neg (lt_irrefl _)]

theorem splitLastColon_eq_some {s host after : List Char}
    (h : splitLastColon s = some (host, after)) : s = host ++ ':' :: after := by
  by_cases hColon : ':' ∈ s
  · obtain ⟨front, back, rfl, hBack⟩ := exists_last hColon
    rw [splitLastColon_append hBack] at h
    cases h
    rfl
  · rw [splitLastColon_of_not_mem hColon] at h
    cases h

theorem not_isDigit_colon : ':'.isDigit = false := by decide

theorem atoi_digits {ds : List Char} (hNe : ds ≠ []) (hDigits : ∀ c ∈ ds, c.isDigit = true)
    (hValue : digitsValue ds < 65536) : ∃ n, atoi ds = some n := by
  have hAny : ds.any (fun c => !c.isDigit) = false := by
    rw [any_eq_false]
    intro c hc
    rw [hDigits c hc]
    decide
  -- the sum over the integers is the one over the natural numbers
  have hCast : ∀ (l : List Char) (n : Nat),
      l.foldl (fun (n : Int) c => 10 * n + (c.toNat - '0'.toNat : Nat)) (n : Int) =
        ((l.foldl (fun n c => 10 * n + (c.toNat - '0'.toNat)) n : Nat) : Int) := by
    intro l
    induction l with
    | nil => exact fun _ => rfl
    | cons c l ih =>
      intro n
      rw [foldl_cons, foldl_cons, ← ih]
      congr 1
  obtain ⟨c, rest, rfl⟩ := exists_cons_of_ne_nil hNe
  have hc := hDigits c mem_cons_self
  refine ⟨(digitsValue (c :: rest) : Int), ?_⟩
  have hSign : ∀ d : Char, d.isDigit = false → c ≠ d := by
    rintro d hd rfl
    rw [hd] at hc
    cases hc
  have hMinus : c ≠ '-' := hSign '-' (by decide)
  have hPlus : c ≠ '+' := hSign '+' (by decide)
  unfold atoi
  split
  next negative digits hMatch =>
    split at hMatch
    · next h => exact absurd (cons.inj h).1 hMinus
    · next h => exact absurd (cons.inj h).1 hPlus
    · cases hMatch
      have hFold := hCast (c :: rest) 0
      rw [if_neg (by rw [hAny]; simp)]
      dsimp only
      rw [show ((0 : Nat) : Int) = 0 from rfl] at hFold
      rw [hFold, if_neg Bool.false_ne_true]
      refine if_pos ?_
      show -2 ^ 63 ≤ ((digitsValue (c :: rest) : Nat) : Int) ∧
        ((digitsValue (c :: rest) : Nat) : Int) < 2 ^ 63
      omega

/-- The host of a text without a colon, and of one that ends in a port. -/
theorem extractHostAndPort_of_portSuffix {host port : List Char} (hPort : PortSuffix port)
    (hHost : port = [] → ':' ∉ host) (d : Int) :
    (extractHostAndPort (String.ofList (host ++ port)) d).1 = String.ofList host := by
  unfold extractHostAndPort
  rw [String.toList_ofList]
  cases hPort with
  | none => rw [append_nil, splitLastColon_of_not_mem (hHost rfl)]
  | @port ds hNe hDigits hValue =>
    have hColon : ':' ∉ ds := by
      intro h
      have := hDigits _ h
      cases this
    obtain ⟨n, hn⟩ := atoi_digits hNe hDigits hValue
    rw [splitLastColon_append hColon]
    dsimp only
    rw [if_neg hNe, hn]

/-- The host begins as the text does, if that is not with a colon. -/
theorem extractHostAndPort_head {c : Char} (hc : c ≠ ':') (rest : List Char) (d : Int) :
    ∃ rest', (extractHostAndPort (String.ofList (c :: rest)) d).1 = String.ofList (c :: rest') := by
  unfold extractHostAndPort
  rw [String.toList_ofList]
  split
  · exact ⟨rest, rfl⟩
  · next host after hSplit =>
    split
    · exact ⟨rest, rfl⟩
    · split
      · exact ⟨rest, rfl⟩
      · have hCut := splitLastColon_eq_some hSplit
        cases host with
        | nil => exact absurd (cons.inj hCut).1 hc
        | cons first host => exact ⟨host, by rw [(cons.inj hCut).1]⟩

/-! ## What is parsed -/

section Parsed

/-- An ASCII character is in the bytes of a text that it is in. -/
theorem mem_utf8 {c : Char} {s : List Char} {b : UInt8} (hc : String.utf8EncodeChar c = [b])
    (h : c ∈ s) : b ∈ utf8 s := by
  refine mem_flatMap.mpr ⟨c, h, ?_⟩
  rw [hc]
  exact mem_singleton_self b

theorem StampAddr.length_ipv4 {s : String} {ip : Bytes} (h : StampAddr s .ipv4 ip) :
    ip.length = 4 := by
  cases h with
  | ipv4 hHost _ => exact (parseIPv4_some hHost).1

variable {net : NetLib}

/-- An IPv4 address of a stamp is parsed. -/
theorem parseIP_ipv4 {s : String} {ip : Bytes} (h : StampAddr s .ipv4 ip) (d : Int) :
    (stdNet net).parseIP (extractHostAndPort s d).1 = some (v4InV6 ++ ip) := by
  cases h with
  | @ipv4 host port _ hHost hPort =>
    have hColon : ':' ∉ host := by
      intro hMem
      have hByte := mem_utf8 (b := 58) (by decide) hMem
      rcases (parseIPv4_some hHost).2 58 hByte with h | h
      · cases h
      · cases h
    rw [extractHostAndPort_of_portSuffix hPort fun _ => hColon]
    show parseIP (utf8 (String.ofList host).toList) = _
    rw [String.toList_ofList, parseIP_of_parseIPv4 hHost]

/-- An IPv6 address of a stamp is not. -/
theorem parseIP_ipv6 {s : String} {ip : Bytes} (h : StampAddr s .ipv6 ip) (d : Int) :
    (stdNet net).parseIP (extractHostAndPort s d).1 = none := by
  cases h with
  | @ipv6 host port _ hHost hPort =>
    obtain ⟨rest, hRest⟩ := extractHostAndPort_head (c := '[') (by decide) (host ++ ']' :: port) d
    rw [hRest]
    show parseIP (utf8 (String.ofList ('[' :: rest)).toList) = none
    rw [String.toList_ofList]
    cases hParse : parseIP (utf8 ('[' :: rest)) with
    | none => rfl
    | some addr =>
      -- no address text has a bracket in it
      have hBracket := (parseIP_bytes hParse).2.2 91 (mem_utf8 (by decide) mem_cons_self)
      cases hBracket

end Parsed

/-! ## Shared bits -/

theorem leadingZeros8_eq (x : UInt8) :
    leadingZeros8 x = sharedPrefix (byteBits x) (replicate 8 false) := by
  have hAll : ∀ n < 256, leadingZeros8 (UInt8.ofNat n) =
      sharedPrefix (byteBits (UInt8.ofNat n)) (replicate 8 false) := by
    decide +kernel
  have := hAll x.toNat x.toNat_lt
  rwa [UInt8.ofNat_toNat] at this

/-- The loop over the bytes counts the bits that two addresses share. -/
theorem samePrefixBits_eq {as : Bytes} :
    ∀ {bs : Bytes}, as.length = bs.length → samePrefixBits as bs = sharedBits as bs := by
  unfold sharedBits
  induction as with
  | nil =>
    intro bs hLen
    cases bs with
    | nil => rfl
    | cons b bs => cases hLen
  | cons a as ih =>
    intro bs hLen
    cases bs with
    | nil => cases hLen
    | cons b bs =>
      rw [samePrefixBits, bitsOf_cons, bitsOf_cons]
      by_cases hSame : a = b
      · subst hSame
        rw [if_pos UInt8.xor_self, ih (Nat.succ.inj hLen), sharedPrefix_append_left]
        rfl
      · -- the first byte that differs ends the loop, and the shared front
        rw [if_neg (fun h => hSame (UInt8.xor_eq_zero_iff.mp h)), leadingZeros8_eq,
          ← sharedPrefix_byteBits]
        have hBits : byteBits a ≠ byteBits b := fun h => hSame (byteBits_injective h)
        have hLen := (length_byteBits a).trans (length_byteBits b).symm
        exact (sharedPrefix_append_of_ne hLen hBits _ _).symm

/-! ## The loop over the relays -/

/-- A running minimum is one of the numbers, and none is smaller. -/
theorem foldl_min_spec (l : List Nat) (a : Nat) :
    l.foldl min a ∈ a :: l ∧ ∀ b ∈ a :: l, l.foldl min a ≤ b :=
  min?_eq_some_iff.mp min?_cons'

section Loop

variable {net : NetLib} {serverAddr : Bytes}

/-- The fewest bits of these relays, or `bits` if none has fewer. -/
def fewestBits (net : NetLib) (serverAddr : Bytes) (relayStamps : List ServerStamp) (bits : Nat) :
    Nat :=
  (relayStamps.filterMap (relayDistance net serverAddr)).foldl min bits

theorem mem_bestRelays_iff {stamp : ServerStamp} {relayStamps : List ServerStamp} :
    ∀ {bits : Nat} {best : List ServerStamp},
      stamp ∈ bestRelays net serverAddr relayStamps bits best ↔
        (stamp ∈ best ∧ fewestBits net serverAddr relayStamps bits = bits) ∨
          (stamp ∈ relayStamps ∧ relayDistance net serverAddr stamp =
            some (fewestBits net serverAddr relayStamps bits)) := by
  induction relayStamps with
  | nil =>
    intro bits best
    simp [bestRelays, fewestBits]
  | cons head rest ih =>
    intro bits best
    unfold bestRelays
    cases hHead : relayDistance net serverAddr head with
    | none =>
      have hFewest : fewestBits net serverAddr (head :: rest) bits =
          fewestBits net serverAddr rest bits := by
        rw [fewestBits, filterMap_cons_none hHead, fewestBits]
      rw [ih, hFewest, mem_cons]
      refine or_congr_right (and_congr_left fun hDist => ?_)
      refine ⟨.inr, fun h => h.resolve_left ?_⟩
      rintro rfl
      rw [hHead] at hDist
      cases hDist
    | some b =>
      have hFewest : fewestBits net serverAddr (head :: rest) bits =
          fewestBits net serverAddr rest (min bits b) := by
        rw [fewestBits, filterMap_cons_some hHead, foldl_cons, fewestBits]
      have hLe : fewestBits net serverAddr rest (min bits b) ≤ min bits b :=
        (foldl_min_spec _ _).2 _ mem_cons_self
      -- whether `stamp` is the relay looked at now or a later one
      have hSplit : (stamp ∈ head :: rest ∧ relayDistance net serverAddr stamp =
            some (fewestBits net serverAddr (head :: rest) bits)) ↔
          (stamp = head ∧ fewestBits net serverAddr rest (min bits b) = b) ∨
            (stamp ∈ rest ∧ relayDistance net serverAddr stamp =
              some (fewestBits net serverAddr rest (min bits b))) := by
        rw [hFewest, mem_cons, or_and_right]
        refine or_congr_left (and_congr_right ?_)
        rintro rfl
        rw [hHead, Option.some.injEq, eq_comm]
      dsimp only
      rw [hSplit, hFewest]
      rcases Nat.lt_trichotomy b bits with hLt | rfl | hLt
      · rw [min_eq_right (le_of_lt hLt)] at hLe ⊢
        rw [if_pos hLt, ih, mem_singleton]
        refine ⟨.inr, fun h => h.resolve_left fun hOld => ?_⟩
        omega
      · rw [min_self] at hLe ⊢
        rw [if_neg (lt_irrefl b), if_pos rfl, ih, mem_append, mem_singleton,
          or_and_right, or_assoc]
      · rw [min_eq_left (le_of_lt hLt)] at hLe ⊢
        rw [if_neg (Nat.lt_asymm hLt), if_neg (Nat.ne_of_gt hLt), ih]
        refine or_congr_right ⟨.inr, fun h => h.resolve_left fun hHere => ?_⟩
        omega

end Loop

theorem pickOne_isSome {α : Type*} (draw : Nat) (l : List α) :
    (pickOne draw l).isSome = true ↔ l ≠ [] := by
  unfold pickOne
  cases l with
  | nil => simp
  | cons a l =>
    have hPos : 0 < (a :: l).length := length_pos_of_ne_nil (cons_ne_nil a l)
    rw [getElem?_eq_getElem (Nat.mod_lt draw hPos)]
    simp

/-! ## The farthest one -/

section Farthest

variable {net : NetLib} {serverAddr : Bytes}

/-- The distance of an IPv4 relay to an IPv4 server. -/
theorem relayDistance_ipv4 {stamp : ServerStamp} {addr : Bytes} (hServer : serverAddr.length = 4)
    (h : RelayAt .ipv4 stamp addr) :
    relayDistance (stdNet net) (v4InV6 ++ serverAddr) stamp =
      some (sharedBits serverAddr addr) := by
  have hLen := h.2.length_ipv4
  have hFour : ∀ ip : Bytes, ip.length = 4 → ipTo4 (v4InV6 ++ ip) = some ip := by
    intro ip hIp
    match ip, hIp with
    | [a, b, c, d], _ => rfl
  unfold relayDistance
  rw [if_neg (not_not.mpr h.1), parseIP_ipv4 h.2]
  dsimp only
  rw [hFour addr hLen, hFour serverAddr hServer, if_neg (by simp), Option.isNone_some,
    if_neg Bool.false_ne_true, show ∀ ip : Bytes, (v4InV6 ++ ip).drop 12 = ip from fun _ => rfl,
    show ∀ ip : Bytes, (v4InV6 ++ ip).drop 12 = ip from fun _ => rfl,
    samePrefixBits_eq (hServer.trans hLen.symm)]

/-- Only relays with IPv4 addresses are considered. -/
theorem relayAt_of_relayDistance {serverAddr : Bytes} {stamp : ServerStamp} {bits : Nat}
    (hForm : stamp.proto = .dnsCryptRelay →
      ∃ family addr, StampAddr stamp.serverAddrStr family addr)
    (h : relayDistance (stdNet net) serverAddr stamp = some bits) :
    ∃ addr, RelayAt .ipv4 stamp addr := by
  unfold relayDistance at h
  split at h
  · cases h
  · next hProto =>
    have hRelay := not_not.mp hProto
    obtain ⟨family, addr, hAddr⟩ := hForm hRelay
    cases family with
    | ipv4 => exact ⟨addr, hRelay, hAddr⟩
    | ipv6 =>
      rw [parseIP_ipv6 hAddr] at h
      cases h

variable {cfg : AnonConfig} {draw : Nat} {name : String} {server : RegisteredServer}
  {relayStamps : List ServerStamp} {family : AddrFamily}

/-- For a DNSCrypt server with an IPv4 address. -/
theorem findsFarthest_ipv4 (hServer : serverAddr.length = 4)
    (hForm : ∀ stamp ∈ relayStamps, stamp.proto = .dnsCryptRelay →
      ∃ family addr, StampAddr stamp.serverAddrStr family addr) :
    FindsFarthest .ipv4 serverAddr relayStamps
      (pickOne draw (bestRelays (stdNet net) (v4InV6 ++ serverAddr) relayStamps 128 [])) := by
  let fewest := fewestBits (stdNet net) (v4InV6 ++ serverAddr) relayStamps 128
  let distance := relayDistance (stdNet net) (v4InV6 ++ serverAddr)
  have hMem : ∀ {stamp : ServerStamp},
      stamp ∈ bestRelays (stdNet net) (v4InV6 ++ serverAddr) relayStamps 128 [] ↔
        stamp ∈ relayStamps ∧ distance stamp = some fewest := by
    intro stamp
    rw [mem_bestRelays_iff]
    exact or_iff_right fun h => absurd h.1 not_mem_nil
  have hFewest : ∀ {stamp : ServerStamp} {addr : Bytes}, stamp ∈ relayStamps →
      RelayAt .ipv4 stamp addr → fewest ≤ sharedBits serverAddr addr := by
    intro stamp addr hStamp hAt
    refine (foldl_min_spec _ 128).2 _ (mem_cons_of_mem 128 ?_)
    exact mem_filterMap.mpr ⟨stamp, hStamp, relayDistance_ipv4 hServer hAt⟩
  constructor
  · rw [pickOne_isSome]
    constructor
    · intro hNe
      obtain ⟨stamp, hBest⟩ := exists_mem_of_ne_nil _ hNe
      obtain ⟨hStamp, hDist⟩ := hMem.mp hBest
      exact ⟨stamp, hStamp, relayAt_of_relayDistance (hForm stamp hStamp) hDist⟩
    · rintro ⟨stamp, hStamp, addr, hAt⟩
      -- the fewest bits are those of some relay, since 32 are below the bound of the start
      have hSmall : sharedBits serverAddr addr ≤ 32 := by
        have := sharedPrefix_le (bitsOf serverAddr) (bitsOf addr)
        rwa [length_bitsOf, hServer] at this
      have hReached : fewest ∈ relayStamps.filterMap distance := by
        rcases mem_cons.mp (foldl_min_spec (relayStamps.filterMap distance) 128).1 with
          hStart | hMem
        · have := hFewest hStamp hAt
          rw [show fewest = 128 from hStart] at this
          omega
        · exact hMem
      obtain ⟨best, hBest, hDist⟩ := mem_filterMap.mp hReached
      exact ne_nil_of_mem (hMem.mpr ⟨hBest, hDist⟩)
  · intro stamp hPicked
    obtain ⟨hStamp, hDist⟩ := hMem.mp (mem_of_pickOne hPicked)
    obtain ⟨addr, hAt⟩ := relayAt_of_relayDistance (hForm stamp hStamp) hDist
    refine ⟨hStamp, addr, hAt, fun other hOther addr' hAt' => ?_⟩
    rw [Option.some.inj ((relayDistance_ipv4 hServer hAt).symm.trans hDist)]
    exact hFewest hOther hAt'

/-- A relay is found as it should be just when there is none in the family of the
server, or the server has an IPv4 address and some relay is registered. -/
theorem farthest_relay (net : NetLib)
    (hServer : cfg.registeredServers.find? (fun s => decide (s.name = name)) = some server)
    (hProto : server.stamp.proto = .dnsCrypt)
    (hAddr : StampAddr server.stamp.serverAddrStr family serverAddr)
    (hForm : ∀ stamp ∈ relayStamps, stamp.proto = .dnsCryptRelay →
      ∃ family addr, StampAddr stamp.serverAddrStr family addr) :
    FindsFarthest family serverAddr relayStamps
        (findFarthestRoute (stdNet net) cfg draw name relayStamps) ↔
      (∀ stamp ∈ relayStamps, ∀ addr, ¬RelayAt family stamp addr) ∨
        (family = .ipv4 ∧ cfg.registeredRelays ≠ []) := by
  -- without a result, the list must not have had any
  have hNone : FindsFarthest family serverAddr relayStamps none ↔
      ∀ stamp ∈ relayStamps, ∀ addr, ¬RelayAt family stamp addr := by
    constructor
    · intro h stamp hStamp addr hAt
      cases h.found.mpr ⟨stamp, hStamp, addr, hAt⟩
    · intro h
      refine ⟨⟨fun hSome => ?_, ?_⟩, fun _ hSome => ?_⟩
      · cases hSome
      · rintro ⟨stamp, hStamp, addr, hAt⟩
        exact absurd hAt (h stamp hStamp addr)
      · cases hSome
  unfold findFarthestRoute
  rw [hServer]
  dsimp only
  rw [if_neg (by rw [hProto]; decide), if_neg (not_not.mpr hProto)]
  cases family with
  | ipv6 =>
    rw [parseIP_ipv6 hAddr]
    rw [hNone]
    exact ⟨.inl, fun h => h.resolve_right fun hFamily => by cases hFamily.1⟩
  | ipv4 =>
    rw [parseIP_ipv4 hAddr]
    dsimp only
    by_cases hRelays : cfg.registeredRelays = []
    · rw [if_pos hRelays, hNone]
      exact ⟨.inl, fun h => h.resolve_right fun hFamily => hFamily.2 hRelays⟩
    · rw [if_neg hRelays]
      exact iff_of_true (findsFarthest_ipv4 hAddr.length_ipv4 hForm) (.inr ⟨rfl, hRelays⟩)

end Farthest

/-! ## Two servers -/

/-- A library that resolves nothing. -/
def noNet : NetLib where
  newServerStampFromString _ := .error (.plain "no stamp")
  stampString _ := ""
  parseIP _ := none
  resolveUDPAddr _ := .error (.plain "no address")
  resolveTCPAddr _ := .error (.plain "no address")
  relayBaseURL _ := .error (.plain "no relay")
  withTarget url _ := url

def stampAt (proto : StampProto) (addr : String) : ServerStamp :=
  { proto, serverAddrStr := addr, serverPk := [], providerName := "", path := "" }

/-- A server and a relay at these addresses. -/
def serverAndRelay (server relay : String) : AnonConfig where
  routes := none
  skipAnonIncompatibleResolvers := false
  anonDirectCertFallback := false
  serversBlockingFragments := []
  registeredServers := [{ name := "server", stamp := stampAt .dnsCrypt server }]
  registeredRelays := [{ name := "relay", stamp := stampAt .dnsCryptRelay relay }]

theorem portSuffix_443 : PortSuffix (':' :: "443".toList) :=
  .port (by decide) (all_eq_true.mp (by decide)) (by decide)

theorem stampAddr_ipv4 (host : List Char) {ip : Bytes} (h : parseIPv4 (utf8 host) = some ip) :
    StampAddr (String.ofList (host ++ ":443".toList)) .ipv4 ip :=
  .ipv4 h portSuffix_443

theorem stampAddr_ipv6 (host : List Char) {ip : Bytes} (h : parseIPv6 (utf8 host) = some ip) :
    StampAddr (String.ofList ('[' :: (host ++ "]:443".toList))) .ipv6 ip :=
  .ipv6 h portSuffix_443

/-- Of a relay in its own network and one in another, an IPv4 server gets the latter. -/
theorem farthest_relay_ipv4 :
    let relayStamps := [stampAt .dnsCryptRelay "192.0.2.9:443",
      stampAt .dnsCryptRelay "198.51.100.1:443"]
    let picked := findFarthestRoute (stdNet noNet)
      (serverAndRelay "192.0.2.1:443" "198.51.100.1:443") 0 "server" relayStamps
    picked = some (stampAt .dnsCryptRelay "198.51.100.1:443") ∧
      FindsFarthest .ipv4 [192, 0, 2, 1] relayStamps picked := by
  have hServer : (serverAndRelay "192.0.2.1:443" "198.51.100.1:443").registeredServers.find?
      (fun s => decide (s.name = "server")) =
        some ⟨"server", stampAt .dnsCrypt "192.0.2.1:443"⟩ := by
    decide
  have hAddr := stampAddr_ipv4 "192.0.2.1".toList (show parseIPv4 _ = some [192, 0, 2, 1] by decide)
  intro relayStamps picked
  refine ⟨by decide +kernel, (farthest_relay noNet hServer rfl hAddr ?_).mpr
    (.inr ⟨rfl, cons_ne_nil _ _⟩)⟩
  refine forall_mem_cons.mpr ⟨fun _ => ?_, forall_mem_singleton.mpr fun _ => ?_⟩
  · exact ⟨_, _, stampAddr_ipv4 "192.0.2.9".toList
      (show parseIPv4 _ = some [192, 0, 2, 9] by decide)⟩
  · exact ⟨_, _, stampAddr_ipv4 "198.51.100.1".toList
      (show parseIPv4 _ = some [198, 51, 100, 1] by decide)⟩

/-- An IPv6 server gets none, though the list has an IPv6 relay. -/
theorem ipv6_server_without_relay :
    findFarthestRoute (stdNet noNet)
        (serverAndRelay "[2001:db8::1]:443" "[2001:db8:1::1]:443") 0 "server"
        [stampAt .dnsCryptRelay "[2001:db8:1::1]:443"] = none ∧
      RelayAt .ipv6 (stampAt .dnsCryptRelay "[2001:db8:1::1]:443")
        [0x20, 1, 0xd, 0xb8, 0, 1, 0, 0, 0, 0, 0, 0, 0, 0, 0, 1] ∧
      StampAddr "[2001:db8::1]:443" .ipv6
        [0x20, 1, 0xd, 0xb8, 0, 0, 0, 0, 0, 0, 0, 0, 0, 0, 0, 1] ∧
      ¬FindsFarthest .ipv6 [0x20, 1, 0xd, 0xb8, 0, 0, 0, 0, 0, 0, 0, 0, 0, 0, 0, 1]
        [stampAt .dnsCryptRelay "[2001:db8:1::1]:443"]
        (findFarthestRoute (stdNet noNet)
          (serverAndRelay "[2001:db8::1]:443" "[2001:db8:1::1]:443") 0 "server"
          [stampAt .dnsCryptRelay "[2001:db8:1::1]:443"]) := by
  refine ⟨by decide +kernel, ?relay, stampAddr_ipv6 "2001:db8::1".toList (by decide +kernel),
    fun h => nomatch h.found.mpr ⟨_, mem_singleton_self _, _, ?relay⟩⟩
  exact ⟨rfl, stampAddr_ipv6 "2001:db8:1::1".toList (by decide +kernel)⟩

end DnscryptProxy
