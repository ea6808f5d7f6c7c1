import DnscryptProxy.Dns64.Plugin

/-!
# Synthesised addresses and their prefix

`translateToIPv6` writes the four bytes of an IPv4 address behind the whole bytes of
the prefix, and leaves the byte in the middle of the address alone. It never writes
outside the address and never loses a byte of the IPv4 address. `Init` accepts every
network of up to 96 bits, though, also one whose length ends inside a byte, and an
IPv4 network. With the first, the byte in which the prefix ends is overwritten; the
second has no IPv6 address at all.

* `translateToIPv6_eq` — what is written where;
* `synthesis_in_prefix` — which of the accepted prefixes keep their addresses.
-/

namespace DnscryptProxy

open Base List PluginDNS64 Option Except

/-! ## What `translateToIPv6` writes -/

/-- `ipShift` after step `i`, for a prefix of `s` whole bytes. -/
def shiftAt (s i : Nat) : Nat := if s ≤ 8 ∧ 8 ≤ s + i then s + 1 else s

/-- Where byte `i` of the IPv4 address goes. -/
def hostIndex (s i : Nat) : Nat := shiftAt s i + i

theorem shiftAt_zero (s : Nat) : (if s + 0 = 8 then s + 1 else s) = shiftAt s 0 := by
  unfold shiftAt
  split <;> split <;> omega

theorem shiftAt_succ (s i : Nat) :
    (if shiftAt s i + (i + 1) = 8 then shiftAt s i + 1 else shiftAt s i) = shiftAt s (i + 1) := by
  unfold shiftAt
  split <;> split <;> split <;> omega

theorem hostIndex_lt {s i : Nat} (hs : s ≤ 12) (hi : i < 4) : hostIndex s i < 16 := by
  unfold hostIndex shiftAt
  split <;> omega

theorem le_hostIndex (s i : Nat) : s ≤ hostIndex s i := by
  unfold hostIndex shiftAt
  split <;> omega

theorem hostIndex_lt_hostIndex (s : Nat) {i j : Nat} (h : i < j) :
    hostIndex s i < hostIndex s j := by
  unfold hostIndex shiftAt
  split <;> split <;> omega

/-- The middle byte is left alone; otherwise the first byte goes right behind the
whole bytes of the prefix. -/
theorem hostIndex_zero (s : Nat) : hostIndex s 0 = if s = 8 then 9 else s := by
  unfold hostIndex shiftAt
  split <;> split <;> omega

theorem nodup_hostIndex (s : Nat) : ((range 4).map (hostIndex s)).Nodup := by
  refine nodup_range.map fun i j hEq => ?_
  rcases Nat.lt_trichotomy i j with hLt | hEq' | hLt
  · exact absurd hEq (ne_of_lt (hostIndex_lt_hostIndex s hLt))
  · exact hEq'
  · exact absurd hEq.symm (ne_of_lt (hostIndex_lt_hostIndex s hLt))

/-- The bytes of an address, with an IPv4 address behind `s` of them. -/
def embed (s : Nat) (base ipv4 : Bytes) : Bytes :=
  writes (hostIndex s) (ipv4.getD · 0) (range 4) base

theorem translateLoop_range {s : Nat} (hs : s ≤ 12) {ipv4 : Bytes} (h4 : ipv4.length = 4)
    (k : Nat) :
    ∀ (i ipShift : Nat) (ipv6 : Bytes), i + k ≤ 4 → ipv6.length = 16 →
      (if ipShift + i = 8 then ipShift + 1 else ipShift) = shiftAt s i →
      translateLoop ipv4 (range' i k) ipShift ipv6 =
        .ok (writes (hostIndex s) (ipv4.getD · 0) (range' i k) ipv6) := by
  -- one step at a time; the shift is the one that `shiftAt` says
  induction k with
  | zero => exact fun _ _ _ _ _ _ => rfl
  | succ k ih =>
    intro i ipShift ipv6 hi hLen hShift
    have hByte : ipv4[i]? = some (ipv4.getD i 0) := by
      rw [getD_eq_getElem?_getD, getElem?_eq_getElem (by omega), getD_some]
    have hPlace : shiftAt s i + i < ipv6.length := by
      rw [hLen]
      exact hostIndex_lt hs (by omega)
    rw [range'_succ, translateLoop, hShift, index_eq hByte, ok_bind, store_eq hPlace, ok_bind,
      ih (i + 1) _ _ (by omega) (by rw [length_set, hLen]) (shiftAt_succ s i)]
    rfl

theorem length_copyToIPv6 {ip : Bytes} (h : ip.length ≤ 16) : (copyToIPv6 ip).length = 16 := by
  rw [copyToIPv6, length_append, length_take, length_replicate]
  omega

theorem copyToIPv6_sixteen {ip : Bytes} (h : ip.length = 16) : copyToIPv6 ip = ip := by
  rw [copyToIPv6, h, take_of_length_le (by omega)]
  exact append_nil ip

theorem translateToIPv6_eq {pref : IPNet} {n : Nat} (hLen : pref.ip.length ≤ 16)
    (hMask : (maskSize pref.mask).1 = n) (hn : n ≤ 96) {ipv4 : Bytes} (h4 : ipv4.length = 4) :
    translateToIPv6 ipv4 pref = .ok (embed (n / 8) (copyToIPv6 pref.ip) ipv4) := by
  rw [translateToIPv6, hMask, range_eq_range']
  exact translateLoop_range (by omega) h4 4 0 _ _ (le_refl 4) (length_copyToIPv6 hLen)
    (shiftAt_zero _)

section Embed

variable {s : Nat} {base ipv4 : Bytes}

theorem length_embed : (embed s base ipv4).length = base.length := length_writes _ _

theorem getElem?_embed_host (ipv4 : Bytes) (hs : s ≤ 12) (hBase : base.length = 16) {i : Nat}
    (hi : i < 4) :
    (embed s base ipv4)[hostIndex s i]? = some (ipv4.getD i 0) :=
  getElem?_writes (nodup_hostIndex s) (mem_range.mpr hi) base
    (by rw [hBase]; exact hostIndex_lt hs hi)

theorem getElem?_embed_of_lt {j : Nat} (h : ∀ i < 4, hostIndex s i ≠ j) :
    (embed s base ipv4)[j]? = base[j]? :=
  getElem?_writes_of_not_mem (fun i hi => h i (mem_range.mp hi)) base

theorem take_embed : (embed s base ipv4).take s = base.take s := by
  refine ext_getElem? fun j => ?_
  rw [getElem?_take, getElem?_take]
  split
  · next hj =>
    refine getElem?_embed_of_lt fun i _ => ?_
    have := le_hostIndex s i
    omega
  · rfl

theorem embed_injective (hs : s ≤ 12) (hBase : base.length = 16) {a b : Bytes} (ha : a.length = 4)
    (hb : b.length = 4) (h : embed s base a = embed s base b) : a = b := by
  refine ext_getElem (ha.trans hb.symm) fun i hi hi' => ?_
  have hA := getElem?_embed_host a hs hBase (ha ▸ hi)
  rw [h, getElem?_embed_host b hs hBase (ha ▸ hi), some.injEq] at hA
  rw [getD_eq_getElem?_getD, getD_eq_getElem?_getD, getElem?_eq_getElem hi,
    getElem?_eq_getElem hi'] at hA
  exact hA.symm

end Embed

/-! ## Addresses in a prefix -/

/-- An address of the family of the prefix that begins with the bits of the prefix. -/
def Contained (pref : IPNet) (ip : Bytes) : Prop :=
  pref.ip.length = ip.length ∧
    (bitsOf ip).take (maskSize pref.mask).1 = (bitsOf pref.ip).take (maskSize pref.mask).1

/-- What synthesis is for: each IPv4 address gets its own address in the prefix. -/
structure StaysInPrefix (pref : IPNet) : Prop where
  contained : ∀ ipv4 : Bytes, ipv4.length = 4 →
    ∃ ipv6, translateToIPv6 ipv4 pref = .ok ipv6 ∧ Contained pref ipv6
  injective : ∀ a b : Bytes, a.length = 4 → b.length = 4 →
    translateToIPv6 a pref = translateToIPv6 b pref → a = b

/-- An IPv6 prefix of whole bytes, or one that ends in the byte which is left alone. -/
def EndsAtByte (pref : IPNet) : Prop :=
  pref.ip.length = 16 ∧ ((maskSize pref.mask).1 % 8 = 0 ∨ (maskSize pref.mask).1 / 8 = 8)

instance (pref : IPNet) (ip : Bytes) : Decidable (Contained pref ip) :=
  inferInstanceAs (Decidable (_ ∧ _))

instance (pref : IPNet) : Decidable (EndsAtByte pref) := inferInstanceAs (Decidable (_ ∧ _))

/-- Every byte has another one that begins with the other bit. -/
theorem take_byteBits_flip {r : Nat} (hr : 0 < r) (x : UInt8) :
    (byteBits (x ^^^ 128)).take r ≠ (byteBits x).take r := by
  obtain ⟨r, rfl⟩ := Nat.exists_eq_succ_of_ne_zero (Nat.pos_iff_ne_zero.mp hr)
  rw [byteBits_xor]
  intro h
  have hFirst := (cons.inj h).1
  have hNot : ∀ b : Bool, xor b true ≠ b := by decide
  exact hNot _ hFirst

/-- Where the prefix ends inside a byte, this byte decides. -/
theorem contained_embed_iff {ip : Bytes} (hIp : ip.length = 16) {s r : Nat} (hs : s ≤ 12)
    (hr : r < 8) (ipv4 : Bytes) {b : UInt8} (hb : ip[s]? = some b) :
    (bitsOf (embed s ip ipv4)).take (8 * s + r) = (bitsOf ip).take (8 * s + r) ↔
      s = 8 ∨ (byteBits (ipv4.getD 0 0)).take r = (byteBits b).take r := by
  by_cases hMiddle : s = 8
  · -- the byte is the one in the middle
    have hSame : (embed s ip ipv4)[s]? = some b := by
      rw [getElem?_embed_of_lt, hb]
      intro i hi
      have := hostIndex_zero s
      rw [if_pos hMiddle] at this
      rcases Nat.eq_zero_or_pos i with rfl | hPos
      · omega
      · have := hostIndex_lt_hostIndex s hPos
        omega
    rw [take_bitsOf_eq_iff hSame hb (le_of_lt hr)]
    exact ⟨fun _ => .inl hMiddle, fun _ => ⟨take_embed, rfl⟩⟩
  · have hFirst : (embed s ip ipv4)[s]? = some (ipv4.getD 0 0) := by
      have hHost := getElem?_embed_host ipv4 hs hIp (by decide : 0 < 4)
      rwa [hostIndex_zero, if_neg hMiddle] at hHost
    rw [take_bitsOf_eq_iff hFirst hb (le_of_lt hr)]
    exact ⟨fun h => .inr h.2, fun h => ⟨take_embed, h.resolve_left hMiddle⟩⟩

/-! ## The prefixes that `Init` accepts -/

/-- A network of at most 96 bits, of IPv4 or of IPv6. -/
def Accepted (pref : IPNet) : Prop := ∃ l n, (l = 4 ∨ l = 16) ∧ n ≤ 96 ∧ IsNetwork pref l n

theorem prefEnd_le (ipv6 : Bytes) : prefEnd ipv6 ≤ 12 := by
  unfold prefEnd
  split
  · next w hFind =>
    have hAll : ∀ w ∈ pref64Windows, w.2 ≤ 12 := by decide
    exact hAll w (mem_of_find?_eq_some hFind)
  · exact Nat.zero_le 12

theorem accepted_pref64Of {ipv6 : Bytes} {pref : IPNet} (h : pref64Of ipv6 = some pref) :
    Accepted pref := by
  have hEnd := prefEnd_le ipv6
  unfold pref64Of at h
  split at h
  · next hLen =>
    dsimp only at h
    split at h
    · obtain rfl := some.inj h
      refine ⟨16, 8 * prefEnd ipv6, .inr rfl, by omega, ⟨?_, by omega, rfl⟩⟩
      rw [length_append, length_take, length_replicate]
      omega
    · cases h
  · cases h

theorem accepted_fetchPref64 {plugin : PluginDNS64}
    (hPlugin : ∀ pref ∈ plugin.pref64, Accepted pref) (exchange : Exchange64) (resolver : Bytes) :
    ∀ pref ∈ (plugin.fetchPref64 exchange resolver).1.pref64, Accepted pref := by
  unfold fetchPref64
  split
  · exact hPlugin
  · exact hPlugin
  · split
    · exact hPlugin
    · dsimp only
      split
      · exact hPlugin
      · intro pref hMem
        have hFound := (distinctOn_sublist IPNet.string _ _).subset hMem
        obtain ⟨ipv6, -, hPref⟩ := mem_filterMap.mp hFound
        exact accepted_pref64Of hPref

theorem accepted_fetchFrom (exchange : Exchange64) (resolvers : List Bytes) :
    ∀ {plugin : PluginDNS64}, (∀ pref ∈ plugin.pref64, Accepted pref) →
      ∀ pref ∈ (plugin.fetchFrom exchange resolvers).pref64, Accepted pref := by
  induction resolvers with
  | nil => exact fun hPlugin => hPlugin
  | cons resolver resolvers ih =>
    intro plugin hPlugin
    have hFetch := accepted_fetchPref64 hPlugin exchange resolver
    rw [fetchFrom]
    split
    · next hEq =>
      rw [hEq] at hFetch
      exact hFetch
    · next hEq =>
      rw [hEq] at hFetch
      exact ih hFetch

theorem accepted_registerPrefixes (prefStrs : List Bytes) :
    ∀ {plugin : PluginDNS64}, (∀ pref ∈ plugin.pref64, Accepted pref) →
      ∀ pref ∈ (plugin.registerPrefixes prefStrs).1.pref64, Accepted pref := by
  induction prefStrs with
  | nil => exact fun hPlugin => hPlugin
  | cons prefStr prefStrs ih =>
    intro plugin hPlugin
    rw [registerPrefixes]
    split
    · exact hPlugin
    · next ip pref hParse =>
      split
      · exact hPlugin
      · next hSize =>
        refine ih fun pref' hMem => ?_
        rcases mem_append.mp hMem with hMem | hMem
        · exact hPlugin pref' hMem
        · obtain rfl := mem_singleton.mp hMem
          obtain ⟨l, n, hl, hNet⟩ := parseCIDR_some hParse
          rw [hNet.maskSize_eq] at hSize
          exact ⟨l, n, hl, not_lt.mp hSize, hNet⟩

theorem accepted_init (exchange : Exchange64) (proxy : Dns64Config) :
    ∀ pref ∈ (init exchange proxy).1.pref64, Accepted pref := by
  have hNone : ∀ pref ∈ ([] : List IPNet), Accepted pref := fun _ hMem => by cases hMem
  unfold init
  split
  · exact hNone
  · split
    · exact accepted_registerPrefixes _ hNone
    · split
      · unfold refreshPref64
        dsimp only
        split
        · exact accepted_fetchFrom exchange _ hNone
        · exact accepted_fetchFrom exchange _ hNone
      · exact hNone

/-- Synthesis in an IPv6 prefix stays there if the prefix ends at a byte. -/
theorem contained_embed {pref : IPNet} {n : Nat} (hNet : IsNetwork pref 16 n) (hn : n ≤ 96)
    (hEnds : EndsAtByte pref) (ipv4 : Bytes) : Contained pref (embed (n / 8) pref.ip ipv4) := by
  refine ⟨length_embed.symm, ?_⟩
  obtain ⟨b, hb⟩ : ∃ b, pref.ip[n / 8]? = some b :=
    ⟨_, getElem?_eq_getElem (by rw [hNet.ip_length]; omega)⟩
  have hPart := hEnds.2
  rw [hNet.maskSize_eq] at hPart ⊢
  have hIff := contained_embed_iff hNet.ip_length (by omega) (Nat.mod_lt n (by decide)) ipv4 hb
  rw [Nat.div_add_mod n 8] at hIff
  refine hIff.mpr (hPart.symm.imp_right fun hWhole => ?_)
  rw [hWhole, take_zero, take_zero]

/-- Otherwise an address that differs from the prefix in its first bit leaves it. -/
theorem endsAtByte_of_contained {pref : IPNet} {n : Nat} (hNet : IsNetwork pref 16 n) (hn : n ≤ 96)
    (h : ∀ ipv4 : Bytes, ipv4.length = 4 → Contained pref (embed (n / 8) pref.ip ipv4)) :
    EndsAtByte pref := by
  refine ⟨hNet.ip_length, ?_⟩
  obtain ⟨b, hb⟩ : ∃ b, pref.ip[n / 8]? = some b :=
    ⟨_, getElem?_eq_getElem (by rw [hNet.ip_length]; omega)⟩
  have hOther := (h [b ^^^ 128, 0, 0, 0] rfl).2
  rw [hNet.maskSize_eq] at hOther ⊢
  have hIff := contained_embed_iff hNet.ip_length (by omega) (Nat.mod_lt n (by decide))
    [b ^^^ 128, 0, 0, 0] hb
  rw [Nat.div_add_mod n 8] at hIff
  rcases hIff.mp hOther with hMiddle | hBits
  · exact .inr hMiddle
  · refine .inl (Nat.eq_zero_of_not_pos fun hPos => ?_)
    exact take_byteBits_flip hPos b hBits

/-- The accepted prefixes that keep their addresses: IPv6 prefixes of whole bytes, and
those which end in the byte that synthesis leaves alone. -/
theorem synthesis_in_prefix (exchange : Exchange64) (proxy : Dns64Config) (pref : IPNet)
    (hPref : pref ∈ (init exchange proxy).1.pref64) :
    StaysInPrefix pref ↔ EndsAtByte pref := by
  obtain ⟨l, n, hl, hn, hNet⟩ := accepted_init exchange proxy pref hPref
  have hLen : pref.ip.length ≤ 16 := by
    rw [hNet.ip_length]
    omega
  have hEq : ∀ {ipv4 : Bytes}, ipv4.length = 4 →
      translateToIPv6 ipv4 pref = .ok (embed (n / 8) (copyToIPv6 pref.ip) ipv4) :=
    fun h4 => translateToIPv6_eq hLen hNet.maskSize_eq hn h4
  constructor
  · intro hStays
    -- a synthesised address has 16 bytes, so the prefix has
    obtain ⟨ipv6, hOk, hSame, -⟩ := hStays.contained [0, 0, 0, 0] rfl
    obtain rfl := ok.inj ((hEq rfl).symm.trans hOk)
    have hSixteen : pref.ip.length = 16 := by
      rw [hSame, length_embed, length_copyToIPv6 hLen]
    obtain rfl : l = 16 := hNet.ip_length.symm.trans hSixteen
    refine endsAtByte_of_contained hNet hn fun ipv4 h4 => ?_
    obtain ⟨ipv6, hOk, hIn⟩ := hStays.contained ipv4 h4
    obtain rfl := ok.inj ((hEq h4).symm.trans hOk)
    rwa [copyToIPv6_sixteen hSixteen] at hIn
  · intro hEnds
    obtain rfl : l = 16 := hNet.ip_length.symm.trans hEnds.1
    refine ⟨fun ipv4 h4 => ⟨_, hEq h4, ?_⟩, fun a b ha hb hSame => ?_⟩
    · rw [copyToIPv6_sixteen hEnds.1]
      exact contained_embed hNet hn hEnds ipv4
    · rw [hEq ha, hEq hb] at hSame
      exact embed_injective (by omega) (length_copyToIPv6 hLen) ha hb (ok.inj hSame)

/-- A proxy with one configured prefix. -/
def onePrefix (prefStr : String) : Dns64Config where
  listenAddresses := [ascii "127.0.0.1:53"]
  dns64Prefixes := [ascii prefStr]
  dns64Resolvers := []

/-- No resolver answers. -/
def noAnswer : Exchange64 := fun _ => .error (.plain "timeout")

/-- The well-known prefix keeps its addresses. -/
theorem synthesis_in_prefix_wellKnown :
    StaysInPrefix ⟨[0, 0x64, 0xff, 0x9b, 0, 0, 0, 0, 0, 0, 0, 0, 0, 0, 0, 0], cidrMask 16 96⟩ := by
  let pref : IPNet := ⟨[0, 0x64, 0xff, 0x9b, 0, 0, 0, 0, 0, 0, 0, 0, 0, 0, 0, 0], cidrMask 16 96⟩
  have hIff := synthesis_in_prefix noAnswer (onePrefix "64:ff9b::/96") pref (by decide +kernel)
  exact hIff.mpr (by decide +kernel)

/-- A prefix of 36 bits is accepted, and loses its last four bits. -/
theorem synthesis_leaves_prefix :
    (init noAnswer (onePrefix "2001:db8:f000::/36")).1.pref64 =
        [⟨[0x20, 1, 0xd, 0xb8, 0xf0, 0, 0, 0, 0, 0, 0, 0, 0, 0, 0, 0], cidrMask 16 36⟩] ∧
      (init noAnswer (onePrefix "2001:db8:f000::/36")).2 = none ∧
      translateToIPv6 [192, 0, 2, 1]
          ⟨[0x20, 1, 0xd, 0xb8, 0xf0, 0, 0, 0, 0, 0, 0, 0, 0, 0, 0, 0], cidrMask 16 36⟩ =
        .ok [0x20, 1, 0xd, 0xb8, 192, 0, 2, 1, 0, 0, 0, 0, 0, 0, 0, 0] ∧
      ¬ Contained ⟨[0x20, 1, 0xd, 0xb8, 0xf0, 0, 0, 0, 0, 0, 0, 0, 0, 0, 0, 0], cidrMask 16 36⟩
        [0x20, 1, 0xd, 0xb8, 192, 0, 2, 1, 0, 0, 0, 0, 0, 0, 0, 0] :=
  ⟨by decide +kernel, by decide +kernel, rfl, by decide +kernel⟩

end DnscryptProxy
