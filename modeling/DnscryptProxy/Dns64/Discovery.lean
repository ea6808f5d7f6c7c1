import DnscryptProxy.Dns64.Synthesis

/-!
# Prefixes found from synthesised addresses

A resolver with DNS64 answers the query for the well-known name with the well-known
addresses embedded in its prefixes, and `fetchPref64` looks for them at six places. It
tries longer prefixes first, so a place that is tried too early begins behind the
first byte of the embedded address. Only zeros and the last byte of the address follow
there, so that no such place holds a well-known address, whatever the prefix is.

* `pref64Of_embed` — the prefix of an address is found again;
* `string_injective_rfc6052` — prefixes with one text are the same;
* `discovery_inverts_synthesis` — what `fetchPref64` stores.
-/

namespace DnscryptProxy

open Base List

/-- A prefix of one of the lengths of RFC 6052, without bits behind it. -/
structure Rfc6052 (pref : IPNet) (n : Nat) : Prop extends IsNetwork pref 16 n where
  length_mem : n ∈ [32, 40, 48, 56, 64, 96]
  host_zero : ∀ b ∈ pref.ip.drop (n / 8), b = 0

/-- The well-known addresses of RFC 7050. -/
def wellKnown : List Bytes := [rfc7050WKA1, rfc7050WKA2]

/-- The lengths in bytes, in the order of the tests. -/
def pref64Ends : List Nat := [12, 8, 7, 6, 5, 4]

/-- Each test reads the bytes that synthesis writes for its length. -/
theorem pref64Windows_eq :
    pref64Windows = pref64Ends.map fun s => ((range 4).map (hostIndex s), s) := by
  decide

namespace Rfc6052

variable {pref : IPNet} {n : Nat}

theorem div_mem (h : Rfc6052 pref n) : n / 8 ∈ pref64Ends ∧ n = 8 * (n / 8) := by
  have hAll : ∀ n ∈ [32, 40, 48, 56, 64, 96], n / 8 ∈ pref64Ends ∧ n = 8 * (n / 8) := by decide
  exact hAll n h.length_mem

theorem le (h : Rfc6052 pref n) : n ≤ 96 := by
  have hAll : ∀ n ∈ [32, 40, 48, 56, 64, 96], n ≤ 96 := by decide
  exact hAll n h.length_mem

theorem ip_eq (h : Rfc6052 pref n) :
    pref.ip = pref.ip.take (n / 8) ++ replicate (16 - n / 8) 0 := by
  have hZeros : pref.ip.drop (n / 8) = replicate (16 - n / 8) 0 := by
    refine eq_replicate_iff.mpr ⟨?_, h.host_zero⟩
    rw [length_drop, h.ip_length]
  rw [← hZeros, take_append_drop]

theorem ip_zero (h : Rfc6052 pref n) {j : Nat} {b : UInt8} (hj : n / 8 ≤ j)
    (hb : pref.ip[j]? = some b) : b = 0 := by
  refine h.host_zero b (mem_of_getElem? (i := j - n / 8) ?_)
  rw [getElem?_drop, Nat.add_sub_cancel' hj, hb]

end Rfc6052

/-! ## One address -/

section Windows

variable {s : Nat} {base wka : Bytes}

theorem window_embed (hs : s ≤ 12) (hBase : base.length = 16) (hWka : wka.length = 4) :
    ((range 4).map (hostIndex s)).map ((embed s base wka).getD · 0) = wka := by
  rw [map_map]
  refine ext_getElem (by rw [length_map, length_range, hWka]) fun i hi hi' => ?_
  have hHost := getElem?_embed_host wka hs hBase (hWka ▸ hi')
  rw [getElem_map, getElem_range, Function.comp_apply, getD_eq_getElem?_getD, hHost,
    Option.getD_some, getD_eq_getElem?_getD, getElem?_eq_getElem hi', Option.getD_some]

/-- Behind the first byte of a well-known address, no byte is its first byte. -/
theorem embed_behind (hBase : base.length = 16) (hs : s ≤ 12)
    (hZero : ∀ j b, s ≤ j → base[j]? = some b → b = 0) (hWka : wka ∈ wellKnown) {j : Nat}
    (hj : hostIndex s 0 < j) : (embed s base wka).getD j 0 ≠ 192 := by
  rw [getD_eq_getElem?_getD]
  by_cases hHost : ∃ i < 4, hostIndex s i = j
  · obtain ⟨i, hi, rfl⟩ := hHost
    rw [getElem?_embed_host wka hs hBase hi, Option.getD_some]
    have hPos : i ≠ 0 := by
      rintro rfl
      exact lt_irrefl _ hj
    have hAll : ∀ wka ∈ wellKnown, ∀ i < 4, i ≠ 0 → wka.getD i 0 ≠ 192 := by decide
    exact hAll wka hWka i hi hPos
  · rw [getElem?_embed_of_lt fun i hi hEq => hHost ⟨i, hi, hEq⟩]
    cases hGet : base[j]? with
    | none => decide
    | some b =>
      have hLe := le_hostIndex s 0
      rw [hZero j b (by omega) hGet]
      decide

theorem isWKA_embed (hs : s ≤ 12) (hBase : base.length = 16) (hWka : wka ∈ wellKnown) :
    isWKA (embed s base wka) ((range 4).map (hostIndex s)) = true := by
  have hLen : ∀ wka ∈ wellKnown, wka.length = 4 := by decide
  rw [isWKA, window_embed hs hBase (hLen wka hWka)]
  simpa [wellKnown] using hWka

/-- A longer prefix is not found by accident. -/
theorem not_isWKA_embed (hBase : base.length = 16) (hs : s ≤ 12)
    (hZero : ∀ j b, s ≤ j → base[j]? = some b → b = 0) (hWka : wka ∈ wellKnown) {s' : Nat}
    (hLonger : hostIndex s 0 < hostIndex s' 0) :
    isWKA (embed s base wka) ((range 4).map (hostIndex s')) = false := by
  have hFirst := embed_behind hBase hs hZero hWka hLonger
  rw [isWKA, decide_eq_false_iff_not]
  rintro (hEq | hEq)
  · exact hFirst (cons.inj hEq).1
  · exact hFirst (cons.inj hEq).1

end Windows

variable {pref : IPNet} {n : Nat}

/-- The lengths that are tried before a length are longer. -/
theorem pref64Ends_before : ∀ s ∈ pref64Ends, ∃ before after,
    pref64Ends = before ++ s :: after ∧ ∀ s' ∈ before, hostIndex s 0 < hostIndex s' 0 := by
  intro s hs
  obtain ⟨before, after, hEq, hNot⟩ := eq_append_cons_of_mem hs
  refine ⟨before, after, hEq, fun s' hs' => ?_⟩
  have hSorted : pref64Ends.Pairwise fun s' s => hostIndex s 0 < hostIndex s' 0 := by decide
  rw [hEq, pairwise_append] at hSorted
  exact hSorted.2.2 s' hs' s mem_cons_self

theorem prefEnd_embed (h : Rfc6052 pref n) {wka : Bytes}
    (hWka : wka ∈ wellKnown) : prefEnd (embed (n / 8) pref.ip wka) = n / 8 := by
  have hs : n / 8 ≤ 12 := by
    have := h.le
    omega
  obtain ⟨before, after, hEq, hBefore⟩ := pref64Ends_before _ h.div_mem.1
  have hFind : (pref64Windows.find? fun w => isWKA (embed (n / 8) pref.ip wka) w.1) =
      some ((range 4).map (hostIndex (n / 8)), n / 8) := by
    rw [find?_eq_some_iff_append]
    let window := fun s => ((range 4).map (hostIndex s), s)
    refine ⟨isWKA_embed hs h.ip_length hWka, before.map window, after.map window, ?_, ?_⟩
    · rw [pref64Windows_eq, hEq, map_append, map_cons]
    · intro w hw
      obtain ⟨s', hs', rfl⟩ := mem_map.mp hw
      rw [not_isWKA_embed h.ip_length hs (fun j b => h.ip_zero) hWka (hBefore s' hs')]
      rfl
  rw [prefEnd, hFind]

theorem pref64Of_embed (h : Rfc6052 pref n) {wka : Bytes}
    (hWka : wka ∈ wellKnown) : pref64Of (embed (n / 8) pref.ip wka) = some pref := by
  have hPos : 0 < n / 8 := by
    have hAll : ∀ s ∈ pref64Ends, 0 < s := by decide
    exact hAll _ h.div_mem.1
  rw [pref64Of, if_pos (length_embed.trans h.ip_length)]
  rw [prefEnd_embed h hWka, if_pos hPos, take_embed, ← h.ip_eq, ← h.div_mem.2, ← h.mask_eq]

theorem translateToIPv6_rfc6052 (h : Rfc6052 pref n) {ipv4 : Bytes}
    (h4 : ipv4.length = 4) : translateToIPv6 ipv4 pref = .ok (embed (n / 8) pref.ip ipv4) := by
  rw [translateToIPv6_eq (le_of_eq h.ip_length) h.maskSize_eq h.le h4,
    copyToIPv6_sixteen h.ip_length]

/-! ## Several addresses -/

/-- Only the longest prefix can be the front of the mapped IPv4 addresses. -/
theorem Rfc6052.mapped (h : Rfc6052 pref n) {v4 : Bytes}
    (hMapped : unmap pref.ip = some v4) : n = 96 := by
  have hIp := unmap_eq_some hMapped
  by_contra hNot
  have hAll : ∀ n ∈ [32, 40, 48, 56, 64, 96], n ≠ 96 → n / 8 ≤ 11 := by decide
  have hByte : pref.ip[11]? = some 255 := by
    rw [hIp]
    rfl
  cases h.ip_zero (hAll n h.length_mem hNot) hByte

theorem string_injective_rfc6052 {a b : IPNet} {n m : Nat} (ha : Rfc6052 a n) (hb : Rfc6052 b m)
    (h : a.string = b.string) : a = b := by
  obtain ⟨hIp, hLen⟩ := string_injective ha.toIsNetwork hb.toIsNetwork h
  have hSame : n = m := by
    cases hUnmap : unmap a.ip with
    | none => exact hLen hUnmap
    | some v4 => rw [ha.mapped hUnmap, hb.mapped (hIp ▸ hUnmap)]
  exact IPNet.ext hIp (by rw [ha.mask_eq, hb.mask_eq, hSame])

/-- An address of an answer: a well-known address in one of the prefixes. -/
def SynthesizedFrom (item : IPNet × Bytes) (addr : Bytes) : Prop :=
  (∃ n, Rfc6052 item.1 n) ∧ item.2 ∈ wellKnown ∧ translateToIPv6 item.2 item.1 = .ok addr

theorem pref64Of_synthesized {item : IPNet × Bytes} {addr : Bytes} (h : SynthesizedFrom item addr) :
    pref64Of addr = some item.1 := by
  obtain ⟨⟨n, hPref⟩, hWka, hOk⟩ := h
  have hLen : ∀ wka ∈ wellKnown, wka.length = 4 := by decide
  rw [translateToIPv6_rfc6052 hPref (hLen _ hWka)] at hOk
  rw [← Except.ok.inj hOk, pref64Of_embed hPref hWka]

theorem filterMap_synthesized {items : List (IPNet × Bytes)} {addrs : List Bytes}
    (h : List.Forall₂ SynthesizedFrom items addrs) :
    addrs.filterMap pref64Of = items.map Prod.fst := by
  induction h with
  | nil => rfl
  | cons hItem _ ih =>
    rw [filterMap_cons_some (pref64Of_synthesized hItem), ih, map_cons]

/-- Answers that are synthesised give the distinct ones of their prefixes, in
order of first appearance. -/
theorem pref64Answers_eq {items : List (IPNet × Bytes)} {answers : List RR}
    (h : List.Forall₂ SynthesizedFrom items (answers.filterMap RR.aaaaAddr)) :
    pref64Answers answers = (items.map Prod.fst).eraseDups := by
  have hRfc : ∀ pref ∈ items.map Prod.fst, ∃ n, Rfc6052 pref n := by
    intro pref hMem
    obtain ⟨item, hItem, rfl⟩ := mem_map.mp hMem
    exact ((forall₂_and_left (p := fun item => ∃ n, Rfc6052 item.1 n) _ _).mp h).1 item hItem
  rw [pref64Answers, filterMap_synthesized h]
  refine distinctOn_eq_eraseDups fun a ha b hb hEq => ?_
  obtain ⟨n, ha⟩ := hRfc a ha
  obtain ⟨m, hb⟩ := hRfc b hb
  exact string_injective_rfc6052 ha hb hEq

/-- Discovery inverts synthesis: the prefix of each synthesised well-known address is found
again, and from such answers the distinct prefixes are stored, in order. -/
theorem discovery_inverts_synthesis :
    (∀ (pref : IPNet) (n : Nat) (wka : Bytes), Rfc6052 pref n → wka ∈ wellKnown →
      ∃ addr, translateToIPv6 wka pref = .ok addr ∧ pref64Of addr = some pref) ∧
    ∀ (plugin : PluginDNS64) (exchange : Exchange64) (resolver : Bytes) (resp : Msg)
      (items : List (IPNet × Bytes)), exchange resolver = .ok (some resp) →
      resp.rcode = RcodeSuccess → items ≠ [] →
      List.Forall₂ SynthesizedFrom items (resp.answer.filterMap RR.aaaaAddr) →
      plugin.fetchPref64 exchange resolver =
        ({ plugin with pref64 := (items.map Prod.fst).eraseDups }, none) := by
  constructor
  · intro pref n wka hPref hWka
    have hLen : ∀ wka ∈ wellKnown, wka.length = 4 := by decide
    exact ⟨_, translateToIPv6_rfc6052 hPref (hLen wka hWka), pref64Of_embed hPref hWka⟩
  · intro plugin exchange resolver resp items hResp hRcode hNe hItems
    have hSome : (items.map Prod.fst).eraseDups ≠ [] := by
      obtain ⟨item, items, rfl⟩ := exists_cons_of_ne_nil hNe
      rw [map_cons, eraseDups_cons]
      exact cons_ne_nil _ _
    rw [PluginDNS64.fetchPref64, hResp]
    dsimp only
    rw [if_neg (not_not.mpr hRcode), pref64Answers_eq hItems, if_neg hSome]

/-- The well-known prefix, and one of 32 bits. -/
def wellKnownPrefix : IPNet :=
  ⟨[0, 0x64, 0xff, 0x9b, 0, 0, 0, 0, 0, 0, 0, 0, 0, 0, 0, 0], cidrMask 16 96⟩

def shortPrefix : IPNet :=
  ⟨[0x20, 1, 0xd, 0xb8, 0, 0, 0, 0, 0, 0, 0, 0, 0, 0, 0, 0], cidrMask 16 32⟩

theorem rfc6052_wellKnownPrefix : Rfc6052 wellKnownPrefix 96 :=
  ⟨⟨rfl, by decide, rfl⟩, by decide, by decide +kernel⟩

theorem rfc6052_shortPrefix : Rfc6052 shortPrefix 32 :=
  ⟨⟨rfl, by decide, rfl⟩, by decide, by decide +kernel⟩

def aaaaRecord (addr : Bytes) : RR :=
  { name := ascii "ipv4only.arpa.", rclass := ClassINET, ttl := 60, rdata := .aaaa addr }

/-- A resolver that uses both. -/
def twoPrefixes : Msg :=
  { Msg.empty with
    response := true
    answer :=
      [aaaaRecord [0x20, 1, 0xd, 0xb8, 192, 0, 0, 170, 0, 0, 0, 0, 0, 0, 0, 0],
        aaaaRecord [0, 0x64, 0xff, 0x9b, 0, 0, 0, 0, 0, 0, 0, 0, 192, 0, 0, 170],
        aaaaRecord [0x20, 1, 0xd, 0xb8, 192, 0, 0, 171, 0, 0, 0, 0, 0, 0, 0, 0]] }

/-- Both prefixes are stored, once each. -/
theorem discovery_two_prefixes :
    (∃ addr, translateToIPv6 rfc7050WKA1 shortPrefix = .ok addr ∧
      pref64Of addr = some shortPrefix) ∧
    (PluginDNS64.fetchPref64 ⟨[], [], []⟩ (fun _ => .ok (some twoPrefixes)) []).1.pref64 =
      [shortPrefix, wellKnownPrefix] := by
  obtain ⟨hOne, hList⟩ := discovery_inverts_synthesis
  refine ⟨hOne _ 32 _ rfc6052_shortPrefix (by decide), ?_⟩
  have hFetch := hList ⟨[], [], []⟩ (fun _ => .ok (some twoPrefixes)) [] twoPrefixes
    [(shortPrefix, rfc7050WKA1), (wellKnownPrefix, rfc7050WKA1), (shortPrefix, rfc7050WKA2)]
    rfl rfl (cons_ne_nil _ _)
    (.cons ⟨⟨32, rfc6052_shortPrefix⟩, by decide, rfl⟩
      (.cons ⟨⟨96, rfc6052_wellKnownPrefix⟩, by decide, rfl⟩
        (.cons ⟨⟨32, rfc6052_shortPrefix⟩, by decide, rfl⟩ .nil)))
  decide

end DnscryptProxy
