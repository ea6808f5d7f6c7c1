import DnscryptProxy.Query.Session

/-!
# What the length of a padded query tells

`ApplyQueryPlugins` pads a query for a DoH server with `addEDNS0PaddingIfNoneFound`, by as many
bytes as the packed query lacks to a multiple of 64. The sizes the `dns` package documents are
`EdnsSizes`; what the option and the OPT record take comes on top of the multiple of 64.

* `add_padLen` — the padding fills the block;
* `length_padQuery` — the length of a padded query, from its block and its OPT record alone;
* `padded_lengths_agree` — two queries of one block leave with the same length, whatever they ask
  and whatever the plugins made of them.
-/

namespace DnscryptProxy

open List

universe u

/-! ## Sizes -/

/-- An OPT record without options. -/
def optSize : Nat := 11

/-- The code and the length of an option, `tlv`. -/
def optionHeaderSize : Nat := 4

/-- What EDNS adds to a message, for options of these sizes. -/
def ednsSize (optionSize : EdnsOption → Nat) (m : Msg) : Nat :=
  if m.CarriesOpt then optSize + (m.pseudo.map optionSize).sum else 0

/-- The message with a padding option behind its others. -/
def Msg.padded (m : Msg) (udpSize : UInt16) (padding : Bytes) : Msg :=
  { m with udpSize := udpSize, pseudo := m.pseudo ++ [.padding padding] }

/-- The sizes of what the `dns` package packs, up to packets of `limit` bytes. -/
structure EdnsSizes (lib : DnsLib) (limit : Nat) where
  /-- header, question and records -/
  body : Msg → Nat
  body_padded : ∀ m udpSize padding, body (m.padded udpSize padding) = body m
  optionSize : EdnsOption → Nat
  optionSize_padding : ∀ padding, optionSize (.padding padding) = optionHeaderSize + padding.length
  length_pack : ∀ m b, lib.pack m = .ok b → b.length = body m + ednsSize optionSize m
  /-- a padding option can be added to what can be packed, if there is room for it -/
  pack_padded : ∀ m b udpSize padding, lib.pack m = .ok b →
    body m + ednsSize optionSize (m.padded udpSize padding) ≤ limit →
    ∃ b', lib.pack (m.padded udpSize padding) = .ok b'

/-- What padding takes beyond its bytes: an option, and an OPT record where there was none. -/
def paddingOverhead (m : Msg) : Nat := optionHeaderSize + if m.CarriesOpt then 0 else optSize

theorem carriesOpt_padded (m : Msg) (udpSize : UInt16) (padding : Bytes) :
    (m.padded udpSize padding).CarriesOpt :=
  .inr (.inr (.inr (.inr (.inr (append_ne_nil_of_right_ne_nil _ (cons_ne_nil _ _))))))

section Sizes

variable {lib : DnsLib} {limit : Nat} (sizes : EdnsSizes lib limit)
include sizes

/-- The OPT record and the option are all that is added. -/
theorem EdnsSizes.ednsSize_padded (m : Msg) (udpSize : UInt16) (padding : Bytes) :
    ednsSize sizes.optionSize (m.padded udpSize padding) =
      ednsSize sizes.optionSize m + paddingOverhead m + padding.length := by
  have hSum : ((m.padded udpSize padding).pseudo.map sizes.optionSize).sum =
      (m.pseudo.map sizes.optionSize).sum + (optionHeaderSize + padding.length) := by
    simp [Msg.padded, sizes.optionSize_padding]
  rw [ednsSize, if_pos (carriesOpt_padded m udpSize padding), hSum, ednsSize, paddingOverhead]
  by_cases hOpt : m.CarriesOpt
  · rw [if_pos hOpt, if_pos hOpt]
    omega
  · -- without an OPT record there are no options either
    have hNone : m.pseudo = [] := by
      by_contra hSome
      exact hOpt (.inr (.inr (.inr (.inr (.inr hSome)))))
    rw [if_neg hOpt, if_neg hOpt, hNone]
    simp only [map_nil, sum_nil]
    omega

theorem EdnsSizes.length_pack_padded {m : Msg} {b : Bytes} (hPack : lib.pack m = .ok b)
    (udpSize : UInt16) (padding : Bytes)
    (hRoom : b.length + padding.length + paddingOverhead m ≤ limit) :
    ∃ b', lib.pack (m.padded udpSize padding) = .ok b' ∧
      b'.length = b.length + padding.length + paddingOverhead m := by
  have hLen := sizes.length_pack m b hPack
  have hAdded := sizes.ednsSize_padded m udpSize padding
  obtain ⟨b', hPadded⟩ := sizes.pack_padded m b udpSize padding hPack (by omega)
  refine ⟨b', hPadded, ?_⟩
  rw [sizes.length_pack _ b' hPadded, sizes.body_padded, hAdded, hLen]
  omega

end Sizes

/-! ## Blocks -/

/-- A length in block number `k`: more than `64 * k` bytes, and no more than the next multiple. -/
def InBlock (k n : Nat) : Prop := 64 * k < n ∧ n ≤ 64 * k + 64

instance (k n : Nat) : Decidable (InBlock k n) := inferInstanceAs (Decidable (_ ∧ _))

theorem add_padLen {k n : Nat} (h : InBlock k n) : n + (63 - ((n + 63) &&& 63)) = 64 * k + 64 := by
  have hAnd : (n + 63) &&& 63 = (n + 63) % 64 := Nat.and_two_pow_sub_one_eq_mod (n + 63) 6
  obtain ⟨hLow, hHigh⟩ := h
  omega

/-- There is no padding option. -/
def Msg.Unpadded (m : Msg) : Prop := ∀ padding, .padding padding ∉ m.pseudo

theorem Msg.Unpadded.not_any {m : Msg} (h : m.Unpadded) {isPadding : EdnsOption → Bool}
    (hIs : ∀ rr, isPadding rr = true → ∃ padding, rr = .padding padding) :
    ¬ m.pseudo.any isPadding = true := by
  rw [any_eq_true]
  rintro ⟨rr, hMem, hPadding⟩
  obtain ⟨padding, rfl⟩ := hIs rr hPadding
  exact h padding hMem

theorem addEDNS0PaddingIfNoneFound_unpadded (lib : DnsLib) {m : Msg} (h : m.Unpadded)
    (unpaddedPacket : Bytes) (paddingLen : Nat) : ∃ udpSize,
    (addEDNS0PaddingIfNoneFound lib m unpaddedPacket paddingLen).2 =
      (lib.pack (m.padded udpSize (replicate paddingLen 0x58))).toOption := by
  refine ⟨if m.udpSize = 0 then UInt16.ofNat MaxDNSPacketSize else m.udpSize, ?_⟩
  have hSized : (if m.udpSize = 0 then { m with udpSize := UInt16.ofNat MaxDNSPacketSize } else m) =
      { m with udpSize := if m.udpSize = 0 then UInt16.ofNat MaxDNSPacketSize else m.udpSize } := by
    split <;> rfl
  unfold addEDNS0PaddingIfNoneFound
  dsimp only
  rw [hSized, if_neg (h.not_any ?_), Msg.padded]
  · cases lib.pack _ <;> rfl
  · rintro (_ | padding | _ | _) hMatch
    · cases hMatch
    · exact ⟨padding, rfl⟩
    · cases hMatch
    · cases hMatch

theorem length_padQuery {lib : DnsLib} {limit : Nat} (sizes : EdnsSizes lib limit) {m : Msg}
    {packet2 : Bytes} {k : Nat} (hPack : lib.pack m = .ok packet2) (hUnpadded : m.Unpadded)
    (hBlock : InBlock k packet2.length) (hRoom : 64 * k + 64 + paddingOverhead m ≤ limit) :
    (padQuery lib m packet2).2.length = 64 * k + 64 + paddingOverhead m := by
  have hFill := add_padLen hBlock
  obtain ⟨udpSize, hAdd⟩ := addEDNS0PaddingIfNoneFound_unpadded lib hUnpadded packet2
    (63 - ((packet2.length + 63) &&& 63))
  obtain ⟨b, hPadded, hLen⟩ := sizes.length_pack_padded hPack udpSize
    (replicate (63 - ((packet2.length + 63) &&& 63)) 0x58)
    (by rw [length_replicate, hFill]; exact hRoom)
  rw [length_replicate, hFill] at hLen
  unfold padQuery
  dsimp only
  rw [hAdd, hPadded]
  exact hLen

/-! ## Two queries -/

/-- All that `ApplyQueryPlugins` is called with. -/
structure QueryRun (W Plug : Type u) (S : Type*) where
  globals : PluginsGlobals W Plug
  now : Time
  world : W
  state : PluginsState
  packet : Bytes
  getServerInfo : S → S × Bool
  sel : S

section Runs

variable {W Plug : Type u} {S : Type*} [PluginEval W Plug] (lib : DnsLib)

def QueryRun.pass (q : QueryRun W Plug S) : QueryPass W S :=
  applyQueryPlugins lib q.globals q.now q.world q.state q.packet q.getServerInfo q.sel

/-- The plugins let the query go on with `msg`, which is packed in `packet2`, to a server that wants
padding. -/
def QueryRun.GoesOn (q : QueryRun W Plug S) (msg : Msg) (packet2 : Bytes) : Prop :=
  ∃ r, runQueryChain lib q.globals q.now q.world q.state q.packet = .passed r packet2 ∧
    r.msg = msg ∧ r.state.action = .continue ∧ (q.getServerInfo q.sel).2 = true

variable {lib}

theorem QueryRun.GoesOn.pass {q : QueryRun W Plug S} {msg : Msg} {packet2 : Bytes}
    (h : q.GoesOn lib msg packet2) :
    lib.pack msg = .ok packet2 ∧ (q.pass lib).err = none ∧
      (q.pass lib).packet = (padQuery lib msg packet2).2 := by
  obtain ⟨r, hChain, rfl, hAction, hNeeds⟩ := h
  obtain ⟨-, -, -, -, -, -, hPack⟩ := runQueryChain_passed hChain
  refine ⟨hPack, ?_⟩
  unfold QueryRun.pass applyQueryPlugins
  rw [hChain]
  dsimp only
  rw [if_pos hAction, if_pos hNeeds]
  exact ⟨rfl, rfl⟩

/-- The lengths of two queries for DoH servers agree if those the plugins left are of one block, and
both or neither had an OPT record: nothing else about the queries shows. -/
theorem padded_lengths_agree {limit : Nat} (sizes : EdnsSizes lib limit)
    (q₁ q₂ : QueryRun W Plug S) (msg₁ msg₂ : Msg) (packet₁ packet₂ : Bytes) (k : Nat)
    (h₁ : q₁.GoesOn lib msg₁ packet₁) (h₂ : q₂.GoesOn lib msg₂ packet₂)
    (hUnpadded₁ : msg₁.Unpadded) (hUnpadded₂ : msg₂.Unpadded)
    (hOpt : msg₁.CarriesOpt ↔ msg₂.CarriesOpt)
    (hBlock₁ : InBlock k packet₁.length) (hBlock₂ : InBlock k packet₂.length)
    (hRoom : 64 * k + 64 + paddingOverhead msg₁ ≤ limit) :
    (q₁.pass lib).err = none ∧ (q₂.pass lib).err = none ∧
      (q₁.pass lib).packet.length = (q₂.pass lib).packet.length := by
  obtain ⟨hPack₁, hErr₁, hPass₁⟩ := h₁.pass
  obtain ⟨hPack₂, hErr₂, hPass₂⟩ := h₂.pass
  have hOverhead : paddingOverhead msg₁ = paddingOverhead msg₂ := by
    simp only [paddingOverhead, hOpt]
  refine ⟨hErr₁, hErr₂, ?_⟩
  rw [hPass₁, hPass₂, length_padQuery sizes hPack₁ hUnpadded₁ hBlock₁ hRoom,
    length_padQuery sizes hPack₂ hUnpadded₂ hBlock₂ (hOverhead ▸ hRoom), hOverhead]

end Runs

/-- The sizes of what `wireLib` packs. -/
def wireLib_sizes (known : List Msg) (limit : Nat) : EdnsSizes (wireLib known) limit where
  body m := m.wireBody.length
  body_padded _ _ _ := by
    simp only [Msg.wireBody, Msg.padded, length_append, Msg.wireHeader, putUint16, length_cons,
      length_nil]
  optionSize o := o.wire.length
  optionSize_padding padding := by
    simp only [EdnsOption.wire, EdnsOption.wire.tlv, putUint16, length_append, length_cons,
      length_nil, optionHeaderSize]
  length_pack m b h := by
    cases h
    rw [Msg.wire, ednsSize, length_append, apply_ite length, Msg.length_wireOpt, length_flatMap]
    rfl
  pack_padded m b _ _ h _ := ⟨_, rfl⟩

/-- A client asks `m`, and the server is a DoH server. -/
def queryRun (m : Msg) : QueryRun Unit (Plugin Unit) Unit where
  globals := noPlugins Unit
  now := 0
  world := ()
  state := newPluginsState defaultProxyParams .udp .udp 0
  packet := m.wire
  getServerInfo _ := ((), true)
  sel := ()

def exampleQuery : Msg :=
  { rootQuery with question := [{ rootQuestion with name := ⟨ascii "example.com.", by decide⟩ }] }

/-- Queries of 17 and 29 bytes leave with the same length. -/
theorem padded_lengths_agree_example :
    let lib := wireLib [rootQuery, exampleQuery]
    rootQuery.wire = rootQueryPacket ∧ (exampleQuery.wire).length = 29 ∧
      ((queryRun rootQuery).pass lib).packet.length =
        ((queryRun exampleQuery).pass lib).packet.length := by
  intro lib
  have hGoes₁ : (queryRun rootQuery).GoesOn lib rootQuery (rootQuery.wire) :=
    ⟨_, rfl, rfl, rfl, rfl⟩
  have hGoes₂ : (queryRun exampleQuery).GoesOn lib exampleQuery (exampleQuery.wire) :=
    ⟨_, rfl, rfl, rfl, rfl⟩
  refine ⟨by decide, by decide, ?_⟩
  exact (padded_lengths_agree (wireLib_sizes _ 79) _ _ _ _ _ _ 0 hGoes₁ hGoes₂
    (fun _ h => nomatch h) (fun _ h => nomatch h) Iff.rfl (by decide) (by decide) (by decide)).2.2

end DnscryptProxy
