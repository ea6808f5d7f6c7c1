import DnscryptProxy.Query.OdohResponse

/-!
# Oblivious DoH configurations

`parseODoHTargetConfigs` of `oblivious_doh.go`: a list of configurations of several versions,
each with its own length, from which the first ten usable ones are taken. HPKE is a
parameter (`HpkeLib`); every slice is taken with its range check.

* `parseConfigsFrom_eq` — a turn of the loop, without the checks: the entry at the cursor is
  skipped or kept;
* `parseConfigsFrom_encode` — the loop inverts the encoding of a list;
* `parseConfigsFrom_inBounds` — on any bytes it returns, with bodies from the input.
-/

namespace DnscryptProxy

open Base List

/-! ## The parser -/

def odohVersion : UInt16 := 0x0001
def odohTestVersion : UInt16 := 0xff06
def maxODoHConfigs : Nat := 10

/-- The operations of `hpkecompact` that the parsing of a configuration uses. -/
structure HpkeLib where
  Suite : Type
  /-- `NewSuite` for a KEM, a KDF and an AEAD -/
  newSuite : UInt16 → UInt16 → UInt16 → Except GoError Suite
  /-- `NewClientContext` for a public key; the context is not used here -/
  newClientContext : Suite → Bytes → Bytes → Except GoError Unit
  /-- `Extract(secret, salt)` -/
  extract : Suite → Bytes → Bytes → Bytes
  /-- `Expand(prk, info, length)` -/
  expand : Suite → Bytes → Bytes → Nat → Except GoError Bytes
  /-- `Hash().Size()` -/
  hashSize : Suite → Nat

structure ODoHTargetConfig (lib : HpkeLib) where
  suite : lib.Suite
  keyID : Bytes
  publicKey : Bytes

def encodeLengthValue (b : Bytes) : Bytes := putUint16 b.length ++ b

def malformedConfig : Halt GoError := .error (.plain "Malformed config")

section Parser

variable (lib : HpkeLib)

/-- The part of `parseODoHTargetConfig` behind the fields. -/
def targetConfig (kemID kdfID aeadID : UInt16) (config publicKey : Bytes) :
    Except GoError (ODoHTargetConfig lib) := do
  let suite ← lib.newSuite kemID kdfID aeadID
  lib.newClientContext suite publicKey (ascii "odoh query")
  let keyID ← lib.expand suite (lib.extract suite config []) (ascii "odoh key id")
    (lib.hashSize suite)
  return { suite, publicKey, keyID := encodeLengthValue keyID }

def parseODoHTargetConfig (config : Bytes) : GoCall (ODoHTargetConfig lib) :=
  if config.length < 8 then .error malformedConfig
  else do
    let kemID ← uint16 (← slice config 0 2)
    let kdfID ← uint16 (← slice config 2 4)
    let aeadID ← uint16 (← slice config 4 6)
    let publicKeyLength ← uint16 (← slice config 6 8)
    let publicKey ← slice config 8 config.length
    if publicKey.length ≠ publicKeyLength.toNat then .error malformedConfig
    else returns (targetConfig lib kemID kdfID aeadID config publicKey)

/-- `target, err := ...` with `err` looked at: a panic is none. -/
def unlessError {α : Type} (r : GoCall α) : GoCall (Option α) :=
  match r with
  | .ok a => .ok (some a)
  | .error (.error _) => .ok none
  | .error .panic => .error .panic

/-- The loop of `parseODoHTargetConfigs`, with the targets so far. -/
def parseConfigsFrom (configs : Bytes) (offset : Nat) (targets : List (ODoHTargetConfig lib)) :
    GoCall (List (ODoHTargetConfig lib)) :=
  if _h : offset + 4 > configs.length ∨ targets.length ≥ maxODoHConfigs then .ok targets
  else do
    let configVersion ← uint16 (← slice configs offset (offset + 2))
    let configLength ← uint16 (← slice configs (offset + 2) (offset + 4))
    if offset + 4 + configLength.toNat > configs.length then .ok targets
    else if configVersion = odohVersion ∨ configVersion = odohTestVersion then
      let config ← slice configs (offset + 4) (offset + 4 + configLength.toNat)
      let target ← unlessError (parseODoHTargetConfig lib config)
      parseConfigsFrom configs (offset + configLength.toNat + 4) (targets ++ target.toList)
    else parseConfigsFrom configs (offset + configLength.toNat + 4) targets
termination_by configs.length - offset

def parseODoHTargetConfigs (configs : Bytes) :
    GoCall (List (ODoHTargetConfig lib)) :=
  if configs.length ≤ 2 then
    .error (.error (.plain "Server didn't return any ODoH configurations"))
  else do
    let length ← uint16 configs
    if configs.length ≠ length.toNat + 2 then .error (.error (.plain "Malformed configs"))
    else parseConfigsFrom lib configs 2 []

end Parser

/-! ## The format -/

/-- An entry: version, length, body. -/
def encodeEntry (entry : UInt16 × Bytes) : Bytes :=
  putUint16 entry.1.toNat ++ encodeLengthValue entry.2

/-- A list of entries, with its length. -/
def encodeConfigs (entries : List (UInt16 × Bytes)) : Bytes :=
  encodeLengthValue (entries.flatMap encodeEntry)

/-- What `parseODoHTargetConfig` makes of the body of an entry, if the version is one of the
two that are known. -/
def entryTarget (lib : HpkeLib) (entry : UInt16 × Bytes) : Option (ODoHTargetConfig lib) :=
  if entry.1 = odohVersion ∨ entry.1 = odohTestVersion then
    (parseODoHTargetConfig lib entry.2).toOption
  else none

/-- The number of two bytes. -/
def twoBytes (hi lo : UInt8) : UInt16 := UInt16.ofNat (hi.toNat * 256 + lo.toNat)

/-- The entry at an offset, if it ends inside. -/
def entryAt (configs : Bytes) (offset : Nat) : Option (UInt16 × Bytes) :=
  match configs.drop offset with
  | v₁ :: v₂ :: n₁ :: n₂ :: rest =>
    if (twoBytes n₁ n₂).toNat ≤ rest.length then
      some (twoBytes v₁ v₂, rest.take (twoBytes n₁ n₂).toNat)
    else none
  | _ => none

/-! ## Accesses -/

section Accesses

variable {lib : HpkeLib}

/-- The `k` elements from index `i` on. -/
theorem slice_from {l : Bytes} {i k : Nat} (h : i + k ≤ l.length) :
    (slice l i (i + k) : GoCall Bytes) = .ok ((l.drop i).take k) := by
  rw [slice_eq (Nat.le_add_right _ _) h, drop_take, Nat.add_sub_cancel_left]

theorem uint16_ne_panic {l : Bytes} {i : Nat} (h : i + 2 ≤ l.length) :
    (slice l i (i + 2) >>= uint16 : GoCall UInt16) ≠ .error .panic := by
  have hLength : ((l.drop i).take 2).length = 2 := by
    rw [length_take, length_drop]
    omega
  obtain ⟨n, hn, -⟩ := uint16_of_length hLength
  rw [slice_from h, ok_bind, hn]
  intro hPanic
  cases hPanic

/-- The accesses of `parseODoHTargetConfig` are in range. -/
theorem parseODoHTargetConfig_ne_panic (config : Bytes) :
    parseODoHTargetConfig lib config ≠ .error .panic := by
  unfold parseODoHTargetConfig
  split
  · intro h
    cases h
  · next hLength =>
    -- five fields, then the check of the length and the library
    have hField : ∀ {α : Type} {i : Nat} {f : UInt16 → GoCall α},
        i + 2 ≤ 8 → (∀ n, f n ≠ .error .panic) →
        (slice config i (i + 2) >>= fun b => uint16 b >>= f) ≠ .error .panic := by
      intro α i f hi hf
      rw [← bind_assoc]
      exact bind_ne_panic (uint16_ne_panic (by omega)) fun n _ => hf n
    refine hField (i := 0) (by decide) fun _ => hField (i := 2) (by decide) fun _ =>
      hField (i := 4) (by decide) fun _ => hField (i := 6) (by decide) fun publicKeyLength => ?_
    rw [slice_eq (by omega) (le_refl _), ok_bind]
    split
    · intro h
      cases h
    · exact returns_ne_panic _

theorem unlessError_parse (config : Bytes) :
    unlessError (parseODoHTargetConfig lib config) =
      .ok (parseODoHTargetConfig lib config).toOption := by
  have hPanic : parseODoHTargetConfig lib config ≠ .error .panic :=
    parseODoHTargetConfig_ne_panic config
  cases hParsed : parseODoHTargetConfig lib config with
  | ok target => rfl
  | error halt =>
    cases halt with
    | panic => exact absurd hParsed hPanic
    | error err => rfl

end Accesses

/-! ## The loop -/

section Loop

variable {lib : HpkeLib}

/-- Four bytes of header, if they are there. -/
theorem exists_header {l : Bytes} (h : 4 ≤ l.length) :
    ∃ v₁ v₂ n₁ n₂ rest, l = v₁ :: v₂ :: n₁ :: n₂ :: rest := by
  match l, h with
  | v₁ :: v₂ :: n₁ :: n₂ :: rest, _ => exact ⟨v₁, v₂, n₁, n₂, rest, rfl⟩

theorem entryAt_of_short {configs : Bytes} {offset : Nat} (h : offset + 4 > configs.length) :
    entryAt configs offset = none := by
  unfold entryAt
  split
  · next v₁ v₂ n₁ n₂ rest hDrop =>
    have hLength := congrArg length hDrop
    simp only [length_drop, length_cons] at hLength
    omega
  · rfl

theorem parseConfigsFrom_eq (configs : Bytes) (offset : Nat)
    (targets : List (ODoHTargetConfig lib)) :
    parseConfigsFrom lib configs offset targets =
      if targets.length ≥ maxODoHConfigs then .ok targets
      else match entryAt configs offset with
        | none => .ok targets
        | some entry => parseConfigsFrom lib configs (offset + entry.2.length + 4)
            (targets ++ (entryTarget lib entry).toList) := by
  rw [parseConfigsFrom]
  by_cases hFull : targets.length ≥ maxODoHConfigs
  · rw [dif_pos (.inr hFull), if_pos hFull]
  by_cases hShort : offset + 4 > configs.length
  · rw [dif_pos (.inl hShort), if_neg hFull, entryAt_of_short hShort]
  rw [dif_neg (not_or.mpr ⟨hShort, hFull⟩), if_neg hFull]
  obtain ⟨v₁, v₂, n₁, n₂, rest, hDrop⟩ := exists_header (l := configs.drop offset) (by
    rw [length_drop]
    omega)
  have hRest : configs.length = offset + 4 + rest.length := by
    have hLength := congrArg length hDrop
    simp only [length_drop, length_cons] at hLength
    omega
  -- both reads of the header are inside the buffer
  have hVersion : (slice configs offset (offset + 2) >>= uint16 : GoCall UInt16) =
      .ok (twoBytes v₁ v₂) := by
    rw [slice_from (by omega), hDrop]
    rfl
  have hLengthField : (slice configs (offset + 2) (offset + 4) >>= uint16 :
      GoCall UInt16) = .ok (twoBytes n₁ n₂) := by
    rw [slice_from (i := offset + 2) (k := 2) (by omega), ← drop_drop, hDrop]
    rfl
  have hBody : configs.drop (offset + 4) = rest := by
    rw [← drop_drop, hDrop]
    rfl
  rw [← bind_assoc, hVersion, ok_bind, ← bind_assoc, hLengthField, ok_bind, entryAt, hDrop]
  dsimp only
  by_cases hInside : (twoBytes n₁ n₂).toNat ≤ rest.length
  · rw [if_neg (by omega), if_pos hInside]
    dsimp only
    rw [length_take_of_le hInside]
    unfold entryTarget
    split
    · rw [slice_from (by omega), hBody, ok_bind, unlessError_parse, ok_bind]
    · rw [Option.toList_none, append_nil]
  · -- a length beyond the end: the loop of the source breaks here
    rw [if_pos (by omega), if_neg hInside]

theorem entryAt_append (pre : Bytes) (entry : UInt16 × Bytes) (rest : Bytes)
    (hEntry : entry.2.length < 65536) :
    entryAt (pre ++ (encodeEntry entry ++ rest)) pre.length = some entry := by
  have hTwo : ∀ {n : Nat}, n < 65536 →
      twoBytes (UInt8.ofNat (n / 256)) (UInt8.ofNat n) = UInt16.ofNat n :=
    fun hn => Except.ok.inj (uint16_putUint16 hn [])
  rw [entryAt, drop_left]
  show (if (twoBytes (UInt8.ofNat (entry.2.length / 256)) (UInt8.ofNat entry.2.length)).toNat ≤
      (entry.2 ++ rest).length then some (twoBytes _ _, (entry.2 ++ rest).take _) else none) = _
  rw [hTwo hEntry, hTwo entry.1.toNat_lt, toNat_ofNat_of_lt hEntry, UInt16.ofNat_toNat,
    take_left, if_pos (by simp)]

theorem length_encodeEntry (entry : UInt16 × Bytes) :
    (encodeEntry entry).length = entry.2.length + 4 := by
  rw [encodeEntry, encodeLengthValue, length_append, length_append, length_putUint16,
    length_putUint16]
  omega

theorem parseConfigsFrom_encode (entries : List (UInt16 × Bytes))
    (hEntries : ∀ entry ∈ entries, entry.2.length < 65536) (pre : Bytes)
    {targets : List (ODoHTargetConfig lib)} (hTargets : targets.length ≤ maxODoHConfigs) :
    parseConfigsFrom lib (pre ++ entries.flatMap encodeEntry) pre.length targets =
      .ok ((targets ++ entries.filterMap (entryTarget lib)).take maxODoHConfigs) := by
  induction entries generalizing pre targets with
  | nil =>
    rw [parseConfigsFrom_eq, entryAt_of_short (by simp)]
    simp only [ite_self, filterMap_nil, append_nil, take_of_length_le hTargets]
  | cons entry entries ih =>
    rw [parseConfigsFrom_eq]
    by_cases hFull : targets.length ≥ maxODoHConfigs
    · rw [if_pos hFull, take_left' (le_antisymm hTargets hFull)]
    · rw [if_neg hFull, flatMap_cons, entryAt_append pre entry _ (hEntries entry mem_cons_self)]
      dsimp only
      -- behind this entry, with at most one target more
      have hNext : (targets ++ (entryTarget lib entry).toList).length ≤ maxODoHConfigs := by
        have hOne : (entryTarget lib entry).toList.length ≤ 1 := Option.length_toList_le
        rw [length_append]
        omega
      have hCursor : pre.length + entry.2.length + 4 = (pre ++ encodeEntry entry).length := by
        rw [length_append, length_encodeEntry, add_assoc]
      rw [hCursor, ← append_assoc, ih (fun e he => hEntries e (mem_cons_of_mem _ he)) _ hNext]
      congr 2
      cases hTarget : entryTarget lib entry with
      | none => simp [hTarget]
      | some target => simp [hTarget]

/-- The target comes from a body that lies in the input. -/
def FromBody (configs : Bytes) (target : ODoHTargetConfig lib) : Prop :=
  ∃ i j, i ≤ j ∧ j ≤ configs.length ∧
    parseODoHTargetConfig lib ((configs.take j).drop i) = .ok target

theorem entryAt_inBounds {configs : Bytes} {offset : Nat} {entry : UInt16 × Bytes}
    (h : entryAt configs offset = some entry) :
    offset + 4 + entry.2.length ≤ configs.length ∧
      entry.2 = (configs.take (offset + 4 + entry.2.length)).drop (offset + 4) := by
  unfold entryAt at h
  split at h
  · next v₁ v₂ n₁ n₂ rest hDrop =>
    have hLength := congrArg length hDrop
    simp only [length_drop, length_cons] at hLength
    split at h
    · next hInside =>
      obtain rfl := Option.some.inj h
      have hBody : configs.drop (offset + 4) = rest := by
        rw [← drop_drop, hDrop]
        rfl
      rw [length_take_of_le hInside, drop_take, Nat.add_sub_cancel_left, hBody]
      exact ⟨by omega, rfl⟩
    · cases h
  · cases h

theorem parse_of_mem_entryTarget {entry : UInt16 × Bytes} {target : ODoHTargetConfig lib}
    (h : target ∈ (entryTarget lib entry).toList) :
    parseODoHTargetConfig lib entry.2 = .ok target := by
  rw [Option.mem_toList, entryTarget] at h
  split at h
  · cases hParsed : parseODoHTargetConfig lib entry.2 with
    | error halt =>
      rw [hParsed] at h
      cases h
    | ok t =>
      rw [hParsed] at h
      rw [Option.some.inj h]
  · cases h

theorem parseConfigsFrom_inBounds (configs : Bytes) (offset : Nat)
    {targets : List (ODoHTargetConfig lib)} (hTargets : targets.length ≤ maxODoHConfigs)
    (hBodies : ∀ t ∈ targets, FromBody configs t) :
    ∃ result, parseConfigsFrom lib configs offset targets = .ok result ∧
      result.length ≤ maxODoHConfigs ∧ ∀ t ∈ result, FromBody configs t := by
  -- each entry moves the cursor on by four bytes at least
  induction hLeft : configs.length - offset using Nat.strongRecOn generalizing offset targets with
  | ind left ih =>
    rw [parseConfigsFrom_eq]
    split
    · exact ⟨targets, rfl, hTargets, hBodies⟩
    · next hFull =>
      cases hEntry : entryAt configs offset with
      | none => exact ⟨targets, rfl, hTargets, hBodies⟩
      | some entry =>
        obtain ⟨hInside, hBody⟩ := entryAt_inBounds hEntry
        refine ih _ (by omega) _ ?_ ?_ rfl
        · have hOne : (entryTarget lib entry).toList.length ≤ 1 := Option.length_toList_le
          rw [length_append]
          omega
        · intro t ht
          rcases mem_append.mp ht with ht | ht
          · exact hBodies t ht
          · refine ⟨offset + 4, offset + 4 + entry.2.length, Nat.le_add_right _ _, hInside, ?_⟩
            rw [← hBody]
            exact parse_of_mem_entryTarget ht

end Loop

/-! ## The list -/

/-- On any bytes `parseODoHTargetConfigs` returns an error or such targets. -/
theorem parseODoHTargetConfigs_returns (lib : HpkeLib) (configs : Bytes) :
    (∃ err, parseODoHTargetConfigs lib configs = .error (.error err)) ∨
      ∃ result, parseODoHTargetConfigs lib configs = .ok result ∧
        result.length ≤ maxODoHConfigs ∧ ∀ t ∈ result, FromBody configs t := by
  unfold parseODoHTargetConfigs
  split
  · exact .inl ⟨_, rfl⟩
  · next hLong =>
    have hUint16 : ∃ n, uint16 configs = .ok n := by
      rcases configs with _ | ⟨hi, _ | ⟨lo, rest⟩⟩
      · exact absurd (Nat.zero_le 2) hLong
      · exact absurd (Nat.le_succ 1) hLong
      · exact ⟨_, rfl⟩
    obtain ⟨length, hUint16⟩ := hUint16
    rw [hUint16, ok_bind]
    split
    · exact .inl ⟨_, rfl⟩
    · exact .inr (parseConfigsFrom_inBounds configs 2 (Nat.zero_le _) fun _ h => by cases h)

/-- Lists of entries are decoded exactly, and any bytes are decoded without an access out of
range, to bodies of the input. -/
theorem odoh_config_list (lib : HpkeLib) :
    (∀ entries : List (UInt16 × Bytes), entries ≠ [] →
      (entries.flatMap encodeEntry).length < 65536 →
      parseODoHTargetConfigs lib (encodeConfigs entries) =
        .ok ((entries.filterMap (entryTarget lib)).take maxODoHConfigs)) ∧
    ∀ configs : Bytes, parseODoHTargetConfigs lib configs ≠ .error .panic ∧
      ∀ targets, parseODoHTargetConfigs lib configs = .ok targets →
        targets.length ≤ maxODoHConfigs ∧ ∀ t ∈ targets, FromBody configs t := by
  refine ⟨fun entries hEntries hFits => ?_, fun configs => ?_⟩
  · have hLength : (encodeConfigs entries).length = (entries.flatMap encodeEntry).length + 2 := by
      rw [encodeConfigs, encodeLengthValue, length_append, length_putUint16]
      omega
    -- every body is a part of the list, so its length fits the two bytes as well
    have hPart : ∀ entry ∈ entries, entry.2.length + 4 ≤ (entries.flatMap encodeEntry).length := by
      intro entry hEntry
      obtain ⟨before, after, rfl⟩ := append_of_mem hEntry
      rw [flatMap_append, flatMap_cons, length_append, length_append, length_encodeEntry]
      omega
    have hBodies : ∀ entry ∈ entries, entry.2.length < 65536 := by
      intro entry hEntry
      have := hPart entry hEntry
      omega
    obtain ⟨first, hFirst⟩ := exists_mem_of_ne_nil entries hEntries
    have hSome := hPart first hFirst
    rw [parseODoHTargetConfigs, if_neg (by omega), hLength, encodeConfigs, encodeLengthValue,
      uint16_putUint16 hFits, ok_bind, toNat_ofNat_of_lt hFits, if_neg (by simp)]
    exact parseConfigsFrom_encode entries hBodies (putUint16 _) (Nat.zero_le _)
  · rcases parseODoHTargetConfigs_returns lib configs with ⟨err, hErr⟩ | ⟨result, hResult, hRest⟩
    · rw [hErr]
      exact ⟨(fun h => by cases h), fun _ h => by cases h⟩
    · rw [hResult]
      refine ⟨(fun h => by cases h), fun targets hTargets => ?_⟩
      rw [← Except.ok.inj hTargets]
      exact hRest

end DnscryptProxy
