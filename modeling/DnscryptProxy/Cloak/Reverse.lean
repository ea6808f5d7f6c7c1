import DnscryptProxy.Cloak.Order

/-!
# Reverse names

The names of `reverseAddr`, and the rules that are added for them.

* `reverseName_injective` — different addresses have different reverse names;
* `cloakRuleOf_ptrKey` — the rule of a reverse name is an exact one;
* `eq_ptrKey_of_exact` — there is no other exact rule for that name.
-/

namespace DnscryptProxy

open Base List

/-! ## Their bytes -/

/-- Digits, small letters, `-` and the dot. -/
def isReverseByte (c : UInt8) : Bool :=
  Base.isDigit c || decide (97 ≤ c ∧ c ≤ 122) || decide (c = '-'.toUInt8) || decide (c = dot)

theorem isReverseByte_facts {c : UInt8} (h : isReverseByte c = true) :
    c < 128 ∧ lowerByte c = c ∧ isMark c = false := by
  have hAll : ∀ n < 256, isReverseByte (UInt8.ofNat n) = true →
      UInt8.ofNat n < 128 ∧ lowerByte (UInt8.ofNat n) = UInt8.ofNat n ∧
        isMark (UInt8.ofNat n) = false := by
    decide +kernel
  have := hAll c.toNat c.toNat_lt
  rw [UInt8.ofNat_toNat] at this
  exact this h

theorem isReverseByte_hexDigit : ∀ n < 16, isReverseByte (hexDigit n) = true := by
  decide

theorem reverseName_bytes (ip : Bytes) : ∀ c ∈ reverseName ip, isReverseByte c = true := by
  have hV4 : ∀ c ∈ ascii "in-addr.arpa.", isReverseByte c = true := all_eq_true.mp rfl
  have hV6 : ∀ c ∈ ascii "ip6.arpa.", isReverseByte c = true := all_eq_true.mp rfl
  intro c hc
  unfold reverseName at hc
  split at hc
  · rcases mem_append.mp hc with hc | hc
    · obtain ⟨b, -, hc⟩ := mem_flatMap.mp hc
      rcases mem_append.mp hc with hc | hc
      · simp [isReverseByte, octetText_digits b c hc]
      · rw [mem_singleton.mp hc]
        rfl
    · exact hV4 c hc
  · rcases mem_append.mp hc with hc | hc
    · obtain ⟨v, -, hc⟩ := mem_flatMap.mp hc
      simp only [mem_cons, not_mem_nil, or_false] at hc
      rcases hc with rfl | rfl | rfl | rfl
      · exact isReverseByte_hexDigit _ (Nat.mod_lt _ (by decide))
      · rfl
      · refine isReverseByte_hexDigit _ ?_
        have := v.toNat_lt
        omega
      · rfl
    · exact hV6 c hc

/-- A reverse name is long, and ends in a dot. -/
theorem reverseName_split (ip : Bytes) :
    reverseName ip = trimDot (reverseName ip) ++ [dot] ∧ 2 ≤ (trimDot (reverseName ip)).length := by
  have hDot : ∀ front last : Bytes, 2 ≤ last.length →
      front ++ (last ++ [dot]) = trimDot (front ++ (last ++ [dot])) ++ [dot] ∧
        2 ≤ (trimDot (front ++ (last ++ [dot]))).length := by
    intro front last hLast
    rw [← append_assoc, trimDot, if_pos getLast?_concat, dropLast_concat, length_append]
    exact ⟨rfl, by omega⟩
  unfold reverseName
  split
  · exact hDot _ (ascii "in-addr.arpa") (by decide)
  · exact hDot _ (ascii "ip6.arpa") (by decide)

theorem trimDot_reverseName_bytes (ip : Bytes) :
    ∀ c ∈ trimDot (reverseName ip), isReverseByte c = true := by
  intro c hc
  refine reverseName_bytes ip c ?_
  rw [(reverseName_split ip).1]
  exact mem_append_left _ hc

/-- What a query for a reverse name asks for. -/
theorem normalizeQName_reverseName (ip : Bytes) :
    normalizeQName (reverseName ip) = .ok (trimDot (reverseName ip)) := by
  obtain ⟨hSplit, hLong⟩ := reverseName_split ip
  have hBytes := trimDot_reverseName_bytes ip
  generalize trimDot (reverseName ip) = t at *
  have hAscii : t.any (fun c => decide (128 ≤ c)) = false := by
    rw [any_eq_false]
    intro c hc
    have := (isReverseByte_facts (hBytes c hc)).1
    simpa using this
  have hLower : t.map lowerByte = t :=
    (map_congr_left fun c hc => (isReverseByte_facts (hBytes c hc)).2.1).trans t.map_id
  have hNe : ¬ (t ++ [dot] = [] ∨ t ++ [dot] = [dot]) := by
    rintro (h | h)
    · simp at h
    · have hLength := congrArg length h
      rw [length_append, length_singleton] at hLength
      omega
  rw [hSplit, normalizeQName, if_neg hNe]
  dsimp only
  rw [if_pos getLast?_concat, dropLast_concat, hAscii, hLower]
  rfl

/-! ## One name for each address -/

theorem octet_cut (x y : UInt8) (s t : Bytes)
    (h : octetText x ++ [dot] ++ s = octetText y ++ [dot] ++ t) : x = y ∧ s = t := by
  have hDot : ∀ x, dot ∉ octetText x := fun x hMem => nomatch octetText_digits x dot hMem
  rw [append_assoc, append_assoc] at h
  have hLength : (octetText x).length = (octetText y).length := by
    have hTake : ∀ x s, (octetText x ++ dot :: s).takeWhile (fun c => decide (c ≠ dot)) =
        octetText x := by
      intro x s
      rw [takeWhile_append_of_pos]
      · simp
      · intro c hc
        exact decide_eq_true fun hEq => hDot x (hEq ▸ hc)
    rw [← hTake x s, ← hTake y t]
    exact congrArg (fun l => (takeWhile (fun c => decide (c ≠ dot)) l).length) h
  obtain ⟨hOctet, hRest⟩ := append_inj h hLength
  refine ⟨?_, (cons.inj hRest).2⟩
  have hParse := parseOctet_octetText x
  rw [hOctet, parseOctet_octetText] at hParse
  exact (Option.some.inj hParse).symm

theorem nibbles_cut (v w : UInt8) (s t : Bytes)
    (h : [hexDigit (v.toNat % 16), dot, hexDigit (v.toNat / 16), dot] ++ s =
      [hexDigit (w.toNat % 16), dot, hexDigit (w.toNat / 16), dot] ++ t) : v = w ∧ s = t := by
  have hDigit : ∀ {m n : Nat}, m < 16 → n < 16 → hexDigit m = hexDigit n → m = n := by
    intro m n hm hn hEq
    have hValue := hexValue_hexDigit hm
    rw [hEq, hexValue_hexDigit hn] at hValue
    exact (Option.some.inj hValue).symm
  simp only [cons_append, nil_append, cons.injEq, true_and] at h
  obtain ⟨hLow, hHigh, hRest⟩ := h
  have hv := v.toNat_lt
  have hw := w.toNat_lt
  have hLow' := hDigit (Nat.mod_lt _ (by decide)) (Nat.mod_lt _ (by decide)) hLow
  have hHigh' := hDigit (by omega) (by omega) hHigh
  exact ⟨UInt8.toNat_inj.mp (by omega), hRest⟩

theorem eq_of_unmap {ip v4 : Bytes} (h : unmap ip = some v4) : ip = v4InV6 ++ v4 := by
  unfold unmap at h
  split at h
  · next hTake =>
    rw [← Option.some.inj h, ← hTake, take_append_drop]
  · cases h

theorem reverseName_injective {a b : Bytes} (h : reverseName a = reverseName b) : a = b := by
  -- the names of the two families end differently
  have hEnds : ∀ front front' : Bytes,
      front ++ ascii "in-addr.arpa." ≠ front' ++ ascii "ip6.arpa." := by
    intro front front' hEq
    have hSplit : ascii "in-addr.arpa." = ascii "in-a" ++ ascii "ddr.arpa." := rfl
    rw [hSplit, ← append_assoc] at hEq
    exact absurd (append_inj_right' hEq (by decide)) (by decide)
  unfold reverseName at h
  cases ha : unmap a with
  | some v4 =>
    cases hb : unmap b with
    | some w4 =>
      rw [ha, hb] at h
      have hReverse := flatMap_injective (fun x => by simp) octet_cut (append_cancel_right h)
      rw [eq_of_unmap ha, eq_of_unmap hb, reverse_injective hReverse]
    | none =>
      rw [ha, hb] at h
      exact absurd h (hEnds _ _)
  | none =>
    cases hb : unmap b with
    | some w4 =>
      rw [ha, hb] at h
      exact absurd h.symm (hEnds _ _)
    | none =>
      rw [ha, hb] at h
      exact reverse_injective
        (flatMap_injective (fun x => by simp) nibbles_cut (append_cancel_right h))

theorem ptrKey_injective {a b : Bytes} (h : ptrKey a = ptrKey b) : a = b := by
  apply reverseName_injective
  rw [(reverseName_split a).1, (reverseName_split b).1, (cons.inj h).2]

/-! ## Their rules -/

variable {lib : CloakText}

theorem toLower_trimDot_reverseName (hLib : lib.toTextLib.Lawful) (ip : Bytes) :
    lib.toLower (trimDot (reverseName ip)) = trimDot (reverseName ip) := by
  have hBytes := trimDot_reverseName_bytes ip
  rw [hLib.toLower_eq _ fun c hc => (isReverseByte_facts (hBytes c hc)).1]
  exact (map_congr_left fun c hc => (isReverseByte_facts (hBytes c hc)).2.1).trans
    (map_id _)

/-- The rule of the reverse name of an address. -/
def ptrRule (ip : Bytes) : NameRule Bytes :=
  { kind := .exactType, key := trimDot (reverseName ip), val := some (ptrKey ip) }

theorem cloakRuleOf_ptrKey (hLib : lib.toTextLib.Lawful) (ip : Bytes) :
    cloakRuleOf lib (ptrKey ip) = some (ptrRule ip) := by
  have hLong := (reverseName_split ip).2
  have hLower := toLower_trimDot_reverseName hLib ip
  have hBytes := trimDot_reverseName_bytes ip
  rw [cloakRuleOf, AddCall.rule?_eq_some]
  refine ⟨?_, rfl⟩
  show patternKey lib.toTextLib ('='.toUInt8 :: trimDot (reverseName ip)) 0 =
    .ok (.exactType, trimDot (reverseName ip))
  generalize trimDot (reverseName ip) = t at *
  have hPlain : IsPlain ('='.toUInt8 :: t) :=
    forall_mem_cons.mpr ⟨rfl, fun c hc => (isReverseByte_facts (hBytes c hc)).2.2⟩
  have hNe : t ≠ [] := by
    rintro rfl
    exact absurd hLong (by decide)
  have hNot : isGlobCandidate ('='.toUInt8 :: t) = false :=
    not_glob_lead (a := []) hPlain (by simp)
  rw [patternKey, classifyPattern_exact hNot hPlain.getLast?_ne rfl,
    if_neg (by rw [length_cons]; omega)]
  dsimp only
  rw [drop_one, tail_cons, if_neg hNe, if_neg (by decide), hLower]

theorem Reads.eq_of_exact {pattern p : Bytes} (h : Reads pattern .exactType p) :
    pattern = '='.toUInt8 :: p := by
  cases h with
  | exact => rfl

/-- An exact rule of a pattern in lower case has the text of the pattern. -/
theorem eq_of_exact (hLib : lib.toTextLib.Lawful) {pattern : Bytes}
    (hLower : lib.toLower pattern = pattern) {r : NameRule Bytes}
    (hRule : cloakRuleOf lib pattern = some r) (hKind : r.kind = .exactType) :
    pattern = '='.toUInt8 :: r.key := by
  obtain ⟨hKey, -⟩ := AddCall.rule?_eq_some.mp hRule
  dsimp only at hKey
  rw [hKind] at hKey
  obtain ⟨p, -, hReads, hKey⟩ := patternKey_eq_ok hKey
  rw [if_neg (by decide)] at hKey
  have hPattern := hReads.eq_of_exact
  rw [hPattern, hLib.toLower_cons _ _ (by decide)] at hLower
  rw [hPattern, hKey, (cons.inj hLower).2]

variable {createPTR : Bool} {lines : Bytes}

theorem toLower_name (hLib : lib.toTextLib.Lawful) {l : CloakLine}
    (hl : l ∈ cloakLines lib lines) : lib.toLower l.name = l.name := by
  obtain ⟨line, -, hLine⟩ := mem_filterMap.mp hl
  unfold cloakLineOf at hLine
  split at hLine
  · dsimp only at hLine
    split at hLine
    · cases hLine
    · rw [← Option.some.inj hLine]
      exact hLib.toLower_toLower _
  · cases hLine

theorem toLower_pattern (hLib : lib.toTextLib.Lawful) {pattern : Bytes}
    (h : IsPattern createPTR (cloakLines lib lines) pattern) : lib.toLower pattern = pattern := by
  rcases h with ⟨l, hl, rfl⟩ | ⟨-, f, before, l, -, -, ip, -, rfl, -⟩
  · exact toLower_name hLib hl
  · rw [ptrKey, ptrEntryToQuery, hLib.toLower_cons _ _ (by decide),
      toLower_trimDot_reverseName hLib]
    rfl

theorem eq_ptrKey_of_exact (hLib : lib.toTextLib.Lawful) {pattern : Bytes}
    (h : IsPattern createPTR (cloakLines lib lines) pattern) {r : NameRule Bytes}
    (hRule : cloakRuleOf lib pattern = some r) (hKind : r.kind = .exactType) {ip : Bytes}
    (hKey : r.key = trimDot (reverseName ip)) : pattern = ptrKey ip := by
  rw [eq_of_exact hLib (toLower_pattern hLib h) hRule hKind, hKey]
  rfl

end DnscryptProxy
