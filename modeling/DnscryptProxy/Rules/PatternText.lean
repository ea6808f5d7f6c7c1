import DnscryptProxy.Rules.Patterns

/-!
# Name patterns as they are written

The forms of a pattern and their documented meaning, for ASCII texts, and
`PatternMatcher.Eval` in these terms:

* `says_iff` — the kind and the key that `Add` finds are the ones of the form;
* `keyMatches_keyFor` — a reversed key with its dot matches a name that is the
  text or ends in a dot and the text;
* `pattern_semantics` — what `Eval` reports after any `Add` calls that succeed.
-/

namespace DnscryptProxy

open Base List Option Except

variable {W : Type}

/-! ## The forms of a pattern -/

/-- A `?`, a `[`, or a `*` that is neither the first nor the last byte. -/
def HasWildcard (pattern : Bytes) : Prop :=
  '?'.toUInt8 ∈ pattern ∨ '['.toUInt8 ∈ pattern ∨ '*'.toUInt8 ∈ (pattern.drop 1).dropLast

/-- A text without wildcards. -/
def IsPlain (text : Bytes) : Prop := ∀ c ∈ text, isMark c = false

/-- The forms of a pattern: a glob, `*p*`, `p*`, `=p`, and `p`, `.p`, `*p`, `*.p`. -/
inductive Reads : Bytes → PatternType → Bytes → Prop
  | glob {pattern : Bytes} : HasWildcard pattern → Reads pattern .patternType pattern
  | substring {p : Bytes} : p ≠ [] → IsPlain p →
      Reads ('*'.toUInt8 :: (p ++ ['*'.toUInt8])) .substringType p
  | starts {p : Bytes} : p ≠ [] → IsPlain p → Reads (p ++ ['*'.toUInt8]) .prefixType p
  | exact {p : Bytes} : p ≠ [] → IsPlain p → Reads ('='.toUInt8 :: p) .exactType p
  | ends {lead p : Bytes} : lead ∈ [[], ascii ".", ascii "*", ascii "*."] →
      -- of two readings the one with the longer lead
      (lead = [] → p.head? ≠ some '='.toUInt8) →
      (lead = [] ∨ lead = ascii "*" → p.head? ≠ some '.'.toUInt8) →
      p ≠ [] → IsPlain p → Reads (lead ++ p) .suffixType p

theorem isGlobCandidateFrom_iff {len i : Nat} {s : Bytes} (hLen : len = i + s.length) :
    isGlobCandidateFrom len i s = true ↔ '?'.toUInt8 ∈ s ∨ '['.toUInt8 ∈ s ∨
        '*'.toUInt8 ∈ (if i = 0 then s.drop 1 else s).dropLast := by
  induction s generalizing i with
  | nil => simp [isGlobCandidateFrom]
  | cons c rest ih =>
    have hRest := ih (i := i + 1) (by rw [hLen, length_cons]; omega)
    rw [if_neg (by omega)] at hRest
    rw [isGlobCandidateFrom]
    by_cases hMark : c = '?'.toUInt8 ∨ c = '['.toUInt8
    · rw [if_pos hMark]
      rcases hMark with rfl | rfl <;> simp
    rw [if_neg hMark]
    obtain ⟨hQuestion, hBracket⟩ := not_or.mp hMark
    -- a `*` counts here unless this is the first or the last byte
    have hStar : '*'.toUInt8 ∈ (if i = 0 then (c :: rest).drop 1 else c :: rest).dropLast ↔
        (c = '*'.toUInt8 ∧ i ≠ 0 ∧ i ≠ len - 1) ∨ '*'.toUInt8 ∈ rest.dropLast := by
      by_cases hi : i = 0
      · simp [hi]
      · rw [if_neg hi]
        cases rest with
        | nil =>
          have hLast : i = len - 1 := by rw [hLen, length_singleton]; omega
          simp [hLast]
        | cons d rest =>
          have hInner : i ≠ len - 1 := by rw [hLen, length_cons, length_cons]; omega
          rw [dropLast_cons_cons, mem_cons, eq_comm]
          simp [hi, hInner]
    rw [hStar, mem_cons, mem_cons, or_iff_right (Ne.symm hQuestion),
      or_iff_right (Ne.symm hBracket)]
    by_cases hHere : c = '*'.toUInt8 ∧ i ≠ 0 ∧ i ≠ len - 1
    · rw [if_pos hHere]
      simp [hHere]
    · rw [if_neg hHere, hRest, or_iff_right hHere]

theorem isGlobCandidate_iff (pattern : Bytes) :
    isGlobCandidate pattern = true ↔ HasWildcard pattern := by
  rw [isGlobCandidate, isGlobCandidateFrom_iff (by omega), if_pos rfl, HasWildcard]

/-- What lies between the first and the last byte of a pattern that is no glob. -/
theorem isPlain_of_not_wildcard {a t b : Bytes} (hWild : ¬ HasWildcard (a ++ t ++ b))
    (hHead : a = [] → t.head? ≠ some '*'.toUInt8)
    (hLast : b = [] → t.getLast? ≠ some '*'.toUInt8) : IsPlain t := by
  rw [HasWildcard, not_or, not_or] at hWild
  obtain ⟨hQuestion, hBracket, hStar⟩ := hWild
  intro c hc
  have hMem : c ∈ a ++ t ++ b := mem_append_left _ (mem_append_right _ hc)
  simp only [isMark, decide_eq_false_iff_not, not_or]
  refine ⟨?_, fun h => hQuestion (h ▸ hMem), fun h => hBracket (h ▸ hMem)⟩
  rintro rfl
  obtain ⟨x, y, rfl⟩ := append_of_mem hc
  apply hStar
  have hBefore : a ++ x ≠ [] := by
    intro h
    obtain ⟨rfl, rfl⟩ := append_eq_nil_iff.mp h
    exact hHead rfl rfl
  have hAfter : y ++ b ≠ [] := by
    intro h
    obtain ⟨rfl, rfl⟩ := append_eq_nil_iff.mp h
    exact hLast rfl (by simp)
  obtain ⟨d, ds, hd⟩ := exists_cons_of_ne_nil hBefore
  have hSplit : a ++ (x ++ '*'.toUInt8 :: y) ++ b = d :: (ds ++ '*'.toUInt8 :: (y ++ b)) := by
    rw [← append_assoc, hd]
    simp
  rw [hSplit, drop_one, tail_cons, dropLast_append_of_ne_nil (by simp),
    dropLast_cons_of_ne_nil hAfter]
  simp

theorem IsPlain.not_mem {t : Bytes} (h : IsPlain t) {c : UInt8} (hc : isMark c = true) : c ∉ t :=
  fun hMem => by simp [h c hMem] at hc

theorem IsPlain.getLast?_ne {t : Bytes} (h : IsPlain t) : t.getLast? ≠ some '*'.toUInt8 :=
  fun hLast => h.not_mem (by decide) (mem_of_getLast? hLast)

theorem IsPlain.head?_ne {t : Bytes} (h : IsPlain t) : t.head? ≠ some '*'.toUInt8 :=
  fun hHead => h.not_mem (by decide) (mem_of_head? hHead)

/-- Leads and trails do not make a plain text a glob. -/
theorem not_glob_append {a t b : Bytes} (h : IsPlain t)
    (ha : a ∈ [[], ascii ".", ascii "*", ascii "*.", ascii "="]) (hb : b = [] ∨ b = ascii "*") :
    isGlobCandidate (a ++ t ++ b) = false := by
  have hInner : ∀ c ∈ ((a ++ t ++ b).drop 1).dropLast, c ∈ (a ++ t).tail := by
    intro c hc
    rcases hb with rfl | rfl
    · rw [append_nil, drop_one] at hc
      exact dropLast_subset _ hc
    · rw [drop_one, ← tail_dropLast] at hc
      rwa [show ascii "*" = ['*'.toUInt8] from rfl, dropLast_concat] at hc
  have hTail : '*'.toUInt8 ∉ (a ++ t).tail := by
    have hStar := h.not_mem (c := '*'.toUInt8) (by decide)
    simp only [mem_cons, not_mem_nil, or_false] at ha
    rcases ha with rfl | rfl | rfl | rfl | rfl
    · exact fun hc => hStar (mem_of_mem_tail hc)
    · exact hStar
    · exact hStar
    · rintro (_ | ⟨_, hc⟩)
      exact hStar hc
    · exact hStar
  have hOther : ∀ c, c = '?'.toUInt8 ∨ c = '['.toUInt8 → c ∉ a ++ t ++ b := by
    intro c hc hMem
    have hEnds : c ∉ a ∧ c ∉ b ∧ isMark c = true := by
      simp only [mem_cons, not_mem_nil, or_false] at ha
      rcases ha with rfl | rfl | rfl | rfl | rfl <;> rcases hb with rfl | rfl <;>
        rcases hc with rfl | rfl <;> decide
    simp only [mem_append, hEnds.1, hEnds.2.1, or_false, false_or] at hMem
    exact h.not_mem hEnds.2.2 hMem
  rw [← Bool.not_eq_true, isGlobCandidate_iff]
  rintro (hMem | hMem | hMem)
  · exact hOther _ (.inl rfl) hMem
  · exact hOther _ (.inr rfl) hMem
  · exact hTail (hInner _ hMem)

theorem not_glob_lead {a t : Bytes} (h : IsPlain t)
    (ha : a ∈ [[], ascii ".", ascii "*", ascii "*.", ascii "="]) :
    isGlobCandidate (a ++ t) = false := by
  have hNot := not_glob_append (b := []) h ha (.inl rfl)
  rwa [append_nil] at hNot

section Classify

variable {lib : TextLib} {pattern : Bytes} {position : Nat}

section

variable (hGlob : isGlobCandidate pattern = false)
include hGlob

theorem classifyPattern_substring
    (hHead : pattern.head? = some '*'.toUInt8) (hLast : pattern.getLast? = some '*'.toUInt8) :
    classifyPattern lib pattern position = if pattern.length < 3 then .error (.syntaxError position)
      else .ok (.substringType, (pattern.drop 1).dropLast) := by
  simp only [classifyPattern, hGlob, hHead, hLast, Bool.false_eq_true, if_false, decide_true,
    Bool.and_self, if_true]

theorem classifyPattern_starts
    (hHead : pattern.head? ≠ some '*'.toUInt8) (hLast : pattern.getLast? = some '*'.toUInt8) :
    classifyPattern lib pattern position = if pattern.length < 2 then .error (.syntaxError position)
      else .ok (.prefixType, pattern.dropLast) := by
  simp only [classifyPattern, hGlob, hHead, hLast, Bool.false_eq_true, if_false, decide_true,
    decide_false, Bool.false_and, if_true]

theorem classifyPattern_exact
    (hLast : pattern.getLast? ≠ some '*'.toUInt8) (hHead : pattern.head? = some '='.toUInt8) :
    classifyPattern lib pattern position = if pattern.length < 2 then .error (.syntaxError position)
      else .ok (.exactType, pattern.drop 1) := by
  simp only [classifyPattern, hGlob, hHead, hLast, Bool.false_eq_true, if_false, decide_false,
    Bool.and_false, if_true]

theorem classifyPattern_ends
    (hLast : pattern.getLast? ≠ some '*'.toUInt8) (hHead : pattern.head? ≠ some '='.toUInt8) :
    classifyPattern lib pattern position = .ok (.suffixType,
        let rest := if pattern.head? = some '*'.toUInt8 then pattern.drop 1 else pattern
        if rest.head? = some '.'.toUInt8 then rest.drop 1 else rest) := by
  simp only [classifyPattern, hGlob, hHead, hLast, Bool.false_eq_true, if_false, decide_false,
    Bool.and_false, decide_eq_true_eq]

end

variable (lib position) in
/-- The form of a pattern, as `Add` finds it. -/
theorem classifyPattern_of_reads {kind : PatternType} {text : Bytes} (h : Reads pattern kind text) :
    classifyPattern lib pattern position = .ok (kind, text) ∨
      ∃ e, classifyPattern lib pattern position = .error e := by
  cases h with
  | glob hWild =>
    unfold classifyPattern
    rw [if_pos ((isGlobCandidate_iff _).mpr hWild)]
    split
    · exact .inr ⟨_, rfl⟩
    · exact .inl rfl
  | substring hNonempty hPlain =>
    left
    have hNot : isGlobCandidate ('*'.toUInt8 :: (text ++ ['*'.toUInt8])) = false :=
      not_glob_append (a := ascii "*") (b := ascii "*") hPlain (by simp) (.inr rfl)
    have hLong : 0 < text.length := length_pos_iff.mpr hNonempty
    rw [classifyPattern_substring hNot rfl (getLast?_concat (l := '*'.toUInt8 :: text)),
      if_neg (by simp only [length_cons, length_append]; omega), drop_one,
      tail_cons, dropLast_concat]
  | starts hNonempty hPlain =>
    left
    have hNot : isGlobCandidate (text ++ ['*'.toUInt8]) = false :=
      not_glob_append (a := []) (b := ascii "*") hPlain (by simp) (.inr rfl)
    have hLong : 0 < text.length := length_pos_iff.mpr hNonempty
    have hHead : (text ++ ['*'.toUInt8]).head? ≠ some '*'.toUInt8 := by
      rw [head?_append_of_ne_nil _ hNonempty]
      exact hPlain.head?_ne
    rw [classifyPattern_starts hNot hHead getLast?_concat,
      if_neg (by simp only [length_cons, length_append]; omega), dropLast_concat]
  | exact hNonempty hPlain =>
    left
    have hNot : isGlobCandidate ('='.toUInt8 :: text) = false :=
      not_glob_lead (a := ascii "=") hPlain (by simp)
    have hLong : 0 < text.length := length_pos_iff.mpr hNonempty
    have hLast : ('='.toUInt8 :: text).getLast? ≠ some '*'.toUInt8 := by
      rw [getLast?_cons_of_ne_nil hNonempty]
      exact hPlain.getLast?_ne
    rw [classifyPattern_exact hNot hLast rfl, if_neg (by simp only [length_cons]; omega),
      drop_one, tail_cons]
  | @ends lead _ hLead hEq hDot hNonempty hPlain =>
    left
    have hNot := not_glob_lead hPlain (mem_append_left [ascii "="] hLead)
    have hLast : (lead ++ text).getLast? ≠ some '*'.toUInt8 := by
      rw [getLast?_append_of_ne_nil _ hNonempty]
      exact hPlain.getLast?_ne
    simp only [mem_cons, not_mem_nil, or_false] at hLead
    rcases hLead with rfl | rfl | rfl | rfl
    · rw [classifyPattern_ends hNot hLast (hEq rfl)]
      simp only [nil_append, if_neg hPlain.head?_ne, if_neg (hDot (.inl rfl))]
    · rw [classifyPattern_ends hNot hLast (show some '.'.toUInt8 ≠ _ by decide)]
      rfl
    · rw [classifyPattern_ends hNot hLast (show some '*'.toUInt8 ≠ _ by decide)]
      show ok (_, if text.head? = some _ then _ else text) = _
      rw [if_neg (hDot (.inr rfl))]
    · rw [classifyPattern_ends hNot hLast (show some '*'.toUInt8 ≠ _ by decide)]
      rfl

theorem reads_of_classifyPattern {kind : PatternType} {text : Bytes}
    (h : classifyPattern lib pattern position = .ok (kind, text)) (hText : text ≠ []) :
    Reads pattern kind text := by
  cases hGlob : isGlobCandidate pattern with
  | true =>
    unfold classifyPattern at h
    rw [if_pos hGlob] at h
    split at h <;> cases h
    exact .glob ((isGlobCandidate_iff _).mp hGlob)
  | false =>
  have hWild : ¬ HasWildcard pattern := by
    rw [← isGlobCandidate_iff, hGlob]
    decide
  by_cases hLast : pattern.getLast? = some '*'.toUInt8
  · obtain ⟨front, rfl⟩ := getLast?_eq_some_iff.mp hLast
    by_cases hHead : (front ++ ['*'.toUInt8]).head? = some '*'.toUInt8
    · rw [classifyPattern_substring hGlob hHead hLast] at h
      split at h
      · cases h
      · next hLong =>
        cases front with
        | nil => simp at hLong
        | cons c t =>
          cases h
          obtain rfl : c = '*'.toUInt8 := by simpa using hHead
          simp only [cons_append, drop_one, tail_cons, dropLast_concat] at hText ⊢
          exact .substring hText
            (isPlain_of_not_wildcard (a := ['*'.toUInt8]) hWild (by simp) (by simp))
    · rw [classifyPattern_starts hGlob hHead hLast] at h
      split at h <;> cases h
      rw [dropLast_concat] at hText ⊢
      rw [head?_append_of_ne_nil _ hText] at hHead
      exact .starts hText
        (isPlain_of_not_wildcard (a := []) hWild (fun _ => hHead) (by simp))
  · by_cases hHead : pattern.head? = some '='.toUInt8
    · rw [classifyPattern_exact hGlob hLast hHead] at h
      split at h <;> cases h
      obtain ⟨rest, rfl⟩ := head?_eq_some_iff.mp hHead
      have hRest : rest.getLast? ≠ some '*'.toUInt8 := by
        rwa [getLast?_cons_of_ne_nil (show rest ≠ [] from hText)] at hLast
      exact .exact hText
        (isPlain_of_not_wildcard (a := ['='.toUInt8]) (b := []) (by simpa using hWild) (by simp)
          fun _ => hRest)
    · rw [classifyPattern_ends hGlob hLast hHead] at h
      have hEnds : ∀ lead ∈ [[], ascii ".", ascii "*", ascii "*."], pattern = lead ++ text →
          (lead = [] → text.head? ≠ some '*'.toUInt8) →
          (lead = [] ∨ lead = ascii "*" → text.head? ≠ some '.'.toUInt8) →
          Reads pattern .suffixType text := by
        rintro lead hLead rfl hStar hDot
        rw [getLast?_append_of_ne_nil _ hText] at hLast
        refine .ends hLead ?_ hDot hText
          (isPlain_of_not_wildcard (b := []) (by rwa [append_nil]) hStar fun _ => hLast)
        rintro rfl
        exact hHead
      -- the star goes first, then the dot
      by_cases hStar : pattern.head? = some '*'.toUInt8
      · obtain ⟨rest, rfl⟩ := head?_eq_some_iff.mp hStar
        rw [if_pos hStar, drop_one, tail_cons] at h
        by_cases hDot : rest.head? = some '.'.toUInt8
        · obtain ⟨rest, rfl⟩ := head?_eq_some_iff.mp hDot
          cases h
          exact hEnds (ascii "*.") (by simp) rfl (by simp [ascii]) (by simp [ascii])
        · rw [if_neg hDot] at h
          cases h
          exact hEnds (ascii "*") (by simp) rfl (by simp [ascii]) fun _ => hDot
      · rw [if_neg hStar] at h
        by_cases hDot : pattern.head? = some '.'.toUInt8
        · obtain ⟨rest, rfl⟩ := head?_eq_some_iff.mp hDot
          cases h
          exact hEnds (ascii ".") (by simp) rfl (by simp [ascii])
            fun h => absurd h (by decide)
        · rw [if_neg hDot] at h
          cases h
          exact hEnds [] (by simp) rfl (fun _ => hStar) fun _ => hDot

/-- The pattern of a call that succeeds, and the key of its text. -/
theorem patternKey_eq_ok {kind : PatternType} {key : Bytes}
    (h : patternKey lib pattern position = .ok (kind, key)) :
    ∃ p, classifyPattern lib pattern position = .ok (kind, p) ∧ Reads pattern kind p ∧
      key = if kind = .suffixType then lib.stringReverse (lib.toLower p) ++ ['.'.toUInt8]
        else lib.toLower p := by
  unfold patternKey at h
  split at h
  · cases h
  · next p hClassify =>
    split at h
    · cases h
    · next hText =>
      obtain ⟨rfl, rfl⟩ := h
      exact ⟨p, hClassify, reads_of_classifyPattern hClassify hText, rfl⟩

end Classify

variable {lib : TextLib} {kind : PatternType}

/-! ## Their meaning -/

/-- The kind and the lower-case text of a pattern. -/
def Says (pattern : Bytes) (kind : PatternType) (text : Bytes) : Prop :=
  ∃ p, Reads pattern kind p ∧ text = p.map lowerByte

/-- The documented meaning of a text. -/
def Means (glob : Bytes → Bytes → Bool) (kind : PatternType) (text q : Bytes) : Prop :=
  match kind with
  | .exactType => q = text
  | .suffixType => q = text ∨ '.'.toUInt8 :: text <:+ q
  | .prefixType => text <+: q
  | .substringType => text <:+: q
  | .patternType => glob text q = true

/-- The key under which a text is kept. -/
def keyFor (kind : PatternType) (text : Bytes) : Bytes :=
  if kind = .suffixType then text.reverse ++ ['.'.toUInt8] else text

theorem keyFor_injective {a b : Bytes} (h : keyFor kind a = keyFor kind b) :
    a = b := by
  unfold keyFor at h
  split at h
  · exact reverse_injective (append_cancel_right h)
  · exact h

theorem length_keyFor (kind : PatternType) (a b : Bytes) :
    (keyFor kind a).length ≤ (keyFor kind b).length ↔ a.length ≤ b.length := by
  unfold keyFor
  split <;> simp

theorem keyMatches_keyFor {glob : Bytes → Bytes → Bool} (hLib : lib.Lawful)
    {q : Bytes} (hq : IsAscii q) (kind : PatternType) (text : Bytes) :
    keyMatches lib glob kind (keyFor kind text) q = true ↔ Means glob kind text q := by
  cases kind with
  | exactType => simp [keyMatches, keyFor, Means]
  | suffixType =>
    have hRev : ∀ s : Bytes, s.reverse ++ ['.'.toUInt8] = ('.'.toUInt8 :: s).reverse := fun s => by
      rw [reverse_cons]
    simp only [keyMatches, keyFor, Means, if_true, decide_eq_true_eq, hLib.stringReverse_eq q hq,
      hRev, reverse_prefix, suffix_cons_iff, cons.injEq, true_and]
    rw [eq_comm]
  | prefixType => simp [keyMatches, keyFor, Means]
  | substringType => simp [keyMatches, keyFor, Means]
  | patternType => simp [keyMatches, keyFor, Means]

theorem IsAscii.map_lowerByte {s : Bytes} (h : IsAscii s) : IsAscii (s.map lowerByte) := by
  intro c hc
  obtain ⟨b, hb, rfl⟩ := mem_map.mp hc
  have hAll : ∀ n < 256, UInt8.ofNat n < 128 → lowerByte (UInt8.ofNat n) < 128 := by
    decide +kernel
  have := hAll b.toNat b.toNat_lt
  rw [UInt8.ofNat_toNat] at this
  exact this (h b hb)

theorem Reads.subset {pattern : Bytes} {p : Bytes} (h : Reads pattern kind p) : p ⊆ pattern := by
  cases h with
  | glob => exact List.Subset.refl _
  | substring => exact fun c hc => mem_cons_of_mem _ (mem_append_left _ hc)
  | starts => exact subset_append_left _ _
  | exact => exact subset_cons_self _ _
  | ends => exact subset_append_right _ _

theorem says_iff (hLib : lib.Lawful) {pattern : Bytes} (hAscii : IsAscii pattern)
    {position : Nat} {key : Bytes}
    (h : patternKey lib pattern position = .ok (kind, key)) :
    ∃ text, key = keyFor kind text ∧
      ∀ kind' text', Says pattern kind' text' ↔ kind' = kind ∧ text' = text := by
  obtain ⟨p, hClassify, hReads, rfl⟩ := patternKey_eq_ok h
  have hp : IsAscii p := fun c hc => hAscii c (hReads.subset hc)
  rw [hLib.toLower_eq p hp, hLib.stringReverse_eq _ hp.map_lowerByte]
  refine ⟨p.map lowerByte, rfl, fun kind' text' => ⟨?_, ?_⟩⟩
  · rintro ⟨p', hReads', rfl⟩
    rcases classifyPattern_of_reads lib position hReads' with h' | ⟨e, h'⟩
    · rw [hClassify] at h'
      cases h'
      exact ⟨rfl, rfl⟩
    · rw [hClassify] at h'
      cases h'
  · rintro ⟨rfl, rfl⟩
    exact ⟨p, hReads, rfl⟩

/-! ## `Add` calls -/

/-- The arguments of an `Add` call. -/
structure AddCall (W : Type) where
  pattern : Bytes
  val : Option W
  position : Nat
deriving Repr, DecidableEq

/-- The rule that a call adds. -/
def AddCall.rule? (lib : TextLib) (c : AddCall W) : Option (NameRule W) :=
  match patternKey lib c.pattern c.position with
  | .ok (kind, key) => some { kind, key, val := c.val }
  | .error _ => none

/-- One `Add` call after the other; they stop at an error. -/
def PatternMatcher.addAll (lib : TextLib) (m : PatternMatcher W) :
    List (AddCall W) → Except RuleError (PatternMatcher W)
  | [] => .ok m
  | c :: rest =>
    match m.add lib c.pattern c.val c.position with
    | .error e => .error e
    | .ok m => m.addAll lib rest

theorem AddCall.rule?_eq_some {c : AddCall W} {r : NameRule W} :
    c.rule? lib = some r ↔
      patternKey lib c.pattern c.position = .ok (r.kind, r.key) ∧ r.val = c.val := by
  unfold AddCall.rule?
  obtain ⟨kind, key, val⟩ := r
  split
  · next kind' key' h =>
    simp only [h, some.injEq, NameRule.mk.injEq, ok.injEq, Prod.mk.injEq, and_assoc,
      eq_comm (a := val)]
  · next h => simp [h]

theorem addAll_eq_ok {calls : List (AddCall W)} {m m' : PatternMatcher W} :
    m.addAll lib calls = .ok m' ↔ (∀ c ∈ calls, (c.rule? lib).isSome = true) ∧
        m' = (calls.filterMap (AddCall.rule? lib)).foldl
          (fun m r => m.insert r.kind r.key r.val) m := by
  induction calls generalizing m with
  | nil =>
    simp only [PatternMatcher.addAll, ok.injEq, not_mem_nil, false_implies,
      implies_true, filterMap_nil, foldl_nil, true_and]
    exact eq_comm
  | cons c rest ih =>
    unfold PatternMatcher.addAll
    rw [PatternMatcher.add_eq]
    cases hKey : patternKey lib c.pattern c.position with
    | error e =>
      have hNone : c.rule? lib = none := by rw [AddCall.rule?, hKey]
      refine iff_of_false (fun h => nomatch h) fun h => ?_
      have := h.1 c mem_cons_self
      rw [hNone] at this
      cases this
    | ok k =>
      have hRule : c.rule? lib = some { kind := k.1, key := k.2, val := c.val } := by
        rw [AddCall.rule?_eq_some]
        exact ⟨hKey, rfl⟩
      rw [forall_mem_cons, filterMap_cons, hRule, and_assoc]
      show (m.insert k.1 k.2 c.val).addAll lib rest = .ok m' ↔ _
      rw [ih]
      exact (and_iff_right rfl).symm

/-! ### Substrings and globs have different texts -/

theorem Reads.isPlain_substring {pattern p : Bytes} (h : Reads pattern .substringType p) :
    IsPlain p := by
  cases h with
  | substring _ hPlain => exact hPlain

theorem Reads.exists_mark {pattern p : Bytes} (h : Reads pattern .patternType p) :
    ∃ b ∈ p, isMark b = true := by
  cases h with
  | glob hWild =>
    rcases hWild with hb | hb | hb
    · exact ⟨_, hb, by decide⟩
    · exact ⟨_, hb, by decide⟩
    · exact ⟨_, mem_of_mem_drop (dropLast_subset _ hb), by decide⟩

/-- A substring has no wildcard left, and a glob keeps one. -/
theorem mark_iff_of_rule? (hLib : lib.Lawful) {c : AddCall W} {r : NameRule W}
    (h : c.rule? lib = some r) :
    (r.kind = .substringType → ∀ b ∈ r.key, isMark b = false) ∧
      (r.kind = .patternType → ∃ b ∈ r.key, isMark b = true) := by
  obtain ⟨hKey, -⟩ := AddCall.rule?_eq_some.mp h
  obtain ⟨p, -, hReads, hKey⟩ := patternKey_eq_ok hKey
  constructor
  · intro hKind b hb
    rw [hKind] at hKey hReads
    rw [hKey] at hb
    cases hMark : isMark b with
    | false => rfl
    | true =>
      exact absurd ((hLib.mark_mem_toLower p b hMark).mp hb)
        (hReads.isPlain_substring.not_mem hMark)
  · intro hKind
    rw [hKind] at hKey hReads
    rw [hKey]
    obtain ⟨b, hb, hMark⟩ := hReads.exists_mark
    exact ⟨b, (hLib.mark_mem_toLower p b hMark).mpr hb, hMark⟩

theorem separate_rules (hLib : lib.Lawful) {rules : List (NameRule W)}
    (hRules : ∀ r ∈ rules, ∃ c : AddCall W, c.rule? lib = some r) : Separate rules := by
  intro r hr r' hr' hKind hKind' hEq
  obtain ⟨c, hc⟩ := hRules r hr
  obtain ⟨c', hc'⟩ := hRules r' hr'
  obtain ⟨b, hb, hMark⟩ := (mark_iff_of_rule? hLib hc').2 hKind'
  have := (mark_iff_of_rule? hLib hc).1 hKind b (hEq ▸ hb)
  rw [hMark] at this
  cases this

/-! ## What `Eval` reports -/

section Semantics

variable (glob : Bytes → Bytes → Bool)

/-- The pattern of the call matches the name. -/
def AddCall.Matches (q : Bytes) (c : AddCall W) : Prop :=
  ∃ kind text, Says c.pattern kind text ∧ Means glob kind text q

/-- The text that comes first in the order exact, longest suffix, longest
prefix, earliest substring, earliest glob. -/
structure Preferred (calls : List (AddCall W)) (q : Bytes) (kind : PatternType) (text : Bytes) :
    Prop where
  added : ∃ c ∈ calls, Says c.pattern kind text
  hit : Means glob kind text q
  rank_le : ∀ c ∈ calls, ∀ kind' text', Says c.pattern kind' text' → Means glob kind' text' q →
    kind.rank ≤ kind'.rank
  longest : kind = .suffixType ∨ kind = .prefixType → ∀ c ∈ calls, ∀ text',
    Says c.pattern kind text' → Means glob kind text' q → text'.length ≤ text.length
  earliest : kind = .substringType ∨ kind = .patternType →
    ∃ before c after, calls = before ++ c :: after ∧ Says c.pattern kind text ∧
      ∀ b ∈ before, ∀ text', Says b.pattern kind text' → ¬ Means glob kind text' q

/-- The value that is kept for a text: in a trie the one of the first call, in a
map the one of the last. -/
def KeptValue (calls : List (AddCall W)) (kind : PatternType) (text : Bytes) (val : Option W) :
    Prop :=
  ∃ before c after, calls = before ++ c :: after ∧ Says c.pattern kind text ∧ c.val = val ∧
    ∀ other ∈ (if kind = .suffixType ∨ kind = .prefixType then before else after),
      ¬ Says other.pattern kind text

variable {glob} {lib : TextLib}

/-- The calls around the one that added a rule. -/
theorem split_rules {calls : List (AddCall W)} {before after : List (NameRule W)} {r : NameRule W}
    (h : calls.filterMap (AddCall.rule? lib) = before ++ r :: after) :
    ∃ before' c after', calls = before' ++ c :: after' ∧ c.rule? lib = some r ∧
      before'.filterMap (AddCall.rule? lib) = before ∧
      after'.filterMap (AddCall.rule? lib) = after := by
  obtain ⟨before', rest, rfl, hBefore, hRest⟩ := filterMap_eq_append_iff.mp h
  obtain ⟨skipped, c, after', rfl, hSkipped, hRule, hAfter⟩ := filterMap_eq_cons_iff.mp hRest
  refine ⟨before' ++ skipped, c, after', by simp, hRule, ?_, hAfter⟩
  rw [filterMap_append, hBefore, filterMap_eq_nil_iff.mpr hSkipped, append_nil]

variable (hLib : lib.Lawful)
include hLib

theorem says_iff_rule {c : AddCall W} {r : NameRule W} (hAscii : IsAscii c.pattern)
    (h : c.rule? lib = some r) (kind : PatternType) (text : Bytes) :
    Says c.pattern kind text ↔ r.kind = kind ∧ r.key = keyFor kind text := by
  obtain ⟨text₀, hKey, hSays⟩ := says_iff hLib hAscii (AddCall.rule?_eq_some.mp h).1
  rw [hSays, hKey]
  constructor
  · rintro ⟨rfl, rfl⟩
    exact ⟨rfl, rfl⟩
  · rintro ⟨rfl, hEq⟩
    exact ⟨rfl, (keyFor_injective hEq).symm⟩

theorem exists_says {c : AddCall W} {r : NameRule W} (hAscii : IsAscii c.pattern)
    (h : c.rule? lib = some r) :
    ∃ text, r.key = keyFor r.kind text ∧ Says c.pattern r.kind text := by
  obtain ⟨text, hKey, hSays⟩ := says_iff hLib hAscii (AddCall.rule?_eq_some.mp h).1
  exact ⟨text, hKey, (hSays _ _).mpr ⟨rfl, rfl⟩⟩

variable {calls : List (AddCall W)} (hAscii : ∀ c ∈ calls, IsAscii c.pattern)
  (hAll : ∀ c ∈ calls, (c.rule? lib).isSome = true)
include hAscii hAll

/-- The value that the matcher has for a text. -/
theorem keptValue_of_notReplaced {before after : List (NameRule W)} {r : NameRule W} {text : Bytes}
    (hRules : calls.filterMap (AddCall.rule? lib) = before ++ r :: after)
    (hText : r.key = keyFor r.kind text) (hKept : NotReplaced before r after) :
    KeptValue calls r.kind text r.val := by
  obtain ⟨before', c, after', rfl, hRule, rfl, rfl⟩ := split_rules hRules
  have hSays := says_iff_rule hLib (hAscii c (by simp)) hRule r.kind text
  refine ⟨before', c, after', rfl, hSays.mpr ⟨rfl, hText⟩, ?_, fun o ho hOther => ?_⟩
  · exact (AddCall.rule?_eq_some.mp hRule).2.symm
  -- a call with the same text would have a rule with the same key
  have hMem : o ∈ before' ++ c :: after' := by
    split at ho
    · exact mem_append_left _ ho
    · exact mem_append_right _ (mem_cons_of_mem _ ho)
  obtain ⟨r', hr'⟩ := isSome_iff_exists.mp (hAll o hMem)
  obtain ⟨hKind, hKey⟩ := (says_iff_rule hLib (hAscii o hMem) hr' r.kind text).mp hOther
  refine hKept r' ?_ ⟨hKind, hKey.trans hText.symm⟩
  split at ho
  · next hTrie =>
    rw [if_pos hTrie]
    exact mem_filterMap.mpr ⟨o, ho, hr'⟩
  · next hTrie =>
    rw [if_neg hTrie]
    exact mem_filterMap.mpr ⟨o, ho, hr'⟩

/-- A call that says something has a rule, which matches what the text means. -/
theorem exists_rule {q : Bytes} (hq : IsAscii q) {c : AddCall W} (hc : c ∈ calls)
    {kind : PatternType} {text : Bytes} (hSays : Says c.pattern kind text)
    (hMeans : Means glob kind text q) :
    ∃ r, c.rule? lib = some r ∧ r ∈ calls.filterMap (AddCall.rule? lib) ∧ r.kind = kind ∧
      r.key = keyFor kind text ∧ r.matches lib glob q = true := by
  obtain ⟨r, hr⟩ := isSome_iff_exists.mp (hAll c hc)
  obtain ⟨rfl, hKey⟩ := (says_iff_rule hLib (hAscii c hc) hr kind text).mp hSays
  refine ⟨r, hr, mem_filterMap.mpr ⟨c, hc, hr⟩, rfl, hKey, ?_⟩
  rw [NameRule.matches, hKey]
  exact (keyMatches_keyFor hLib hq r.kind text).mpr hMeans

/-- The rule that the matcher selects is the preferred one. -/
theorem preferred_of_chosen {q : Bytes} (hq : IsAscii q) {kind : PatternType} {key : Bytes}
    (h : Chosen lib glob (calls.filterMap (AddCall.rule? lib)) q kind key) :
    ∃ text, key = keyFor kind text ∧ Preferred glob calls q kind text := by
  obtain ⟨r₀, hr₀, hKind, hKey⟩ := mem_keysOf.mp h.mem
  obtain ⟨c₀, hc₀, hRule₀⟩ := mem_filterMap.mp hr₀
  obtain ⟨text, hText, hSays₀⟩ := exists_says hLib (hAscii c₀ hc₀) hRule₀
  rw [hKind] at hText hSays₀
  rw [hKey] at hText
  subst hText
  have hHit := (keyMatches_keyFor hLib hq kind text).mp h.hit
  refine ⟨text, rfl, ⟨⟨c₀, hc₀, hSays₀⟩, hHit, ?_, ?_, ?_⟩⟩
  · intro c hc kind' text' hSays hMeans
    obtain ⟨r, -, hr, rfl, -, hMatch⟩ := exists_rule hLib hAscii hAll hq hc hSays hMeans
    exact h.rank_le r hr hMatch
  · intro hLongest c hc text' hSays hMeans
    obtain ⟨r, -, hr, hrKind, hrKey, hMatch⟩ := exists_rule hLib hAscii hAll hq hc hSays hMeans
    have := h.longest hLongest r hr hrKind hMatch
    rwa [hrKey, length_keyFor] at this
  · intro hEarliest
    obtain ⟨r, hr, hrKey⟩ := map_eq_some_iff.mp (h.earliest hEarliest)
    obtain ⟨hMatch, before, after, hSplit, hBefore⟩ := find?_eq_some_iff_append.mp hr
    obtain ⟨before', c, after', rfl, hcRule, rfl, -⟩ := split_rules hSplit
    simp only [Bool.and_eq_true, decide_eq_true_eq] at hMatch
    refine ⟨before', c, after', rfl, ?_, fun b hb text' hSays hMeans => ?_⟩
    · exact (says_iff_rule hLib (hAscii c (by simp)) hcRule kind text).mpr ⟨hMatch.1, hrKey⟩
    · have hb' : b ∈ before' ++ c :: after' := mem_append_left _ hb
      obtain ⟨r', hr', -, hKind', -, hMatch'⟩ :=
        exists_rule hLib hAscii hAll hq hb' hSays hMeans
      have := hBefore r' (mem_filterMap.mpr ⟨b, hb, hr'⟩)
      simp [hKind', hMatch'] at this

theorem matches_rules_iff {q : Bytes} (hq : IsAscii q) :
    (∃ r ∈ calls.filterMap (AddCall.rule? lib), r.matches lib glob q = true) ↔
      ∃ c ∈ calls, c.Matches glob q := by
  constructor
  · rintro ⟨r, hr, hMatch⟩
    obtain ⟨c, hc, hRule⟩ := mem_filterMap.mp hr
    obtain ⟨text, hText, hSays⟩ := exists_says hLib (hAscii c hc) hRule
    rw [NameRule.matches, hText] at hMatch
    exact ⟨c, hc, r.kind, text, hSays, (keyMatches_keyFor hLib hq r.kind text).mp hMatch⟩
  · rintro ⟨c, hc, kind, text, hSays, hMeans⟩
    obtain ⟨r, -, hr, -, -, hMatch⟩ := exists_rule hLib hAscii hAll hq hc hSays hMeans
    exact ⟨r, hr, hMatch⟩

omit hAll in
/-- After `Add` calls that succeed, `Eval` reports a match of an ASCII name iff
some pattern matches it as documented, and with it the value that is kept for
the preferred text. -/
theorem pattern_semantics {m : PatternMatcher W}
    (hAdd : (newPatternMatcher W).addAll lib calls = .ok m) (q : Bytes) (hq : IsAscii q)
    (hLong : 2 ≤ q.length) :
    ((m.eval lib glob q).isSome = true ↔ ∃ c ∈ calls, c.Matches glob q) ∧
      ∀ reason val, m.eval lib glob q = some (reason, val) →
        ∃ kind text, Preferred glob calls q kind text ∧ KeptValue calls kind text val := by
  obtain ⟨hAll, hm⟩ := addAll_eq_ok.mp hAdd
  have hm' : m = matcherOf (calls.filterMap (AddCall.rule? lib)) := hm
  have hSep : Separate (calls.filterMap (AddCall.rule? lib)) :=
    separate_rules hLib fun r hr => (mem_filterMap.mp hr).imp fun _ hc => hc.2
  rw [hm']
  constructor
  · rw [eval_matcherOf hSep, isSome_map, select_isSome hLong, matches_rules_iff hLib hAscii hAll hq]
  · intro reason val h
    obtain ⟨before, r, after, hRules, hCharge, -, rfl⟩ := (eval_eq_some hSep).mp h
    have hChosen := hCharge.chosen
    rw [← hRules] at hChosen
    obtain ⟨text, hText, hPreferred⟩ := preferred_of_chosen hLib hAscii hAll hq hChosen
    exact ⟨r.kind, text, hPreferred,
      keptValue_of_notReplaced hLib hAscii hAll hRules hText hCharge.kept⟩

end Semantics

/-- A rule of every kind, and a suffix that is written twice. -/
def sampleCalls : List (AddCall Nat) :=
  [⟨ascii "*a?s*", some 0, 1⟩, ⟨ascii "*ADS*", some 1, 2⟩, ⟨ascii "ads.*", some 2, 3⟩,
    ⟨ascii ".Example.com", some 3, 4⟩, ⟨ascii "*.example.com", some 4, 5⟩,
    ⟨ascii "=www.example.com", some 5, 6⟩]

theorem sampleCalls_semantics :
    ∃ m, (newPatternMatcher Nat).addAll asciiText sampleCalls = .ok m ∧
      ((m.eval asciiText (fun _ _ => true) (ascii "ads.example.com")).isSome = true ↔
        ∃ c ∈ sampleCalls, c.Matches (fun _ _ => true) (ascii "ads.example.com")) ∧
      ∀ reason val, m.eval asciiText (fun _ _ => true) (ascii "ads.example.com") =
          some (reason, val) →
        ∃ kind text, Preferred (fun _ _ => true) sampleCalls (ascii "ads.example.com") kind text ∧
          KeptValue sampleCalls kind text val := by
  have hAscii : ∀ c ∈ sampleCalls, ∀ b ∈ c.pattern, b < 128 := by decide +kernel
  obtain ⟨m, hAdd⟩ : ∃ m, (newPatternMatcher Nat).addAll asciiText sampleCalls = .ok m :=
    ⟨_, rfl⟩
  have hName : ∀ b ∈ ascii "ads.example.com", b < 128 := by decide +kernel
  exact ⟨m, hAdd, pattern_semantics asciiText_lawful hAscii hAdd _ hName (by decide +kernel)⟩

end DnscryptProxy
