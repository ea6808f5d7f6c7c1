import Mathlib.Data.List.Infix

/-!
# Words in texts

A text is cut at every occurrence of a marker, from the left. And the words of a set are dropped
from both ends of a text, as long as there are any, as blanks are.

* `splitWord_render` — parts with a marker in front of each are found again, if no part holds
  the marker and the marker does not overlap itself;
* `trimWords_spec`, `trimWords_eq` — what is left of a text is its one part without a word at
  either end, between words.
-/

namespace DnscryptProxy.Base

open List

variable {α : Type}

/-- A front of two texts put together ends in the first or in the second. -/
theorem prefix_append_cases {a b c : List α} (h : a <+: b ++ c) :
    a <+: b ∨ ∃ d, d ≠ [] ∧ a = b ++ d ∧ d <+: c := by
  rcases prefix_or_prefix_of_prefix h (prefix_append b c) with hFront | ⟨d, rfl⟩
  · exact .inl hFront
  · cases d with
    | nil => exact .inl (by rw [append_nil])
    | cons x d =>
      exact .inr ⟨x :: d, cons_ne_nil x d, rfl, (prefix_append_right_inj b).mp h⟩

theorem suffix_append_cases {a b c : List α} (h : a <:+ c ++ b) :
    a <:+ b ∨ ∃ d, d ≠ [] ∧ a = d ++ b ∧ d <:+ c := by
  rw [← reverse_prefix, reverse_append] at h
  rcases prefix_append_cases h with hFront | ⟨d, hd, hEq, hRest⟩
  · exact .inl <| reverse_prefix.mp hFront
  · refine .inr ⟨d.reverse, by simpa using hd, ?_, ?_⟩
    · rw [← reverse_reverse a, hEq, reverse_append, reverse_reverse]
    · rw [← reverse_prefix, reverse_reverse]
      exact hRest

/-- A text without a separator stands in one of the parts that the separator joins. -/
theorem infix_append_cases {m a b : List α} {c : α} (hc : c ∉ m) (h : m <:+: a ++ c :: b) :
    m <:+: a ∨ m <:+: b := by
  obtain ⟨t, hFront, hBack⟩ := infix_iff_prefix_suffix.mp h
  rcases suffix_append_cases hBack with hIn | ⟨d, -, rfl, hd⟩
  · rcases suffix_cons_iff.mp hIn with rfl | hIn
    · cases m with
      | nil => exact .inl nil_infix
      | cons x m =>
        obtain rfl := (cons_prefix_cons.mp hFront).1
        exact absurd mem_cons_self hc
    · exact .inr (hFront.isInfix.trans hIn.isInfix)
  · rcases prefix_append_cases hFront with hIn | ⟨e, he, rfl, hRest⟩
    · exact .inl (hIn.isInfix.trans hd.isInfix)
    · obtain ⟨x, e, rfl⟩ := exists_cons_of_ne_nil he
      obtain rfl := (cons_prefix_cons.mp hRest).1
      exact absurd (mem_append_right _ mem_cons_self) hc

/-! ## Markers -/

/-- No front of the marker is an end of it. -/
def Borderless (m : List α) : Prop := ∀ u, u <+: m → u <:+ m → u = [] ∨ u = m

/-- A marker that does not overlap itself begins only where it was put. -/
theorem Borderless.not_at_front {m : List α} (h : Borderless m) {t : List α} (ht : t ≠ [])
    (hNot : ¬ m <:+: t) (s : List α) : ¬ m <+: t ++ (m ++ s) := by
  intro hFront
  rcases prefix_append_cases hFront with hIn | ⟨d, hd, hEq, hRest⟩
  · exact hNot hIn.isInfix
  · have hLen : m.length = t.length + d.length := by rw [hEq, length_append]
    have hPos := length_pos_of_ne_nil ht
    -- the end of the marker would be a front of it
    have hBorder : d <+: m :=
      prefix_of_prefix_length_le hRest (prefix_append m s) (by omega)
    rcases h d hBorder ⟨t, hEq.symm⟩ with rfl | rfl
    · exact hd rfl
    · omega

/-! ## Words -/

/-- A text that is made of words. -/
inductive Blank (words : List (List α)) : List α → Prop where
  | nil : Blank words []
  | cons {w s : List α} : w ∈ words → Blank words s → Blank words (w ++ s)

/-- A text without a word at its ends. -/
structure Bare (words : List (List α)) (s : List α) : Prop where
  front : ∀ w ∈ words, ¬ w <+: s
  back : ∀ w ∈ words, ¬ w <:+ s

/-- Words that can be told apart from both sides, and whose first element is inside of none. -/
structure WordCode (words : List (List α)) : Prop where
  ne_nil : ∀ w ∈ words, w ≠ []
  front_free : ∀ w ∈ words, ∀ w' ∈ words, w <+: w' → w = w'
  back_free : ∀ w ∈ words, ∀ w' ∈ words, w <:+ w' → w = w'
  first : ∀ w ∈ words, ∀ a ∈ w.tail, ∀ w' ∈ words, w'.head? ≠ some a

section Words

variable {words : List (List α)} {s t : List α}

theorem Blank.append (hs : Blank words s) (ht : Blank words t) : Blank words (s ++ t) := by
  induction hs with
  | nil => exact ht
  | cons hw _ ih =>
    rw [append_assoc]
    exact .cons hw ih

theorem Blank.of_mem {w : List α} (hw : w ∈ words) : Blank words w := by
  have h := Blank.cons hw .nil
  rwa [append_nil] at h

theorem Blank.reverse (h : Blank words s) : Blank (words.map reverse) s.reverse := by
  induction h with
  | nil => exact .nil
  | cons hw _ ih =>
    rw [reverse_append]
    exact ih.append (.of_mem (mem_map_of_mem hw))

theorem Blank.of_reverse (h : Blank (words.map List.reverse) s) : Blank words s.reverse := by
  have hTwice := h.reverse
  rwa [map_map, reverse_involutive.comp_self, map_id] at hTwice

theorem Blank.exists_last (h : Blank words s) (hNe : s ≠ []) :
    ∃ y, ∃ v ∈ words, s = y ++ v := by
  induction h with
  | nil => exact absurd rfl hNe
  | @cons w s hw _ ih =>
    by_cases hs : s = []
    · exact ⟨[], w, hw, by rw [hs, append_nil, nil_append]⟩
    · obtain ⟨y, v, hv, hEq⟩ := ih hs
      exact ⟨w ++ y, v, hv, by rw [hEq, append_assoc]⟩

theorem Blank.mem {a : α} (h : Blank words s) (ha : a ∈ s) : ∃ w ∈ words, a ∈ w := by
  induction h with
  | nil => cases ha
  | @cons w s hw _ ih =>
    rcases mem_append.mp ha with hIn | hIn
    · exact ⟨w, hw, hIn⟩
    · exact ih hIn

/-- A text that begins and ends with elements of no word. -/
theorem Bare.of_ends (hNe : ∀ w ∈ words, w ≠ [])
    (hFront : ∀ a, s.head? = some a → ∀ w ∈ words, a ∉ w)
    (hBack : ∀ a, s.getLast? = some a → ∀ w ∈ words, a ∉ w) : Bare words s := by
  constructor
  · rintro w hw ⟨t, rfl⟩
    obtain ⟨a, rest, rfl⟩ := exists_cons_of_ne_nil (hNe w hw)
    exact hFront a rfl _ hw mem_cons_self
  · rintro w hw ⟨t, rfl⟩
    obtain ⟨a, ha⟩ : ∃ a, w.getLast? = some a :=
      Option.isSome_iff_exists.mp (by simpa using hNe w hw)
    exact hBack a (by rw [getLast?_append, ha, Option.some_or]) w hw (mem_of_getLast? ha)

namespace WordCode

/-- Seen from the other side, no word is a front of another. -/
theorem reverse_free (h : WordCode words) :
    (∀ w ∈ words.map reverse, w ≠ []) ∧
      ∀ w ∈ words.map reverse, ∀ w' ∈ words.map reverse, w <+: w' → w = w' := by
  constructor
  · intro w hw
    obtain ⟨v, hv, rfl⟩ := mem_map.mp hw
    simpa using h.ne_nil v hv
  · intro w hw w' hw' hFront
    obtain ⟨v, hv, rfl⟩ := mem_map.mp hw
    obtain ⟨v', hv', rfl⟩ := mem_map.mp hw'
    have hBack := reverse_prefix.mp hFront
    rw [h.back_free v hv v' hv' hBack]

/-- A word behind a text without words at its ends makes no word in front of it. -/
theorem no_word_front (h : WordCode words) {r v : List α} (hr : Bare words r) (hNe : r ≠ [])
    (hv : v ∈ words) (y : List α) : ∀ w ∈ words, ¬ w <+: r ++ (v ++ y) := by
  intro w hw hFront
  rcases prefix_append_cases hFront with hIn | ⟨d, hd, rfl, hRest⟩
  · exact hr.front w hw hIn
  · -- the first element of `v` would be inside of `w`
    obtain ⟨x, d, rfl⟩ := exists_cons_of_ne_nil hd
    obtain ⟨x', v', rfl⟩ := exists_cons_of_ne_nil (h.ne_nil v hv)
    obtain ⟨a, r, rfl⟩ := exists_cons_of_ne_nil hNe
    obtain rfl : x = x' := (cons_prefix_cons.mp hRest).1
    exact h.first _ hw x (by simp) _ hv rfl

/-- A word in front of such a text makes no word at its end. -/
theorem no_word_back (h : WordCode words) {r v : List α} (hr : Bare words r) (hNe : r ≠ [])
    (hv : v ∈ words) (y : List α) : ∀ w ∈ words, ¬ w <:+ y ++ v ++ r := by
  intro w hw hBack
  obtain ⟨x, v', rfl⟩ := exists_cons_of_ne_nil (h.ne_nil v hv)
  rcases suffix_append_cases hBack with hIn | ⟨d, hd, rfl, hRest⟩
  · exact hr.back w hw hIn
  rcases suffix_append_cases hRest with ⟨e, hEq⟩ | ⟨d', hd', rfl, -⟩
  · cases e with
    | nil =>
      -- `w` would begin with all of `v`
      obtain rfl : d = x :: v' := hEq
      have hSame := h.front_free _ hv _ hw (prefix_append (x :: v') r)
      exact hNe (self_eq_append_right.mp hSame)
    | cons a e =>
      -- the first element of `w` would be inside of `v`
      obtain ⟨z, d, rfl⟩ := exists_cons_of_ne_nil hd
      have hTail : z ∈ (x :: v').tail := by
        rw [← hEq]
        simp
      exact h.first _ hv z hTail _ hw rfl
  · -- the first element of `v` would be inside of `w`
    obtain ⟨a, d', rfl⟩ := exists_cons_of_ne_nil hd'
    exact h.first _ hw x (by simp) _ hv rfl

end WordCode

end Words

variable [DecidableEq α]

/-! ## Cutting at a marker -/

/-- The parts between occurrences of `m`; the first `skip` elements belong to the last
occurrence. -/
def splitWordFrom (m : List α) : Nat → List α → List (List α)
  | _, [] => [[]]
  | skip + 1, _ :: s => splitWordFrom m skip s
  | 0, a :: s =>
    if m <+: a :: s then [] :: splitWordFrom m (m.length - 1) s
    else (splitWordFrom m 0 s).modifyHead (a :: ·)

/-- The parts of a text between the occurrences of `m`. -/
def splitWord (m s : List α) : List (List α) := splitWordFrom m 0 s

section Split

variable {m : List α}

theorem splitWordFrom_eq (m s : List α) : ∀ k, splitWordFrom m k s = splitWord m (s.drop k) := by
  induction s with
  | nil =>
    intro k
    cases k <;> rfl
  | cons a s ih =>
    intro k
    cases k with
    | zero => rfl
    | succ k => rw [splitWordFrom, ih, drop_succ_cons]

theorem splitWord_marker (hm : m ≠ []) (s : List α) :
    splitWord m (m ++ s) = [] :: splitWord m s := by
  obtain ⟨a, rest, rfl⟩ := exists_cons_of_ne_nil hm
  have hFront : a :: rest <+: a :: (rest ++ s) := prefix_append (a :: rest) s
  rw [splitWord, cons_append, splitWordFrom, if_pos hFront, splitWordFrom_eq,
    length_cons, Nat.add_sub_cancel, drop_left]

theorem splitWord_cons {a : α} {s : List α} (h : ¬ m <+: a :: s) :
    splitWord m (a :: s) = (splitWord m s).modifyHead (a :: ·) := by
  rw [splitWord, splitWordFrom, if_neg h, splitWord]

theorem splitWord_append (hm : m ≠ []) (hBorder : Borderless m) {t : List α} (hNot : ¬ m <:+: t)
    (s : List α) : splitWord m (t ++ (m ++ s)) = t :: splitWord m s := by
  induction t with
  | nil => exact splitWord_marker hm s
  | cons a t ih =>
    have hTail : ¬ m <:+: t := fun h => hNot (h.trans (suffix_cons a t).isInfix)
    have hFront : ¬ m <+: a :: (t ++ (m ++ s)) :=
      hBorder.not_at_front (cons_ne_nil a t) hNot s
    rw [cons_append, splitWord_cons hFront, ih hTail, modifyHead_cons]

theorem splitWord_of_not_infix {t : List α} (hNot : ¬ m <:+: t) :
    splitWord m t = [t] := by
  induction t with
  | nil => rfl
  | cons a t ih =>
    have hTail : ¬ m <:+: t := fun h => hNot (h.trans (suffix_cons a t).isInfix)
    rw [splitWord_cons fun h => hNot h.isInfix, ih hTail, modifyHead_cons]

theorem splitWord_render (hm : m ≠ []) (hBorder : Borderless m) {ts : List (List α)} :
    ∀ {front : List α}, ¬ m <:+: front → (∀ t ∈ ts, ¬ m <:+: t) →
      splitWord m (front ++ ts.flatMap (m ++ ·)) = front :: ts := by
  induction ts with
  | nil =>
    intro front hFront _
    rw [flatMap_nil, append_nil, splitWord_of_not_infix hFront]
  | cons t ts ih =>
    intro front hFront hParts
    rw [flatMap_cons, append_assoc, splitWord_append hm hBorder hFront,
      ih (hParts t mem_cons_self) fun t' ht' => hParts t' (mem_cons_of_mem t ht')]

end Split

/-! ## Dropping words from the ends -/

/-- A text without the words at its front; the first `skip` elements belong to the last word. -/
def dropWordsFrom (words : List (List α)) : Nat → List α → List α
  | _, [] => []
  | skip + 1, _ :: s => dropWordsFrom words skip s
  | 0, a :: s =>
    match words.find? (· <+: a :: s) with
    | some w => dropWordsFrom words (w.length - 1) s
    | none => a :: s

variable (words : List (List α)) (s : List α)

def dropWords : List α := dropWordsFrom words 0 s

/-- A text without the words at its end. -/
def dropLastWords : List α :=
  (dropWords (words.map reverse) s.reverse).reverse

/-- A text without the words at both ends. -/
def trimWords : List α :=
  dropLastWords words (dropWords words s)

section Drop

variable {words : List (List α)} {s : List α}

theorem dropWordsFrom_eq (words : List (List α)) (s : List α) :
    ∀ k, dropWordsFrom words k s = dropWords words (s.drop k) := by
  induction s with
  | nil =>
    intro k
    cases k <;> rfl
  | cons a s ih =>
    intro k
    cases k with
    | zero => rfl
    | succ k => rw [dropWordsFrom, ih, drop_succ_cons]

theorem dropWords_of_none (h : ∀ w ∈ words, ¬ w <+: s) : dropWords words s = s := by
  cases s with
  | nil => rfl
  | cons a s =>
    have hFind : words.find? (· <+: a :: s) = none := by
      rw [find?_eq_none]
      intro w hw
      simpa using h w hw
    rw [dropWords, dropWordsFrom, hFind]

section Free

variable (hNe : ∀ w ∈ words, w ≠ []) (hFree : ∀ w ∈ words, ∀ w' ∈ words, w <+: w' → w = w')

include hNe hFree

theorem dropWords_append {w : List α} (hw : w ∈ words) (s : List α) :
    dropWords words (w ++ s) = dropWords words s := by
  obtain ⟨a, rest, rfl⟩ := exists_cons_of_ne_nil (hNe w hw)
  have hFind : words.find? (· <+: a :: (rest ++ s)) = some (a :: rest) := by
    cases hFind : words.find? (· <+: a :: (rest ++ s)) with
    | none =>
      have hNot := find?_eq_none.mp hFind _ hw
      simp at hNot
    | some w' =>
      have hFront : w' <+: a :: rest ++ s := by simpa using find?_some hFind
      have hMem := mem_of_find?_eq_some hFind
      rcases prefix_or_prefix_of_prefix hFront (prefix_append (a :: rest) s) with h | h
      · rw [hFree w' hMem _ hw h]
      · rw [hFree _ hw w' hMem h]
  rw [dropWords, cons_append, dropWordsFrom, hFind]
  dsimp only
  rw [dropWordsFrom_eq, length_cons, Nat.add_sub_cancel, drop_left]

/-- What is left, and what was in front of it. -/
theorem dropWords_spec (s : List α) :
    ∃ b, Blank words b ∧ s = b ++ dropWords words s ∧ ∀ w ∈ words, ¬ w <+: dropWords words s := by
  -- by induction on the length, since a word is dropped at once
  induction hLen : s.length using Nat.strong_induction_on generalizing s with
  | _ n ih =>
    by_cases hNone : ∀ w ∈ words, ¬ w <+: s
    · rw [dropWords_of_none hNone]
      exact ⟨[], .nil, rfl, hNone⟩
    · simp only [not_forall, not_not] at hNone
      obtain ⟨w, hw, t, rfl⟩ := hNone
      have hPos := length_pos_of_ne_nil (hNe w hw)
      rw [length_append] at hLen
      obtain ⟨b, hb, hEq, hLeft⟩ := ih t.length (by omega) t rfl
      rw [dropWords_append hNe hFree hw]
      exact ⟨w ++ b, .cons hw hb, by rw [append_assoc, ← hEq], hLeft⟩

/-- There is no other way to drop words. -/
theorem dropWords_eq {b r : List α} (hb : Blank words b) (hr : ∀ w ∈ words, ¬ w <+: r) :
    dropWords words (b ++ r) = r := by
  induction hb with
  | nil => exact dropWords_of_none hr
  | cons hw _ ih => rw [append_assoc, dropWords_append hNe hFree hw, ih]

end Free

section

variable (h : WordCode words)
include h

theorem dropLastWords_spec (s : List α) :
    ∃ b, Blank words b ∧ s = dropLastWords words s ++ b ∧
      ∀ w ∈ words, ¬ w <:+ dropLastWords words s := by
  obtain ⟨hNe, hFree⟩ := h.reverse_free
  obtain ⟨b, hb, hEq, hLeft⟩ := dropWords_spec hNe hFree s.reverse
  refine ⟨b.reverse, hb.of_reverse, ?_, fun w hw hBack => ?_⟩
  · rw [dropLastWords, ← reverse_append, ← hEq, reverse_reverse]
  · refine hLeft w.reverse (mem_map_of_mem hw) ?_
    rw [← reverse_suffix, reverse_reverse]
    exact hBack

theorem dropLastWords_eq {b r : List α} (hb : Blank words b)
    (hr : ∀ w ∈ words, ¬ w <:+ r) : dropLastWords words (r ++ b) = r := by
  obtain ⟨hNe, hFree⟩ := h.reverse_free
  have hFront : ∀ w ∈ words.map reverse, ¬ w <+: r.reverse := by
    intro w hw hIn
    obtain ⟨v, hv, rfl⟩ := mem_map.mp hw
    exact hr v hv <| reverse_prefix.mp hIn
  rw [dropLastWords, reverse_append, dropWords_eq hNe hFree hb.reverse hFront, reverse_reverse]

theorem trimWords_spec (s : List α) :
    ∃ b b', Blank words b ∧ Blank words b' ∧ s = b ++ (trimWords words s ++ b') ∧
      Bare words (trimWords words s) := by
  obtain ⟨b, hb, hEq, hFront⟩ := dropWords_spec h.ne_nil h.front_free s
  obtain ⟨b', hb', hEq', hBack⟩ := dropLastWords_spec h (dropWords words s)
  refine ⟨b, b', hb, hb', ?_, fun w hw hIn => hFront w hw ?_, hBack⟩
  · rw [trimWords, ← hEq', ← hEq]
  · rw [hEq']
    exact hIn.trans (prefix_append _ _)

theorem trimWords_eq {b r b' : List α} (hb : Blank words b)
    (hb' : Blank words b') (hr : Bare words r) : trimWords words (b ++ (r ++ b')) = r := by
  have hEnd : dropLastWords words (r ++ b') = r := dropLastWords_eq h hb' hr.back
  by_cases hNe : r = []
  · subst hNe
    have hAll : dropWords words ((b ++ b') ++ []) = [] :=
      dropWords_eq h.ne_nil h.front_free (hb.append hb') hr.front
    rw [append_nil] at hAll
    rw [trimWords, nil_append, hAll]
    exact dropLastWords_eq h .nil hr.back
  · have hFront : ∀ w ∈ words, ¬ w <+: r ++ b' := by
      cases hb' with
      | nil => rw [append_nil]; exact hr.front
      | @cons v y hv _ => exact h.no_word_front hr hNe hv y
    rw [trimWords, dropWords_eq h.ne_nil h.front_free hb hFront, hEnd]

theorem mem_trimWords {a : α} (ha : ∀ w ∈ words, a ∉ w) (hMem : a ∈ s) :
    a ∈ trimWords words s := by
  obtain ⟨b, b', hb, hb', hEq, -⟩ := trimWords_spec h s
  have hNot : ∀ {b : List α}, Blank words b → a ∉ b := by
    intro b hb hIn
    obtain ⟨w, hw, hIn⟩ := hb.mem hIn
    exact ha w hw hIn
  rw [hEq, mem_append, mem_append] at hMem
  exact (hMem.resolve_left (hNot hb)).resolve_right (hNot hb')

/-- Where no word is in front, only the end is cut off. -/
theorem trimWords_front (hFront : ∀ w ∈ words, ¬ w <+: s) :
    trimWords words s <+: s := by
  obtain ⟨b, -, hEq, -⟩ := dropLastWords_spec h s
  refine ⟨b, ?_⟩
  rw [trimWords, dropWords_of_none hFront]
  exact hEq.symm

end

end Drop

/-! ## Blanks -/

/-- The encodings of the blanks of Unicode. -/
def spaceWords : List (List UInt8) :=
  [[9], [10], [11], [12], [13], [32], [0xC2, 0x85], [0xC2, 0xA0], [0xE1, 0x9A, 0x80],
    [0xE2, 0x80, 0x80], [0xE2, 0x80, 0x81], [0xE2, 0x80, 0x82], [0xE2, 0x80, 0x83],
    [0xE2, 0x80, 0x84], [0xE2, 0x80, 0x85], [0xE2, 0x80, 0x86], [0xE2, 0x80, 0x87],
    [0xE2, 0x80, 0x88], [0xE2, 0x80, 0x89], [0xE2, 0x80, 0x8A], [0xE2, 0x80, 0xA8],
    [0xE2, 0x80, 0xA9], [0xE2, 0x80, 0xAF], [0xE2, 0x81, 0x9F], [0xE3, 0x80, 0x80]]

/-- A text without the blanks around it. -/
def trimSpace (s : List UInt8) : List UInt8 := trimWords spaceWords s

theorem wordCode_spaceWords : WordCode spaceWords where
  ne_nil := by decide
  front_free := by decide
  back_free := by decide
  first := by
    have hAll : spaceWords.all (fun w => w.tail.all fun a =>
        spaceWords.all (·.head? ≠ some a)) = true := by decide +kernel
    simpa only [all_eq_true, decide_eq_true_iff] using hAll

theorem trimSpace_of_bare {b r b' : List UInt8} (hb : Blank spaceWords b)
    (hb' : Blank spaceWords b') (hr : Bare spaceWords r) : trimSpace (b ++ (r ++ b')) = r :=
  trimWords_eq wordCode_spaceWords hb hb' hr

theorem trimSpace_spec (s : List UInt8) : ∃ b b', Blank spaceWords b ∧ Blank spaceWords b' ∧
    s = b ++ (trimSpace s ++ b') ∧ Bare spaceWords (trimSpace s) :=
  trimWords_spec wordCode_spaceWords s

theorem bare_trimSpace (s : List UInt8) : Bare spaceWords (trimSpace s) := by
  obtain ⟨-, -, -, -, -, hBare⟩ := trimSpace_spec s
  exact hBare

end DnscryptProxy.Base
