import DnscryptProxy.Cloak.Load

/-!
# Comments in rule files

Every rule file is cut into lines, and `TrimAndStripInlineComments` takes the
comments off. It looks for the last `#` of the line, so a comment that has a `#`
in it is only cut off from there on. What is in front of it becomes part of the
rule.

* `inline_comments` — when a comment is ignored by every loader;
* `comment_changes_rule` — a name that is no longer blocked for its comment.
-/

namespace DnscryptProxy

open Base List

/-! ## Taking off a comment -/

/-- The byte that starts a comment. -/
def commentMark : UInt8 := '#'.toUInt8

/-- The blanks that can stand in front of it. -/
def IsGap (c : UInt8) : Prop := c = ' '.toUInt8 ∨ c = '\t'.toUInt8

theorem IsGap.ne_mark {c : UInt8} (h : IsGap c) : c ≠ commentMark := by
  rcases h with rfl | rfl <;> decide

/-- What `strings.TrimSpace` does, in any encoding, around marks and gaps. -/
structure TextLib.Trims (lib : TextLib) : Prop where
  trimSpace_nil : lib.trimSpace [] = []
  mark_mem_trimSpace : ∀ s, commentMark ∈ lib.trimSpace s ↔ commentMark ∈ s
  trimSpace_gap : ∀ s c, IsGap c → lib.trimSpace (s ++ [c]) = lib.trimSpace s

theorem idxOf?_append {front back : Bytes} {c : UInt8} (h : c ∉ front) :
    (front ++ c :: back).idxOf? c = some front.length := by
  induction front with
  | nil => simp [idxOf?_cons]
  | cons b front ih =>
    have hb : ¬(b == c) = true := fun hEq => h (eq_of_beq hEq ▸ mem_cons_self)
    rw [cons_append, idxOf?_cons, if_neg hb, ih fun hMem => h (mem_cons_of_mem _ hMem)]
    rfl

theorem lastIndexByte_append {front back : Bytes} {c : UInt8} (h : c ∉ back) :
    lastIndexByte (front ++ c :: back) c = some front.length := by
  have hRev : (front ++ c :: back).reverse = back.reverse ++ c :: front.reverse := by simp
  unfold lastIndexByte
  rw [hRev, idxOf?_append fun hMem => h (mem_reverse.mp hMem), Option.map_some]
  simp only [length_append, length_cons, length_reverse, Option.some.injEq]
  omega

section Strip

variable {lib : TextLib}

theorem strip_of_not_mem {s : Bytes} (h : commentMark ∉ s) :
    trimAndStripInlineComments lib s = lib.trimSpace s := by
  unfold trimAndStripInlineComments
  rw [show lastIndexByte s '#'.toUInt8 = none from lastIndexByte_eq_none h]

/-- What becomes of a line, by what stands in front of its last mark. -/
theorem strip_mark {front back : Bytes} (h : commentMark ∉ back) :
    trimAndStripInlineComments lib (front ++ commentMark :: back) =
      if front = [] ∨ front.head? = some commentMark then []
      else if front.getLast? = some ' '.toUInt8 ∨ front.getLast? = some '\t'.toUInt8 then
        lib.trimSpace front.dropLast
      else lib.trimSpace (front ++ commentMark :: back) := by
  unfold trimAndStripInlineComments
  rw [show lastIndexByte (front ++ commentMark :: back) '#'.toUInt8 = some front.length from
    lastIndexByte_append h]
  dsimp only
  cases front with
  | nil => rw [if_pos (.inl rfl), if_pos (.inl rfl)]
  | cons b rest =>
    have hFirst : ((b :: rest).length = 0 ∨
        (b :: rest ++ commentMark :: back).head? = some '#'.toUInt8) ↔
          (b :: rest = [] ∨ (b :: rest).head? = some commentMark) := by
      simp [commentMark]
    have hPrev : (b :: rest ++ commentMark :: back)[(b :: rest).length - 1]? =
        (b :: rest).getLast? := by
      rw [getElem?_append_left (by simp), getLast?_eq_getElem?]
    have hTake : (b :: rest ++ commentMark :: back).take ((b :: rest).length - 1) =
        (b :: rest).dropLast := by
      rw [take_append_of_le_length (by simp), dropLast_eq_take]
    rw [hPrev, hTake, if_congr hFirst rfl rfl]

/-- The last byte is a gap. -/
def EndsInGap (s : Bytes) : Prop := ∃ c, s.getLast? = some c ∧ IsGap c

theorem endsInGap_iff {s : Bytes} :
    EndsInGap s ↔ s.getLast? = some ' '.toUInt8 ∨ s.getLast? = some '\t'.toUInt8 := by
  constructor
  · rintro ⟨c, hLast, rfl | rfl⟩
    · exact .inl hLast
    · exact .inr hLast
  · rintro (hLast | hLast)
    · exact ⟨_, hLast, .inl rfl⟩
    · exact ⟨_, hLast, .inr rfl⟩

theorem strip_gap {front back : Bytes} (h : commentMark ∉ back)
    (hHead : front.head? ≠ some commentMark) (hGap : EndsInGap front) :
    trimAndStripInlineComments lib (front ++ commentMark :: back) =
      lib.trimSpace front.dropLast := by
  have hNe : front ≠ [] := by
    rintro rfl
    obtain ⟨c, hLast, -⟩ := hGap
    cases hLast
  rw [strip_mark h, if_neg (not_or.mpr ⟨hNe, hHead⟩), if_pos (endsInGap_iff.mp hGap)]

theorem strip_word {front back : Bytes} (h : commentMark ∉ back) (hNe : front ≠ [])
    (hHead : front.head? ≠ some commentMark) (hGap : ¬EndsInGap front) :
    trimAndStripInlineComments lib (front ++ commentMark :: back) =
      lib.trimSpace (front ++ commentMark :: back) := by
  rw [strip_mark h, if_neg (not_or.mpr ⟨hNe, hHead⟩), if_neg fun h => hGap (endsInGap_iff.mpr h)]

theorem strip_cons_mark (c : Bytes) : trimAndStripInlineComments lib (commentMark :: c) = [] := by
  by_cases hMark : commentMark ∈ c
  · obtain ⟨front, back, rfl, hBack⟩ := exists_last hMark
    rw [← cons_append, strip_mark hBack, if_pos (.inr rfl)]
  · rw [← nil_append (commentMark :: c), strip_mark hMark, if_pos (.inl rfl)]

variable (hLib : lib.Trims)

include hLib

/-- Of two marks one stays, unless the line starts with one. -/
theorem mark_mem_strip {front c : Bytes} (hNe : front ≠ [])
    (hHead : front.head? ≠ some commentMark) (hMark : commentMark ∈ c) :
    commentMark ∈ trimAndStripInlineComments lib (front ++ commentMark :: c) := by
  obtain ⟨c, back, rfl, hBack⟩ := exists_last hMark
  rw [show front ++ commentMark :: (c ++ commentMark :: back) =
    (front ++ commentMark :: c) ++ commentMark :: back by simp]
  have hHead' : (front ++ commentMark :: c).head? ≠ some commentMark := by
    rwa [head?_append_of_ne_nil _ hNe]
  have hMem : commentMark ∈ front ++ commentMark :: c :=
    mem_append_right _ mem_cons_self
  by_cases hGap : EndsInGap (front ++ commentMark :: c)
  · rw [strip_gap hBack hHead' hGap, hLib.mark_mem_trimSpace]
    -- the byte that is dropped with the comment is a gap, not the other mark
    obtain ⟨g, hLast, hG⟩ := hGap
    obtain ⟨rest, hRest⟩ := getLast?_eq_some_iff.mp hLast
    rw [hRest] at hMem ⊢
    rw [dropLast_concat]
    rcases mem_append.mp hMem with hMem | hMem
    · exact hMem
    · exact absurd (mem_singleton.mp hMem).symm hG.ne_mark
  · rw [strip_word hBack (append_ne_nil_of_left_ne_nil hNe _) hHead' hGap, hLib.mark_mem_trimSpace]
    exact mem_append_left _ hMem

/-- A comment behind a rule goes without a trace if it has no mark of its own. -/
theorem strip_comment_iff {r c : Bytes} {g : UInt8} (hR : commentMark ∉ r) (hG : IsGap g) :
    trimAndStripInlineComments lib (r ++ g :: commentMark :: c) =
        trimAndStripInlineComments lib r ↔ commentMark ∉ c := by
  have hNe : r ++ [g] ≠ [] := by simp
  have hHead : (r ++ [g]).head? ≠ some commentMark := by
    intro h
    have hMem := mem_of_mem_head? h
    rcases mem_append.mp hMem with hMem | hMem
    · exact hR hMem
    · exact hG.ne_mark (mem_singleton.mp hMem).symm
  have hLine : r ++ g :: commentMark :: c = (r ++ [g]) ++ commentMark :: c := by simp
  rw [hLine, strip_of_not_mem hR]
  constructor
  · -- a second mark stays in the result, and the rule has none
    intro hSame hMark
    have hMem := mark_mem_strip hLib hNe hHead hMark
    rw [hSame, hLib.mark_mem_trimSpace] at hMem
    exact hR hMem
  · intro hMark
    rw [strip_gap hMark hHead ⟨g, getLast?_concat, hG⟩, dropLast_concat]

/-- When a comment line is empty. -/
theorem strip_comment_line_iff {w c : Bytes} (hBlank : lib.trimSpace w = []) :
    trimAndStripInlineComments lib (w ++ commentMark :: c) = [] ↔
      w = [] ∨ (commentMark ∉ c ∧ EndsInGap w) := by
  have hW : commentMark ∉ w := by
    intro hMem
    rw [← hLib.mark_mem_trimSpace, hBlank] at hMem
    cases hMem
  by_cases hNe : w = []
  · subst hNe
    exact ⟨fun _ => .inl rfl, fun _ => strip_cons_mark c⟩
  have hHead : w.head? ≠ some commentMark := fun h => hW (mem_of_mem_head? h)
  constructor
  · intro hEmpty
    have hMark : commentMark ∉ c := by
      intro hMark
      have hMem := mark_mem_strip hLib hNe hHead hMark
      rw [hEmpty] at hMem
      cases hMem
    refine .inr ⟨hMark, ?_⟩
    -- without a gap in front of it the mark is a part of the line
    by_contra hGap
    rw [strip_word hMark hNe hHead hGap] at hEmpty
    have hMem := (hLib.mark_mem_trimSpace (w ++ commentMark :: c)).mpr
      (mem_append_right _ mem_cons_self)
    rw [hEmpty] at hMem
    cases hMem
  · rintro (h | ⟨hMark, hGap⟩)
    · exact absurd h hNe
    · rw [strip_gap hMark hHead hGap]
      obtain ⟨g, hLast, hG⟩ := hGap
      obtain ⟨rest, rfl⟩ := getLast?_eq_some_iff.mp hLast
      rw [dropLast_concat, ← hBlank, hLib.trimSpace_gap rest g hG]

end Strip

/-! ## Files -/

/-- The byte between two lines. -/
def newline : UInt8 := '\n'.toUInt8

/-- A file of these lines. -/
def fileOf (lines : List Bytes) : Bytes := [newline].intercalate lines

section Files

variable (lib : TextLib)

/-- What a loader gets of these lines, when they are numbered from `n`. -/
def handedOn (n : Nat) (lines : List Bytes) : List (Nat × Bytes) :=
  ((lines.zipIdx n).map fun (line, lineNo) =>
    (lineNo, trimAndStripInlineComments lib line)).filter fun l => decide (l.2 ≠ [])

variable {lib}

theorem processConfigLines_fileOf {lines : List Bytes} (hNe : lines ≠ [])
    (hLines : ∀ line ∈ lines, newline ∉ line) :
    processConfigLines lib (fileOf lines) = handedOn lib 0 lines := by
  have hSplit : splitByte newline (fileOf lines) = lines := by
    rw [splitByte_eq_splitOn]
    exact splitOn_intercalate newline hLines hNe
  unfold processConfigLines
  rw [show splitByte '\n'.toUInt8 (fileOf lines) = lines from hSplit]
  rfl

theorem handedOn_append (n : Nat) (before after : List Bytes) :
    handedOn lib n (before ++ after) =
      handedOn lib n before ++ handedOn lib (n + before.length) after := by
  unfold handedOn
  rw [zipIdx_append, map_append, filter_append]

theorem handedOn_singleton (n : Nat) (line : Bytes) :
    handedOn lib n [line] = if trimAndStripInlineComments lib line = [] then []
      else [(n, trimAndStripInlineComments lib line)] := by
  unfold handedOn
  by_cases h : trimAndStripInlineComments lib line = []
  · simp [h]
  · simp [h]

/-- Two lines in the same place of a file make no difference just when they are the
same without their comments. -/
theorem handedOn_replace_iff (n : Nat) (before after : List Bytes) (line line' : Bytes) :
    handedOn lib n (before ++ line :: after) = handedOn lib n (before ++ line' :: after) ↔
      trimAndStripInlineComments lib line = trimAndStripInlineComments lib line' := by
  rw [← singleton_append, ← singleton_append (l := after) (x := line'),
    handedOn_append, handedOn_append, handedOn_append, handedOn_append, append_cancel_left_eq]
  simp only [length_singleton, append_cancel_right_eq]
  rw [handedOn_singleton, handedOn_singleton]
  constructor
  · intro h
    by_cases hEmpty : trimAndStripInlineComments lib line = []
    · by_cases hEmpty' : trimAndStripInlineComments lib line' = []
      · rw [hEmpty, hEmpty']
      · rw [if_pos hEmpty, if_neg hEmpty'] at h
        cases h
    · by_cases hEmpty' : trimAndStripInlineComments lib line' = []
      · rw [if_neg hEmpty, if_pos hEmpty'] at h
        cases h
      · rw [if_neg hEmpty, if_neg hEmpty'] at h
        exact (Prod.mk.inj (cons.inj h).1).2
  · intro h
    rw [h]

/-- Every loader does the same with both files. A loader sees the lines that are not
empty without their comments, and their numbers. -/
def LoadsAlike (lib : TextLib) (file file' : Bytes) : Prop :=
  ∀ (R : Type) (load : List (Nat × Bytes) → R),
    load (processConfigLines lib file) = load (processConfigLines lib file')

theorem loadsAlike_iff {file file' : Bytes} :
    LoadsAlike lib file file' ↔ processConfigLines lib file = processConfigLines lib file' :=
  ⟨fun h => h _ id, fun h _ load => congrArg load h⟩

theorem loadsAlike_replace_iff {before after : List Bytes} {line line' : Bytes}
    (hBefore : ∀ l ∈ before, newline ∉ l) (hAfter : ∀ l ∈ after, newline ∉ l)
    (hLine : newline ∉ line) (hLine' : newline ∉ line') :
    LoadsAlike lib (fileOf (before ++ line :: after)) (fileOf (before ++ line' :: after)) ↔
      trimAndStripInlineComments lib line = trimAndStripInlineComments lib line' := by
  have hLines : ∀ x, newline ∉ x → ∀ l ∈ before ++ x :: after, newline ∉ l := by
    intro x hx l hl
    rcases mem_append.mp hl with hl | hl
    · exact hBefore l hl
    · rcases mem_cons.mp hl with rfl | hl
      · exact hx
      · exact hAfter l hl
  rw [loadsAlike_iff, processConfigLines_fileOf (by simp) (hLines line hLine),
    processConfigLines_fileOf (by simp) (hLines line' hLine'), handedOn_replace_iff]

/-- The name and IP lists and the cloaking rules are the same for both files. -/
structure LoadersAgree (lib : TextLib) (file file' : Bytes) : Prop where
  blockName : ∀ {W : Type} (allWeeklyRanges : Bytes → Option W),
    (pluginBlockName lib allWeeklyRanges).load file =
      (pluginBlockName lib allWeeklyRanges).load file'
  ipList : (ipListPlugin lib).load file = (ipListPlugin lib).load file'
  cloak : ∀ cloak : CloakText, cloak.toTextLib = lib → ∀ glob createPTR order order',
    PluginCloak.loadRules cloak glob createPTR order order' file =
      PluginCloak.loadRules cloak glob createPTR order order' file'

theorem LoadsAlike.loaders {file file' : Bytes} (h : LoadsAlike lib file file') :
    LoadersAgree lib file file' := by
  have hLines := loadsAlike_iff.mp h
  refine ⟨fun allWeeklyRanges => ?_, ?_, ?_⟩
  · funext i
    exact congrArg ((pluginBlockName lib allWeeklyRanges).partAfter · i) hLines
  · funext i
    exact congrArg ((ipListPlugin lib).partAfter · i) hLines
  · rintro cloak rfl glob createPTR order order'
    have hCloak : cloakLines cloak file = cloakLines cloak file' :=
      congrArg (filterMap (cloakLineOf cloak)) hLines
    rw [PluginCloak.loadRules, PluginCloak.loadRules, hCloak]

/-- Wherever in a file the line stands: a comment behind a rule is ignored just when
there is no further mark in it. A comment line is ignored if it starts with the
mark; behind blanks, it also must not have another one, and the last blank has to
be a space or a tab. -/
theorem inline_comments {lib : TextLib} (hLib : lib.Trims) {before after : List Bytes}
    (hBefore : ∀ l ∈ before, newline ∉ l) (hAfter : ∀ l ∈ after, newline ∉ l) :
    (∀ (r c : Bytes) (g : UInt8), newline ∉ r → newline ∉ c → commentMark ∉ r → IsGap g →
      (LoadsAlike lib (fileOf (before ++ (r ++ g :: commentMark :: c) :: after))
          (fileOf (before ++ r :: after)) ↔ commentMark ∉ c)) ∧
    (∀ w c : Bytes, newline ∉ w → newline ∉ c → lib.trimSpace w = [] →
      (LoadsAlike lib (fileOf (before ++ (w ++ commentMark :: c) :: after))
          (fileOf (before ++ [] :: after)) ↔
        w = [] ∨ (commentMark ∉ c ∧ EndsInGap w))) ∧
    ∀ file file', LoadsAlike lib file file' → LoadersAgree lib file file' := by
  have hMarkNe : newline ≠ commentMark := by decide
  refine ⟨?_, ?_, fun _ _ h => h.loaders⟩
  · intro r c g hR hC hMark hG
    have hGap : newline ≠ g := by
      rintro rfl
      rcases hG with h | h <;> exact absurd h (by decide)
    have hLine : newline ∉ r ++ g :: commentMark :: c := by
      simp [hR, hC, hGap, hMarkNe]
    rw [loadsAlike_replace_iff hBefore hAfter hLine hR, strip_comment_iff hLib hMark hG]
  · intro w c hW hC hBlank
    have hLine : newline ∉ w ++ commentMark :: c := by
      simp [hW, hC, hMarkNe]
    have hNothing : trimAndStripInlineComments lib [] = [] := by
      rw [strip_of_not_mem not_mem_nil, hLib.trimSpace_nil]
    rw [loadsAlike_replace_iff hBefore hAfter hLine not_mem_nil, hNothing,
      strip_comment_line_iff hLib hBlank]

end Files

/-! ## The ASCII library -/

theorem mem_dropWhile_iff {p : UInt8 → Bool} {c : UInt8} (hc : p c = false) (s : Bytes) :
    c ∈ s.dropWhile p ↔ c ∈ s := by
  refine ⟨fun h => (dropWhile_sublist p).subset h, fun h => ?_⟩
  rw [← takeWhile_append_dropWhile (p := p) (l := s)] at h
  rcases mem_append.mp h with h | h
  · rw [mem_takeWhile_imp h] at hc
    cases hc
  · exact h

theorem asciiText_trims : asciiText.Trims where
  trimSpace_nil := rfl
  mark_mem_trimSpace s := by
    have hMark : isBlank commentMark = false := by decide
    show commentMark ∈ ((s.dropWhile isBlank).reverse.dropWhile isBlank).reverse ↔ _
    rw [mem_reverse, mem_dropWhile_iff hMark, mem_reverse, mem_dropWhile_iff hMark]
  trimSpace_gap s c hc := by
    have hBlank : isBlank c = true := by rcases hc with rfl | rfl <;> decide
    show (((s ++ [c]).dropWhile isBlank).reverse.dropWhile isBlank).reverse =
      ((s.dropWhile isBlank).reverse.dropWhile isBlank).reverse
    rw [dropWhile_append]
    cases hDrop : s.dropWhile isBlank with
    | nil => simp [hBlank]
    | cons b rest => simp [hBlank]

/-- A rule with an ordinary comment, and a comment line. -/
theorem inline_comments_plain :
    LoadsAlike asciiText (fileOf [ascii "ads.example # seen in May"])
        (fileOf [ascii "ads.example"]) ∧
      LoadsAlike asciiText (fileOf [ascii "  # seen in May"]) (fileOf [[]]) := by
  have hNone : ∀ l ∈ ([] : List Bytes), newline ∉ l := fun _ h => absurd h not_mem_nil
  obtain ⟨hInline, hLine, -⟩ := inline_comments asciiText_trims hNone hNone
  exact ⟨(hInline (ascii "ads.example") (ascii " seen in May") 32 (by decide +kernel)
      (by decide +kernel) (by decide +kernel) (.inl rfl)).mpr (by decide +kernel),
    (hLine (ascii "  ") (ascii " seen in May") (by decide +kernel) (by decide +kernel)
      (by decide +kernel)).mpr (.inr ⟨by decide +kernel, 32, by decide +kernel, .inl rfl⟩)⟩

/-- The name blocklist without time ranges, on ASCII. -/
def asciiBlockName : RulePlugin Unit (fun _ => PatternMatcher Unit) (Nat × Bytes) :=
  pluginBlockName asciiText fun _ => none

/-- The name is blocked when this is the blocklist. -/
def blockedBy (file name : String) : Bool :=
  ((asciiBlockName.load (ascii file) ()).eval asciiText (fun _ _ => false) (ascii name)).isSome

/-- With "issue #12" in the comment behind it the name is not blocked, and a
comment with a list number is a rule. -/
theorem comment_changes_rule :
    blockedBy "ads.example" "ads.example" = true ∧
      blockedBy "ads.example # issue #12" "ads.example" = false ∧
      (asciiBlockName.load (ascii " # ads # 2") ()).suffixes = [(ascii "sda #.", none)] := by
  decide +kernel

end DnscryptProxy
