import DnscryptProxy.Base.Text
import DnscryptProxy.Base.Words
import DnscryptProxy.Dns.Message
import DnscryptProxy.Sources.Source

/-!
# Reading a list of servers

`parseV2` of `sources.go`. A list is cut at its headers, each entry into its lines; lines are
stamps, comments or parts of a description. Of several stamps one is taken that can be decoded, in
an order that is drawn.

`ListEntry` is an entry as it is written, and `renderList` a whole list; `parse_rendered_list` says
what `parseV2` makes of it.

* `trimSpace_render` — blanks around an entry are dropped, and nothing else of it;
* `scanLines_eq`, `tryStamps_eq` — what the loops over lines and stamps leave;
* `parsePart_render` — one entry;
* `parse_rendered_list` — a list, whatever order its stamps are tried in.
-/

namespace DnscryptProxy

open Base List

/-! ## `parseV2` -/

def lineFeed : UInt8 := 10

/-- A `RegisteredServer`. -/
structure ListedServer (S : Type) where
  name : Bytes
  stamp : S
  description : Bytes
deriving Repr, DecidableEq

/-- The decoder of stamps, `rand.Shuffle` for the part of that number, and `url.URL.String`. -/
structure StampLib (S : Type) where
  newServerStampFromString : Bytes → Except String S
  shuffle : Nat → List Bytes → List Bytes
  urlString : Url → String

def headerMarker : Bytes := [35, 35, 32] -- "## "
def stampScheme : Bytes := [115, 100, 110, 115, 58] -- "sdns:"
def commentStart : Bytes := [47, 47] -- "//"

section Parse

variable {K : Type*} {S : Type} (lib : StampLib S) (source : Source K)

def invalidFormat : GoError :=
  .plain ("Invalid format for source at [[" ++ " ".intercalate (source.urls.map lib.urlString) ++
    "]]")

/-- The loop over the lines behind the name. -/
def scanLines : List Bytes → List Bytes → Bytes → List Bytes × Bytes
  | [], stampStrs, description => (stampStrs, description)
  | subpart :: rest, stampStrs, description =>
    let subpart := trimSpace subpart
    if stampScheme <+: subpart ∧ 6 ≤ subpart.length then
      scanLines rest (stampStrs ++ [subpart]) description
    else if subpart.length = 0 ∨ commentStart <+: subpart then
      scanLines rest stampStrs description
    else
      let description := if 0 < description.length then description ++ [lineFeed] else description
      scanLines rest stampStrs (description ++ subpart)

/-- The loop over the stamps, up to the first one that can be decoded. -/
def tryStamps : List Bytes → List String → Option S × List String
  | [], stampErrs => (none, stampErrs)
  | stampStr :: rest, stampErrs =>
    match lib.newServerStampFromString stampStr with
    | .ok stamp => (some stamp, stampErrs)
    | .error err =>
      tryStamps rest (stampErrs ++
        ["Invalid or unsupported stamp [" ++ Bytes.text stampStr ++ "]: " ++ err])

/-- One turn of the loop over the parts: the server, if there is one, and the errors so far.
`none` is an invalid format. -/
def parsePart (i : Nat) (part : Bytes) (stampErrs : List String) :
    Option (Option (ListedServer S) × List String) :=
  match (trimSpace part).splitOn lineFeed with
  | [] => none
  | [_] => none
  | first :: subparts =>
    let name := trimSpace first
    if name.length = 0 then none
    else
      let name := utf8 source.namePrefix.toList ++ name
      let (stampStrs, description) := scanLines subparts [] []
      if stampStrs.length = 0 then
        some (none, stampErrs ++ ["Missing stamp for server [" ++ Bytes.text name ++ "]"])
      else
        let stampStrs := if 1 < stampStrs.length then lib.shuffle i stampStrs else stampStrs
        match tryStamps lib stampStrs stampErrs with
        | (none, stampErrs) => some (none, stampErrs)
        | (some stamp, stampErrs) => some (some { name, stamp, description }, stampErrs)

/-- The loop over the parts, from number `i` on. -/
def parseParts : Nat → List Bytes → List (ListedServer S) → List String →
    List (ListedServer S) × Option GoError
  | _, [], servers, stampErrs =>
    if stampErrs = [] then (servers, none)
    else (servers, some (.plain (", ".intercalate stampErrs)))
  | i, part :: rest, servers, stampErrs =>
    match parsePart lib source i part stampErrs with
    | none => (servers, some (invalidFormat lib source))
    | some (server, stampErrs) => parseParts (i + 1) rest (servers ++ server.toList) stampErrs

def parseV2 : List (ListedServer S) × Option GoError :=
  match splitWord headerMarker source.bin with
  | _ :: part :: parts => parseParts lib source 0 (part :: parts) [] []
  | _ => ([], some (invalidFormat lib source))

end Parse

/-! ## Lists as they are written -/

/-- An entry: a name on its line, and lines behind it that are not all blank. -/
structure ListEntry where
  name : Bytes
  lines : List Bytes
  name_ne : name ≠ []
  name_trimmed : trimSpace name = name
  name_line : lineFeed ∉ name
  lines_line : ∀ l ∈ lines, lineFeed ∉ l
  not_blank : ∃ l ∈ lines, trimSpace l ≠ []
  no_marker : ∀ l ∈ name :: lines, ¬ headerMarker <:+: l

/-- A line with a stamp. -/
def IsStampLine (l : Bytes) : Prop := stampScheme <+: l ∧ 6 ≤ l.length

/-- A line of a description. -/
def IsDescriptionLine (l : Bytes) : Prop := ¬ IsStampLine l ∧ ¬ commentStart <+: l

instance (l : Bytes) : Decidable (IsStampLine l) := inferInstanceAs (Decidable (_ ∧ _))

instance (l : Bytes) : Decidable (IsDescriptionLine l) := inferInstanceAs (Decidable (_ ∧ _))

/-- The lines that are not blank, without the blanks around them. -/
def textsOf (ls : List Bytes) : List Bytes := (ls.map trimSpace).filter (· ≠ [])

namespace ListEntry

variable (e : ListEntry)

def texts : List Bytes := textsOf e.lines

def stamps : List Bytes := e.texts.filter (IsStampLine ·)

def description : Bytes := [lineFeed].intercalate (e.texts.filter (IsDescriptionLine ·))

/-- The entry without its header marker. -/
def render : Bytes := [lineFeed].intercalate (e.name :: e.lines)

end ListEntry

/-- A list: some text, and entries behind header markers. -/
def renderList (preamble : Bytes) (entries : List ListEntry) : Bytes :=
  preamble ++ (entries.map ListEntry.render).flatMap (headerMarker ++ ·)

/-! ## Entries are found again -/

theorem lineFeed_mem : [lineFeed] ∈ spaceWords := by decide

/-- A name and lines behind it, the last of which ends in a text, have no blanks around them. -/
theorem bare_lines {name r b : Bytes} (hName : Bare spaceWords name) (hNe : name ≠ [])
    (hr : Bare spaceWords r) (hrNe : r ≠ []) (hb : Blank spaceWords b) (front : List Bytes) :
    Bare spaceWords (name ++ (front ++ [b ++ r]).flatMap (lineFeed :: ·)) := by
  constructor
  · -- a line feed follows the name
    obtain ⟨first, rest, hEq⟩ := exists_cons_of_ne_nil
      (append_ne_nil_of_right_ne_nil front (cons_ne_nil (b ++ r) []))
    rw [hEq, flatMap_cons]
    exact wordCode_spaceWords.no_word_front hName hNe lineFeed_mem (first ++ rest.flatMap _)
  · -- a blank comes before the text
    obtain ⟨y, v, hv, hEq⟩ := (Blank.cons lineFeed_mem hb).exists_last (cons_ne_nil _ _)
    have hSplit : name ++ (front ++ [b ++ r]).flatMap (lineFeed :: ·) =
        name ++ front.flatMap (lineFeed :: ·) ++ y ++ v ++ r := by
      rw [append_assoc _ y v, ← hEq]
      simp
    rw [hSplit]
    exact wordCode_spaceWords.no_word_back hr hrNe hv _

theorem blank_lines {ls : List Bytes} (h : ∀ l ∈ ls, trimSpace l = []) :
    Blank spaceWords (ls.flatMap (lineFeed :: ·)) := by
  induction ls with
  | nil => exact .nil
  | cons l ls ih =>
    obtain ⟨b, b', hb, hb', hEq, -⟩ := trimSpace_spec l
    rw [h l mem_cons_self, nil_append] at hEq
    rw [flatMap_cons, hEq]
    exact (Blank.cons lineFeed_mem (hb.append hb')).append
      (ih fun l' hl' => h l' (mem_cons_of_mem l hl'))

theorem trimSpace_render (e : ListEntry) : ∃ ls, ls ≠ [] ∧ (∀ l ∈ ls, lineFeed ∉ l) ∧
    trimSpace e.render = [lineFeed].intercalate (e.name :: ls) ∧
    textsOf ls = e.texts := by
  obtain ⟨front, l, back, hLines, hl, hBack⟩ := exists_last_of e.not_blank
  obtain ⟨b, b', hb, hb', hEq, hBare⟩ := trimSpace_spec l
  have hName : Bare spaceWords e.name := e.name_trimmed ▸ bare_trimSpace e.name
  have hBlank : ∀ x ∈ back, trimSpace x = [] := fun x hx => not_not.mp (hBack x hx)
  -- the last line that is not blank loses the blanks behind it
  refine ⟨front ++ [b ++ trimSpace l], by simp, ?_, ?_, ?_⟩
  · intro x hx
    rcases mem_append.mp hx with hx | hx
    · exact e.lines_line x (hLines ▸ mem_append_left _ hx)
    · have hLine := e.lines_line l (hLines ▸ mem_append_right _ mem_cons_self)
      rw [hEq] at hLine
      rw [mem_singleton.mp hx]
      intro hMem
      exact hLine (by rw [← append_assoc]; exact mem_append_left _ hMem)
  · have hRender : e.render = [] ++ ((e.name ++
        (front ++ [b ++ trimSpace l]).flatMap (lineFeed :: ·)) ++
          (b' ++ back.flatMap (lineFeed :: ·))) := by
      have hLine : lineFeed :: l = lineFeed :: (b ++ trimSpace l) ++ b' := by
        rw [cons_append, append_assoc, ← hEq]
      rw [ListEntry.render, hLines, intercalate_cons, flatMap_append, flatMap_cons, hLine]
      simp
    rw [hRender, intercalate_cons, trimSpace_of_bare .nil (hb'.append (blank_lines hBlank))]
    exact bare_lines hName e.name_ne hBare hl hb front
  · have hTrim : trimSpace (b ++ trimSpace l) = trimSpace l := by
      have h := trimSpace_of_bare hb .nil hBare
      rwa [append_nil] at h
    have hNone : (back.map trimSpace).filter (· ≠ []) = [] := by
      rw [filter_eq_nil_iff]
      intro x hx
      obtain ⟨y, hy, rfl⟩ := mem_map.mp hx
      simpa using hBlank y hy
    rw [ListEntry.texts, textsOf, textsOf, hLines, map_append, map_append,
      filter_append, filter_append,
      map_cons, map_nil, hTrim, map_cons, filter_cons, filter_cons, hNone,
      filter_nil]

/-! ## Lines and stamps -/

theorem textsOf_cons (l : Bytes) (ls : List Bytes) :
    textsOf (l :: ls) = if trimSpace l ≠ [] then trimSpace l :: textsOf ls else textsOf ls := by
  rw [textsOf, map_cons, filter_cons]
  simp only [decide_eq_true_eq]
  rfl

/-- A line is joined to a description with a line feed, unless it is the first one. -/
theorem join_description {descr : List Bytes} (h : ∀ d ∈ descr, d ≠ []) (t : Bytes) :
    (if 0 < ([lineFeed].intercalate descr).length then [lineFeed].intercalate descr ++ [lineFeed]
      else [lineFeed].intercalate descr) ++ t = [lineFeed].intercalate (descr ++ [t]) := by
  by_cases hFirst : descr = []
  · subst hFirst
    simp
  · have hSome := (intercalate_eq_nil_iff (c := lineFeed) h).not.mpr hFirst
    rw [if_pos (length_pos_of_ne_nil hSome), intercalate_concat lineFeed hFirst,
      append_assoc, singleton_append]

theorem scanLines_eq (ls : List Bytes) : ∀ (stampStrs descr : List Bytes), (∀ d ∈ descr, d ≠ []) →
    scanLines ls stampStrs ([lineFeed].intercalate descr) =
      (stampStrs ++ (textsOf ls).filter (IsStampLine ·),
        [lineFeed].intercalate (descr ++ (textsOf ls).filter (IsDescriptionLine ·))) := by
  induction ls with
  | nil =>
    intro stampStrs descr _
    simp [scanLines, textsOf]
  | cons l ls ih =>
    intro stampStrs descr hDescr
    rw [scanLines, textsOf_cons]
    dsimp only
    generalize trimSpace l = t
    by_cases hStamp : stampScheme <+: t ∧ 6 ≤ t.length
    · have hNe : t ≠ [] := by
        rintro rfl
        cases hStamp.2
      have hIs : IsStampLine t := hStamp
      have hNot : ¬ IsDescriptionLine t := fun h => h.1 hStamp
      rw [if_pos hStamp, ih _ _ hDescr, if_pos hNe, filter_cons_of_pos (by simpa using hIs),
        filter_cons_of_neg (by simpa using hNot), append_assoc, singleton_append]
    have hNotStamp : ¬ IsStampLine t := hStamp
    rw [if_neg hStamp]
    by_cases hNil : t = []
    · rw [if_pos (.inl (by rw [hNil]; rfl)), ih _ _ hDescr, if_neg (not_not.mpr hNil)]
    rw [if_pos hNil, filter_cons_of_neg (by simpa using hNotStamp)]
    by_cases hComment : commentStart <+: t
    · have hNot : ¬ IsDescriptionLine t := fun h => h.2 hComment
      rw [if_pos (.inr hComment), ih _ _ hDescr, filter_cons_of_neg (by simpa using hNot)]
    · have hLine : IsDescriptionLine t := ⟨hStamp, hComment⟩
      have hLen : ¬ (t.length = 0 ∨ commentStart <+: t) :=
        not_or.mpr ⟨fun h => hNil (length_eq_zero_iff.mp h), hComment⟩
      have hDescr' : ∀ d ∈ descr ++ [t], d ≠ [] :=
        forall_mem_append.mpr ⟨hDescr, forall_mem_singleton.mpr hNil⟩
      rw [if_neg hLen, join_description hDescr, ih _ _ hDescr',
        filter_cons_of_pos (by simpa using hLine), append_assoc, singleton_append]

section Stamps

variable {S : Type} (lib : StampLib S)

/-- The stamps of an order that are tried. -/
def triedStamps : List Bytes → List Bytes
  | [] => []
  | stampStr :: rest =>
    match lib.newServerStampFromString stampStr with
    | .ok _ => [stampStr]
    | .error _ => stampStr :: triedStamps rest

/-- A stamp that cannot be decoded. -/
def Invalid (stampStr : Bytes) : Prop := ∃ err, lib.newServerStampFromString stampStr = .error err

theorem tryStamps_eq (order : List Bytes) : ∀ stampErrs,
    (∀ stamp, (tryStamps lib order stampErrs).1 = some stamp →
      ∃ stampStr ∈ order, lib.newServerStampFromString stampStr = .ok stamp) ∧
    ((tryStamps lib order stampErrs).1 = none → ∀ stampStr ∈ order, Invalid lib stampStr) ∧
    ∃ new, (tryStamps lib order stampErrs).2 = stampErrs ++ new ∧
      (new = [] ↔ ∀ stampStr ∈ triedStamps lib order, ¬ Invalid lib stampStr) := by
  induction order with
  | nil =>
    intro stampErrs
    refine ⟨fun _ h => (nomatch h), fun _ _ h => (nomatch h), [], ?_, ?_⟩
    · rw [tryStamps, append_nil]
    · exact ⟨fun _ _ h => (nomatch h), fun _ => rfl⟩
  | cons stampStr rest ih =>
    intro stampErrs
    rw [tryStamps, triedStamps]
    cases hDecode : lib.newServerStampFromString stampStr with
    | ok stamp =>
      refine ⟨?_, fun h => (nomatch h), [], (append_nil _).symm, ?_⟩
      · intro stamp' h
        obtain rfl := Option.some.inj h
        exact ⟨stampStr, mem_cons_self, hDecode⟩
      · refine ⟨fun _ stampStr' hMem => ?_, fun _ => rfl⟩
        rintro ⟨err, hErr⟩
        rw [mem_singleton.mp hMem, hDecode] at hErr
        cases hErr
    | error err =>
      dsimp only
      generalize "Invalid or unsupported stamp [" ++ Bytes.text stampStr ++ "]: " ++ err = msg
      obtain ⟨hSome, hNone, new, hErrs, -⟩ := ih (stampErrs ++ [msg])
      refine ⟨?_, ?_, msg :: new, ?_, ?_⟩
      · intro stamp h
        obtain ⟨stampStr', hMem, hOk⟩ := hSome stamp h
        exact ⟨stampStr', mem_cons_of_mem _ hMem, hOk⟩
      · intro h stampStr' hMem
        rcases mem_cons.mp hMem with rfl | hMem
        · exact ⟨err, hDecode⟩
        · exact hNone h stampStr' hMem
      · rw [hErrs, append_assoc, singleton_append]
      · refine ⟨fun h => (nomatch h), fun h => ?_⟩
        exact absurd ⟨err, hDecode⟩ (h stampStr mem_cons_self)

end Stamps

/-! ## Entries -/

section Entries

variable {K : Type*} {S : Type} (lib : StampLib S) (source : Source K)

variable (i : Nat) (e : ListEntry)

/-- The order in which the stamps of an entry are tried. -/
def stampOrder : List Bytes :=
  if 1 < e.stamps.length then lib.shuffle i e.stamps else e.stamps

/-- What becomes of an entry. -/
def entryResult (stampErrs : List String) : Option (ListedServer S) × List String :=
  let name := utf8 source.namePrefix.toList ++ e.name
  if e.stamps.length = 0 then
    (none, stampErrs ++ ["Missing stamp for server [" ++ Bytes.text name ++ "]"])
  else
    let tried := tryStamps lib (stampOrder lib i e) stampErrs
    (tried.1.map fun stamp => { name, stamp, description := e.description }, tried.2)

theorem parsePart_render (stampErrs : List String) :
    parsePart lib source i e.render stampErrs = some (entryResult lib source i e stampErrs) := by
  obtain ⟨ls, hNe, hLine, hTrim, hTexts⟩ := trimSpace_render e
  have hSplit : (trimSpace e.render).splitOn lineFeed = e.name :: ls := by
    rw [hTrim]
    refine splitOn_intercalate lineFeed ?_ (cons_ne_nil _ _)
    exact forall_mem_cons.mpr ⟨e.name_line, hLine⟩
  have hScan : scanLines ls [] [] = (e.stamps, e.description) := by
    have h := scanLines_eq ls [] [] (fun _ h => (nomatch h))
    rw [nil_append, nil_append, hTexts] at h
    exact h
  have hName : e.name.length ≠ 0 := fun h => e.name_ne (length_eq_zero_iff.mp h)
  obtain ⟨first, rest, rfl⟩ := exists_cons_of_ne_nil hNe
  unfold parsePart entryResult stampOrder
  rw [hSplit]
  dsimp only
  rw [e.name_trimmed, if_neg hName, hScan]
  by_cases hStamps : e.stamps.length = 0
  · rw [if_pos hStamps, if_pos hStamps]
  rw [if_neg hStamps, if_neg hStamps]
  rcases tryStamps lib _ stampErrs with ⟨_ | stamp, errs⟩ <;> rfl

/-- Some stamp of the entry can be decoded. -/
def hasValid (e : ListEntry) : Bool :=
  e.stamps.any fun stampStr => (lib.newServerStampFromString stampStr).isOk

/-- The server is the one of the entry, with one of its stamps. -/
def Registers (e : ListEntry) (server : ListedServer S) : Prop :=
  server.name = utf8 source.namePrefix.toList ++ e.name ∧
  (∃ stampStr ∈ e.stamps, lib.newServerStampFromString stampStr = .ok server.stamp) ∧
  server.description = e.description

/-- Entry number `i` has no stamp, or a stamp that is tried cannot be decoded. -/
def Faulty : Prop :=
  e.stamps = [] ∨ ∃ stampStr ∈ triedStamps lib (stampOrder lib i e), Invalid lib stampStr

theorem hasValid_iff (e : ListEntry) :
    hasValid lib e = true ↔ ∃ stampStr ∈ e.stamps, ¬ Invalid lib stampStr := by
  rw [hasValid, any_eq_true]
  refine exists_congr fun stampStr => and_congr_right fun _ => ?_
  unfold Invalid
  cases lib.newServerStampFromString stampStr with
  | ok stamp => simp [Except.isOk, Except.toBool]
  | error err => simp [Except.isOk, Except.toBool]

variable {lib}

theorem mem_stampOrder (hShuffle : ∀ i l, (lib.shuffle i l).Perm l) {i : Nat} {e : ListEntry}
    {stampStr : Bytes} : stampStr ∈ stampOrder lib i e ↔ stampStr ∈ e.stamps := by
  unfold stampOrder
  split
  · exact (hShuffle i e.stamps).mem_iff
  · rfl

/-- An entry with a valid stamp registers its server, others register none; and there is an error
for an entry at fault. -/
theorem entryResult_spec (hShuffle : ∀ i l, (lib.shuffle i l).Perm l) (i : Nat) (e : ListEntry)
    (stampErrs : List String) :
    (∀ server, (entryResult lib source i e stampErrs).1 = some server →
      hasValid lib e = true ∧ Registers lib source e server) ∧
    ((entryResult lib source i e stampErrs).1 = none → ¬ hasValid lib e = true) ∧
    ∃ new, (entryResult lib source i e stampErrs).2 = stampErrs ++ new ∧
      (new = [] ↔ ¬ Faulty lib i e) := by
  unfold entryResult
  by_cases hStamps : e.stamps.length = 0
  · have hNil := length_eq_zero_iff.mp hStamps
    rw [if_pos hStamps]
    refine ⟨fun _ h => (nomatch h), fun _ h => ?_, _, rfl, fun h => (nomatch h),
      fun h => absurd (.inl hNil) h⟩
    obtain ⟨stampStr, hMem, -⟩ := (hasValid_iff lib e).mp h
    rw [hNil] at hMem
    cases hMem
  rw [if_neg hStamps]
  obtain ⟨hSome, hNone, new, hErrs, hNew⟩ := tryStamps_eq lib (stampOrder lib i e) stampErrs
  refine ⟨?_, ?_, new, hErrs, ?_⟩
  · intro server h
    obtain ⟨stamp, hStamp, rfl⟩ := Option.map_eq_some_iff.mp h
    obtain ⟨stampStr, hMem, hOk⟩ := hSome stamp hStamp
    have hOwn := (mem_stampOrder hShuffle).mp hMem
    refine ⟨(hasValid_iff lib e).mpr ⟨stampStr, hOwn, ?_⟩, rfl, ⟨stampStr, hOwn, hOk⟩, rfl⟩
    rintro ⟨err, hErr⟩
    rw [hOk] at hErr
    cases hErr
  · intro h hValid
    obtain ⟨stampStr, hMem, hOk⟩ := (hasValid_iff lib e).mp hValid
    exact hOk (hNone (Option.map_eq_none_iff.mp h) stampStr ((mem_stampOrder hShuffle).mpr hMem))
  · have hSomeStamp : e.stamps ≠ [] := fun h => hStamps (length_eq_zero_iff.mpr h)
    rw [hNew, Faulty, not_or]
    simp only [hSomeStamp, not_false_iff, true_and, not_exists, not_and]

/-- The loop over the parts of a list appends the servers of the entries that have one. -/
theorem parseParts_spec (hShuffle : ∀ i l, (lib.shuffle i l).Perm l) (entries : List ListEntry) :
    ∀ (i : Nat) (servers : List (ListedServer S)) (stampErrs : List String),
    ∃ new, List.Forall₂ (Registers lib source) (entries.filter (hasValid lib)) new ∧
      (parseParts lib source i (entries.map ListEntry.render) servers stampErrs).1 =
        servers ++ new ∧
      ((parseParts lib source i (entries.map ListEntry.render) servers stampErrs).2 ≠ none ↔
        stampErrs ≠ [] ∨ ∃ j e, entries[j]? = some e ∧ Faulty lib (i + j) e) := by
  induction entries with
  | nil =>
    intro i servers stampErrs
    refine ⟨[], .nil, ?_, ?_⟩
    · rw [map_nil, parseParts]
      split <;> rw [append_nil]
    · rw [map_nil, parseParts]
      by_cases hErrs : stampErrs = []
      · simp [hErrs]
      · simp [hErrs]
  | cons e entries ih =>
    intro i servers stampErrs
    obtain ⟨hSome, hNone, errs, hErrs, hFault⟩ := entryResult_spec source hShuffle i e stampErrs
    rw [map_cons, parseParts, parsePart_render]
    obtain ⟨new, hReg, hServers, hErr⟩ := ih (i + 1)
      (servers ++ (entryResult lib source i e stampErrs).1.toList)
      (entryResult lib source i e stampErrs).2
    refine ⟨(entryResult lib source i e stampErrs).1.toList ++ new, ?_, ?_, ?_⟩
    · cases hEntry : (entryResult lib source i e stampErrs).1 with
      | none =>
        rw [filter_cons_of_neg (hNone hEntry)]
        exact hReg
      | some server =>
        obtain ⟨hValid, hServer⟩ := hSome server hEntry
        rw [filter_cons_of_pos hValid]
        exact .cons hServer hReg
    · rw [hServers, append_assoc]
    · -- an error comes from before, from this entry or from one behind it
      rw [hErr, hErrs, ne_eq, append_eq_nil_iff, not_and_or, hFault, not_not, or_assoc]
      refine or_congr_right ⟨?_, ?_⟩
      · rintro (hThis | ⟨j, e', hj, hFaulty⟩)
        · exact ⟨0, e, rfl, hThis⟩
        · exact ⟨j + 1, e', hj, by rwa [Nat.add_comm j 1, ← Nat.add_assoc]⟩
      · rintro ⟨_ | j, e', hj, hFaulty⟩
        · obtain rfl := Option.some.inj hj
          exact .inl hFaulty
        · exact .inr ⟨j, e', hj, by rwa [Nat.add_assoc, Nat.add_comm 1 j]⟩

end Entries

/-! ## Lists -/

theorem borderless_headerMarker : Borderless headerMarker := by
  have hInits : ∀ u ∈ headerMarker.inits, u <:+ headerMarker → u = [] ∨ u = headerMarker := by
    decide
  exact fun u hu => hInits u ((mem_inits u headerMarker).mpr hu)

/-- No marker is found inside an entry: the lines have none, and a marker has no line feed. -/
theorem ListEntry.render_no_marker (e : ListEntry) : ¬ headerMarker <:+: e.render := by
  have hJoin : ∀ (ls : List Bytes) (first : Bytes), (∀ l ∈ first :: ls, ¬ headerMarker <:+: l) →
      ¬ headerMarker <:+: [lineFeed].intercalate (first :: ls) := by
    intro ls
    induction ls with
    | nil =>
      intro first h
      simpa using h first
    | cons l ls ih =>
      intro first h hIn
      have hSplit : [lineFeed].intercalate (first :: l :: ls) =
          first ++ lineFeed :: [lineFeed].intercalate (l :: ls) := by simp
      rcases infix_append_cases (by decide) hIn with hFirst | hRest
      · exact h first mem_cons_self hFirst
      · exact ih l (fun l' hl' => h l' (mem_cons_of_mem first hl')) hRest
  exact hJoin e.lines e.name e.no_marker

theorem splitWord_renderList {preamble : Bytes} (hPreamble : ¬ headerMarker <:+: preamble)
    (entries : List ListEntry) :
    splitWord headerMarker (renderList preamble entries) =
      preamble :: entries.map ListEntry.render := by
  refine splitWord_render (by decide) borderless_headerMarker hPreamble ?_
  intro t ht
  obtain ⟨e, -, rfl⟩ := mem_map.mp ht
  exact e.render_no_marker

section Lists

variable {K : Type*} {S : Type} {lib : StampLib S}

/-- Parsing a list that is written as the format wants gives back its entries: those with a stamp
that can be decoded, in order, each with its prefixed name, one of its own stamps and its
description; and an error tells of every entry without a stamp and every stamp that was tried in
vain. -/
theorem parse_rendered_list (hShuffle : ∀ i l, (lib.shuffle i l).Perm l) (source : Source K)
    (preamble : Bytes) (entries : List ListEntry) (hPreamble : ¬ headerMarker <:+: preamble)
    (hEntries : entries ≠ []) (hBin : source.bin = renderList preamble entries) :
    List.Forall₂ (Registers lib source) (entries.filter (hasValid lib)) (parseV2 lib source).1 ∧
    ((parseV2 lib source).2 ≠ none ↔ ∃ i e, entries[i]? = some e ∧ Faulty lib i e) := by
  obtain ⟨e, rest, rfl⟩ := exists_cons_of_ne_nil hEntries
  have hParse : parseV2 lib source =
      parseParts lib source 0 ((e :: rest).map ListEntry.render) [] [] := by
    rw [parseV2, hBin, splitWord_renderList hPreamble, map_cons]
  obtain ⟨new, hReg, hServers, hErr⟩ := parseParts_spec source hShuffle (e :: rest) 0 [] []
  rw [hParse, hServers, hErr]
  refine ⟨hReg, ?_⟩
  simp only [ne_eq, not_true_eq_false, false_or, Nat.zero_add]

end Lists

/-- Stamps are kept as they are, if they end in `1`; the last one is tried first. -/
def lastFirst : StampLib Bytes where
  newServerStampFromString s := if s.getLast? = some 49 then .ok s else .error "unsupported"
  shuffle _ stampStrs := stampStrs.reverse
  urlString url := url.host ++ url.path

/-- `a` with a line of description between two stamps, of which the second is no good. -/
def mixedEntry : ListEntry where
  name := ascii "a"
  lines := [ascii "sdns:1", ascii " text ", ascii "sdns:2", []]
  name_ne := by decide
  name_trimmed := by decide
  name_line := by decide
  lines_line := by decide
  not_blank := by decide
  no_marker := by decide

/-- `b` with a comment only. -/
def bareEntry : ListEntry where
  name := ascii "b"
  lines := [ascii "// none"]
  name_ne := by decide
  name_trimmed := by decide
  name_line := by decide
  lines_line := by decide
  not_blank := by decide
  no_marker := by decide

def listedSource : Source Unit :=
  { name := "", urls := [], format := .v2, bin := renderList [] [mixedEntry, bareEntry]
    minisignKey := none, cacheFile := "", cacheTTL := 0, prefetchDelay := 0, refresh := none
    namePrefix := "x-" }

/-- The server of the first entry comes with its good stamp, and there is an error. -/
theorem parse_rendered_list_mixed :
    (parseV2 lastFirst listedSource).1 =
      [{ name := ascii "x-a", stamp := ascii "sdns:1", description := ascii "text" }] ∧
    (parseV2 lastFirst listedSource).2 ≠ none := by
  have hShuffle : ∀ i l, (lastFirst.shuffle i l).Perm l := fun _ l => l.reverse_perm
  obtain ⟨hReg, hErr⟩ := parse_rendered_list hShuffle listedSource [] [mixedEntry, bareEntry]
    (by decide) (by decide) rfl
  refine ⟨?_, hErr.mpr ⟨1, bareEntry, rfl, .inl (by decide)⟩⟩
  have hValid : [mixedEntry, bareEntry].filter (hasValid lastFirst) = [mixedEntry] := by
    simp only [filter, show hasValid lastFirst mixedEntry = true by decide,
      show hasValid lastFirst bareEntry = false by decide]
  obtain ⟨server, hServer, hEq⟩ : ∃ server, Registers lastFirst listedSource mixedEntry server ∧
      (parseV2 lastFirst listedSource).1 = [server] := by
    revert hReg
    generalize (parseV2 lastFirst listedSource).1 = servers
    rintro (_ | ⟨hServer, ⟨⟩⟩)
    exact ⟨_, hServer, rfl⟩
  obtain ⟨hName, ⟨stampStr, hStamp, hOk⟩, hDescription⟩ := hServer
  have hStamps : mixedEntry.stamps = [ascii "sdns:1", ascii "sdns:2"] := by decide
  have hGood : server.stamp = ascii "sdns:1" := by
    rcases mem_pair.mp hStamp with rfl | rfl
    · exact (Except.ok.inj hOk).symm
    · cases hOk
  have hText : mixedEntry.description = ascii "text" := by decide
  have hPrefixed : utf8 listedSource.namePrefix.toList ++ mixedEntry.name = ascii "x-a" := by
    decide
  rw [hEq, ← hGood, ← hText, ← hDescription, ← hPrefixed, ← hName]

end DnscryptProxy
