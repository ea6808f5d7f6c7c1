import DnscryptProxy.Cloak.Eval

/-!
# Following cloaking rules

When the rule for a name has a name as its target, `Eval` has the target resolved
by the proxy itself, where the same rules apply to it. `detectCloakingLoops` follows
the targets as they are written; a query has the target as a full name, which
loses the dot at its end again.

* `detectCloakingLoops_eq_ok` — no chain of written targets comes back to a rule;
* `cloaking_walk_nodup` — no chain of queries does either, as long as it goes
  through targets without a dot at the end;
* `dotted_targets_loop` — with such dots a file is accepted and loops.
-/

namespace DnscryptProxy

open Base List PluginCloak Option Except

/-! ## Chains of queries -/

def fqdn (name : Bytes) : Bytes :=
  if name = [] ∨ name.getLast? = some dot then name else name ++ [dot]

section Follow

variable (lib : CloakText) (glob : Bytes → Bytes → Bool) (plugin : PluginCloak)

/-- The rule for the query that resolves the target of a rule. A name that is not
ASCII is not answered. -/
def PluginCloak.follow (key : Bytes) : Option Bytes :=
  let c := plugin.names.get key
  if c.followsTarget then
    match normalizeQName (fqdn c.target) with
    | .ok qName => plugin.ruleFor lib glob qName
    | .error _ => none
  else none

/-- One rule leads to another, through a target without a dot at its end. -/
def PluginCloak.LeadsTo (a b : Bytes) : Prop :=
  plugin.follow lib glob a = some b ∧ (plugin.names.get a).target.getLast? ≠ some dot

end Follow

/-! ## What was checked -/

variable {lib : CloakText} {glob : Bytes → Bytes → Bool}

variable {names : CloakedNames} {m : PatternMatcher Bytes} {createPTR : Bool}

theorem detectStep_eq_none {first : Option (CloakedName × Bytes)} {e : Bytes × CloakedName} :
    detectStep lib glob names m first e = some none ↔ first = none ∧ (e.2.followsTarget = true →
        chase (nextRule lib glob names m) (names.length + 1) [e.1] e.1 = .ends) := by
  unfold detectStep
  cases hFollows : e.2.followsTarget with
  | false => simp
  | true =>
    cases hChase : chase (nextRule lib glob names m) (names.length + 1) [e.1] e.1 with
    | ends => simp
    | runs => simp
    | loops last =>
      refine iff_of_false ?_ (by simp)
      cases first with
      | none => simp
      | some first =>
        simp only [Bool.not_true, Bool.false_eq_true, if_false]
        split <;> simp

theorem detectCloakingLoops_eq_ok {order : CloakedNames} :
    detectCloakingLoops lib glob names m order = some (.ok ()) ↔
      ∀ e ∈ order, e.2.followsTarget = true →
        chase (nextRule lib glob names m) (names.length + 1) [e.1] e.1 = .ends := by
  have hFold : ∀ first, order.foldlM (detectStep lib glob names m) first = some none ↔
      first = none ∧ ∀ e ∈ order, e.2.followsTarget = true →
        chase (nextRule lib glob names m) (names.length + 1) [e.1] e.1 = .ends := by
    induction order with
    | nil =>
      intro first
      simp
    | cons e order ih =>
      intro first
      rw [foldlM_cons, bind_eq_bind, bind_eq_some_iff]
      simp only [ih, forall_mem_cons]
      constructor
      · rintro ⟨first', hStep, rfl, hRest⟩
        obtain ⟨hFirst, hEnds⟩ := detectStep_eq_none.mp hStep
        exact ⟨hFirst, hEnds, hRest⟩
      · rintro ⟨hFirst, hEnds, hRest⟩
        exact ⟨none, detectStep_eq_none.mpr ⟨hFirst, hEnds⟩, rfl, hRest⟩
  have hNone := hFold none
  rw [eq_self, true_and] at hNone
  rw [← hNone, detectCloakingLoops]
  cases order.foldlM (detectStep lib glob names m) none with
  | none => simp
  | some first =>
    cases first with
    | none => simp
    | some c => simp

theorem loadRules_eq_ok {order order' : CloakedNames → CloakedNames} {lines : Bytes}
    (h : loadRules lib glob createPTR order order' lines = some (.ok (names, m))) :
    (cloakLines lib lines).foldlM (loadLine lib createPTR) [] = .ok names ∧
      cloakMatcher lib (order names) = .ok m ∧
      detectCloakingLoops lib glob names m (order' names) = some (.ok ()) := by
  unfold loadRules at h
  split at h
  · cases h
  · next names' hLoad =>
    split at h
    · cases h
    · next m' hAdd =>
      split at h <;> cases h
      next hDetect => exact ⟨hLoad, hAdd, hDetect⟩

/-! ### The targets are in lower case -/

/-- A line changes its own entry, and perhaps that of a reverse name. -/
theorem loadLine_eq_ok {names names' : CloakedNames} {l : CloakLine}
    (h : loadLine lib createPTR names l = .ok names') :
    names' = names.assign lib l ∨ ∃ key, names' = (names.assign lib l).addPTR key l := by
  unfold loadLine at h
  dsimp only at h
  split at h
  · exact .inl (ok.inj h).symm
  · split at h
    · cases h
    · split at h
      · exact .inl (ok.inj h).symm
      · exact .inr ⟨_, (ok.inj h).symm⟩

theorem toLower_target (hLib : lib.toTextLib.Lawful) {lines : List CloakLine}
    (h : lines.foldlM (loadLine lib createPTR) [] = .ok names) (k : Bytes) :
    lib.toLower (names.get k).target = (names.get k).target := by
  induction lines using reverseRecOn generalizing names k with
  | nil =>
    cases h
    exact hLib.toLower_eq [] fun c hc => (not_mem_nil hc).elim
  | append_singleton lines l ih =>
    rw [foldlM_append, bind_eq_ok] at h
    obtain ⟨before, hBefore, hLine⟩ := h
    rw [foldlM_cons, bind_eq_ok] at hLine
    obtain ⟨after, hLine, hAfter⟩ := hLine
    cases hAfter
    -- the target of an entry is the old one, or the one of the line
    have hAssign : ∀ k, lib.toLower ((before.assign lib l).get k).target =
        ((before.assign lib l).get k).target := by
      intro k
      rw [CloakedNames.assign, get_mapAssign]
      split
      · unfold CloakedName.addTarget
        split
        · split <;> exact ih hBefore l.name
        · exact hLib.toLower_toLower l.target
      · exact ih hBefore k
    rcases loadLine_eq_ok hLine with rfl | ⟨key, rfl⟩
    · exact hAssign k
    · rw [CloakedNames.addPTR, get_mapAssign]
      split
      · exact hAssign key
      · exact hAssign k

/-! ## The walk -/

/-- Without a dot at its end a target is asked for as it is written. -/
theorem normalizeQName_fqdn {t q : Bytes} (hNe : t ≠ []) (hDot : t.getLast? ≠ some dot)
    (h : normalizeQName (fqdn t) = .ok q) : IsAscii t ∧ q = t.map lowerByte := by
  rw [fqdn, if_neg (not_or.mpr ⟨hNe, hDot⟩)] at h
  unfold normalizeQName at h
  rw [if_neg] at h
  · dsimp only at h
    rw [if_pos getLast?_concat, dropLast_concat] at h
    split at h
    · cases h
    · next hAscii =>
      refine ⟨fun c hc => ?_, (ok.inj h).symm⟩
      by_contra hLarge
      exact hAscii (any_eq_true.mpr ⟨c, hc, decide_eq_true (UInt8.not_lt.mp hLarge)⟩)
  · rintro (hNil | hSingle)
    · simp at hNil
    · exact hNe (append_eq_singleton_iff.mp hSingle |>.elim (·.1) fun h => nomatch h.2)

theorem get_of_mem (hNodup : (names.map (·.1)).Nodup)
    {e : Bytes × CloakedName} (he : e ∈ names) : names.get e.1 = e.2 := by
  have hSome : (lookupKey names e.1).isSome = true :=
    lookupKey_isSome.mpr (mem_map_of_mem he)
  obtain ⟨c, hc⟩ := isSome_iff_exists.mp hSome
  obtain ⟨e', hFind, hVal⟩ := map_eq_some_iff.mp hc
  have hKey : e'.1 = e.1 := by simpa using find?_some hFind
  have hSame := inj_on_of_nodup_map hNodup (mem_of_find?_eq_some hFind) he hKey
  rw [CloakedNames.get, hc, ← hVal, hSame]
  rfl

section Walk

variable {names : CloakedNames} {m : PatternMatcher Bytes} {ttl : UInt32} {plugin : PluginCloak}

/-- A step of a query is a step of the check, if the check does not stop there. -/
theorem nextRule_of_leadsTo (hLib : lib.toTextLib.Lawful)
    (hLower : ∀ k, lib.toLower (names.get k).target = (names.get k).target)
    (hSame : SameRules { patternMatcher := m, names, ttl } plugin) {a b : Bytes}
    (h : plugin.LeadsTo lib glob a b) :
    (names.get a).followsTarget = true ∧
      ((names.get b).followsTarget = true → nextRule lib glob names m a = some b) := by
  obtain ⟨hFollow, hDot⟩ := h
  unfold follow ruleFor selectedRule at hFollow
  dsimp only at hFollow
  rw [hSame.followsTarget, hSame.target, hSame.patternMatcher] at hFollow
  rw [hSame.target] at hDot
  split at hFollow
  · next hFollows =>
    refine ⟨hFollows, fun hNext => ?_⟩
    split at hFollow
    · next q hQuery =>
      have hNe : (names.get a).target ≠ [] := by
        simp only [CloakedName.followsTarget, Bool.and_eq_true, decide_eq_true_eq] at hFollows
        exact hFollows.2
      obtain ⟨hAscii, rfl⟩ := normalizeQName_fqdn hNe hDot hQuery
      rw [← hLib.toLower_eq _ hAscii, hLower] at hFollow
      obtain ⟨⟨reason, val⟩, hEval, hVal⟩ := bind_eq_some_iff.mp hFollow
      dsimp only at hVal
      rw [nextRule, hEval, hVal]
      exact if_pos hNext
    · cases hFollow
  · cases hFollow

variable (hLib : lib.toTextLib.Lawful)
  (hLower : ∀ k, lib.toLower (names.get k).target = (names.get k).target)
  (hSame : SameRules { patternMatcher := m, names, ttl } plugin)
include hLib hLower hSame

/-- All rules of a walk but the last one follow their target. -/
theorem follows_of_isChain {walk : List Bytes} {last : Bytes}
    (h : List.IsChain (plugin.LeadsTo lib glob) (walk ++ [last])) :
    ∀ a ∈ walk, (names.get a).followsTarget = true := by
  induction walk with
  | nil => exact fun a ha => (not_mem_nil ha).elim
  | cons a walk ih =>
    have hStep : (names.get a).followsTarget = true ∧
        List.IsChain (plugin.LeadsTo lib glob) (walk ++ [last]) := by
      cases walk with
      | nil =>
        obtain ⟨hStep, hRest⟩ := isChain_cons_cons.mp h
        exact ⟨(nextRule_of_leadsTo hLib hLower hSame hStep).1, hRest⟩
      | cons b walk =>
        obtain ⟨hStep, hRest⟩ := isChain_cons_cons.mp h
        exact ⟨(nextRule_of_leadsTo hLib hLower hSame hStep).1, hRest⟩
    exact forall_mem_cons.mpr ⟨hStep.1, ih hStep.2⟩

/-- A walk through rules that follow their target is one that was checked. -/
theorem isChain_nextRule {walk : List Bytes} (h : List.IsChain (plugin.LeadsTo lib glob) walk)
    (hFollows : ∀ a ∈ walk, (names.get a).followsTarget = true) :
    List.IsChain (fun a b => nextRule lib glob names m a = some b) walk := by
  induction walk with
  | nil => exact .nil
  | cons a walk ih =>
    obtain ⟨hFirst, hRest⟩ := forall_mem_cons.mp hFollows
    cases walk with
    | nil => exact .singleton a
    | cons b walk =>
      obtain ⟨hStep, hChain⟩ := isChain_cons_cons.mp h
      refine isChain_cons_cons.mpr ⟨?_, ih hChain hRest⟩
      exact (nextRule_of_leadsTo hLib hLower hSame hStep).2 (hRest b mem_cons_self)

variable {order order' : CloakedNames → CloakedNames} (hOrder : ∀ names, (order names).Perm names)
  (hOrder' : ∀ names, (order' names).Perm names) (hNodup : (names.map (·.1)).Nodup)
  (hAdd : cloakMatcher lib (order names) = .ok m)
  (hDetect : detectCloakingLoops lib glob names m (order' names) = some (.ok ()))
include hOrder hOrder' hNodup hAdd hDetect

/-- A walk through rules that follow their target visits none of them twice. -/
theorem nodup_of_follows {q : Bytes} {walk : List Bytes}
    (hFirst : walk.head? = plugin.ruleFor lib glob q)
    (h : List.IsChain (plugin.LeadsTo lib glob) walk)
    (hFollows : ∀ a ∈ walk, (names.get a).followsTarget = true) : walk.Nodup := by
  cases walk with
  | nil => exact nodup_nil
  | cons r rest =>
    -- the first rule was one of those that the check began with
    rw [ruleFor, hSame.patternMatcher, selectedRule] at hFirst
    obtain ⟨⟨reason, val⟩, hEval, hVal⟩ := bind_eq_some_iff.mp hFirst.symm
    obtain ⟨e, he, hPointer⟩ := eval_rule hLib hAdd hEval
    obtain rfl : r = e.1 := by
      rw [hPointer] at hVal
      exact (some.inj hVal).symm
    have heNames : e ∈ names := (hOrder names).subset he
    have heFollows : e.2.followsTarget = true := by
      rw [← get_of_mem hNodup heNames]
      exact hFollows e.1 mem_cons_self
    have hEnds := detectCloakingLoops_eq_ok.mp hDetect e ((hOrder' names).symm.subset heNames)
      heFollows
    obtain ⟨hRest, hNot⟩ := nodup_of_ends hEnds (isChain_nextRule hLib hLower hSame h hFollows)
    exact nodup_cons.mpr ⟨fun hMem => hNot e.1 hMem (mem_singleton_self _), hRest⟩

end Walk

/-- A plugin that has accepted the file, in whatever order Go iterates over the map,
and has then answered any queries. -/
def PluginCloak.Serves (lib : CloakText) (glob : Bytes → Bytes → Bool) (createPTR : Bool)
    (lines : Bytes) (plugin : PluginCloak) : Prop :=
  ∃ order order' : CloakedNames → CloakedNames, (∀ names, (order names).Perm names) ∧
    (∀ names, (order' names).Perm names) ∧
    ∃ names m, loadRules lib glob createPTR order order' lines = some (.ok (names, m)) ∧
      ∃ ttl calls, plugin = evalAll lib glob { patternMatcher := m, names, ttl } calls

/-- From the rule for any name, following targets without a dot at the end visits no
rule twice. -/
theorem cloaking_walk_nodup (hLib : lib.toTextLib.Lawful) {createPTR : Bool} {lines : Bytes}
    {plugin : PluginCloak} (hServes : plugin.Serves lib glob createPTR lines) (q : Bytes)
    {walk : List Bytes} (hFirst : walk.head? = plugin.ruleFor lib glob q)
    (hWalk : List.IsChain (plugin.LeadsTo lib glob) walk) : walk.Nodup := by
  obtain ⟨order, order', hOrder, hOrder', names, m, hLoad, ttl, calls, hPlugin⟩ := hServes
  have hSame : SameRules { patternMatcher := m, names, ttl } plugin := by
    rw [hPlugin]
    exact evalAll_keeps _ calls
  obtain ⟨hNames, hAdd, hDetect⟩ := loadRules_eq_ok hLoad
  have hLower := toLower_target hLib hNames
  have hNodup : (names.map (·.1)).Nodup := (loadInv_of_ok hNames).1.nodup
  -- the last rule may be one that does not follow its target
  rcases eq_nil_or_concat walk with rfl | ⟨init, last, rfl⟩
  · exact nodup_nil
  · rw [concat_eq_append] at *
    have hFollows := follows_of_isChain hLib hLower hSame hWalk
    by_cases hLast : (names.get last).followsTarget = true
    · refine nodup_of_follows hLib hLower hSame hOrder hOrder' hNodup hAdd hDetect hFirst hWalk ?_
      intro a ha
      rcases mem_append.mp ha with ha | ha
      · exact hFollows a ha
      · rw [mem_singleton.mp ha]
        exact hLast
    · have hInit : init.Nodup := by
        cases init with
        | nil => exact nodup_nil
        | cons r init =>
          exact nodup_of_follows hLib hLower hSame hOrder hOrder' hNodup hAdd hDetect hFirst
            hWalk.left_of_append hFollows
      refine hInit.append (nodup_singleton last) ?_
      rintro a ha haLast
      rw [mem_singleton.mp haLast] at ha
      exact hLast (hFollows last ha)

/-- A plugin that has loaded the file. -/
def loadedPlugin (createPTR : Bool) (lines : String) : Option PluginCloak :=
  match loadRules asciiCloak (fun _ _ => false) createPTR id id (ascii lines) with
  | some (.ok (names, m)) => some { patternMatcher := m, names, ttl := 600 }
  | _ => none

theorem serves_loadedPlugin {createPTR : Bool} {lines : String} {plugin : PluginCloak}
    (h : loadedPlugin createPTR lines = some plugin) :
    plugin.Serves asciiCloak (fun _ _ => false) createPTR (ascii lines) := by
  unfold loadedPlugin at h
  split at h <;> cases h
  next names m hLoad =>
    exact ⟨id, id, List.Perm.refl, List.Perm.refl, names, m, hLoad, 600, [], rfl⟩

theorem serves_getD {createPTR : Bool} {lines : String} {plugin : PluginCloak}
    (h : (loadedPlugin createPTR lines).isSome = true) :
    ((loadedPlugin createPTR lines).getD plugin).Serves asciiCloak (fun _ _ => false) createPTR
      (ascii lines) := by
  obtain ⟨loaded, hLoaded⟩ := isSome_iff_exists.mp h
  have hServes := serves_loadedPlugin hLoaded
  rwa [hLoaded]

/-- A rule that leads to a rule with an address. -/
def chainPlugin : PluginCloak :=
  (loadedPlugin false "a.com b.com\nb.com 1.2.3.4").getD
    { patternMatcher := newPatternMatcher Bytes, names := [], ttl := 0 }

/-- The walk over its rules ends at the second one. -/
theorem chainPlugin_walk_nodup :
    chainPlugin.ruleFor asciiCloak (fun _ _ => false) (ascii "a.com") = some (ascii "a.com") ∧
      chainPlugin.LeadsTo asciiCloak (fun _ _ => false) (ascii "a.com") (ascii "b.com") ∧
      [ascii "a.com", ascii "b.com"].Nodup := by
  have hServes : chainPlugin.Serves asciiCloak (fun _ _ => false) false
      (ascii "a.com b.com\nb.com 1.2.3.4") := serves_getD (by decide +kernel)
  have hFirst : chainPlugin.ruleFor asciiCloak (fun _ _ => false) (ascii "a.com") =
      some (ascii "a.com") := by
    decide +kernel
  have hStep : chainPlugin.LeadsTo asciiCloak (fun _ _ => false) (ascii "a.com")
      (ascii "b.com") := by
    constructor <;> decide +kernel
  exact ⟨hFirst, hStep, cloaking_walk_nodup asciiText_lawful hServes (ascii "a.com") hFirst.symm
    (isChain_cons_cons.mpr ⟨hStep, .singleton _⟩)⟩

/-- Two rules that lead to each other. -/
def loopsBetween (lines a b : String) : Bool :=
  match loadedPlugin false lines with
  | none => false
  | some plugin =>
    decide (plugin.ruleFor asciiCloak (fun _ _ => false) (ascii a) = some (ascii a)) &&
      decide (plugin.follow asciiCloak (fun _ _ => false) (ascii a) = some (ascii b)) &&
      decide (plugin.follow asciiCloak (fun _ _ => false) (ascii b) = some (ascii a))

/-- The file is accepted, and a query for `a.com` goes round between its rules;
without the dots it is refused. -/
theorem dotted_targets_loop :
    loopsBetween "a.com b.com.\nb.com a.com." "a.com" "b.com" = true ∧
      (loadedPlugin false "a.com b.com\nb.com a.com").isNone = true := by
  decide +kernel

end DnscryptProxy
