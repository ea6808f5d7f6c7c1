import DnscryptProxy.Cloak.Loops
import DnscryptProxy.Rules.Ties

/-!
# The order of the map

Go iterates over the map of cloaked names in any order when it adds them to the
matcher, and again when it looks for loops.

* `order_independent_iff` — for which files neither the rule for any name nor the
  report of a loop depends on these orders;
* `spellings_depend_on_order` — two spellings of a suffix, and two substrings.
-/

namespace DnscryptProxy

open Base List

variable (lib : CloakText) (glob : Bytes → Bytes → Bool)

/-- Loading reports a loop. -/
def ReportsLoop (createPTR : Bool) (order order' : CloakedNames → CloakedNames) (lines : Bytes) :
    Prop :=
  ∃ line target pattern, PluginCloak.loadRules lib glob createPTR order order' lines =
    some (.error (.error (.recursive line target pattern)))

/-- The map of a file. -/
def cloakedNamesOf (createPTR : Bool) (lines : Bytes) : Except (Halt CloakError) CloakedNames :=
  (cloakLines lib lines).foldlM (loadLine lib createPTR) []

/-- In any two orders the matcher selects the same rule for every name, and loading
reports a loop in both or in none. -/
structure OrderIndependent (createPTR : Bool) (lines : Bytes) : Prop where
  selection : ∀ names, cloakedNamesOf lib createPTR lines = .ok names →
    ∀ order other : CloakedNames, order.Perm names → other.Perm names → ∀ m m',
      cloakMatcher lib order = .ok m →
      cloakMatcher lib other = .ok m' →
      ∀ q, selectedRule lib glob m q = selectedRule lib glob m' q
  report : ∀ order order' other other' : CloakedNames → CloakedNames,
    (∀ names, (order names).Perm names) → (∀ names, (order' names).Perm names) →
    (∀ names, (other names).Perm names) → (∀ names, (other' names).Perm names) →
    (ReportsLoop lib glob createPTR order order' lines ↔
      ReportsLoop lib glob createPTR other other' lines)

variable (createPTR : Bool) (lines : List CloakLine)

/-- The patterns that a file gives: its names and, with `cloak_ptr`, the reverse
names of its addresses. -/
def IsPattern (pattern : Bytes) : Prop :=
  (∃ l ∈ lines, l.name = pattern) ∨ createPTR = true ∧ ∃ f, Generated lines pattern f

/-- The rule of a pattern; a pattern with a syntax error has none. -/
def cloakRuleOf (pattern : Bytes) : Option (NameRule Bytes) :=
  AddCall.rule? lib.toTextLib { pattern, val := some pattern, position := 0 }

def FileRule (r : NameRule Bytes) : Prop :=
  ∃ pattern, IsPattern createPTR lines pattern ∧ cloakRuleOf lib pattern = some r

/-- The file has a pattern with a syntax error. -/
def HasSyntaxError : Prop :=
  ∃ pattern, IsPattern createPTR lines pattern ∧ cloakRuleOf lib pattern = none

variable {lib glob}

variable {names : CloakedNames} {createPTR : Bool} {lines : Bytes}

/-! ## Selection -/

/-- The position of a pattern is only in its error. -/
theorem rule?_cloakCall (e : Bytes × CloakedName) :
    (cloakCall e).rule? lib.toTextLib = cloakRuleOf lib e.1 := by
  have hClassify : ∀ p p', (classifyPattern lib.toTextLib e.1 p).toOption =
      (classifyPattern lib.toTextLib e.1 p').toOption := by
    intro p p'
    unfold classifyPattern
    dsimp only
    split_ifs <;> rfl
  have hRule : ∀ p, AddCall.rule? lib.toTextLib { pattern := e.1, val := some e.1, position := p } =
      (classifyPattern lib.toTextLib e.1 p).toOption.bind fun k =>
        if k.2 = [] then none
        else some
          { kind := k.1
            key := if k.1 = .suffixType then lib.stringReverse (lib.toLower k.2) ++ ['.'.toUInt8]
              else lib.toLower k.2
            val := some e.1 } := by
    intro p
    unfold AddCall.rule? patternKey
    cases classifyPattern lib.toTextLib e.1 p with
    | error err => rfl
    | ok k =>
      dsimp only [Except.toOption, Option.bind_some]
      split_ifs <;> rfl
  rw [cloakCall, cloakRuleOf, hRule, hRule, hClassify]

theorem addAll_cloak_iff {entries : CloakedNames} {m : PatternMatcher Bytes} :
    cloakMatcher lib entries = .ok m ↔
      (∀ e ∈ entries, ((cloakCall e).rule? lib.toTextLib).isSome = true) ∧
        m = matcherOf (cloakRules lib entries) := by
  rw [addAll_eq_ok, forall_mem_map]
  rfl

theorem cloakRules_perm (lib : CloakText) {entries names : CloakedNames} (h : entries.Perm names) :
    (cloakRules lib entries).Perm (cloakRules lib names) :=
  (h.map cloakCall).filterMap _

theorem selectedRule_eq_some (hLib : lib.toTextLib.Lawful) {entries : CloakedNames} {q k : Bytes} :
    selectedRule lib glob (matcherOf (cloakRules lib entries)) q = some k ↔
      TopRule lib.toTextLib glob q (cloakRules lib entries) (·.val = some k) := by
  have hSep := separate_cloakRules hLib entries
  rw [selectedRule, Option.bind_eq_some_iff]
  constructor
  · rintro ⟨⟨reason, val⟩, hEval, hVal⟩
    exact ((eval_eq_some hSep).mp hEval).imp fun r hr => hr.2.symm.trans hVal
  · rintro ⟨before, r, after, hRules, hCharge, hVal⟩
    exact ⟨(reasonFor lib.toTextLib r.kind r.key, r.val),
      (eval_eq_some hSep).mpr ⟨before, r, after, hRules, hCharge, rfl, rfl⟩, hVal⟩

theorem eq_of_val_eq (hNodup : (names.map (·.1)).Nodup)
    {r r' : NameRule Bytes} (hr : r ∈ cloakRules lib names) (hr' : r' ∈ cloakRules lib names)
    (hVal : r.val = r'.val) : r = r' := by
  obtain ⟨e, he, hRule⟩ := mem_cloakRules.mp hr
  obtain ⟨e', he', hRule'⟩ := mem_cloakRules.mp hr'
  have hKey : e.1 = e'.1 := by
    rw [(AddCall.rule?_eq_some.mp hRule).2, (AddCall.rule?_eq_some.mp hRule').2] at hVal
    exact Option.some.inj hVal
  obtain rfl := inj_on_of_nodup_map hNodup he he' hKey
  rw [hRule] at hRule'
  exact Option.some.inj hRule'

/-- Without ties the selection does not depend on the order. -/
theorem selectedRule_perm (hLib : lib.toTextLib.Lawful) {names order other : CloakedNames}
    (hTied : ∀ q, ¬ Tied lib.toTextLib glob q (· ∈ cloakRules lib names))
    (hOrder : order.Perm names) (hOther : other.Perm names) (q : Bytes) :
    selectedRule lib glob (matcherOf (cloakRules lib order)) q =
      selectedRule lib glob (matcherOf (cloakRules lib other)) q := by
  have hNot : ∀ entries : CloakedNames, entries.Perm names →
      ¬ Tied lib.toTextLib glob q (· ∈ cloakRules lib entries) := fun entries hPerm hEntries =>
    hTied q (hEntries.congr fun _ => (cloakRules_perm lib hPerm.symm).mem_iff)
  have hBoth := cloakRules_perm lib (hOther.trans hOrder.symm)
  refine Option.ext fun k => ?_
  rw [selectedRule_eq_some hLib, selectedRule_eq_some hLib]
  exact ⟨topRule_perm (hNot order hOrder) hBoth, topRule_perm (hNot other hOther) hBoth.symm⟩

/-- With a tie there are two orders with different selections. -/
theorem exists_orders_of_tied (hLib : lib.toTextLib.Lawful)
    (hNodup : (names.map (·.1)).Nodup) {q : Bytes}
    (hTied : Tied lib.toTextLib glob q (· ∈ cloakRules lib names)) :
    ∃ order other : CloakedNames, order.Perm names ∧ other.Perm names ∧
      selectedRule lib glob (matcherOf (cloakRules lib order)) q ≠
        selectedRule lib glob (matcherOf (cloakRules lib other)) q := by
  obtain ⟨hLong, r, r', hNe, hr, hr'⟩ := hTied
  obtain ⟨e, he, hRule⟩ := mem_cloakRules.mp hr.mem
  obtain ⟨e', he', hRule'⟩ := mem_cloakRules.mp hr'.mem
  have heNe : e' ≠ e := by
    rintro rfl
    rw [hRule] at hRule'
    exact hNe (Option.some.inj hRule')
  -- one of the two entries first, and the other one last
  have hMid : ∃ mid : CloakedNames, (e :: (mid ++ [e'])).Perm names := by
    refine ⟨(names.erase e).erase e', ?_⟩
    have hErase : (names.erase e).Perm (e' :: (names.erase e).erase e') :=
      perm_cons_erase ((mem_erase_of_ne heNe).mpr he')
    exact (((perm_append_singleton e' _).trans hErase.symm).cons e).trans
      (perm_cons_erase he).symm
  obtain ⟨mid, hOrder⟩ := hMid
  have hOther : (e' :: (mid ++ [e])).Perm names := (perm_exchange mid e e').trans hOrder
  have hRules : ∀ (a b : Bytes × CloakedName) (ra rb : NameRule Bytes),
      (cloakCall a).rule? lib.toTextLib = some ra → (cloakCall b).rule? lib.toTextLib = some rb →
      cloakRules lib (a :: (mid ++ [b])) = ra :: (cloakRules lib mid ++ [rb]) := by
    intro a b ra rb ha hb
    simp [cloakRules, ha, hb]
  refine ⟨_, _, hOrder, hOther, fun hEq => ?_⟩
  have hPerm := cloakRules_perm lib hOrder
  have hPerm' := cloakRules_perm lib hOther
  obtain ⟨x, hForemost, hTop⟩ := exists_topRule hLong (hPerm.symm.subset hr.mem) hr.hit
  have hx : x ∈ cloakRules lib names := hPerm.subset hForemost.mem
  obtain ⟨e₀, -, hVal⟩ := val_cloakRules hx
  -- the other order selects the same entry, so it has the same rule in charge
  have hSelected := (selectedRule_eq_some hLib).mpr (hTop.imp fun y (hy : y = x) => hy ▸ hVal)
  rw [hEq, selectedRule_eq_some hLib] at hSelected
  have hTop' : TopRule lib.toTextLib glob q (cloakRules lib (e' :: (mid ++ [e]))) (· = x) := by
    obtain ⟨before', y, after', hSplit', hCharge', hyVal⟩ := hSelected
    have hy : y ∈ cloakRules lib names := hPerm'.subset (by rw [hSplit']; simp)
    exact ⟨before', y, after', hSplit', hCharge', eq_of_val_eq hNodup hy hx (hyVal.trans hVal.symm)⟩
  rw [hRules e e' r r' hRule hRule'] at hPerm hTop
  rw [hRules e' e r' r hRule' hRule] at hTop'
  exact topRule_swap hNe (hr.congr fun _ => hPerm.mem_iff) (hr'.congr fun _ => hPerm.mem_iff) hTop
    hTop'

/-! ## The report of a loop -/

theorem nextRule_eq (names : CloakedNames) (m : PatternMatcher Bytes) (key : Bytes) :
    nextRule lib glob names m key =
      (selectedRule lib glob m (names.get key).target).bind fun next =>
        if (names.get next).followsTarget then some next else none := by
  unfold nextRule selectedRule
  cases m.eval lib.toTextLib glob (names.get key).target with
  | none => rfl
  | some found =>
    obtain ⟨reason, val⟩ := found
    cases val <;> rfl

/-- A loop is reported iff the patterns have no syntax error and the chain of some
rule does not end. -/
theorem reportsLoop_iff (hLib : lib.toTextLib.Lawful)
    (hNames : cloakedNamesOf lib createPTR lines = .ok names)
    {order order' : CloakedNames → CloakedNames} (hOrder : ∀ names, (order names).Perm names)
    (hOrder' : ∀ names, (order' names).Perm names) :
    ReportsLoop lib glob createPTR order order' lines ↔
      (∀ e ∈ names, (cloakRuleOf lib e.1).isSome = true) ∧ ¬ ∀ e ∈ names, e.2.followsTarget = true →
          chase (nextRule lib glob names (matcherOf (cloakRules lib (order names))))
            (names.length + 1) [e.1] e.1 = .ends := by
  have hSyntax : (∀ e ∈ order names, ((cloakCall e).rule? lib.toTextLib).isSome = true) ↔
      ∀ e ∈ names, (cloakRuleOf lib e.1).isSome = true := by
    simp only [rule?_cloakCall, (hOrder names).mem_iff]
  unfold ReportsLoop PluginCloak.loadRules
  rw [← cloakedNamesOf, hNames, ← hSyntax]
  dsimp only
  cases hAdd : cloakMatcher lib (order names) with
  | error err =>
    refine iff_of_false ?_ ?_
    · rintro ⟨line, target, pattern, h⟩
      cases h
    · rintro ⟨hRules, -⟩
      rw [addAll_cloak_iff.mpr ⟨hRules, rfl⟩] at hAdd
      cases hAdd
  | ok m =>
    obtain ⟨hRules, rfl⟩ := addAll_cloak_iff.mp hAdd
    rw [and_iff_right hRules]
    have hEnds : detectCloakingLoops lib glob names (matcherOf (cloakRules lib (order names)))
        (order' names) = some (.ok ()) ↔ _ := detectCloakingLoops_eq_ok
    simp only [(hOrder' names).mem_iff] at hEnds
    rw [← hEnds]
    have hReturns : (detectCloakingLoops lib glob names (matcherOf (cloakRules lib (order names)))
        (order' names)).isSome = true :=
      detectCloakingLoops_returns hLib hAdd (hOrder names) (hOrder' names)
    obtain ⟨r, hr⟩ := Option.isSome_iff_exists.mp hReturns
    dsimp only
    rw [hr]
    cases r with
    | error err =>
      -- the only error of the search is a loop
      unfold detectCloakingLoops at hr
      split at hr <;> cases hr
      exact iff_of_true ⟨_, _, _, rfl⟩ (fun h => nomatch h)
    | ok _ =>
      refine iff_of_false ?_ (not_not.mpr rfl)
      rintro ⟨line, target, pattern, h⟩
      cases h

/-! ## All files -/

theorem mem_cloakRules_iff {lines : List CloakLine}
    (h : LoadInv createPTR lines names) (r : NameRule Bytes) :
    r ∈ cloakRules lib names ↔ FileRule lib createPTR lines r := by
  rw [mem_cloakRules]
  simp only [rule?_cloakCall]
  constructor
  · rintro ⟨e, he, hRule⟩
    exact ⟨e.1, (h.mem e.1).mp (mem_map_of_mem he), hRule⟩
  · rintro ⟨pattern, hPattern, hRule⟩
    obtain ⟨e, he, rfl⟩ := mem_map.mp ((h.mem pattern).mpr hPattern)
    exact ⟨e, he, hRule⟩

theorem forall_isSome_iff {lines : List CloakLine} (h : LoadInv createPTR lines names) :
    (∀ e ∈ names, (cloakRuleOf lib e.1).isSome = true) ↔ ¬ HasSyntaxError lib createPTR lines := by
  constructor
  · rintro hAll ⟨pattern, hPattern, hNone⟩
    obtain ⟨e, he, rfl⟩ := mem_map.mp ((h.mem pattern).mpr hPattern)
    have := hAll e he
    rw [hNone] at this
    cases this
  · intro hNot e he
    by_contra hNone
    rw [Bool.not_eq_true, Option.isSome_eq_false_iff, Option.isNone_iff_eq_none] at hNone
    exact hNot ⟨e.1, (h.mem e.1).mp (mem_map_of_mem he), hNone⟩

/-- A file that is loaded and has a tie gives two matchers that differ. -/
theorem not_orderIndependent (hLib : lib.toTextLib.Lawful)
    (hNames : cloakedNamesOf lib createPTR lines = .ok names)
    (hInv : LoadInv createPTR (cloakLines lib lines) names)
    (hSyntax : ¬ HasSyntaxError lib createPTR (cloakLines lib lines)) {q : Bytes}
    (hTied : Tied lib.toTextLib glob q (FileRule lib createPTR (cloakLines lib lines))) :
    ¬ OrderIndependent lib glob createPTR lines := by
  intro hSame
  have hAll := (forall_isSome_iff hInv).mpr hSyntax
  have hAdd : ∀ entries : CloakedNames, entries.Perm names → cloakMatcher lib entries =
        .ok (matcherOf (cloakRules lib entries)) := by
    intro entries hPerm
    refine addAll_cloak_iff.mpr ⟨fun e he => ?_, rfl⟩
    rw [rule?_cloakCall]
    exact hAll e (hPerm.subset he)
  obtain ⟨order, other, hOrder, hOther, hNe⟩ :=
    exists_orders_of_tied hLib hInv.nodup (hTied.congr (mem_cloakRules_iff hInv))
  exact hNe (hSame.selection names hNames order other hOrder hOther _ _ (hAdd order hOrder)
    (hAdd other hOther) q)

/-- A file whose matchers select the same rules reports a loop in any order or in none. -/
theorem reportsLoop_congr (hLib : lib.toTextLib.Lawful)
    (hNames : cloakedNamesOf lib createPTR lines = .ok names)
    {order order' other other' : CloakedNames → CloakedNames}
    (hOrder : ∀ names, (order names).Perm names) (hOrder' : ∀ names, (order' names).Perm names)
    (hOther : ∀ names, (other names).Perm names) (hOther' : ∀ names, (other' names).Perm names)
    (hSelected : (∀ e ∈ names, (cloakRuleOf lib e.1).isSome = true) → ∀ q,
      selectedRule lib glob (matcherOf (cloakRules lib (order names))) q =
        selectedRule lib glob (matcherOf (cloakRules lib (other names))) q) :
    ReportsLoop lib glob createPTR order order' lines ↔
      ReportsLoop lib glob createPTR other other' lines := by
  rw [reportsLoop_iff hLib hNames hOrder hOrder', reportsLoop_iff hLib hNames hOther hOther']
  refine and_congr_right fun hAll => not_congr (forall₃_congr fun e he _ => ?_)
  have hNext : nextRule lib glob names (matcherOf (cloakRules lib (order names))) =
      nextRule lib glob names (matcherOf (cloakRules lib (other names))) := by
    funext key
    rw [nextRule_eq, nextRule_eq, hSelected hAll]
  rw [hNext]

/-- The order of the map does not matter iff the file makes the loader panic, has a
pattern with a syntax error, or has no two rules that are foremost for one name. -/
theorem order_independent_iff (hLib : lib.toTextLib.Lawful) (createPTR : Bool) (lines : Bytes) :
    OrderIndependent lib glob createPTR lines ↔ (createPTR = true ∧ Panics (cloakLines lib lines)) ∨
        HasSyntaxError lib createPTR (cloakLines lib lines) ∨
        ∀ q, ¬ Tied lib.toTextLib glob q (FileRule lib createPTR (cloakLines lib lines)) := by
  constructor
  · intro hSame
    by_contra hNot
    obtain ⟨hRuns, hSyntax, hTied⟩ := (not_or.trans (and_congr_right' not_or)).mp hNot
    obtain ⟨q, hTied⟩ := not_forall_not.mp hTied
    rcases load_lines lib createPTR (cloakLines lib lines) with
      ⟨-, names, hNames, hInv⟩ | ⟨hPTR, hPanics, -⟩
    · exact not_orderIndependent hLib hNames hInv hSyntax hTied hSame
    · exact hRuns ⟨hPTR, hPanics⟩
  · intro hCases
    have hSelected : ∀ names, cloakedNamesOf lib createPTR lines = .ok names →
        (∀ e ∈ names, (cloakRuleOf lib e.1).isSome = true) →
        ∀ order other : CloakedNames, order.Perm names → other.Perm names → ∀ q,
          selectedRule lib glob (matcherOf (cloakRules lib order)) q =
            selectedRule lib glob (matcherOf (cloakRules lib other)) q := by
      intro names hNames hAll order other hOrder hOther q
      obtain ⟨hInv, hRuns⟩ := loadInv_of_ok hNames
      rcases hCases with hPanics | hSyntax | hTied
      · exact absurd hPanics hRuns
      · exact absurd hSyntax ((forall_isSome_iff hInv).mp hAll)
      · exact selectedRule_perm hLib (fun q h => hTied q (h.congr fun r =>
          (mem_cloakRules_iff hInv r).symm)) hOrder hOther q
    constructor
    · intro names hNames order other hOrder hOther m m' hAdd hAdd' q
      obtain ⟨hAll, rfl⟩ := addAll_cloak_iff.mp hAdd
      obtain ⟨-, rfl⟩ := addAll_cloak_iff.mp hAdd'
      simp only [rule?_cloakCall, hOrder.mem_iff] at hAll
      exact hSelected names hNames hAll order other hOrder hOther q
    · intro order order' other other' hOrder hOrder' hOther hOther'
      rcases load_lines lib createPTR (cloakLines lib lines) with
        ⟨-, names, hNames, -⟩ | ⟨-, -, hPanic⟩
      · exact reportsLoop_congr hLib hNames hOrder hOrder' hOther hOther' fun hAll =>
          hSelected names hNames hAll _ _ (hOrder names) (hOther names)
      · -- the loader panics in every order
        have hNever : ∀ o o', ¬ ReportsLoop lib glob createPTR o o' lines := by
          rintro o o' ⟨line, target, pattern, h⟩
          unfold PluginCloak.loadRules at h
          rw [hPanic] at h
          cases h
        exact iff_of_false (hNever order order') (hNever other other')

/-- A rule for a domain and one for a subdomain: the longer suffix wins in every order. -/
theorem subdomain_rule_independent :
    OrderIndependent asciiCloak (fun _ _ => false) false
      (ascii "a.com 1.1.1.1\nb.a.com 2.2.2.2") := by
  have hLines : (cloakLines asciiCloak (ascii "a.com 1.1.1.1\nb.a.com 2.2.2.2")).map (·.name) =
      [ascii "a.com", ascii "b.a.com"] := by
    decide +kernel
  refine (order_independent_iff asciiText_lawful false _).mpr (.inr (.inr ?_))
  have hRules : ∀ r, FileRule asciiCloak false
      (cloakLines asciiCloak (ascii "a.com 1.1.1.1\nb.a.com 2.2.2.2")) r →
        r ∈ [⟨.suffixType, ascii "moc.a.", some (ascii "a.com")⟩,
          ⟨.suffixType, ascii "moc.a.b.", some (ascii "b.a.com")⟩] := by
    rintro r ⟨pattern, hPattern | ⟨⟨⟩, -⟩, hRule⟩
    rw [← mem_map, hLines] at hPattern
    rcases mem_pair.mp hPattern with rfl | rfl
    · cases hRule
      decide +kernel
    · cases hRule
      decide +kernel
  rintro q ⟨-, r, r', hNe, hr, hr'⟩
  rcases mem_pair.mp (hRules r hr.mem) with rfl | rfl
  · rcases mem_pair.mp (hRules r' hr'.mem) with rfl | rfl
    · exact hNe rfl
    · exact absurd (hr.longest (.inl rfl) _ hr'.mem rfl hr'.hit) (by decide)
  · rcases mem_pair.mp (hRules r' hr'.mem) with rfl | rfl
    · exact absurd (hr'.longest (.inl rfl) _ hr.mem rfl hr.hit) (by decide)
    · exact hNe rfl

/-- The rule for a name, when the map is iterated in the order of the lines from the
last one, and in the reverse order. -/
def selectedBothWays (lines q : String) : Option (Option Bytes × Option Bytes) :=
  let load (order : CloakedNames → CloakedNames) : Option (Option Bytes) :=
    match PluginCloak.loadRules asciiCloak (fun _ _ => false) false order id (ascii lines) with
    | some (.ok (_, m)) => some (selectedRule asciiCloak (fun _ _ => false) m (ascii q))
    | _ => none
  match load id, load reverse with
  | some rule, some rule' => some (rule, rule')
  | _, _ => none

/-- Two spellings of a suffix, and two substrings: which rule answers depends on the
order. -/
theorem spellings_depend_on_order :
    selectedBothWays "a.com 1.1.1.1\n*.a.com 2.2.2.2" "x.a.com" =
        some (some (ascii "*.a.com"), some (ascii "a.com")) ∧
      selectedBothWays "*ads* 1.1.1.1\n*track* 2.2.2.2" "ads.track.com" =
        some (some (ascii "*track*"), some (ascii "*ads*")) := by
  decide +kernel

end DnscryptProxy
