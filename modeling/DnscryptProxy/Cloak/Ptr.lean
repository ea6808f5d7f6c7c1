import DnscryptProxy.Cloak.Reverse
import Mathlib.Data.Finset.Max

/-!
# PTR queries

With `cloak_ptr` a PTR query for the reverse name of an address in the file is
answered from the entry of that name. A line adds its name to the entry of its own
address if that is an IPv4 address, and otherwise to the entry of the first IPv6
address of its name.

* `generated_ptrKey` — the names that are added for an address;
* `answersPTR_iff` — the answer to a query has these;
* `ptr_answers_iff` — the files for which every address has the names that the file
  maps to it;
* `second_ipv6_has_no_ptr` — a file with two IPv6 addresses for a name.
-/

namespace DnscryptProxy

open Base List CloakLine Option

/-! ## What is asked for -/

/-- The name of a rule without wildcards. -/
def patternName (pattern : Bytes) : Bytes :=
  if pattern.head? = some '='.toUInt8 then pattern.drop 1 else pattern

/-- A PTR query for the reverse name of the address, in any case of letters, is
answered with the full names that the lines map to the address, and nothing else. -/
def PluginCloak.AnswersPTR (lib : CloakText) (glob : Bytes → Bytes → Bool) (plugin : PluginCloak)
    (lines : List CloakLine) (a : Bytes) : Prop :=
  ∀ (env : CloakEnv) (ps : PluginsState) (msg : Msg) (question : Question),
    (∀ rrs, (env.shuffle rrs).Perm rrs) → msg.question = [question] →
    question.qclass = ClassINET → question.qtype = TypePTR →
    normalizeQName question.name.bytes = .ok ps.qName →
    normalizeQName question.name.bytes = normalizeQName (reverseName a) →
    ∃ answer, (plugin.eval lib glob env ps msg).2 =
        cloakSynth ps { emptyResponseFromMessage msg with answer } ∧
      ∀ rdata, rdata ∈ answer.map (·.rdata) ↔
        ∃ l ∈ lines, l.ip = some a ∧ rdata = .raw TypePTR (fqdn (patternName l.name))

/-! ## The names of a reverse name -/

theorem head?_of_isPrefix {α : Type*} {xs ys : List α} {x : α} (h : xs <+: ys)
    (hx : xs.head? = some x) : ys.head? = some x := by
  obtain ⟨zs, rfl⟩ := h
  rw [head?_append, hx]
  rfl

theorem generated_ptrKey {lines : List CloakLine} (hStar : ∀ l ∈ lines, '*'.toUInt8 ∉ l.name)
    (a f : Bytes) :
    Generated lines (ptrKey a) f ↔ ∃ l ∈ lines, f = ptrNameToFQDN l.name ∧
        (l.ipv4 = some a ∨ (ipv6Of lines l.name).head? = some a) := by
  constructor
  · rintro ⟨before, l, hPrefix, -, ip, hIp, hKey, rfl⟩
    obtain rfl := ptrKey_injective hKey
    refine ⟨l, hPrefix.subset (by simp), rfl, ?_⟩
    rcases or_eq_some_iff.mp hIp with hIp | ⟨-, hIp⟩
    · exact .inl hIp
    · exact .inr (head?_of_isPrefix (hPrefix.filterMap _) hIp)
  · rintro ⟨l, hl, rfl, hIp | hIp⟩
    · obtain ⟨before, after, rfl⟩ := append_of_mem hl
      refine ⟨before, l, ⟨after, by simp⟩, hStar l hl, a, ?_, rfl, rfl⟩
      rw [ptrIP, hIp]
      rfl
    · -- the first line that gives the name an IPv6 address
      rw [ipv6Of, head?_filterMap] at hIp
      obtain ⟨before, l', after, rfl, hFirst, hNone⟩ := findSome?_eq_some_iff.mp hIp
      split at hFirst
      · next hName =>
        refine ⟨before, l', ⟨after, by simp⟩, hStar l' (by simp), a, ?_, rfl, by rw [hName]⟩
        have h4 : l'.ipv4 = none := by
          obtain ⟨hIp', hUnmap⟩ := ip_of_ipv6 hFirst
          rw [ipv4, hIp']
          simp [hUnmap]
        have h6 : ipv6Of before l'.name = [] := by
          rw [ipv6Of, filterMap_eq_nil_iff, hName]
          exact hNone
        rw [ptrIP, h4, none_or, ipv6Of_concat, h6, if_pos rfl, hFirst]
        rfl
      · cases hFirst

/-! ## The rule for a reverse name -/

section Selected

variable {lib : CloakText} {glob : Bytes → Bytes → Bool} {lines : Bytes}
  {names order : CloakedNames}

theorem matches_exact {r : NameRule Bytes} {q : Bytes} (hKind : r.kind = .exactType) :
    r.matches lib.toTextLib glob q = true ↔ q = r.key := by
  rw [NameRule.matches, hKind, keyMatches, decide_eq_true_eq]

variable (hLib : lib.toTextLib.Lawful) (hInv : LoadInv true (cloakLines lib lines) names)
  (hOrder : order.Perm names)
include hInv hOrder

theorem mem_order_iff (r : NameRule Bytes) :
    r ∈ cloakRules lib order ↔ FileRule lib true (cloakLines lib lines) r := by
  rw [(cloakRules_perm lib hOrder).mem_iff, mem_cloakRules_iff hInv]

include hLib

/-- A reverse name with an entry gets the rule of the entry. -/
theorem selected_of_generated {a f : Bytes}
    (h : Generated (cloakLines lib lines) (ptrKey a) f) :
    selectedRule lib glob (matcherOf (cloakRules lib order)) (trimDot (reverseName a)) =
      some (ptrKey a) := by
  have hMem : ptrRule a ∈ cloakRules lib order :=
    (mem_order_iff hInv hOrder _).mpr ⟨ptrKey a, .inr ⟨rfl, f, h⟩, cloakRuleOf_ptrKey hLib a⟩
  have hHit : (ptrRule a).matches lib.toTextLib glob (trimDot (reverseName a)) = true :=
    (matches_exact rfl).mpr rfl
  obtain ⟨y, hForemost, hTop⟩ := exists_topRule (reverseName_split a).2 hMem hHit
  -- exact rules go before all others
  have hKind : y.kind = .exactType :=
    PatternType.rank_injective (Nat.le_zero.mp (hForemost.rank_le _ hMem hHit))
  have hKey : y.key = trimDot (reverseName a) := ((matches_exact hKind).mp hForemost.hit).symm
  obtain ⟨pattern, hPattern, hRule⟩ := (mem_order_iff hInv hOrder y).mp hForemost.mem
  rw [eq_ptrKey_of_exact hLib hPattern hRule hKind hKey] at hRule
  refine (selectedRule_eq_some hLib).mpr (hTop.imp fun z (hz : z = y) => ?_)
  rw [hz]
  exact (AddCall.rule?_eq_some.mp hRule).2

/-- The rule for a reverse name has no names but those of its own address. -/
theorem eq_ptrKey_of_selected {a key f : Bytes}
    (h : selectedRule lib glob (matcherOf (cloakRules lib order)) (trimDot (reverseName a)) =
      some key)
    (hKey : Generated (cloakLines lib lines) key f) : key = ptrKey a := by
  obtain ⟨r, hr, hHit, hVal⟩ := ((selectedRule_eq_some hLib).mp h).exists_mem
  obtain ⟨pattern, -, hRule⟩ := (mem_order_iff hInv hOrder r).mp hr
  obtain rfl : pattern = key := by
    rw [(AddCall.rule?_eq_some.mp hRule).2] at hVal
    exact some.inj hVal
  obtain ⟨-, -, -, -, ip, -, rfl, -⟩ := hKey
  rw [cloakRuleOf_ptrKey hLib, some.injEq] at hRule
  rw [← hRule, matches_exact rfl] at hHit
  rw [ptrKey, ptrKey, hHit]
  rfl

end Selected

/-! ## The answer -/

section Answer

variable {lib : CloakText} {glob : Bytes → Bytes → Bool}

/-- What `Eval` does with a PTR query: no target is resolved for it. -/
theorem eval_ptr (env : CloakEnv) (plugin : PluginCloak) (ps : PluginsState) {msg : Msg}
    {question : Question} (hMsg : msg.question = [question]) (hClass : question.qclass = ClassINET)
    (hType : question.qtype = TypePTR) :
    (plugin.eval lib glob env ps msg).2 = match plugin.ruleFor lib glob ps.qName with
      | none => ps
      | some key =>
        cloakSynth ps { emptyResponseFromMessage msg with
          answer := env.shuffle
            ((plugin.names.get key).answer question.name.bytes TypePTR plugin.ttl) } := by
  unfold PluginCloak.eval
  rw [hMsg]
  dsimp only
  rw [hClass, hType, if_neg (by decide)]
  cases plugin.ruleFor lib glob ps.qName with
  | none => rfl
  | some key =>
    dsimp only
    have hTtl : ttlLeft plugin.ttl env.now ((plugin.names.get key).lastUpdate TypePTR) =
        (plugin.ttl, false) := rfl
    have hFollow : ((plugin.names.get key).followsTarget &&
        (decide (TypePTR = TypeA ∧ (plugin.names.get key).ipv4 = []) ||
          decide (TypePTR = TypeAAAA ∧ (plugin.names.get key).ipv6 = []) || false)) = false := by
      have hA : TypePTR ≠ TypeA := by decide
      have hAAAA : TypePTR ≠ TypeAAAA := by decide
      simp [hA, hAAAA]
    rw [hTtl, hFollow]
    rfl

theorem mem_answer_ptr (c : CloakedName) (qname : Bytes) (ttl : UInt32) (rdata : RData) :
    rdata ∈ (c.answer qname TypePTR ttl).map (·.rdata) ↔ ∃ f ∈ c.PTR, rdata = .raw TypePTR f := by
  have hAnswer : c.answer qname TypePTR ttl = c.PTR.map fun ptr =>
      { name := qname, rclass := ClassINET, ttl, rdata := .raw TypePTR ptr } := rfl
  simp [hAnswer, eq_comm]

/-- Nothing is resolved or shuffled. -/
def quietEnv : CloakEnv := { now := 0, resolve := fun _ _ => .ok [], shuffle := id }

/-- A PTR query for the reverse name of an address. -/
def ptrQuery (a : Bytes) : Msg :=
  { Msg.empty with
    question :=
      [{ name := ⟨reverseName a, by rw [(reverseName_split a).1, getLast?_concat]⟩
         qtype := TypePTR, qclass := ClassINET }] }

def ptrSession (a : Bytes) : PluginsState :=
  { newPluginsState defaultProxyParams .udp .udp 0 with qName := trimDot (reverseName a) }

variable {lines : Bytes} {plugin : PluginCloak}

/-- What a plugin that serves a file has in its entries. -/
theorem PluginCloak.Serves.loaded (h : plugin.Serves lib glob true lines) :
    ∃ names order : CloakedNames, LoadInv true (cloakLines lib lines) names ∧
      order.Perm names ∧ (∀ e ∈ names, (cloakRuleOf lib e.1).isSome = true) ∧
      plugin.patternMatcher = matcherOf (cloakRules lib order) ∧
      ∀ key f, f ∈ (plugin.names.get key).PTR ↔ Generated (cloakLines lib lines) key f := by
  obtain ⟨order, order', hOrder, -, names, m, hLoad, ttl, calls, rfl⟩ := h
  obtain ⟨hNames, hAdd, -⟩ := loadRules_eq_ok hLoad
  obtain ⟨hInv, -⟩ := loadInv_of_ok hNames
  obtain ⟨hAll, rfl⟩ := addAll_cloak_iff.mp hAdd
  simp only [rule?_cloakCall, (hOrder names).mem_iff] at hAll
  have hSame : SameRules _ (PluginCloak.evalAll lib glob
      { patternMatcher := matcherOf (cloakRules lib (order names)), names, ttl } calls) :=
    evalAll_keeps _ calls
  refine ⟨names, order names, hInv, hOrder names, hAll, hSame.patternMatcher, fun key f => ?_⟩
  rw [hSame.ptr, hInv.ptr]
  exact and_iff_right rfl

theorem answersPTR_iff (hLib : lib.toTextLib.Lawful) (hServes : plugin.Serves lib glob true lines)
    {a : Bytes} (hA : ∃ l ∈ cloakLines lib lines, l.ip = some a) :
    plugin.AnswersPTR lib glob (cloakLines lib lines) a ↔
      ∀ f, Generated (cloakLines lib lines) (ptrKey a) f ↔
        ∃ l ∈ cloakLines lib lines, l.ip = some a ∧ f = fqdn (patternName l.name) := by
  obtain ⟨names, order, hInv, hOrder, -, hMatcher, hPtr⟩ := hServes.loaded
  have hRule : ∀ q, plugin.ruleFor lib glob q =
      selectedRule lib glob (matcherOf (cloakRules lib order)) q := by
    intro q
    rw [PluginCloak.ruleFor, hMatcher]
  constructor
  · intro h f
    obtain ⟨answer, hEval, hAnswer⟩ := h quietEnv (ptrSession a) (ptrQuery a) _ List.Perm.refl rfl
      rfl rfl (normalizeQName_reverseName a) rfl
    rw [eval_ptr _ plugin _ rfl rfl rfl, hRule] at hEval
    cases hSelected : selectedRule lib glob (matcherOf (cloakRules lib order))
      (trimDot (reverseName a)) with
    | none =>
      rw [show (ptrSession a).qName = trimDot (reverseName a) from rfl, hSelected] at hEval
      cases congrArg PluginsState.synthResponse hEval
    | some key =>
      rw [show (ptrSession a).qName = trimDot (reverseName a) from rfl, hSelected] at hEval
      have hSynth : (plugin.names.get key).answer (reverseName a) TypePTR plugin.ttl = answer :=
        congrArg Msg.answer (some.inj (congrArg PluginsState.synthResponse hEval))
      have hRecords := hAnswer (.raw TypePTR f)
      rw [← hSynth] at hRecords
      have hPTR : Generated (cloakLines lib lines) key f ↔
          ∃ l ∈ cloakLines lib lines, l.ip = some a ∧ f = fqdn (patternName l.name) := by
        simpa only [mem_answer_ptr, hPtr, RData.raw.injEq, true_and, exists_eq_right'] using
          hRecords
      rw [← hPTR]
      constructor
      · intro hGenerated
        rw [selected_of_generated hLib hInv hOrder hGenerated, some.injEq] at hSelected
        rwa [← hSelected]
      · intro hGenerated
        rwa [← eq_ptrKey_of_selected hLib hInv hOrder hSelected hGenerated]
  · intro h env ps msg question hShuffle hMsg hClass hType hName hReverse
    obtain ⟨l, hl, hIp⟩ := hA
    rw [hReverse, normalizeQName_reverseName, Except.ok.injEq] at hName
    rw [eval_ptr env plugin ps hMsg hClass hType, hRule, ← hName,
      selected_of_generated hLib hInv hOrder ((h _).mpr ⟨l, hl, hIp, rfl⟩)]
    refine ⟨_, rfl, fun rdata => ?_⟩
    rw [((hShuffle _).map _).mem_iff, mem_answer_ptr]
    simp only [hPtr, h]
    constructor
    · rintro ⟨f, ⟨l, hl, hIp, rfl⟩, rfl⟩
      exact ⟨l, hl, hIp, rfl⟩
    · rintro ⟨l, hl, hIp, rfl⟩
      exact ⟨_, ⟨l, hl, hIp, rfl⟩, rfl⟩

end Answer

/-! ## Which files get the right names -/

theorem CloakLine.ipv4_or_ipv6 {l : CloakLine} {a : Bytes} (h : l.ip = some a) :
    l.ipv4 = some a ∨ l.ipv6 = some a := by
  unfold ipv4 ipv6
  rw [h]
  cases hUnmap : unmap a <;> simp [hUnmap]

theorem patternName_ne_nil {lib : CloakText} {pattern : Bytes}
    (h : (cloakRuleOf lib pattern).isSome = true) : patternName pattern ≠ [] := by
  intro hNil
  have hNone : cloakRuleOf lib pattern = none := by
    cases pattern with
    | nil => rfl
    | cons c rest =>
      unfold patternName at hNil
      split at hNil
      · next hHead =>
        obtain rfl : c = '='.toUInt8 := some.inj hHead
        obtain rfl : rest = [] := hNil
        rfl
      · cases hNil
  rw [hNone] at h
  cases h

theorem fqdn_eq {name : Bytes} (hNe : name ≠ []) (hDot : name.getLast? ≠ some dot) :
    fqdn name = name ++ [dot] := by
  rw [fqdn, if_neg (not_or.mpr ⟨hNe, hDot⟩)]

section Files

variable {lines : List CloakLine} (hIp : ∀ l ∈ lines, l.ip.isSome = true)
  (hStar : ∀ l ∈ lines, '*'.toUInt8 ∉ l.name) (hName : ∀ l ∈ lines, patternName l.name ≠ [])
include hIp hStar

/-- Every name is added for one of its addresses. -/
theorem exists_generated {l : CloakLine} (hl : l ∈ lines) :
    ∃ l' ∈ lines, ∃ a, l'.ip = some a ∧
      Generated lines (ptrKey a) (patternName l.name ++ [dot]) := by
  obtain ⟨a, ha⟩ := isSome_iff_exists.mp (hIp l hl)
  rcases ipv4_or_ipv6 ha with h4 | h6
  · exact ⟨l, hl, a, ha, (generated_ptrKey hStar a _).mpr ⟨l, hl, rfl, .inl h4⟩⟩
  · have hMem : a ∈ ipv6Of lines l.name :=
      mem_filterMap.mpr ⟨l, hl, by rw [if_pos rfl, h6]⟩
    obtain ⟨first, rest, hSplit⟩ := exists_cons_of_ne_nil (ne_nil_of_mem hMem)
    have hFirst : (ipv6Of lines l.name).head? = some first := by rw [hSplit, head?_cons]
    obtain ⟨l', hl', -, h6'⟩ := mem_ipv6Of (mem_of_head? hFirst)
    exact ⟨l', hl', first, (ip_of_ipv6 h6').1,
      (generated_ptrKey hStar first _).mpr ⟨l, hl, rfl, .inr hFirst⟩⟩

include hName

/-- If only right names are added, no name ends in a dot. -/
theorem getLast?_ne_dot
    (h : ∀ l ∈ lines, ∀ a, l.ip = some a → ∀ f, Generated lines (ptrKey a) f →
      ∃ l' ∈ lines, l'.ip = some a ∧ f = fqdn (patternName l'.name)) :
    ∀ l ∈ lines, (patternName l.name).getLast? ≠ some dot := by
  intro l₀ hl₀ hDot₀
  -- a longest name with a dot at its end gives one that is longer
  let dotted := lines.toFinset.filter fun l => (patternName l.name).getLast? = some dot
  obtain ⟨l, hl, hMax⟩ := dotted.exists_max_image (fun l => (patternName l.name).length)
    ⟨l₀, by simp [dotted, hl₀, hDot₀]⟩
  obtain ⟨hl, hDot⟩ : l ∈ lines ∧ (patternName l.name).getLast? = some dot := by
    simpa [dotted] using hl
  obtain ⟨l₁, hl₁, a, ha, hGenerated⟩ := exists_generated hIp hStar hl
  obtain ⟨l', hl', -, hEq⟩ := h l₁ hl₁ a ha _ hGenerated
  by_cases hDot' : (patternName l'.name).getLast? = some dot
  · rw [fqdn, if_pos (.inr hDot')] at hEq
    have hLe := hMax l' (by simp [dotted, hl', hDot'])
    rw [← hEq, length_append, length_singleton] at hLe
    omega
  · rw [fqdn_eq (hName l' hl') hDot'] at hEq
    rw [← append_cancel_right hEq] at hDot'
    exact hDot' hDot

/-- The names that are added are the right ones iff no name ends in a dot and every
IPv6 address is the first one of a line with the same name. -/
theorem generated_iff :
    (∀ l ∈ lines, ∀ a, l.ip = some a → ∀ f, Generated lines (ptrKey a) f ↔
        ∃ l' ∈ lines, l'.ip = some a ∧ f = fqdn (patternName l'.name)) ↔
      (∀ l ∈ lines, (patternName l.name).getLast? ≠ some dot) ∧
        ∀ l ∈ lines, ∀ a, l.ipv6 = some a → ∃ l' ∈ lines, patternName l'.name = patternName l.name ∧
            (ipv6Of lines l'.name).head? = some a := by
  constructor
  · intro h
    have hDots := getLast?_ne_dot hIp hStar hName fun l hl a ha f => (h l hl a ha f).mp
    refine ⟨hDots, fun l hl a h6 => ?_⟩
    obtain ⟨ha, hUnmap⟩ := ip_of_ipv6 h6
    have hGenerated := (h l hl a ha _).mpr ⟨l, hl, ha, rfl⟩
    obtain ⟨l', hl', hEq, h4 | hFirst⟩ := (generated_ptrKey hStar a _).mp hGenerated
    · obtain ⟨-, v4, hV4⟩ := ip_of_ipv4 h4
      rw [hUnmap] at hV4
      cases hV4
    · rw [fqdn_eq (hName l hl) (hDots l hl)] at hEq
      exact ⟨l', hl', (append_cancel_right hEq).symm, hFirst⟩
  · rintro ⟨hDots, hFirst⟩ l hl a ha f
    rw [generated_ptrKey hStar]
    constructor
    · rintro ⟨l', hl', rfl, h4 | h6⟩
      · exact ⟨l', hl', (ip_of_ipv4 h4).1, (fqdn_eq (hName l' hl') (hDots l' hl')).symm⟩
      · obtain ⟨l'', hl'', hSame, h6'⟩ := mem_ipv6Of (mem_of_head? h6)
        refine ⟨l'', hl'', (ip_of_ipv6 h6').1, ?_⟩
        rw [hSame]
        exact (fqdn_eq (hName l' hl') (hDots l' hl')).symm
    · rintro ⟨l', hl', ha', rfl⟩
      rw [fqdn_eq (hName l' hl') (hDots l' hl')]
      rcases ipv4_or_ipv6 ha' with h4 | h6
      · exact ⟨l', hl', rfl, .inl h4⟩
      · obtain ⟨l'', hl'', hSame, hHead⟩ := hFirst l' hl' a h6
        exact ⟨l'', hl'', by rw [← hSame]; rfl, .inr hHead⟩

end Files

/-- A file of names without wildcards and addresses: every address is answered with the
names that the file maps to it iff no name ends in a dot and every IPv6 address is the
first one of a line with the same name. -/
theorem ptr_answers_iff {lib : CloakText} {glob : Bytes → Bytes → Bool}
    (hLib : lib.toTextLib.Lawful) {lines : Bytes} {plugin : PluginCloak}
    (hServes : plugin.Serves lib glob true lines)
    (hLines : ∀ l ∈ cloakLines lib lines, l.ip.isSome = true ∧ '*'.toUInt8 ∉ l.name) :
    (∀ l ∈ cloakLines lib lines, ∀ a, l.ip = some a →
        plugin.AnswersPTR lib glob (cloakLines lib lines) a) ↔
      (∀ l ∈ cloakLines lib lines, (patternName l.name).getLast? ≠ some dot) ∧
        ∀ l ∈ cloakLines lib lines, ∀ a, l.ipv6 = some a → ∃ l' ∈ cloakLines lib lines,
          patternName l'.name = patternName l.name ∧
            (ipv6Of (cloakLines lib lines) l'.name).head? = some a := by
  obtain ⟨names, -, hInv, -, hAll, -, -⟩ := hServes.loaded
  have hName : ∀ l ∈ cloakLines lib lines, patternName l.name ≠ [] := by
    intro l hl
    obtain ⟨e, he, hKey⟩ := mem_map.mp ((hInv.mem l.name).mpr (.inl ⟨l, hl, rfl⟩))
    rw [← hKey]
    exact patternName_ne_nil (hAll e he)
  rw [← generated_iff (fun l hl => (hLines l hl).1) (fun l hl => (hLines l hl).2) hName]
  exact forall₂_congr fun l hl => forall₂_congr fun a ha =>
    answersPTR_iff hLib hServes ⟨l, hl, ha⟩

/-- Two names for an address, and a name with an address of each family. -/
def sharedLines : String := "a.com 1.2.3.4\nb.com 1.2.3.4\na.com ::1"

def sharedPlugin : PluginCloak :=
  (loadedPlugin true sharedLines).getD
    { patternMatcher := newPatternMatcher Bytes, names := [], ttl := 0 }

theorem sharedPlugin_answers :
    sharedPlugin.AnswersPTR asciiCloak (fun _ _ => false)
      (cloakLines asciiCloak (ascii sharedLines)) (v4InV6 ++ [1, 2, 3, 4]) := by
  have hServes : sharedPlugin.Serves asciiCloak (fun _ _ => false) true (ascii sharedLines) :=
    serves_getD (by decide +kernel)
  have hFirst : ∀ l ∈ cloakLines asciiCloak (ascii sharedLines), ∀ a ∈ l.ipv6,
      ∃ l' ∈ cloakLines asciiCloak (ascii sharedLines), patternName l'.name = patternName l.name ∧
        (ipv6Of (cloakLines asciiCloak (ascii sharedLines)) l'.name).head? = some a := by
    decide +kernel
  have hAnswers := (ptr_answers_iff asciiText_lawful hServes (by decide +kernel)).mpr
    ⟨by decide +kernel, hFirst⟩
  exact hAnswers { lineNo := 0, name := ascii "a.com", target := ascii "1.2.3.4" }
    (by decide +kernel) _ (by decide +kernel)

/-- The names in the answer for an address. -/
def ptrNamesOf (lines addr : String) : Option (List RData) :=
  match loadedPlugin true lines, parseIP (ascii addr) with
  | some plugin, some a =>
    let ps := (plugin.eval asciiCloak (fun _ _ => false) quietEnv (ptrSession a) (ptrQuery a)).2
    ps.synthResponse.map fun synth => synth.answer.map (·.rdata)
  | _, _ => none

/-- The second IPv6 address of a name has no answer, and the first one has the name
twice; a dot at the end of a name is doubled. -/
theorem second_ipv6_has_no_ptr :
    ptrNamesOf "a.com ::1\na.com ::2" "::1" =
        some [.raw TypePTR (ascii "a.com."), .raw TypePTR (ascii "a.com.")] ∧
      ptrNamesOf "a.com ::1\na.com ::2" "::2" = none ∧
      ptrNamesOf "a.com. 1.2.3.4" "1.2.3.4" = some [.raw TypePTR (ascii "a.com..")] := by
  decide +kernel

end DnscryptProxy
