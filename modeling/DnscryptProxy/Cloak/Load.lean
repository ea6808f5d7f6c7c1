import DnscryptProxy.Base.Chase
import DnscryptProxy.Dns.Message
import DnscryptProxy.Rules.PatternText

/-!
# Loading the cloaking rules

`PluginCloak.loadRules` of `plugin_cloak.go`. A file gives a map from names to
what they are cloaked with; with `cloak_ptr` the map gets an entry for the reverse
name of an address as well. The map is then added to a pattern matcher in the
order in which Go iterates over it, which is a parameter here, and the targets are
followed to find loops. A pointer to an entry is the key of the entry.

* `load_lines` — what the map holds after the lines of a file;
* `detectCloakingLoops_returns` — the search for loops ends;
* `loadRules_returns_iff` — the files for which `loadRules` returns;
* `address_then_name_panics` — one for which it does not.
-/

namespace DnscryptProxy

open Base List

/-! ## Lines -/

/-- The text functions, with `strings.FieldsFunc` at blanks. -/
structure CloakText extends TextLib where
  fieldsFunc : Bytes → List Bytes

/-- A name and its target. -/
structure CloakLine where
  lineNo : Nat
  name : Bytes
  target : Bytes
deriving Repr, DecidableEq

/-- The two fields of a line; with more, or with none, it is only logged. -/
def cloakLineOf (lib : CloakText) (line : Nat × Bytes) : Option CloakLine :=
  match lib.fieldsFunc line.2 with
  | [name, target] =>
    let name := lib.trimSpace name
    let target := lib.trimSpace target
    if name = [] ∨ target = [] then none
    else some { lineNo := line.1, name := lib.toLower name, target }
  | _ => none

def cloakLines (lib : CloakText) (lines : Bytes) : List CloakLine :=
  (processConfigLines lib.toTextLib lines).filterMap (cloakLineOf lib)

/-! ## Reverse names -/

/-- The name under which the PTR records of an address are. -/
def reverseName (ip : Bytes) : Bytes :=
  match unmap ip with
  | some v4 => v4.reverse.flatMap (fun b => octetText b ++ [dot]) ++ ascii "in-addr.arpa."
  | none =>
    ip.reverse.flatMap (fun v => [hexDigit (v.toNat % 16), dot, hexDigit (v.toNat / 16), dot]) ++
      ascii "ip6.arpa."

def reverseAddr (addr : Bytes) : Except GoError Bytes :=
  match parseIP addr with
  | none => .error (.plain ("unrecognized address: " ++ Bytes.text addr))
  | some ip => .ok (reverseName ip)

/-- `strings.TrimSuffix(s, ".")`. -/
def trimDot (s : Bytes) : Bytes := if s.getLast? = some dot then s.dropLast else s

def ptrEntryToQuery (ptrEntry : Bytes) : Bytes := '='.toUInt8 :: ptrEntry

def ptrNameToFQDN (ptrLine : Bytes) : Bytes :=
  (if ptrLine.head? = some '='.toUInt8 then ptrLine.drop 1 else ptrLine) ++ [dot]

/-! ## The map of names -/

structure CloakedName where
  target : Bytes
  ipv4 : List Bytes
  ipv6 : List Bytes
  lastUpdate4 : Option Time
  lastUpdate6 : Option Time
  lineNo : Nat
  isIP : Bool
  PTR : List Bytes
deriving Repr, DecidableEq

/-- `&CloakedName{}`. -/
def newCloakedName : CloakedName :=
  { target := [], ipv4 := [], ipv6 := [], lastUpdate4 := none, lastUpdate6 := none, lineNo := 0,
    isIP := false, PTR := [] }

def CloakedName.followsTarget (c : CloakedName) : Bool := !c.isIP && decide (c.target ≠ [])

abbrev CloakedNames := List (Bytes × CloakedName)

/-- The entry of a key, or a new one. -/
def CloakedNames.get (names : CloakedNames) (key : Bytes) : CloakedName :=
  (lookupKey names key).getD newCloakedName

inductive CloakError where
  | rule (err : RuleError)
  /-- "recursive cloaking rule at line %d: target [%s] loops back to cloak
  pattern [%s]" -/
  | recursive (line : Nat) (target pattern : Bytes)
deriving Repr, DecidableEq

/-- What a line does to the entry of its name. -/
def CloakedName.addTarget (lib : CloakText) (l : CloakLine) (c : CloakedName) : CloakedName :=
  match parseIP l.target with
  | some ip =>
    match unmap ip with
    | some ipv4 => { c with ipv4 := c.ipv4 ++ [ipv4], isIP := true, lineNo := l.lineNo + 1 }
    | none => { c with ipv6 := c.ipv6 ++ [ip], isIP := true, lineNo := l.lineNo + 1 }
  | none => { c with target := lib.toLower l.target, lineNo := l.lineNo + 1 }

/-- The text of the address that is reversed. For a target that is no IPv4
address this is the first IPv6 address of the entry. -/
def ptrAddr (c : CloakedName) (l : CloakLine) : Except (Halt CloakError) Bytes :=
  match (parseIP l.target).bind unmap with
  | some ipv4 => .ok (ipv4Text ipv4)
  | none => do
    let ipv6 ← index c.ipv6 0
    return ipText ipv6

/-- The entry of a reverse name gets one more name. -/
def CloakedNames.addPTR (names : CloakedNames) (ptrQueryLine : Bytes) (l : CloakLine) :
    CloakedNames :=
  let c := names.get ptrQueryLine
  mapAssign names ptrQueryLine
    { c with isIP := true, PTR := c.PTR ++ [ptrNameToFQDN l.name], lineNo := l.lineNo + 1 }

/-- The body of the loop over the lines. -/
def loadLine (lib : CloakText) (createPTR : Bool) (names : CloakedNames) (l : CloakLine) :
    Except (Halt CloakError) CloakedNames :=
  let c := (names.get l.name).addTarget lib l
  let names : CloakedNames := mapAssign names l.name c
  if !createPTR || decide ('*'.toUInt8 ∈ l.name) || !c.isIP then .ok names
  else
    match ptrAddr c l with
    | .error e => .error e
    | .ok addr =>
      match reverseAddr addr with
      -- an error is logged
      | .error _ => .ok names
      | .ok reversed => .ok (names.addPTR (ptrEntryToQuery (trimDot reversed)) l)

/-! ## Loops -/

section Detect

variable (lib : CloakText) (glob : Bytes → Bytes → Bool) (names : CloakedNames)
  (m : PatternMatcher Bytes)

/-- The rule that the target of a rule leads to, if that one has a target to
follow. The values of the matcher are pointers to entries, and never nil
(`eval_rule`). -/
def nextRule (key : Bytes) : Option Bytes :=
  match m.eval lib.toTextLib glob (names.get key).target with
  | some (_, some next) => if (names.get next).followsTarget then some next else none
  | _ => none

/-- The pattern that the target of a rule matches. -/
def targetPattern (key : Bytes) : Bytes :=
  ((m.eval lib.toTextLib glob (names.get key).target).map (·.1)).getD []

/-- The body of the loop of `detectCloakingLoops`: the offender so far with the
lowest line number. It is `none` if the inner loop does not end. -/
def detectStep (firstRecursive : Option (CloakedName × Bytes)) (e : Bytes × CloakedName) :
    Option (Option (CloakedName × Bytes)) :=
  if !e.2.followsTarget then some firstRecursive
  else
    match chase (nextRule lib glob names m) (names.length + 1) [e.1] e.1 with
    | .ends => some firstRecursive
    | .runs => none
    | .loops last =>
      match firstRecursive with
      | none => some (some (e.2, targetPattern lib glob names m last))
      | some first =>
        if e.2.lineNo < first.1.lineNo then some (some (e.2, targetPattern lib glob names m last))
        else some (some first)

/-- `detectCloakingLoops`, with the entries in the order of the iteration. -/
def detectCloakingLoops (order : CloakedNames) : Option (Except CloakError Unit) :=
  match order.foldlM (detectStep lib glob names m) none with
  | none => none
  | some none => some (.ok ())
  | some (some (c, pattern)) => some (.error (.recursive c.lineNo c.target pattern))

end Detect

/-- The arguments with which an entry is added. -/
def cloakCall (e : Bytes × CloakedName) : AddCall Bytes :=
  { pattern := e.1, val := some e.1, position := e.2.lineNo }

/-- The entries are added to a new matcher. -/
abbrev cloakMatcher (lib : CloakText) (entries : CloakedNames) :
    Except RuleError (PatternMatcher Bytes) :=
  (newPatternMatcher Bytes).addAll lib.toTextLib (entries.map cloakCall)

/-- `PluginCloak.loadRules`. The two orders are those in which the map is iterated
when it is added to the matcher and when it is searched for loops; `none` is a
call that does not return. -/
def PluginCloak.loadRules (lib : CloakText) (glob : Bytes → Bytes → Bool) (createPTR : Bool)
    (order order' : CloakedNames → CloakedNames) (lines : Bytes) :
    Option (Except (Halt CloakError) (CloakedNames × PatternMatcher Bytes)) :=
  match (cloakLines lib lines).foldlM (loadLine lib createPTR) [] with
  | .error e => some (.error e)
  | .ok names =>
    match cloakMatcher lib (order names) with
    | .error e => some (.error (.error (.rule e)))
    | .ok m =>
      match detectCloakingLoops lib glob names m (order' names) with
      | none => none
      | some (.error e) => some (.error (.error e))
      | some (.ok ()) => some (.ok (names, m))

/-! ## What the lines of a file put into the map -/

variable (l : CloakLine)

/-- The address of a target, in sixteen bytes. -/
def CloakLine.ip : Option Bytes := parseIP l.target

def CloakLine.ipv4 : Option Bytes := l.ip.filter fun ip => (unmap ip).isSome

def CloakLine.ipv6 : Option Bytes := l.ip.filter fun ip => (unmap ip).isNone

variable (lines : List CloakLine)

/-- The IPv6 addresses of a name. -/
def ipv6Of (name : Bytes) : List Bytes :=
  lines.filterMap fun l => if l.name = name then l.ipv6 else none

/-- The address for which a line adds a name to a reverse name: its own one if that
is an IPv4 address, otherwise the first IPv6 address of its name. -/
def ptrIP (before : List CloakLine) (l : CloakLine) : Option Bytes :=
  l.ipv4.or (ipv6Of (before ++ [l]) l.name).head?

/-- The key of a reverse name. -/
def ptrKey (ip : Bytes) : Bytes := ptrEntryToQuery (trimDot (reverseName ip))

/-- One of the lines adds the name `f` to the entry `k`. -/
def Generated (k f : Bytes) : Prop :=
  ∃ before l, before ++ [l] <+: lines ∧ '*'.toUInt8 ∉ l.name ∧
    ∃ ip, ptrIP before l = some ip ∧ k = ptrKey ip ∧ f = ptrNameToFQDN l.name

/-- The map after these lines. -/
structure LoadInv (createPTR : Bool) (lines : List CloakLine) (names : CloakedNames) : Prop where
  nodup : (names.map (·.1)).Nodup
  mem : ∀ k, k ∈ names.map (·.1) ↔
    (∃ l ∈ lines, l.name = k) ∨ createPTR = true ∧ ∃ f, Generated lines k f
  isIP : ∀ k, (names.get k).isIP = true ↔
    (∃ l ∈ lines, l.name = k ∧ l.ip.isSome = true) ∨ createPTR = true ∧ ∃ f, Generated lines k f
  ipv6 : ∀ k, (names.get k).ipv6 = ipv6Of lines k
  ptr : ∀ k f, f ∈ (names.get k).PTR ↔ createPTR = true ∧ Generated lines k f

theorem get_mapAssign (names : CloakedNames) (key : Bytes) (c : CloakedName) (k : Bytes) :
    CloakedNames.get (mapAssign names key c) k = if key = k then c else names.get k := by
  rw [CloakedNames.get, lookupKey_mapAssign]
  split <;> rfl

theorem mem_keys_mapAssign {V : Type} (m : List (Bytes × V)) (key : Bytes) (val : V) (k : Bytes) :
    k ∈ (mapAssign m key val).map (·.1) ↔ key = k ∨ k ∈ m.map (·.1) := by
  rw [← lookupKey_isSome, lookupKey_mapAssign, ← lookupKey_isSome]
  by_cases hk : key = k <;> simp [hk]

theorem nodup_mapAssign {V : Type} {m : List (Bytes × V)} (h : (m.map (·.1)).Nodup) (key : Bytes)
    (val : V) : ((mapAssign m key val).map (·.1)).Nodup := by
  rw [mapAssign, map_cons, nodup_cons]
  refine ⟨?_, (filter_sublist.map _).nodup h⟩
  simp

theorem ipv6Of_concat (name : Bytes) : ipv6Of (lines ++ [l]) name =
      ipv6Of lines name ++ if l.name = name then l.ipv6.toList else [] := by
  rw [ipv6Of, filterMap_append, ← ipv6Of]
  congr 1
  by_cases hName : l.name = name
  · rw [filterMap_cons, filterMap_nil, if_pos hName, if_pos hName]
    cases l.ipv6 <;> rfl
  · rw [filterMap_cons, filterMap_nil, if_neg hName, if_neg hName]

/-- A line and those before it are among the old ones, or it is the new one. -/
theorem exists_prefix_concat {p : List CloakLine → CloakLine → Prop} (lines : List CloakLine)
    (l : CloakLine) :
    (∃ before l', before ++ [l'] <+: lines ++ [l] ∧ p before l') ↔
      (∃ before l', before ++ [l'] <+: lines ∧ p before l') ∨ p lines l := by
  constructor
  · rintro ⟨before, l', hPrefix, h⟩
    rcases prefix_concat_iff.mp hPrefix with hEq | hPrefix
    · obtain ⟨rfl, hl⟩ := append_inj' hEq rfl
      cases hl
      exact .inr h
    · exact .inl ⟨before, l', hPrefix, h⟩
  · rintro (⟨before, l', hPrefix, h⟩ | h)
    · exact ⟨before, l', prefix_concat_iff.mpr (.inr hPrefix), h⟩
    · exact ⟨lines, l, prefix_rfl, h⟩

theorem not_concat_prefix_nil (before : List CloakLine) (l : CloakLine) : ¬ before ++ [l] <+: [] :=
  fun hPrefix => append_ne_nil_of_right_ne_nil _ (cons_ne_nil _ _)
    (prefix_nil.mp hPrefix)

theorem generated_concat (k f : Bytes) :
    Generated (lines ++ [l]) k f ↔ Generated lines k f ∨ '*'.toUInt8 ∉ l.name ∧
        ∃ ip, ptrIP lines l = some ip ∧ k = ptrKey ip ∧ f = ptrNameToFQDN l.name :=
  exists_prefix_concat lines l

theorem mem_ipv6Of {lines : List CloakLine} {name ip : Bytes} (h : ip ∈ ipv6Of lines name) :
    ∃ l ∈ lines, l.name = name ∧ l.ipv6 = some ip := by
  obtain ⟨l, hl, hIp⟩ := mem_filterMap.mp h
  split at hIp
  · next hName => exact ⟨l, hl, hName, hIp⟩
  · cases hIp

theorem CloakLine.ip_of_ipv6 {l : CloakLine} {ip : Bytes} (h : l.ipv6 = some ip) :
    l.ip = some ip ∧ unmap ip = none := by
  simpa [CloakLine.ipv6, Option.filter_eq_some_iff] using h

theorem CloakLine.ip_of_ipv4 {l : CloakLine} {ip : Bytes} (h : l.ipv4 = some ip) :
    l.ip = some ip ∧ ∃ v4, unmap ip = some v4 := by
  simpa [CloakLine.ipv4, Option.filter_eq_some_iff, Option.isSome_iff_exists] using h

/-- The address that is reversed is one of the name of the line. -/
theorem exists_of_ptrIP {before : List CloakLine} {l : CloakLine} {ip : Bytes}
    (h : ptrIP before l = some ip) : ∃ l' ∈ before ++ [l], l'.name = l.name ∧ l'.ip = some ip := by
  rcases Option.or_eq_some_iff.mp h with hIp | ⟨-, hIp⟩
  · exact ⟨l, by simp, rfl, (CloakLine.ip_of_ipv4 hIp).1⟩
  · obtain ⟨l', hl', hName, hIp'⟩ := mem_ipv6Of (mem_of_head? hIp)
    exact ⟨l', hl', hName, (CloakLine.ip_of_ipv6 hIp').1⟩

/-! ### One line -/

section Step

variable (lib : CloakText) (l : CloakLine)

/-- The map with the target of the line. -/
def CloakedNames.assign (names : CloakedNames) : CloakedNames :=
  mapAssign names l.name ((names.get l.name).addTarget lib l)

theorem addTarget_fields (c : CloakedName) :
    (c.addTarget lib l).isIP = (c.isIP || l.ip.isSome) ∧
      (c.addTarget lib l).ipv6 = c.ipv6 ++ l.ipv6.toList ∧ (c.addTarget lib l).PTR = c.PTR := by
  unfold CloakedName.addTarget CloakLine.ipv6 CloakLine.ip
  cases parseIP l.target with
  | none => simp
  | some ip => cases hUnmap : unmap ip <;> simp [Option.filter, hUnmap]

variable (names : CloakedNames) (k : Bytes)

theorem assign_isIP : ((names.assign lib l).get k).isIP = true ↔
    (names.get k).isIP = true ∨ l.name = k ∧ l.ip.isSome = true := by
  rw [CloakedNames.assign, get_mapAssign]
  split
  · next hName => simp [(addTarget_fields lib l _).1, hName]
  · next hName => simp [hName]

theorem assign_ipv6 : ((names.assign lib l).get k).ipv6 =
    (names.get k).ipv6 ++ if l.name = k then l.ipv6.toList else [] := by
  rw [CloakedNames.assign, get_mapAssign]
  split
  · next hName => rw [(addTarget_fields lib l _).2.1, hName]
  · rw [append_nil]

theorem assign_PTR : ((names.assign lib l).get k).PTR = (names.get k).PTR := by
  rw [CloakedNames.assign, get_mapAssign]
  split
  · next hName => rw [(addTarget_fields lib l _).2.2, hName]
  · rfl

variable {lib l names} {createPTR : Bool} {lines : List CloakLine}

/-- A line whose name is in no reverse name. -/
theorem LoadInv.assign (h : LoadInv createPTR lines names)
    (hNone : createPTR = true → '*'.toUInt8 ∈ l.name ∨ ptrIP lines l = none) :
    LoadInv createPTR (lines ++ [l]) (names.assign lib l) := by
  -- the reverse names stay as they are
  have hGenerated : ∀ k f, createPTR = true →
      (Generated (lines ++ [l]) k f ↔ Generated lines k f) := by
    intro k f hPTR
    rw [generated_concat, or_iff_left]
    rintro ⟨hStar, ip, hIp, -⟩
    rcases hNone hPTR with hMem | hNone
    · exact hStar hMem
    · rw [hNone] at hIp
      cases hIp
  have hSome : ∀ k, (createPTR = true ∧ ∃ f, Generated (lines ++ [l]) k f) ↔
      createPTR = true ∧ ∃ f, Generated lines k f := fun k =>
    and_congr_right fun hPTR => exists_congr fun f => hGenerated k f hPTR
  constructor
  · exact nodup_mapAssign h.nodup _ _
  · intro k
    rw [CloakedNames.assign, mem_keys_mapAssign, h.mem, hSome]
    simp only [mem_append, mem_singleton, or_and_right, exists_or, exists_eq_left]
    exact or_left_comm.trans or_assoc.symm
  · intro k
    rw [assign_isIP, h.isIP, hSome]
    simp only [mem_append, mem_singleton, or_and_right, exists_or, exists_eq_left]
    exact or_right_comm
  · intro k
    rw [assign_ipv6, h.ipv6, ipv6Of_concat]
  · intro k f
    rw [assign_PTR, h.ptr]
    exact and_congr_right fun hPTR => (hGenerated k f hPTR).symm

/-- A line whose name goes to the reverse name of an address. -/
theorem LoadInv.addPTR (h : LoadInv true lines names) (hStar : '*'.toUInt8 ∉ l.name) {ip : Bytes}
    (hIp : ptrIP lines l = some ip) :
    LoadInv true (lines ++ [l]) ((names.assign lib l).addPTR (ptrKey ip) l) := by
  have hGenerated : ∀ k f, Generated (lines ++ [l]) k f ↔
      Generated lines k f ∨ ptrKey ip = k ∧ f = ptrNameToFQDN l.name := by
    intro k f
    rw [generated_concat]
    simp only [hIp, Option.some.injEq, exists_eq_left', hStar, not_false_eq_true, true_and,
      eq_comm (a := k)]
  have hSome : ∀ k, (∃ f, Generated (lines ++ [l]) k f) ↔
      (∃ f, Generated lines k f) ∨ ptrKey ip = k := by
    intro k
    simp only [hGenerated, exists_or, exists_and_left, exists_eq, and_true]
  have hGet : ∀ k, ((names.assign lib l).addPTR (ptrKey ip) l).get k = if ptrKey ip = k then
        { (names.assign lib l).get k with
          isIP := true
          PTR := (names.get k).PTR ++ [ptrNameToFQDN l.name]
          lineNo := l.lineNo + 1 }
      else (names.assign lib l).get k := by
    intro k
    rw [CloakedNames.addPTR, get_mapAssign]
    split
    · next hKey => rw [assign_PTR, hKey]
    · rfl
  constructor
  · exact nodup_mapAssign (nodup_mapAssign h.nodup _ _) _ _
  · intro k
    rw [CloakedNames.addPTR, mem_keys_mapAssign, CloakedNames.assign, mem_keys_mapAssign, h.mem,
      hSome]
    simp only [mem_append, mem_singleton, or_and_right, exists_or, exists_eq_left,
      true_and, or_assoc, or_comm, or_left_comm]
  · intro k
    have hIsIP : (((names.assign lib l).addPTR (ptrKey ip) l).get k).isIP = true ↔
        ptrKey ip = k ∨ ((names.assign lib l).get k).isIP = true := by
      rw [hGet]
      split
      · next hKey => simp [hKey]
      · next hKey => simp [hKey]
    rw [hIsIP, assign_isIP, h.isIP, hSome]
    simp only [mem_append, mem_singleton, or_and_right, exists_or, exists_eq_left,
      true_and, or_assoc, or_comm, or_left_comm]
  · intro k
    rw [hGet, ipv6Of_concat, ← h.ipv6, ← assign_ipv6]
    split <;> rfl
  · intro k f
    rw [hGenerated, hGet]
    split
    · next hKey => simp [h.ptr, hKey]
    · next hKey => simp [h.ptr, assign_PTR, hKey]

/-- The address whose text is reversed. -/
theorem ptrAddr_eq (h : LoadInv createPTR lines names) :
    ptrAddr ((names.assign lib l).get l.name) l = match ptrIP lines l with
      | none => .error .panic
      | some ip => .ok (ipText ip) := by
  have hFirst : ((names.assign lib l).get l.name).ipv6 = ipv6Of (lines ++ [l]) l.name := by
    rw [assign_ipv6, h.ipv6, ipv6Of_concat]
  unfold ptrAddr ptrIP
  rw [hFirst]
  cases hIp : parseIP l.target with
  | none =>
    have h4 : l.ipv4 = none := by simp [CloakLine.ipv4, CloakLine.ip, hIp]
    rw [h4]
    cases ipv6Of (lines ++ [l]) l.name <;> rfl
  | some ip =>
    cases hUnmap : unmap ip with
    | some v4 =>
      have h4 : l.ipv4 = some ip := by simp [CloakLine.ipv4, CloakLine.ip, hIp, hUnmap]
      rw [h4]
      simp only [Option.bind_some, hUnmap, Option.some_or, ipText]
    | none =>
      have h4 : l.ipv4 = none := by simp [CloakLine.ipv4, CloakLine.ip, hIp, hUnmap]
      rw [h4]
      simp only [Option.bind_some, hUnmap]
      cases ipv6Of (lines ++ [l]) l.name <;> rfl

/-- What the body of the loop does. -/
theorem loadLine_eq (h : LoadInv createPTR lines names) :
    loadLine lib createPTR names l = if createPTR = true ∧ '*'.toUInt8 ∉ l.name ∧
          ((names.assign lib l).get l.name).isIP = true then
        match ptrIP lines l with
        | none => .error .panic
        | some ip => .ok ((names.assign lib l).addPTR (ptrKey ip) l)
      else .ok (names.assign lib l) := by
  have hGet : (names.assign lib l).get l.name = (names.get l.name).addTarget lib l := by
    rw [CloakedNames.assign, get_mapAssign, if_pos rfl]
  have hCond : (!createPTR || decide ('*'.toUInt8 ∈ l.name) ||
        !((names.assign lib l).get l.name).isIP) = true ↔
      ¬ (createPTR = true ∧ '*'.toUInt8 ∉ l.name ∧
        ((names.assign lib l).get l.name).isIP = true) := by
    simp only [Bool.or_eq_true, Bool.not_eq_true', decide_eq_true_eq, not_and_or, not_not,
      Bool.not_eq_true, or_assoc]
  have hPtr : ptrAddr ((names.assign lib l).get l.name) l = _ := ptrAddr_eq h
  rw [hGet] at hCond hPtr ⊢
  unfold loadLine
  by_cases hSkip : createPTR = true ∧ '*'.toUInt8 ∉ l.name ∧
      ((names.get l.name).addTarget lib l).isIP = true
  · rw [if_neg (fun hTrue => (hCond.mp hTrue) hSkip), if_pos hSkip, hPtr]
    cases hIp : ptrIP lines l with
    | none => rfl
    | some ip =>
      obtain ⟨l', -, -, hIp'⟩ := exists_of_ptrIP hIp
      dsimp only
      rw [reverseAddr, parseIP_ipText (parseIP_bytes hIp').1]
      rfl
  · rw [if_pos (hCond.mpr hSkip), if_neg hSkip]
    rfl

end Step

variable {lines : List CloakLine} {lib : CloakText}

/-! ### All lines -/

/-- A line that makes the loader panic: it has a name as its target, and its own
name already has an address, or is the reverse name of one, but no IPv6 address. -/
def PanicsAt (before : List CloakLine) (l : CloakLine) : Prop :=
  l.ip = none ∧ '*'.toUInt8 ∉ l.name ∧
    ((∃ e ∈ before, e.name = l.name ∧ e.ip.isSome = true) ∨ ∃ f, Generated before l.name f) ∧
    ∀ e ∈ before, e.name = l.name → e.ipv6 = none

def Panics (lines : List CloakLine) : Prop :=
  ∃ before l, before ++ [l] <+: lines ∧ PanicsAt before l

theorem panics_concat (lines : List CloakLine) (l : CloakLine) :
    Panics (lines ++ [l]) ↔ Panics lines ∨ PanicsAt lines l :=
  exists_prefix_concat lines l

theorem ipv6Of_eq_nil {name : Bytes} :
    ipv6Of lines name = [] ↔ ∀ e ∈ lines, e.name = name → e.ipv6 = none := by
  rw [ipv6Of, filterMap_eq_nil_iff]
  refine forall₂_congr fun e _ => ?_
  by_cases hName : e.name = name <;> simp [hName]

/-- There is no address to reverse. -/
theorem ptrIP_eq_none {l : CloakLine} :
    ptrIP lines l = none ↔ l.ip = none ∧ ∀ e ∈ lines, e.name = l.name → e.ipv6 = none := by
  rw [ptrIP, Option.or_eq_none_iff, head?_eq_none_iff, ipv6Of_concat, append_eq_nil_iff,
    ipv6Of_eq_nil, if_pos rfl, Option.toList_eq_nil_iff]
  have hIp : l.ip = none ↔ l.ipv4 = none ∧ l.ipv6 = none := by
    unfold CloakLine.ipv4 CloakLine.ipv6
    cases l.ip with
    | none => simp
    | some ip => cases hUnmap : unmap ip <;> simp [Option.filter, hUnmap]
  tauto

theorem loadInv_nil (createPTR : Bool) : LoadInv createPTR [] [] := by
  have hGenerated : ∀ k f, ¬ Generated [] k f := fun k f ⟨before, l, hPrefix, _⟩ =>
    not_concat_prefix_nil before l hPrefix
  refine ⟨nodup_nil, ?_, ?_, fun _ => rfl, ?_⟩
  · intro k
    simp [hGenerated]
  · intro k
    simp [hGenerated, CloakedNames.get, lookupKey, newCloakedName]
  · intro k f
    simp [hGenerated, CloakedNames.get, lookupKey, newCloakedName]

/-- A line panics, or keeps the map what it is. -/
theorem loadLine_run (lib : CloakText) {createPTR : Bool}
    {names : CloakedNames} (hInv : LoadInv createPTR lines names) (l : CloakLine) :
    (¬ (createPTR = true ∧ PanicsAt lines l) ∧ ∃ names',
        loadLine lib createPTR names l = .ok names' ∧ LoadInv createPTR (lines ++ [l]) names') ∨
      createPTR = true ∧ PanicsAt lines l ∧ loadLine lib createPTR names l = .error .panic := by
  -- the entry of the line has an address iff it had one, or the line gives it one
  have hIsIP : ((names.assign lib l).get l.name).isIP = true ↔
      ((∃ e ∈ lines, e.name = l.name ∧ e.ip.isSome = true) ∨
        createPTR = true ∧ ∃ f, Generated lines l.name f) ∨ l.ip.isSome = true := by
    rw [assign_isIP, hInv.isIP]
    simp
  rw [loadLine_eq hInv]
  by_cases hRev : createPTR = true ∧ '*'.toUInt8 ∉ l.name ∧
      ((names.assign lib l).get l.name).isIP = true
  · rw [if_pos hRev]
    obtain ⟨rfl, hStar, hIP⟩ := hRev
    cases hPtr : ptrIP lines l with
    | none =>
      right
      obtain ⟨hNoIP, hNoV6⟩ := ptrIP_eq_none.mp hPtr
      rw [hIsIP, hNoIP] at hIP
      refine ⟨rfl, ⟨hNoIP, hStar, ?_, hNoV6⟩, rfl⟩
      simpa using hIP
    | some ip =>
      left
      refine ⟨?_, _, rfl, hInv.addPTR hStar hPtr⟩
      rintro ⟨-, hNoIP, -, -, hNoV6⟩
      rw [ptrIP_eq_none.mpr ⟨hNoIP, hNoV6⟩] at hPtr
      cases hPtr
  · rw [if_neg hRev]
    left
    refine ⟨?_, _, rfl, hInv.assign fun hPTR => ?_⟩
    · rintro ⟨hPTR, hNoIP, hStar, hHas, -⟩
      refine hRev ⟨hPTR, hStar, hIsIP.mpr (.inl ?_)⟩
      simpa [hPTR] using hHas
    · -- without an address in the entry there is none to reverse
      by_contra hBoth
      obtain ⟨hStar, hSome⟩ := not_or.mp hBoth
      obtain ⟨ip, hPtr⟩ := Option.ne_none_iff_exists'.mp hSome
      obtain ⟨l', hl', hName, hIp⟩ := exists_of_ptrIP hPtr
      refine hRev ⟨hPTR, hStar, hIsIP.mpr ?_⟩
      rcases mem_append.mp hl' with hl' | hl'
      · exact .inl (.inl ⟨l', hl', hName, by rw [hIp]; rfl⟩)
      · rw [mem_singleton.mp hl'] at hIp
        exact .inr (by rw [hIp]; rfl)

theorem load_lines (lib : CloakText) (createPTR : Bool) (lines : List CloakLine) :
    (¬ (createPTR = true ∧ Panics lines) ∧ ∃ names,
        lines.foldlM (loadLine lib createPTR) [] = .ok names ∧ LoadInv createPTR lines names) ∨
      createPTR = true ∧ Panics lines ∧
        lines.foldlM (loadLine lib createPTR) [] = .error .panic := by
  induction lines using reverseRecOn with
  | nil =>
    left
    refine ⟨?_, [], rfl, loadInv_nil createPTR⟩
    rintro ⟨-, before, l, hPrefix, -⟩
    exact not_concat_prefix_nil before l hPrefix
  | append_singleton lines l ih =>
    rw [foldlM_append, panics_concat]
    rcases ih with ⟨hNot, names, hLoad, hInv⟩ | ⟨hPTR, hPanics, hLoad⟩
    · rw [hLoad, ok_bind, foldlM_cons]
      rcases loadLine_run lib hInv l with ⟨hNotAt, names', hLine, hInv'⟩ | ⟨hPTR, hPanics, hLine⟩
      · left
        rw [hLine]
        refine ⟨?_, names', rfl, hInv'⟩
        rintro ⟨hPTR, hPanics | hPanics⟩
        · exact hNot ⟨hPTR, hPanics⟩
        · exact hNotAt ⟨hPTR, hPanics⟩
      · right
        rw [hLine]
        exact ⟨hPTR, .inr hPanics, rfl⟩
    · right
      rw [hLoad]
      exact ⟨hPTR, .inl hPanics, rfl⟩

/-- What is known of a map that was built. -/
theorem loadInv_of_ok {createPTR : Bool}
    {names : CloakedNames} (h : lines.foldlM (loadLine lib createPTR) [] = .ok names) :
    LoadInv createPTR lines names ∧ ¬ (createPTR = true ∧ Panics lines) := by
  rcases load_lines lib createPTR lines with ⟨hNot, names', hLoad, hInv⟩ | ⟨-, -, hLoad⟩
  · rw [h] at hLoad
    cases hLoad
    exact ⟨hInv, hNot⟩
  · rw [h] at hLoad
    cases hLoad

/-! ## The matcher and the search for loops -/

/-- The rules of these entries. -/
def cloakRules (lib : CloakText) (entries : CloakedNames) : List (NameRule Bytes) :=
  (entries.map cloakCall).filterMap (AddCall.rule? lib.toTextLib)

theorem mem_cloakRules {entries : CloakedNames} {r : NameRule Bytes} :
    r ∈ cloakRules lib entries ↔ ∃ e ∈ entries, (cloakCall e).rule? lib.toTextLib = some r := by
  simp [cloakRules]

theorem val_cloakRules {entries : CloakedNames} {r : NameRule Bytes}
    (h : r ∈ cloakRules lib entries) : ∃ e ∈ entries, r.val = some e.1 := by
  obtain ⟨e, he, hRule⟩ := mem_cloakRules.mp h
  exact ⟨e, he, (AddCall.rule?_eq_some.mp hRule).2⟩

theorem separate_cloakRules (hLib : lib.toTextLib.Lawful)
    (entries : CloakedNames) : Separate (cloakRules lib entries) :=
  separate_rules hLib fun _ hr => (mem_cloakRules.mp hr).elim fun e he => ⟨cloakCall e, he.2⟩

section Loops

variable {lib : CloakText} {glob : Bytes → Bytes → Bool} {entries names : CloakedNames}
  {m : PatternMatcher Bytes}

/-- The value of a rule is a pointer to its entry. -/
theorem eval_rule (hLib : lib.toTextLib.Lawful)
    (hAdd : cloakMatcher lib entries = .ok m)
    {q reason : Bytes} {val : Option Bytes}
    (h : m.eval lib.toTextLib glob q = some (reason, val)) : ∃ e ∈ entries, val = some e.1 := by
  obtain rfl : m = matcherOf (cloakRules lib entries) := (addAll_eq_ok.mp hAdd).2
  rw [eval_eq_some (separate_cloakRules hLib entries)] at h
  obtain ⟨r, hr, -, -, rfl⟩ := h.exists_mem
  exact val_cloakRules hr

theorem nextRule_mem (hLib : lib.toTextLib.Lawful)
    (hAdd : cloakMatcher lib entries = .ok m)
    {a b : Bytes} (h : nextRule lib glob names m a = some b) : b ∈ entries.map (·.1) := by
  unfold nextRule at h
  split at h
  · next reason next hEval =>
    obtain ⟨e, he, hVal⟩ := eval_rule hLib hAdd hEval
    split at h
    · obtain rfl : next = b := Option.some.inj h
      exact mem_map.mpr ⟨e, he, (Option.some.inj hVal).symm⟩
    · cases h
  · cases h

/-- The inner loop ends for each entry. -/
theorem chase_entry_ne_runs (hLib : lib.toTextLib.Lawful)
    (hAdd : cloakMatcher lib entries = .ok m)
    (hPerm : entries.Perm names) {e : Bytes × CloakedName} (he : e ∈ names) :
    chase (nextRule lib glob names m) (names.length + 1) [e.1] e.1 ≠ .runs := by
  have hKeys : ∀ k, k ∈ entries.map (·.1) → k ∈ names.map (·.1) :=
    fun k hk => (hPerm.map _).subset hk
  have hNodes : ∀ a b, nextRule lib glob names m a = some b → b ∈ names.map (·.1) :=
    fun a b hNext => hKeys b (nextRule_mem hLib hAdd hNext)
  refine chase_ne_runs hNodes (nodup_singleton _) ?_ ?_
  · exact cons_subset.mpr ⟨mem_map_of_mem he, nil_subset _⟩
  · rw [length_map, length_singleton]
    omega

theorem detectCloakingLoops_returns (hLib : lib.toTextLib.Lawful)
    (hAdd : cloakMatcher lib entries = .ok m)
    (hPerm : entries.Perm names) {order : CloakedNames} (hOrder : order.Perm names) :
    (detectCloakingLoops lib glob names m order).isSome = true := by
  have hStep : ∀ (order : CloakedNames) (first : Option (CloakedName × Bytes)),
      (∀ e ∈ order, e ∈ names) →
      ∃ r, order.foldlM (detectStep lib glob names m) first = some r := by
    intro order
    induction order with
    | nil => exact fun first _ => ⟨first, rfl⟩
    | cons e order ih =>
      intro first hSub
      have hRuns : chase (nextRule lib glob names m) (names.length + 1) [e.1] e.1 ≠ .runs :=
        chase_entry_ne_runs hLib hAdd hPerm (hSub e mem_cons_self)
      obtain ⟨first', hFirst⟩ : ∃ r, detectStep lib glob names m first e = some r := by
        unfold detectStep
        split
        · exact ⟨_, rfl⟩
        · split
          · exact ⟨_, rfl⟩
          · next hRuns' => exact absurd hRuns' hRuns
          · split
            · exact ⟨_, rfl⟩
            · split <;> exact ⟨_, rfl⟩
      rw [foldlM_cons, hFirst]
      exact ih first' fun e' he' => hSub e' (mem_cons_of_mem _ he')
  obtain ⟨r, hr⟩ := hStep order none fun e he => hOrder.subset he
  rw [detectCloakingLoops, hr]
  cases r <;> rfl

end Loops

/-- `loadRules` returns a rule set or an error, in whatever order Go iterates over
the map, iff `cloak_ptr` is off or no line gives a name as the target of a name
with an address but no IPv6 address. -/
theorem loadRules_returns_iff {lib : CloakText} (hLib : lib.toTextLib.Lawful)
    (glob : Bytes → Bytes → Bool) (createPTR : Bool) {order order' : CloakedNames → CloakedNames}
    (hOrder : ∀ names, (order names).Perm names) (hOrder' : ∀ names, (order' names).Perm names)
    (lines : Bytes) :
    (∃ r, PluginCloak.loadRules lib glob createPTR order order' lines = some r ∧
        r ≠ .error .panic) ↔
      ¬ (createPTR = true ∧ Panics (cloakLines lib lines)) := by
  unfold PluginCloak.loadRules
  rcases load_lines lib createPTR (cloakLines lib lines) with
    ⟨hNot, names, hLoad, -⟩ | ⟨hPTR, hPanics, hLoad⟩
  · refine iff_of_true ?_ hNot
    rw [hLoad]
    dsimp only
    cases hAdd : cloakMatcher lib (order names) with
    | error e => exact ⟨_, rfl, fun h => nomatch h⟩
    | ok m =>
      have hReturns : (detectCloakingLoops lib glob names m (order' names)).isSome = true :=
        detectCloakingLoops_returns hLib hAdd (hOrder names) (hOrder' names)
      obtain ⟨r, hr⟩ := Option.isSome_iff_exists.mp hReturns
      dsimp only
      rw [hr]
      cases r with
      | error e => exact ⟨_, rfl, fun h => nomatch h⟩
      | ok _ => exact ⟨_, rfl, fun h => nomatch h⟩
  · refine iff_of_false ?_ (not_not.mpr ⟨hPTR, hPanics⟩)
    rw [hLoad]
    rintro ⟨r, hr, hNot⟩
    exact hNot (Option.some.inj hr).symm

/-- The library on ASCII texts. -/
def asciiCloak : CloakText :=
  { asciiText with
    fieldsFunc := fun s => (s.splitOnP isBlank).filter fun field => decide (field ≠ []) }

/-- The files that make the loader panic, without `cloak_ptr`. -/
theorem loadRules_returns_without_ptr :
    ∃ r, PluginCloak.loadRules asciiCloak (fun _ _ => false) false id id
        (ascii "a.com 1.2.3.4\na.com b.com") = some r ∧ r ≠ .error .panic :=
  (loadRules_returns_iff asciiText_lawful _ _ List.Perm.refl List.Perm.refl _).mpr
    fun h => nomatch h.1

/-- Loading the file, with `cloak_ptr`, panics. -/
def loadPanics (lines : String) : Bool :=
  match PluginCloak.loadRules asciiCloak (fun _ _ => false) true id id (ascii lines) with
  | some (.error .panic) => true
  | _ => false

/-- A name with an IPv4 address and then a name as its target, and a rule for the
reverse name of an address. -/
theorem address_then_name_panics :
    loadPanics "a.com 1.2.3.4\na.com b.com" = true ∧
      loadPanics "a.com 1.2.3.4\n=4.3.2.1.in-addr.arpa b.com" = true := by
  decide +kernel

end DnscryptProxy
