import DnscryptProxy.Reload.Staging

/-!
# The name and IP lists

The rules of `plugin_block_name.go`, `plugin_block_ip.go` and
`plugin_allow_ip.go`: how a file is cut into lines, and what a line adds to the
structures of the rule set. Texts are byte strings, as in Go.

* `reload_atomic` — the three plugins, while no two reloads overlap;
* `half_loaded_rules` — two overlapping reloads of the name blocklist leave it
  empty.
-/

namespace DnscryptProxy

open Base List Machine

/-! ## Lines -/

/-- The functions on texts that look at more than single bytes. -/
structure TextLib where
  /-- `strings.TrimSpace` -/
  trimSpace : Bytes → Bytes
  /-- `strings.ToLower` -/
  toLower : Bytes → Bytes
  /-- `StringReverse`, by runes -/
  stringReverse : Bytes → Bytes
  /-- `filepath.Match` takes the pattern -/
  globOk : Bytes → Bool
  /-- `net.ParseIP` does -/
  isIP : Bytes → Bool
  /-- `net.ParseCIDR`, and the key of the network -/
  parseCIDR : Bytes → Option Bytes

/-- `strings.Split` at a single byte. -/
def splitByte (sep : UInt8) : Bytes → List Bytes
  | [] => [[]]
  | b :: rest =>
    if b = sep then [] :: splitByte sep rest
    else
      match splitByte sep rest with
      | [] => [[b]]
      | first :: others => (b :: first) :: others

/-- `strings.LastIndexByte`. -/
def lastIndexByte (str : Bytes) (c : UInt8) : Option Nat :=
  (str.reverse.idxOf? c).map fun i => str.length - 1 - i

variable (lib : TextLib)

def trimAndStripInlineComments (str : Bytes) : Bytes :=
  match lastIndexByte str '#'.toUInt8 with
  | none => lib.trimSpace str
  | some idx =>
    if idx = 0 ∨ str.head? = some '#'.toUInt8 then []
    else
      let prev := str[idx - 1]?
      -- a `#` inside a word is no comment
      if prev = some ' '.toUInt8 ∨ prev = some '\t'.toUInt8 then
        lib.trimSpace (str.take (idx - 1))
      else lib.trimSpace str

/-- The lines `ProcessConfigLines` hands on, with their numbers. -/
def processConfigLines (lines : Bytes) : List (Nat × Bytes) :=
  ((splitByte '\n'.toUInt8 lines).zipIdx.map fun (line, lineNo) =>
    (lineNo, trimAndStripInlineComments lib line)).filter fun l => decide (l.2 ≠ [])

/-- What is wrong with a line. It is logged, and the line skipped. -/
inductive RuleError where
  /-- "syntax error at line %d -- Unexpected @ character" -/
  | unexpectedAt (line : Nat)
  /-- "time range [%s] not found at line %d" -/
  | timeRangeNotFound (name : Bytes) (line : Nat)
  /-- "Syntax error in the rule file at line %d" -/
  | syntaxError (line : Nat)
  /-- "suspicious IP rule [%s] at line %d" -/
  | suspiciousIPRule (rule : Bytes) (line : Nat)
  /-- "empty IP rule at line %d" -/
  | emptyIPRule (line : Nat)
  /-- "invalid rule: [%s] - wildcards can only be used as a suffix at line %d" -/
  | invalidWildcard (rule : Bytes) (line : Nat)
deriving Repr, DecidableEq

/-! ## Name patterns -/

variable {W : Type} (lib : TextLib) (allWeeklyRanges : Bytes → Option W)

def parseTimeBasedRule (line : Bytes) (lineNo : Nat) : Except RuleError (Bytes × Option W) :=
  match splitByte '@'.toUInt8 line with
  | [rule, name] =>
    let timeRangeName := lib.trimSpace name
    if timeRangeName = [] then .ok (lib.trimSpace rule, none)
    else
      match allWeeklyRanges timeRangeName with
      | some weeklyRanges => .ok (lib.trimSpace rule, some weeklyRanges)
      | none => .error (.timeRangeNotFound timeRangeName (1 + lineNo))
  | _ :: _ :: _ => .error (.unexpectedAt (1 + lineNo))
  | _ => .ok (line, none)

/-- `PatternMatcher`; a trie or a map is the list of its entries. -/
structure PatternMatcher (W : Type) where
  prefixes : List (Bytes × Option W)
  suffixes : List (Bytes × Option W)
  substrings : List Bytes
  patterns : List Bytes
  exactNames : List (Bytes × Option W)
  indirectVals : List (Bytes × Option W)
deriving Repr, DecidableEq

def newPatternMatcher (W : Type) : PatternMatcher W :=
  { prefixes := [], suffixes := [], substrings := [], patterns := [], exactNames := [],
    indirectVals := [] }

/-- `Trie.Insert`, which leaves the value of a key that is there alone. -/
def trieInsert {W : Type} (trie : List (Bytes × W)) (key : Bytes) (val : W) : List (Bytes × W) :=
  if key ∈ trie.map (·.1) then trie else trie ++ [(key, val)]

/-- The assignment to an entry of a map. -/
def mapAssign {W : Type} (m : List (Bytes × W)) (key : Bytes) (val : W) : List (Bytes × W) :=
  (key, val) :: m.filter fun e => decide (e.1 ≠ key)

/-- A wildcard that is neither the first nor the last byte, from byte `i` on. -/
def isGlobCandidateFrom (len : Nat) : Nat → Bytes → Bool
  | _, [] => false
  | i, c :: rest =>
    if c = '?'.toUInt8 ∨ c = '['.toUInt8 then true
    else if c = '*'.toUInt8 ∧ i ≠ 0 ∧ i ≠ len - 1 then true
    else isGlobCandidateFrom len (i + 1) rest

def isGlobCandidate (str : Bytes) : Bool := isGlobCandidateFrom str.length 0 str

inductive PatternType where
  | prefixType
  | suffixType
  | substringType
  | patternType
  | exactType
deriving Repr, DecidableEq

/-- The first half of `PatternMatcher.Add`: the kind of a pattern, and the
pattern without its marks. -/
def classifyPattern (pattern : Bytes) (position : Nat) : Except RuleError (PatternType × Bytes) :=
  let leadingStar := decide (pattern.head? = some '*'.toUInt8)
  let trailingStar := decide (pattern.getLast? = some '*'.toUInt8)
  if isGlobCandidate pattern then
    if pattern.length < 2 ∨ lib.globOk pattern = false then .error (.syntaxError position)
    else .ok (.patternType, pattern)
  else if leadingStar && trailingStar then
    if pattern.length < 3 then .error (.syntaxError position)
    else .ok (.substringType, (pattern.drop 1).dropLast)
  else if trailingStar then
    if pattern.length < 2 then .error (.syntaxError position)
    else .ok (.prefixType, pattern.dropLast)
  else if pattern.head? = some '='.toUInt8 then
    if pattern.length < 2 then .error (.syntaxError position)
    else .ok (.exactType, pattern.drop 1)
  else
    let pattern := if leadingStar then pattern.drop 1 else pattern
    .ok (.suffixType, if pattern.head? = some '.'.toUInt8 then pattern.drop 1 else pattern)

/-- `PatternMatcher.Add`. -/
def PatternMatcher.add {W : Type} (lib : TextLib) (m : PatternMatcher W) (pattern : Bytes)
    (val : Option W) (position : Nat) : Except RuleError (PatternMatcher W) :=
  match classifyPattern lib pattern position with
  | .error e => .error e
  | .ok (kind, pattern) =>
    if pattern = [] then .error (.syntaxError position)
    else
      let pattern := lib.toLower pattern
      match kind with
      | .substringType =>
        .ok { m with
          substrings := m.substrings ++ [pattern]
          indirectVals := mapAssign m.indirectVals pattern val }
      | .patternType =>
        .ok { m with
          patterns := m.patterns ++ [pattern]
          indirectVals := mapAssign m.indirectVals pattern val }
      | .prefixType => .ok { m with prefixes := trieInsert m.prefixes pattern val }
      | .suffixType =>
        -- the extra dot marks the label boundary
        .ok { m with
          suffixes := trieInsert m.suffixes (lib.stringReverse pattern ++ ['.'.toUInt8]) val }
      | .exactType => .ok { m with exactNames := mapAssign m.exactNames pattern val }

/-- `loadRules` of the name blocklist, for one line. -/
def addNameRule (m : PatternMatcher W) (line : Nat × Bytes) : PatternMatcher W :=
  match parseTimeBasedRule lib allWeeklyRanges line.2 line.1 with
  | .error _ => m
  | .ok (rulePart, weeklyRanges) =>
    match m.add lib rulePart weeklyRanges (line.1 + 1) with
    | .error _ => m
    | .ok m' => m'

/-! ## IP rules -/

def parseIPRule (line : Bytes) (lineNo : Nat) : Except RuleError (Bytes × Bool) :=
  let trailingStar := decide (line.getLast? = some '*'.toUInt8)
  if line.length < 2 ∨ (lib.isIP line && trailingStar) = true then
    .error (.suspiciousIPRule line (1 + lineNo))
  else
    let cleanLine := if trailingStar then line.dropLast else line
    let last := cleanLine.getLast?
    let cleanLine :=
      if last = some ':'.toUInt8 ∨ last = some '.'.toUInt8 then cleanLine.dropLast else cleanLine
    if cleanLine = [] then .error (.emptyIPRule (1 + lineNo))
    else if '*'.toUInt8 ∈ cleanLine then .error (.invalidWildcard line (1 + lineNo))
    else .ok (lib.toLower cleanLine, trailingStar)

/-- The structures of `LoadIPRules`. -/
inductive IPField where
  | prefixes
  | ips
  | networks
deriving Repr, DecidableEq

/-- Where `LoadIPRules` puts a line. -/
def ipRuleTarget (line : Nat × Bytes) : Option IPField :=
  if '/'.toUInt8 ∈ line.2 then some .networks
  else
    match parseIPRule lib line.2 line.1 with
    | .error _ => none
    | .ok (_, trailingStar) => if trailingStar then some .prefixes else some .ips

/-- What `LoadIPRules` adds for a line: a CIDR rule, or the rule without its
marks. -/
def ipRuleKey (line : Nat × Bytes) : Option Bytes :=
  if '/'.toUInt8 ∈ line.2 then lib.parseCIDR line.2
  else
    match parseIPRule lib line.2 line.1 with
    | .error _ => none
    | .ok (cleanLine, _) => some cleanLine

/-- A table of keys that all have the same value. -/
def addKey (keys : List Bytes) (key : Option Bytes) : List Bytes :=
  match key with
  | none => keys
  | some key => if key ∈ keys then keys else keys ++ [key]

/-! ## The plugins -/

/-- `PluginBlockName`: a single staging field, cleared after the lock is
released; an evaluation keeps only the pointer it got under the read lock. -/
def pluginBlockName : RulePlugin Unit (fun _ => PatternMatcher W) (Nat × Bytes) where
  fields := [()]
  complete _ := mem_singleton.mpr rfl
  fresh _ := newPatternMatcher W
  lines := processConfigLines lib
  target _ := some ()
  add line _ m := addNameRule lib allWeeklyRanges m line
  persistent _ := false
  skipsNil _ := false
  needsActive := true
  evalHoldsLock := false
  clearsUnderLock := false

/-- The reload code of the two IP lists: three staging fields, of which the
radix tree is persistent and the network table may be nil. -/
def ipListPlugin : RulePlugin IPField (fun _ => List Bytes) (Nat × Bytes) where
  fields := [.prefixes, .ips, .networks]
  complete i := by cases i <;> decide
  fresh _ := []
  lines := processConfigLines lib
  target := ipRuleTarget lib
  add line _ keys := addKey keys (ipRuleKey lib line)
  persistent i := decide (i = .prefixes)
  skipsNil i := decide (i = .networks)
  needsActive := false
  evalHoldsLock := true
  clearsUnderLock := true

def pluginBlockIP : RulePlugin IPField (fun _ => List Bytes) (Nat × Bytes) :=
  ipListPlugin lib

def pluginAllowedIP : RulePlugin IPField (fun _ => List Bytes) (Nat × Bytes) :=
  ipListPlugin lib

/-! ## Reloading them -/

/-- The rule sets in use are complete loads of versions that were read, and
only the commit of a reload changes the active one. -/
def ReloadAtomic {ι : Type} {Part : ι → Type} {Line : Type} [DecidableEq ι]
    (P : RulePlugin ι Part Line) (s : ReloadState ι Part Line) : Prop :=
  (∀ view, s.InUse view → ∃ content ∈ s.versions, ∀ i, s.rules view i = some (P.load content i)) ∧
    ∀ op s', (reloadMachine P).step s op = some s' → op.isCommit = false →
      s'.rules s'.active = s.rules s.active

theorem reloadAtomic_of_noOverlap {ι : Type} {Part : ι → Type} {Line : Type} [DecidableEq ι]
    {P : RulePlugin ι Part Line} {s : ReloadState ι Part Line}
    (hs : (reloadMachine P).Reach NoOverlap s) : ReloadAtomic P s :=
  ⟨fun _ hView => ReloadState.reload_complete hs hView,
    fun _ _ hNext hOp => ReloadState.reload_commit_only hs hNext hOp⟩

/-- In every run in which no `Reload` begins while another one is under way. -/
theorem reload_atomic :
    (∀ s, (reloadMachine (pluginBlockName lib allWeeklyRanges)).Reach NoOverlap s →
        ReloadAtomic (pluginBlockName lib allWeeklyRanges) s) ∧
      (∀ s, (reloadMachine (pluginBlockIP lib)).Reach NoOverlap s →
        ReloadAtomic (pluginBlockIP lib) s) ∧
      ∀ s, (reloadMachine (pluginAllowedIP lib)).Reach NoOverlap s →
        ReloadAtomic (pluginAllowedIP lib) s :=
  ⟨fun _ => reloadAtomic_of_noOverlap, fun _ => reloadAtomic_of_noOverlap,
    fun _ => reloadAtomic_of_noOverlap⟩

/-- Texts without blanks, capitals or addresses. -/
def plainText : TextLib :=
  { trimSpace := id, toLower := id, stringReverse := reverse, globOk := fun _ => true,
    isIP := fun _ => false, parseCIDR := fun _ => none }

/-- A name blocklist without time ranges. -/
def plainBlockName : RulePlugin Unit (fun _ => PatternMatcher Unit) (Nat × Bytes) :=
  pluginBlockName plainText fun _ => none

/-- `Init` has loaded a file with the single rule `a`. -/
def blocksA : ReloadState Unit (fun _ => PatternMatcher Unit) (Nat × Bytes) :=
  { objects := fun i => [plainBlockName.load ['a'.toUInt8] i]
    staging := fun _ => none
    active := fun _ => some 0
    evals := []
    calls := fun _ => none
    versions := [['a'.toUInt8]] }

theorem blocksA_init : (reloadMachine plainBlockName).init blocksA :=
  ⟨⟨['a'.toUInt8], mem_singleton.mpr rfl, fun _ => ⟨0, rfl, rfl⟩⟩, rfl, rfl⟩

/-- One reload, of a file with the single rule `b`, up to its commit. -/
theorem reload_atomic_single : ∃ s, (reloadMachine plainBlockName).Reach NoOverlap s ∧
      s.rules s.active () = some (plainBlockName.load ['b'.toUInt8] ()) ∧
      ReloadAtomic plainBlockName s := by
  let b : Bytes := ['b'.toUInt8]
  let ops : List ReloadOp :=
    [.read 1 (.ok b), .reread 1 (.ok b), .create 1, .take 1, .addLine 1, .finish 1, .check 1,
      .commit 1]
  have hBegin : (reloadMachine plainBlockName).Reach NoOverlap (blocksA.goto 1 .reading) :=
    .step (l := .begin 1) (.init blocksA_init) (fun _ => rfl) rfl
  have hRun : ((reloadMachine plainBlockName).exec (blocksA.goto 1 .reading) ops).map
      (fun s => s.rules s.active ()) = some (some (plainBlockName.load b ())) := by
    decide +kernel
  obtain ⟨s, hExec, hRules⟩ := Option.map_eq_some_iff.mp hRun
  have hs : (reloadMachine plainBlockName).Reach NoOverlap s := by
    refine hBegin.exec (fun op hOp t => ?_) hExec
    simp only [ops, mem_cons, not_mem_nil, or_false] at hOp
    rcases hOp with rfl | rfl | rfl | rfl | rfl | rfl | rfl | rfl <;> trivial
  exact ⟨s, hs, hRules, (reload_atomic plainText fun _ => none).1 s hs⟩

/-- The watcher and the SIGHUP handler reload at once, the files `b` and `c`:
the first commits the structure the second has just created, and no name is
blocked any more. No version that was read is empty. -/
theorem half_loaded_rules : ∃ s, (reloadMachine plainBlockName).Reach anyStep s ∧
      s.rules s.active () = some (newPatternMatcher Unit) ∧
      ∀ content ∈ s.versions, s.rules s.active () ≠ some (plainBlockName.load content ()) := by
  let b : Bytes := ['b'.toUInt8]
  let c : Bytes := ['c'.toUInt8]
  let ops : List ReloadOp :=
    [.begin 1, .read 1 (.ok b), .reread 1 (.ok b), .create 1, .take 1, .addLine 1, .finish 1,
      .begin 2, .read 2 (.ok c), .reread 2 (.ok c), .create 2, .check 1, .commit 1]
  have hRun : ((reloadMachine plainBlockName).exec blocksA ops).map
      (fun s => (s.rules s.active (), s.versions)) =
      some (some (newPatternMatcher Unit), [c, b, ['a'.toUInt8]]) := by
    decide +kernel
  obtain ⟨s, hExec, hView⟩ := Option.map_eq_some_iff.mp hRun
  obtain ⟨hRules, hVersions⟩ := Prod.mk.inj hView
  have hStart : (reloadMachine plainBlockName).Reach anyStep blocksA := .init blocksA_init
  refine ⟨s, hStart.exec (fun _ _ _ => trivial) hExec, hRules, ?_⟩
  rw [hRules, hVersions]
  decide +kernel

end DnscryptProxy
