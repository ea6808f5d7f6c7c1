import DnscryptProxy.Base.LongestPrefix
import DnscryptProxy.Rules.Text
import Mathlib.Data.List.Infix

/-!
# Name patterns

`PatternMatcher.Eval` of `pattern_matcher.go` over the structures that
`PatternMatcher.Add` fills. A rule is stored under a key, which for a suffix is
the reversed text with a dot behind it; the tries answer with the longest stored
beginning, and `filepath.Match` is a parameter.

A matcher is described here for rules by their kinds and keys, for any texts:

* `eval_matcherOf` — `Eval` reports the rule that `select` finds, with the value
  that is stored for its key;
* `select_eq_some` — which rule that is: by kind, then by length or by age;
* `eval_eq_some` — with the value: `Eval` reports the one rule that is in charge.

How the kinds and the keys come from the patterns as a user writes them is in
`Rules.PatternText`.
-/

namespace DnscryptProxy

open Base List

variable {W : Type}

/-! ## Evaluation -/

/-- The value of a key in a trie or a map. -/
def lookupKey {V : Type} (entries : List (Bytes × V)) (key : Bytes) : Option V :=
  (entries.find? fun e => decide (e.1 = key)).map (·.2)

/-- `PatternMatcher.Eval`: the reason and the value; `none` is no match.
`glob` is `filepath.Match`. -/
def PatternMatcher.eval (lib : TextLib) (glob : Bytes → Bytes → Bool) (m : PatternMatcher W)
    (qName : Bytes) : Option (Bytes × Option W) :=
  if qName.length < 2 then none
  else
    match lookupKey m.exactNames qName with
    | some xval => some (qName, xval)
    | none =>
      let revQname := lib.stringReverse qName ++ ['.'.toUInt8]
      match longestPrefix (m.suffixes.map (·.1)) revQname with
      | some found =>
        some (ascii "*." ++ lib.stringReverse found.dropLast, (lookupKey m.suffixes found).join)
      | none =>
        match longestPrefix (m.prefixes.map (·.1)) qName with
        | some found => some (found ++ ascii "*", (lookupKey m.prefixes found).join)
        | none =>
          match m.substrings.find? fun substring => decide (substring <:+: qName) with
          | some substring =>
            some (ascii "*" ++ substring ++ ascii "*", (lookupKey m.indirectVals substring).join)
          | none =>
            match m.patterns.find? fun pattern => glob pattern qName with
            | some pattern => some (pattern, (lookupKey m.indirectVals pattern).join)
            | none => none

/-! ## Kinds and keys -/

/-- What `Add` makes of a pattern: its kind, and the key under which it is kept. -/
def patternKey (lib : TextLib) (pattern : Bytes) (position : Nat) :
    Except RuleError (PatternType × Bytes) :=
  match classifyPattern lib pattern position with
  | .error e => .error e
  | .ok (kind, text) =>
    if text = [] then .error (.syntaxError position)
    else
      .ok (kind, if kind = .suffixType then lib.stringReverse (lib.toLower text) ++ ['.'.toUInt8]
        else lib.toLower text)

/-- The second half of `Add`. -/
def PatternMatcher.insert (m : PatternMatcher W) (kind : PatternType) (key : Bytes)
    (val : Option W) : PatternMatcher W :=
  match kind with
  | .substringType =>
    { m with
      substrings := m.substrings ++ [key], indirectVals := mapAssign m.indirectVals key val }
  | .patternType =>
    { m with patterns := m.patterns ++ [key], indirectVals := mapAssign m.indirectVals key val }
  | .prefixType => { m with prefixes := trieInsert m.prefixes key val }
  | .suffixType => { m with suffixes := trieInsert m.suffixes key val }
  | .exactType => { m with exactNames := mapAssign m.exactNames key val }

theorem PatternMatcher.add_eq (lib : TextLib) (m : PatternMatcher W) (pattern : Bytes)
    (val : Option W) (position : Nat) :
    m.add lib pattern val position =
      (patternKey lib pattern position).map fun k => m.insert k.1 k.2 val := by
  unfold PatternMatcher.add patternKey
  cases classifyPattern lib pattern position with
  | error e => rfl
  | ok r =>
    obtain ⟨kind, text⟩ := r
    by_cases hText : text = []
    · simp only [if_pos hText]
      rfl
    · simp only [if_neg hText]
      cases kind <;> rfl

/-! ### Lookups -/

section Lookup

variable {V : Type}

theorem lookupKey_isSome {entries : List (Bytes × V)} {key : Bytes} :
    (lookupKey entries key).isSome = true ↔ key ∈ entries.map (·.1) := by
  simp [lookupKey, find?_isSome]

theorem lookupKey_append (entries : List (Bytes × V)) (key : Bytes) (val : V) (k : Bytes) :
    lookupKey (entries ++ [(key, val)]) k =
      (lookupKey entries k).or (if key = k then some val else none) := by
  rw [lookupKey, find?_append, lookupKey]
  cases entries.find? fun e => decide (e.1 = k) with
  | some e => rfl
  | none =>
    by_cases hk : key = k
    · simp [hk]
    · simp [hk]

/-- The first value of a key stays. -/
theorem lookupKey_trieInsert (trie : List (Bytes × V)) (key : Bytes) (val : V) (k : Bytes) :
    lookupKey (trieInsert trie key val) k =
      (lookupKey trie k).or (if key = k then some val else none) := by
  unfold trieInsert
  split
  · next hMem =>
    by_cases hk : key = k
    · subst hk
      obtain ⟨v, hv⟩ := Option.isSome_iff_exists.mp (lookupKey_isSome.mpr hMem)
      rw [hv]
      rfl
    · rw [if_neg hk, Option.or_none]
  · rw [lookupKey_append]

/-- The last value of a key replaces the others. -/
theorem lookupKey_mapAssign (m : List (Bytes × V)) (key : Bytes) (val : V) (k : Bytes) :
    lookupKey (mapAssign m key val) k = if key = k then some val else lookupKey m k := by
  rw [mapAssign, lookupKey, find?_cons]
  by_cases hk : key = k
  · simp [hk]
  · simp only [hk, decide_false, if_false, lookupKey]
    congr 1
    rw [find?_filter]
    congr 1
    funext e
    by_cases he : e.1 = k
    · simp [he, Ne.symm hk]
    · simp [he]

end Lookup

/-! ## The matcher of a list of rules -/

/-- A rule as the matcher keeps it. -/
structure NameRule (W : Type) where
  kind : PatternType
  key : Bytes
  val : Option W
deriving Repr, DecidableEq

variable (rules : List (NameRule W))

def matcherOf : PatternMatcher W :=
  rules.foldl (fun m r => m.insert r.kind r.key r.val) (newPatternMatcher W)

theorem matcherOf_concat (r : NameRule W) :
    matcherOf (rules ++ [r]) = (matcherOf rules).insert r.kind r.key r.val := by
  rw [matcherOf, foldl_append]
  rfl

/-- The keys of a kind, in the order of the rules. -/
def keysOf (kind : PatternType) : List Bytes :=
  (rules.filter fun r => decide (r.kind = kind)).map (·.key)

/-- The value of the first and of the last rule that satisfies `p`. -/
def firstVal (p : NameRule W → Bool) : Option (Option W) :=
  (rules.find? p).map (·.val)

def lastVal (p : NameRule W → Bool) : Option (Option W) :=
  (rules.reverse.find? p).map (·.val)

theorem firstVal_concat (r : NameRule W) (p : NameRule W → Bool) :
    firstVal (rules ++ [r]) p = (firstVal rules p).or (if p r then some r.val else none) := by
  rw [firstVal, find?_append, firstVal]
  cases rules.find? p with
  | some r' => rfl
  | none => cases hp : p r <;> simp [hp]

theorem lastVal_concat (r : NameRule W) (p : NameRule W → Bool) :
    lastVal (rules ++ [r]) p = if p r then some r.val else lastVal rules p := by
  rw [lastVal, reverse_append, reverse_singleton, singleton_append, find?_cons, lastVal]
  cases p r <;> rfl

theorem keysOf_concat (r : NameRule W) (kind : PatternType) :
    keysOf (rules ++ [r]) kind = keysOf rules kind ++ if r.kind = kind then [r.key] else [] := by
  rw [keysOf, filter_append, map_append]
  congr 1
  by_cases hKind : r.kind = kind <;> simp [hKind]

/-- The rule has this kind and this key. -/
def NameRule.is (kind : PatternType) (key : Bytes) (r : NameRule W) : Bool :=
  decide (r.kind = kind ∧ r.key = key)

/-- The rule is of a kind whose values are kept apart from its keys. -/
def NameRule.isIndirect (key : Bytes) (r : NameRule W) : Bool :=
  decide ((r.kind = .substringType ∨ r.kind = .patternType) ∧ r.key = key)

/-- What the structures of a matcher hold. -/
structure Holds (m : PatternMatcher W) (rules : List (NameRule W)) : Prop where
  prefixes : ∀ k, lookupKey m.prefixes k = firstVal rules (NameRule.is .prefixType k)
  suffixes : ∀ k, lookupKey m.suffixes k = firstVal rules (NameRule.is .suffixType k)
  exactNames : ∀ k, lookupKey m.exactNames k = lastVal rules (NameRule.is .exactType k)
  indirectVals : ∀ k, lookupKey m.indirectVals k = lastVal rules (NameRule.isIndirect k)
  substrings : m.substrings = keysOf rules .substringType
  patterns : m.patterns = keysOf rules .patternType

theorem holds_matcherOf : Holds (matcherOf rules) rules := by
  induction rules using reverseRecOn with
  | nil => exact ⟨fun _ => rfl, fun _ => rfl, fun _ => rfl, fun _ => rfl, rfl, rfl⟩
  | append_singleton rules r ih =>
    rw [matcherOf_concat]
    obtain ⟨kind, key, val⟩ := r
    obtain ⟨hPrefixes, hSuffixes, hExact, hIndirect, hSubstrings, hPatterns⟩ := ih
    -- each kind adds to its own structures, and leaves the others alone
    cases kind <;> refine ⟨fun k => ?_, fun k => ?_, fun k => ?_, fun k => ?_, ?_, ?_⟩ <;>
      simp only [PatternMatcher.insert, firstVal_concat, lastVal_concat, keysOf_concat,
        lookupKey_trieInsert, lookupKey_mapAssign, hPrefixes, hSuffixes, hExact, hIndirect,
        hSubstrings, hPatterns, NameRule.is, NameRule.isIndirect, reduceCtorEq, false_and, true_and,
        decide_false, decide_eq_true_eq, Bool.false_eq_true, if_false, if_true, Option.or_none,
        append_nil, or_false, or_true, or_self]

/-! ## The rule that is reported -/

/-- The order in which `Eval` goes through the kinds. -/
def PatternType.rank : PatternType → Nat
  | exactType => 0
  | suffixType => 1
  | prefixType => 2
  | substringType => 3
  | patternType => 4

theorem PatternType.rank_injective {a b : PatternType} (h : a.rank = b.rank) : a = b := by
  cases a <;> cases b <;> first | rfl | cases h

/-- The value that is stored for a key. -/
def stored (kind : PatternType) (key : Bytes) : Option W :=
  match kind with
  | .prefixType | .suffixType => (firstVal rules (NameRule.is kind key)).join
  | _ => (lastVal rules (NameRule.is kind key)).join

theorem stored_trie {kind : PatternType} (hTrie : kind = .suffixType ∨ kind = .prefixType)
    (rules : List (NameRule W)) (key : Bytes) :
    stored rules kind key = (firstVal rules (NameRule.is kind key)).join := by
  rcases hTrie with rfl | rfl <;> rfl

theorem stored_map {kind : PatternType} (hMap : ¬ (kind = .suffixType ∨ kind = .prefixType))
    (rules : List (NameRule W)) (key : Bytes) :
    stored rules kind key = (lastVal rules (NameRule.is kind key)).join := by
  cases kind <;> first | rfl | exact absurd (by decide) hMap

/-- No key is both that of a substring and that of a glob pattern. -/
def Separate : Prop :=
  ∀ r ∈ rules, ∀ r' ∈ rules, r.kind = .substringType → r'.kind = .patternType → r.key ≠ r'.key

section Select

variable (lib : TextLib) (glob : Bytes → Bytes → Bool)

/-- A key of this kind matches a name. -/
def keyMatches (kind : PatternType) (key q : Bytes) : Bool :=
  match kind with
  | .exactType => decide (q = key)
  | .suffixType => decide (key <+: lib.stringReverse q ++ ['.'.toUInt8])
  | .prefixType => decide (key <+: q)
  | .substringType => decide (key <:+: q)
  | .patternType => glob key q

def NameRule.matches (q : Bytes) (r : NameRule W) : Bool := keyMatches lib glob r.kind r.key q

/-- The key that is found among those of a kind. -/
def pick (rules : List (NameRule W)) (q : Bytes) (kind : PatternType) : Option Bytes :=
  match kind with
  | .exactType => if (keysOf rules .exactType).contains q then some q else none
  | .suffixType =>
    longestPrefix (keysOf rules .suffixType) (lib.stringReverse q ++ ['.'.toUInt8])
  | .prefixType => longestPrefix (keysOf rules .prefixType) q
  | .substringType => (keysOf rules .substringType).find? fun k => decide (k <:+: q)
  | .patternType => (keysOf rules .patternType).find? fun k => glob k q

/-- The kind and the key of the rule that `Eval` reports. -/
def select (rules : List (NameRule W)) (q : Bytes) : Option (PatternType × Bytes) :=
  if q.length < 2 then none
  else
    [.exactType, .suffixType, .prefixType, .substringType, .patternType].findSome? fun kind =>
      (pick lib glob rules q kind).map fun key => (kind, key)

/-- The reason that `Eval` gives. -/
def reasonFor (kind : PatternType) (key : Bytes) : Bytes :=
  match kind with
  | .exactType => key
  | .suffixType => ascii "*." ++ lib.stringReverse key.dropLast
  | .prefixType => key ++ ascii "*"
  | .substringType => ascii "*" ++ key ++ ascii "*"
  | .patternType => key

variable {lib glob} {rules : List (NameRule W)} {q : Bytes} {kind : PatternType} {key : Bytes}

theorem mem_keysOf : key ∈ keysOf rules kind ↔ ∃ r ∈ rules, r.kind = kind ∧ r.key = key := by
  simp only [keysOf, mem_map, mem_filter, decide_eq_true_eq, and_assoc]

theorem firstVal_isSome :
    (firstVal rules (NameRule.is kind key)).isSome = true ↔ key ∈ keysOf rules kind := by
  rw [mem_keysOf]
  simp [firstVal, NameRule.is]

theorem lastVal_isSome :
    (lastVal rules (NameRule.is kind key)).isSome = true ↔ key ∈ keysOf rules kind := by
  rw [mem_keysOf]
  simp [lastVal, NameRule.is]

theorem lastVal_congr {p p' : NameRule W → Bool}
    (h : ∀ r ∈ rules, p r = p' r) : lastVal rules p = lastVal rules p' := by
  induction rules using reverseRecOn with
  | nil => rfl
  | append_singleton rules r ih =>
    rw [lastVal_concat, lastVal_concat, h r (by simp),
      ih fun r' hr' => h r' (mem_append_left _ hr')]

/-- The values of substrings and globs share a map, and do not get mixed up. -/
theorem indirect_eq (hSep : Separate rules)
    (hKind : kind = .substringType ∨ kind = .patternType) (hk : key ∈ keysOf rules kind) :
    lastVal rules (NameRule.isIndirect key) = lastVal rules (NameRule.is kind key) := by
  obtain ⟨r₀, hr₀, hr₀Kind, hr₀Key⟩ := mem_keysOf.mp hk
  apply lastVal_congr
  intro r hr
  simp only [NameRule.isIndirect, NameRule.is, decide_eq_decide]
  constructor
  · rintro ⟨hr' | hr', hKey⟩
    · rcases hKind with rfl | rfl
      · exact ⟨hr', hKey⟩
      · exact absurd (hKey.trans hr₀Key.symm) (hSep r hr r₀ hr₀ hr' hr₀Kind)
    · rcases hKind with rfl | rfl
      · exact absurd (hr₀Key.trans hKey.symm) (hSep r₀ hr₀ r hr hr₀Kind hr')
      · exact ⟨hr', hKey⟩
  · rintro ⟨hr', hKey⟩
    rw [hr']
    exact ⟨hKind, hKey⟩

theorem eval_matcherOf (hSep : Separate rules) (q : Bytes) :
    (matcherOf rules).eval lib glob q =
      (select lib glob rules q).map fun c => (reasonFor lib c.1 c.2, stored rules c.1 c.2) := by
  obtain ⟨hPrefixes, hSuffixes, hExact, hIndirect, hSubstrings, hPatterns⟩ := holds_matcherOf rules
  have hSuffixKeys : ∀ k, k ∈ (matcherOf rules).suffixes.map (·.1) ↔
      k ∈ keysOf rules .suffixType := by
    intro k
    rw [← lookupKey_isSome, hSuffixes, firstVal_isSome]
  have hPrefixKeys : ∀ k, k ∈ (matcherOf rules).prefixes.map (·.1) ↔
      k ∈ keysOf rules .prefixType := by
    intro k
    rw [← lookupKey_isSome, hPrefixes, firstVal_isSome]
  unfold PatternMatcher.eval select
  by_cases hShort : q.length < 2
  · rw [if_pos hShort, if_pos hShort]
    rfl
  rw [if_neg hShort, if_neg hShort]
  dsimp only
  rw [hExact, hSubstrings, hPatterns, longestPrefix_congr hSuffixKeys,
    longestPrefix_congr hPrefixKeys]
  simp only [findSome?_cons, findSome?_nil, pick]
  -- one kind after the other
  by_cases hMem : q ∈ keysOf rules .exactType
  · obtain ⟨v, hv⟩ := Option.isSome_iff_exists.mp (lastVal_isSome.mpr hMem)
    rw [hv, if_pos (contains_iff_mem.mpr hMem)]
    simp [reasonFor, stored, hv]
  have hNone : lastVal rules (NameRule.is .exactType q) = none := by
    rw [← Option.not_isSome_iff_eq_none, lastVal_isSome]
    exact hMem
  rw [hNone, if_neg (mt contains_iff_mem.mp hMem)]
  cases longestPrefix (keysOf rules .suffixType) (lib.stringReverse q ++ ['.'.toUInt8]) with
  | some found => simp [reasonFor, stored, hSuffixes]
  | none =>
  cases longestPrefix (keysOf rules .prefixType) q with
  | some found => simp [reasonFor, stored, hPrefixes]
  | none =>
  cases hSub : (keysOf rules .substringType).find? fun k => decide (k <:+: q) with
  | some k =>
    have hk := mem_of_find?_eq_some hSub
    simp [reasonFor, stored, hIndirect, indirect_eq hSep (.inl rfl) hk]
  | none =>
  cases hGlob : (keysOf rules .patternType).find? fun k => glob k q with
  | some k =>
    have hk := mem_of_find?_eq_some hGlob
    simp [reasonFor, stored, hIndirect, indirect_eq hSep (.inr rfl) hk]
  | none => rfl

/-! ### Which rule it is -/

theorem find?_keysOf (rules : List (NameRule W)) (kind : PatternType) (p : Bytes → Bool) :
    (keysOf rules kind).find? p =
      (rules.find? fun r => decide (r.kind = kind) && p r.key).map (·.key) := by
  rw [keysOf, find?_map, find?_filter]
  simp only [decide_eq_true_eq, Function.comp_apply, Bool.decide_and, Bool.decide_eq_true]

/-- The keys of a kind that `pick` finds. -/
theorem pick_eq_some :
    pick lib glob rules q kind = some key ↔
      key ∈ keysOf rules kind ∧ keyMatches lib glob kind key q = true ∧
        (kind = .suffixType ∨ kind = .prefixType → ∀ r ∈ rules, r.kind = kind →
          r.matches lib glob q = true → r.key.length ≤ key.length) ∧
        (kind = .substringType ∨ kind = .patternType →
          (rules.find? fun r => decide (r.kind = kind) && r.matches lib glob q).map (·.key) =
            some key) := by
  -- the oldest key: among those that the list of keys is searched for
  have hEarliest : ∀ kind, (keysOf rules kind).find? (keyMatches lib glob kind · q) = some key ↔
      key ∈ keysOf rules kind ∧ keyMatches lib glob kind key q = true ∧
        (rules.find? fun r => decide (r.kind = kind) && r.matches lib glob q).map (·.key) =
          some key := by
    intro kind
    have hSame : (rules.find? fun r => decide (r.kind = kind) && keyMatches lib glob kind r.key q) =
        rules.find? fun r => decide (r.kind = kind) && r.matches lib glob q := by
      congr 1
      funext r
      by_cases hr : r.kind = kind
      · simp [NameRule.matches, hr]
      · simp [hr]
    rw [find?_keysOf, hSame]
    refine ⟨fun h => ?_, fun h => h.2.2⟩
    have hFind := h
    rw [← hSame, ← find?_keysOf rules kind (keyMatches lib glob kind · q)] at hFind
    exact ⟨mem_of_find?_eq_some hFind, find?_some (p := (keyMatches lib glob kind · q)) hFind, h⟩
  -- the longest key
  have hLongest : ∀ kind t, (∀ k, keyMatches lib glob kind k q = true ↔ k <+: t) →
      (longestPrefix (keysOf rules kind) t = some key ↔
        key ∈ keysOf rules kind ∧ keyMatches lib glob kind key q = true ∧
          ∀ r ∈ rules, r.kind = kind → r.matches lib glob q = true →
            r.key.length ≤ key.length) := by
    intro kind t hMatch
    rw [longestPrefix_eq_some, hMatch]
    refine and_congr_right' (and_congr_right' ?_)
    constructor
    · intro h r hr hKind hMatches
      refine h r.key (mem_keysOf.mpr ⟨r, hr, hKind, rfl⟩) ((hMatch r.key).mp ?_)
      rw [← hKind]
      exact hMatches
    · intro h k hk hPrefix
      obtain ⟨r, hr, hKind, rfl⟩ := mem_keysOf.mp hk
      refine h r hr hKind ?_
      rw [NameRule.matches, hKind]
      exact (hMatch r.key).mpr hPrefix
  cases kind with
  | exactType =>
    simp only [pick, keyMatches, reduceCtorEq, or_self, false_implies, and_true, decide_eq_true_eq]
    constructor
    · intro h
      split at h
      · next hMem =>
        obtain rfl : q = key := Option.some.inj h
        exact ⟨contains_iff_mem.mp hMem, rfl⟩
      · cases h
    · rintro ⟨hMem, rfl⟩
      rw [if_pos (contains_iff_mem.mpr hMem)]
  | suffixType =>
    have h := hLongest .suffixType (lib.stringReverse q ++ ['.'.toUInt8]) (by simp [keyMatches])
    simpa [pick] using h
  | prefixType =>
    have h := hLongest .prefixType q (by simp [keyMatches])
    simpa [pick] using h
  | substringType =>
    simpa [pick, keyMatches] using hEarliest .substringType
  | patternType =>
    simpa [pick, keyMatches] using hEarliest .patternType

theorem pick_eq_none :
    pick lib glob rules q kind = none ↔
      ∀ r ∈ rules, r.kind = kind → r.matches lib glob q = false := by
  have hKeys : (∀ r ∈ rules, r.kind = kind → r.matches lib glob q = false) ↔
      ∀ k ∈ keysOf rules kind, keyMatches lib glob kind k q = false := by
    constructor
    · intro h k hk
      obtain ⟨r, hr, rfl, rfl⟩ := mem_keysOf.mp hk
      exact h r hr rfl
    · intro h r hr hKind
      rw [NameRule.matches, hKind]
      exact h r.key (mem_keysOf.mpr ⟨r, hr, hKind, rfl⟩)
  rw [hKeys]
  cases kind with
  | exactType =>
    simp only [pick, keyMatches, decide_eq_false_iff_not]
    constructor
    · intro h k hk hEq
      rw [hEq, if_pos (contains_iff_mem.mpr hk)] at h
      cases h
    · intro h
      rw [if_neg fun hMem => h q (contains_iff_mem.mp hMem) rfl]
  | suffixType => simp [pick, keyMatches, longestPrefix_eq_none]
  | prefixType => simp [pick, keyMatches, longestPrefix_eq_none]
  | substringType => simp [pick, keyMatches]
  | patternType => simp [pick, keyMatches]

/-- The first kind with a key. -/
theorem findSome?_kinds {f : PatternType → Option Bytes} :
    ([.exactType, .suffixType, .prefixType, .substringType, .patternType].findSome? fun kind =>
        (f kind).map fun key => (kind, key)) = some (kind, key) ↔
      f kind = some key ∧ ∀ other, other.rank < kind.rank → f other = none := by
  have hAll : ∀ k : PatternType,
      k ∈ [.exactType, .suffixType, .prefixType, .substringType, .patternType] := by
    intro k
    cases k <;> simp
  have hSorted : [PatternType.exactType, .suffixType, .prefixType, .substringType,
      .patternType].Pairwise (·.rank < ·.rank) := by decide
  rw [findSome?_eq_some_iff]
  constructor
  · rintro ⟨front, k, back, hSplit, hKey, hNone⟩
    obtain ⟨key', hKey, hPair⟩ := Option.map_eq_some_iff.mp hKey
    cases hPair
    refine ⟨hKey, fun other hRank => ?_⟩
    have hOther := hAll other
    rw [hSplit] at hSorted hOther
    obtain ⟨_, hBack, _⟩ := pairwise_append.mp hSorted
    rcases mem_append.mp hOther with hOther | hOther
    · exact Option.map_eq_none_iff.mp (hNone other hOther)
    · rcases mem_cons.mp hOther with rfl | hOther
      · omega
      · have := (pairwise_cons.mp hBack).1 other hOther
        omega
  · rintro ⟨hKey, hNone⟩
    obtain ⟨front, back, hSplit⟩ := append_of_mem (hAll kind)
    rw [hSplit] at hSorted
    refine ⟨front, kind, back, hSplit, by rw [hKey]; rfl, fun other hOther => ?_⟩
    rw [hNone other ((pairwise_append.mp hSorted).2.2 other hOther kind (by simp))]
    rfl

variable (lib glob) in
/-- The rule that is reported: no rule of an earlier kind matches; of the suffixes
and prefixes it is the longest, of the substrings and globs the oldest. -/
structure Chosen (rules : List (NameRule W)) (q : Bytes) (kind : PatternType) (key : Bytes) :
    Prop where
  mem : key ∈ keysOf rules kind
  hit : keyMatches lib glob kind key q = true
  rank_le : ∀ r ∈ rules, r.matches lib glob q = true → kind.rank ≤ r.kind.rank
  longest : kind = .suffixType ∨ kind = .prefixType → ∀ r ∈ rules, r.kind = kind →
    r.matches lib glob q = true → r.key.length ≤ key.length
  earliest : kind = .substringType ∨ kind = .patternType →
    (rules.find? fun r => decide (r.kind = kind) && r.matches lib glob q).map (·.key) = some key

theorem select_eq_some (hLong : 2 ≤ q.length) :
    select lib glob rules q = some (kind, key) ↔ Chosen lib glob rules q kind key := by
  rw [select, if_neg (by omega), findSome?_kinds, pick_eq_some]
  simp only [pick_eq_none]
  constructor
  · rintro ⟨⟨hMem, hHit, hLongest, hEarliest⟩, hLower⟩
    refine ⟨hMem, hHit, fun r hr hMatch => ?_, hLongest, hEarliest⟩
    by_contra hRank
    have := hLower r.kind (Nat.lt_of_not_le hRank) r hr rfl
    rw [hMatch] at this
    cases this
  · intro h
    refine ⟨⟨h.mem, h.hit, h.longest, h.earliest⟩, fun other hOther r hr hKind => ?_⟩
    cases hMatch : r.matches lib glob q with
    | false => rfl
    | true =>
      have hRank := h.rank_le r hr hMatch
      rw [hKind] at hRank
      omega

theorem select_eq_none (hLong : 2 ≤ q.length) :
    select lib glob rules q = none ↔ ∀ r ∈ rules, r.matches lib glob q = false := by
  rw [select, if_neg (by omega), findSome?_eq_none_iff]
  simp only [Option.map_eq_none_iff, pick_eq_none]
  constructor
  · intro h r hr
    refine h r.kind ?_ r hr rfl
    cases r.kind <;> simp
  · exact fun h kind _ r hr _ => h r hr

theorem select_isSome (hLong : 2 ≤ q.length) :
    (select lib glob rules q).isSome = true ↔ ∃ r ∈ rules, r.matches lib glob q = true := by
  rw [← not_iff_not, Option.not_isSome_iff_eq_none, select_eq_none hLong]
  simp only [not_exists, not_and, Bool.not_eq_true]

/-! ### The rule whose value is returned -/

/-- Of the rules with a key a trie keeps the first, a map the last. -/
def NotReplaced (before : List (NameRule W)) (r : NameRule W) (after : List (NameRule W)) : Prop :=
  ∀ o ∈ (if r.kind = .suffixType ∨ r.kind = .prefixType then before else after),
    ¬ (o.kind = r.kind ∧ o.key = r.key)

theorem NameRule.not_is_iff {r : NameRule W} :
    (!NameRule.is kind key r) = true ↔ ¬ (r.kind = kind ∧ r.key = key) := by
  rw [NameRule.is, Bool.not_eq_true', decide_eq_false_iff_not]

theorem NotReplaced.stored_eq {before after : List (NameRule W)} {r : NameRule W}
    (h : NotReplaced before r after) : stored (before ++ r :: after) r.kind r.key = r.val := by
  unfold NotReplaced at h
  have hSelf : NameRule.is r.kind r.key r = true := by simp [NameRule.is]
  by_cases hTrie : r.kind = .suffixType ∨ r.kind = .prefixType
  · rw [if_pos hTrie] at h
    have hFind : (before ++ r :: after).find? (NameRule.is r.kind r.key) = some r := by
      refine find?_eq_some_iff_append.mpr ⟨hSelf, before, after, rfl, fun o ho => ?_⟩
      exact NameRule.not_is_iff.mpr (h o ho)
    rw [stored_trie hTrie, firstVal, hFind]
    rfl
  · rw [if_neg hTrie] at h
    have hFind : (before ++ r :: after).reverse.find? (NameRule.is r.kind r.key) = some r := by
      refine find?_eq_some_iff_append.mpr ⟨hSelf, after.reverse, before.reverse, by simp, ?_⟩
      intro o ho
      exact NameRule.not_is_iff.mpr (h o (mem_reverse.mp ho))
    rw [stored_map hTrie, lastVal, hFind]
    rfl

theorem exists_notReplaced (hMem : key ∈ keysOf rules kind) :
    ∃ before r after, rules = before ++ r :: after ∧ r.kind = kind ∧ r.key = key ∧
      NotReplaced before r after := by
  obtain ⟨r₀, hr₀, hr₀Kind, hr₀Key⟩ := mem_keysOf.mp hMem
  have hIs : NameRule.is kind key r₀ = true := by simp [NameRule.is, hr₀Kind, hr₀Key]
  by_cases hTrie : kind = .suffixType ∨ kind = .prefixType
  · obtain ⟨r, hr⟩ := Option.isSome_iff_exists.mp (find?_isSome.mpr ⟨r₀, hr₀, hIs⟩)
    obtain ⟨hr, before, after, hSplit, hBefore⟩ := find?_eq_some_iff_append.mp hr
    obtain ⟨rfl, rfl⟩ : r.kind = kind ∧ r.key = key := by simpa [NameRule.is] using hr
    refine ⟨before, r, after, hSplit, rfl, rfl, ?_⟩
    rw [NotReplaced, if_pos hTrie]
    exact fun o ho => NameRule.not_is_iff.mp (hBefore o ho)
  · obtain ⟨r, hr⟩ := Option.isSome_iff_exists.mp
      (find?_isSome.mpr ⟨r₀, mem_reverse.mpr hr₀, hIs⟩)
    obtain ⟨hr, after, before, hSplit, hAfter⟩ := find?_eq_some_iff_append.mp hr
    obtain ⟨rfl, rfl⟩ : r.kind = kind ∧ r.key = key := by simpa [NameRule.is] using hr
    refine ⟨before.reverse, r, after.reverse, ?_, rfl, rfl, ?_⟩
    · rw [← reverse_reverse rules, hSplit]
      simp
    · rw [NotReplaced, if_neg hTrie]
      intro o ho
      exact NameRule.not_is_iff.mp (hAfter o (mem_reverse.mp ho))

variable (lib glob) in
/-- The rule that `Eval` reports, at its place among the others. -/
structure InCharge (q : Bytes) (before : List (NameRule W)) (r : NameRule W)
    (after : List (NameRule W)) : Prop where
  long : 2 ≤ q.length
  chosen : Chosen lib glob (before ++ r :: after) q r.kind r.key
  kept : NotReplaced before r after

variable (lib glob) in
/-- The rule in charge of a name has a property. -/
def TopRule (q : Bytes) (rules : List (NameRule W)) (p : NameRule W → Prop) : Prop :=
  ∃ before r after, rules = before ++ r :: after ∧ InCharge lib glob q before r after ∧ p r

theorem length_of_select {c : PatternType × Bytes} (h : select lib glob rules q = some c) :
    2 ≤ q.length := by
  by_contra hShort
  rw [select, if_pos (by omega)] at h
  cases h

theorem topRule_iff {p : NameRule W → Prop} :
    TopRule lib glob q rules p ↔ ∃ kind key, select lib glob rules q = some (kind, key) ∧
        p { kind, key, val := stored rules kind key } := by
  constructor
  · rintro ⟨before, r, after, rfl, hCharge, hp⟩
    refine ⟨r.kind, r.key, (select_eq_some hCharge.long).mpr hCharge.chosen, ?_⟩
    rw [hCharge.kept.stored_eq]
    exact hp
  · rintro ⟨kind, key, hSelect, hp⟩
    have hLong := length_of_select hSelect
    have hChosen := (select_eq_some hLong).mp hSelect
    obtain ⟨before, r, after, rfl, rfl, rfl, hKept⟩ := exists_notReplaced hChosen.mem
    rw [hKept.stored_eq] at hp
    exact ⟨before, r, after, rfl, ⟨hLong, hChosen, hKept⟩, hp⟩

theorem eval_eq_some (hSep : Separate rules) {reason : Bytes} {val : Option W} :
    (matcherOf rules).eval lib glob q = some (reason, val) ↔
      TopRule lib glob q rules fun r => reason = reasonFor lib r.kind r.key ∧ val = r.val := by
  rw [eval_matcherOf hSep, topRule_iff, Option.map_eq_some_iff]
  constructor
  · rintro ⟨⟨kind, key⟩, hSelect, hPair⟩
    cases hPair
    exact ⟨kind, key, hSelect, rfl, rfl⟩
  · rintro ⟨kind, key, hSelect, rfl, rfl⟩
    exact ⟨(kind, key), hSelect, rfl⟩

/-- There is one rule in charge. -/
theorem TopRule.and {p p' : NameRule W → Prop} (h : TopRule lib glob q rules p)
    (h' : TopRule lib glob q rules p') : TopRule lib glob q rules fun r => p r ∧ p' r := by
  rw [topRule_iff] at h h' ⊢
  obtain ⟨kind, key, hSelect, hp⟩ := h
  obtain ⟨kind', key', hSelect', hp'⟩ := h'
  rw [hSelect] at hSelect'
  cases hSelect'
  exact ⟨kind, key, hSelect, hp, hp'⟩

theorem topRule_true (hLong : 2 ≤ q.length) :
    TopRule lib glob q rules (fun _ => True) ↔ ∃ r ∈ rules, r.matches lib glob q = true := by
  rw [topRule_iff, ← select_isSome hLong, Option.isSome_iff_exists]
  exact ⟨fun ⟨kind, key, h, _⟩ => ⟨(kind, key), h⟩, fun ⟨(kind, key), h⟩ => ⟨kind, key, h, trivial⟩⟩

theorem TopRule.imp {p p' : NameRule W → Prop} (h : TopRule lib glob q rules p)
    (hImp : ∀ r, p r → p' r) : TopRule lib glob q rules p' := by
  obtain ⟨before, r, after, hRules, hCharge, hp⟩ := h
  exact ⟨before, r, after, hRules, hCharge, hImp r hp⟩

theorem TopRule.exists_mem {p : NameRule W → Prop} (h : TopRule lib glob q rules p) :
    ∃ r ∈ rules, r.matches lib glob q = true ∧ p r := by
  obtain ⟨before, r, after, rfl, hCharge, hp⟩ := h
  exact ⟨r, by simp, hCharge.chosen.hit, hp⟩

/-- A rule with another kind or key than the reported one can be taken away. -/
theorem select_remove {front back : List (NameRule W)} {r : NameRule W}
    (hSelect : select lib glob (front ++ r :: back) q = some (kind, key))
    (hNe : ¬ (r.kind = kind ∧ r.key = key)) :
    select lib glob (front ++ back) q = some (kind, key) ∧
      stored (front ++ r :: back) kind key = stored (front ++ back) kind key := by
  have hLong := length_of_select hSelect
  have hSub : ∀ o ∈ front ++ back, o ∈ front ++ r :: back :=
    (List.Sublist.append_left (sublist_cons_self r back) front).subset
  -- a search that passes over the rule finds the same without it
  have hFind : ∀ (front back : List (NameRule W)) (p : NameRule W → Bool), p r = false →
      (front ++ r :: back).find? p = (front ++ back).find? p := by
    intro front back p hp
    rw [find?_append, find?_append, find?_cons_of_neg (by simp [hp])]
  have hChosen := (select_eq_some hLong).mp hSelect
  constructor
  · refine (select_eq_some hLong).mpr ⟨?_, hChosen.hit, ?_, ?_, ?_⟩
    · obtain ⟨o, ho, hKind, hKey⟩ := mem_keysOf.mp hChosen.mem
      refine mem_keysOf.mpr ⟨o, ?_, hKind, hKey⟩
      rcases mem_append.mp ho with ho | ho
      · exact mem_append_left _ ho
      · rcases mem_cons.mp ho with rfl | ho
        · exact absurd ⟨hKind, hKey⟩ hNe
        · exact mem_append_right _ ho
    · exact fun o ho => hChosen.rank_le o (hSub o ho)
    · exact fun hKind o ho => hChosen.longest hKind o (hSub o ho)
    · intro hKind
      have hEarliest := hChosen.earliest hKind
      rw [find?_append] at hEarliest ⊢
      cases hFront : front.find? fun r => decide (r.kind = kind) && r.matches lib glob q with
      | some o =>
        rw [hFront] at hEarliest
        exact hEarliest
      | none =>
        rw [hFront, Option.none_or, find?_cons] at hEarliest
        split at hEarliest
        -- were it the rule itself, its kind and key would be the reported ones
        · next hSelf =>
          simp only [Bool.and_eq_true, decide_eq_true_eq] at hSelf
          exact absurd ⟨hSelf.1, Option.some.inj hEarliest⟩ hNe
        · exact hEarliest
  · have hIs : NameRule.is kind key r = false := by
      rw [NameRule.is, decide_eq_false_iff_not]
      exact hNe
    by_cases hTrie : kind = .suffixType ∨ kind = .prefixType
    · rw [stored_trie hTrie, stored_trie hTrie, firstVal, hFind _ _ _ hIs, firstVal]
    · rw [stored_map hTrie, stored_map hTrie, lastVal, lastVal, reverse_append,
        reverse_cons, append_assoc, singleton_append, hFind _ _ _ hIs,
        reverse_append]

/-- A rule that is in charge stays so without a rule of another kind or key. -/
theorem TopRule.remove {front back : List (NameRule W)} {r : NameRule W} {p : NameRule W → Prop}
    (h : TopRule lib glob q (front ++ r :: back) fun x =>
      ¬ (r.kind = x.kind ∧ r.key = x.key) ∧ p x) :
    TopRule lib glob q (front ++ back) p := by
  rw [topRule_iff] at h ⊢
  obtain ⟨kind, key, hSelect, hNe, hp⟩ := h
  obtain ⟨hSelect', hStored⟩ := select_remove hSelect hNe
  rw [hStored] at hp
  exact ⟨kind, key, hSelect', hp⟩

end Select

end DnscryptProxy
