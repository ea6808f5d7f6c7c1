import DnscryptProxy.Rules.IpRules
import DnscryptProxy.Rules.PatternText

/-!
# The name blocklist and its schedules

`BlockedNames.check` of `plugin_block_name.go` and `WeeklyRanges.Match` of
`time_ranges.go`. The matcher returns one rule, and only the schedule of that
rule is looked at.

* `blocks_iff` — a name is blocked iff the rule in charge of it is active;
* `block_rules_monotone_iff` — when that is the same as any matching rule being
  active, and when one more rule keeps a name blocked;
* `schedule_unblocks` — a rule that is not active takes a name from an
  unconditional one, and so does an unconditional rule that is put first.
-/

namespace DnscryptProxy

open Base List Option

/-! ## Schedules -/

/-- Seconds of a day, from and to. -/
structure TimeRange where
  after : Int
  before : Int
deriving Repr, DecidableEq

/-- `WeeklyRanges`: the ranges of each day, from Sunday. -/
structure WeeklyRanges where
  ranges : Fin 7 → List TimeRange

/-- What `Match` reads from the local clock. -/
structure LocalTime where
  weekday : Fin 7
  hour : Nat
  min : Nat
deriving Repr, DecidableEq

/-- A range that begins after it ends goes on over midnight. -/
def TimeRange.contains (nowX : Int) (timeRange : TimeRange) : Bool :=
  if timeRange.after > timeRange.before then
    decide (nowX ≥ timeRange.after ∨ nowX ≤ timeRange.before)
  else decide (nowX ≥ timeRange.after ∧ nowX ≤ timeRange.before)

/-- `WeeklyRanges.Match`. -/
def WeeklyRanges.matchAt (now : LocalTime) (weeklyRanges : WeeklyRanges) : Bool :=
  let weeklyRange := weeklyRanges.ranges now.weekday
  if weeklyRange.length = 0 then false
  else weeklyRange.any (TimeRange.contains ((now.hour * 60 + now.min) * 60))

/-! ## The plugin -/

/-- What becomes of the log line of a blocked name. -/
inductive BlockLog where
  | noLogger
  /-- the client has no address: a sub-query of the proxy itself -/
  | internalFlow
  | written (err : Option GoError)
deriving Repr, DecidableEq

section Check

variable (lib : TextLib) (glob : Bytes → Bytes → Bool) (now : LocalTime)

/-- What `check` makes of the rule that `Eval` returns; one without a schedule
has a nil pointer. -/
def rejectNow : Option (Bytes × Option WeeklyRanges) → Bool
  | none => false
  | some (_, none) => true
  | some (_, some weeklyRanges) => weeklyRanges.matchAt now

variable (m : PatternMatcher WeeklyRanges) (log : BlockLog) (ps : PluginsState)

/-- `BlockedNames.check`. -/
def checkBlockedNames (qName : Bytes) : PluginsState × Bool × Option GoError :=
  if !rejectNow now (m.eval lib glob qName) then (ps, false, none)
  else
    let ps := { ps with action := .reject, returnCode := .reject }
    match log with
    | .noLogger => (ps, true, none)
    | .internalFlow => (ps, false, none)
    | .written (some err) => (ps, false, some err)
    | .written none => (ps, true, none)

/-- `PluginBlockName.Eval`. -/
def evalBlockName : PluginsState × Option GoError :=
  if ps.whitelisted then (ps, none)
  else
    let r := checkBlockedNames lib glob now m log ps ps.qName
    (r.1, r.2.2)

variable (allWeeklyRanges : Bytes → Option WeeklyRanges)

/-- A query for the name is rejected under the rules of these lines. -/
def blocks (log : BlockLog) (lines : List (Nat × Bytes)) (q : Bytes) : Bool :=
  decide ((evalBlockName lib glob now ((pluginBlockName lib allWeeklyRanges).partAfter lines ())
    log { newSession with qName := q }).1.action = .reject)

end Check

/-! ## Rules -/

variable {W : Type} (lib : TextLib) (allWeeklyRanges : Bytes → Option W)

/-- The rule of a line, if it has no error. -/
def blockRuleOf (line : Nat × Bytes) : Option (NameRule W) :=
  match parseTimeBasedRule lib allWeeklyRanges line.2 line.1 with
  | .error _ => none
  | .ok (rulePart, weeklyRanges) =>
    AddCall.rule? lib { pattern := rulePart, val := weeklyRanges, position := line.1 + 1 }

variable (lines : List (Nat × Bytes))

def blockRules : List (NameRule W) :=
  lines.filterMap (blockRuleOf lib allWeeklyRanges)

/-- A rule without a schedule, or with one that holds now. -/
def NameRule.Active (now : LocalTime) (r : NameRule WeeklyRanges) : Prop :=
  ∀ weeklyRanges, r.val = some weeklyRanges → weeklyRanges.matchAt now = true

theorem addNameRule_eq (m : PatternMatcher W) (line : Nat × Bytes) :
    addNameRule lib allWeeklyRanges m line = match blockRuleOf lib allWeeklyRanges line with
      | none => m
      | some r => m.insert r.kind r.key r.val := by
  unfold addNameRule blockRuleOf
  cases parseTimeBasedRule lib allWeeklyRanges line.2 line.1 with
  | error e => rfl
  | ok rule =>
    obtain ⟨rulePart, weeklyRanges⟩ := rule
    dsimp only
    rw [PatternMatcher.add_eq, AddCall.rule?]
    cases patternKey lib rulePart (line.1 + 1) <;> rfl

theorem blockRules_concat (line : Nat × Bytes) : blockRules lib allWeeklyRanges (lines ++ [line]) =
      blockRules lib allWeeklyRanges lines ++ (blockRuleOf lib allWeeklyRanges line).toList := by
  rw [blockRules, filterMap_append, filterMap_cons, filterMap_nil]
  cases blockRuleOf lib allWeeklyRanges line <;> rfl

theorem blockRules_cons (line : Nat × Bytes) (lines : List (Nat × Bytes)) :
    blockRules lib allWeeklyRanges (line :: lines) =
      (blockRuleOf lib allWeeklyRanges line).toList ++ blockRules lib allWeeklyRanges lines := by
  rw [blockRules, filterMap_cons]
  cases blockRuleOf lib allWeeklyRanges line <;> rfl

theorem loadRules_eq : (pluginBlockName lib allWeeklyRanges).partAfter lines () =
      matcherOf (blockRules lib allWeeklyRanges lines) := by
  induction lines using reverseRecOn with
  | nil => rfl
  | append_singleton lines line ih =>
    rw [RulePlugin.partAfter_concat, ih, blockRules_concat]
    show addNameRule lib allWeeklyRanges _ line = _
    rw [addNameRule_eq]
    cases blockRuleOf lib allWeeklyRanges line with
    | none => rw [toList_none, append_nil]
    | some r => exact (matcherOf_concat _ r).symm

theorem separate_blockRules {W : Type} {lib : TextLib} (hLib : lib.Lawful)
    (allWeeklyRanges : Bytes → Option W) (lines : List (Nat × Bytes)) :
    Separate (blockRules lib allWeeklyRanges lines) := by
  refine separate_rules hLib fun r hr => ?_
  obtain ⟨line, -, hLine⟩ := mem_filterMap.mp hr
  unfold blockRuleOf at hLine
  split at hLine
  · cases hLine
  · exact ⟨_, hLine⟩

section Blocks

variable {lib : TextLib} {glob : Bytes → Bytes → Bool} {now : LocalTime}
  {allWeeklyRanges : Bytes → Option WeeklyRanges} {log : BlockLog} {lines : List (Nat × Bytes)}
  {q : Bytes}

/-- The log has no say in it. -/
theorem checkBlockedNames_fst (m : PatternMatcher WeeklyRanges) (ps : PluginsState) :
    (checkBlockedNames lib glob now m log ps q).1 = if rejectNow now (m.eval lib glob q) then
        { ps with action := .reject, returnCode := .reject }
      else ps := by
  unfold checkBlockedNames
  cases rejectNow now (m.eval lib glob q) with
  | false => rfl
  | true =>
    match log with
    | .noLogger => rfl
    | .internalFlow => rfl
    | .written (some _) => rfl
    | .written none => rfl

theorem blocks_eq : blocks lib glob now allWeeklyRanges log lines q =
    rejectNow now ((matcherOf (blockRules lib allWeeklyRanges lines)).eval lib glob q) := by
  have hEval : ∀ m, evalBlockName lib glob now m log { newSession with qName := q } =
      ((checkBlockedNames lib glob now m log { newSession with qName := q } q).1,
        (checkBlockedNames lib glob now m log { newSession with qName := q } q).2.2) :=
    fun _ => rfl
  rw [blocks, hEval, checkBlockedNames_fst, loadRules_eq]
  cases rejectNow now ((matcherOf (blockRules lib allWeeklyRanges lines)).eval lib glob q) <;> rfl

theorem blocks_iff (hLib : lib.Lawful) :
    blocks lib glob now allWeeklyRanges log lines q = true ↔
      TopRule lib glob q (blockRules lib allWeeklyRanges lines) (·.Active now) := by
  have hSep := separate_blockRules hLib allWeeklyRanges lines
  rw [blocks_eq]
  constructor
  · intro h
    cases hEval : (matcherOf (blockRules lib allWeeklyRanges lines)).eval lib glob q with
    | none =>
      rw [hEval] at h
      cases h
    | some found =>
      refine ((eval_eq_some hSep).mp hEval).imp fun r hr weeklyRanges hSome => ?_
      rw [hEval, show found = (found.1, found.2) from rfl, hr.2, hSome] at h
      exact h
  · rintro ⟨before, r, after, hRules, hCharge, hActive⟩
    rw [(eval_eq_some hSep).mpr ⟨before, r, after, hRules, hCharge, rfl, rfl⟩]
    cases hVal : r.val with
    | none => rfl
    | some weeklyRanges => exact hActive weeklyRanges hVal

end Blocks

/-! ## One more rule -/

section Monotone

variable (lib : TextLib) (glob : Bytes → Bytes → Bool) (now : LocalTime) (q : Bytes)

/-- Some rule that matches the name is active. -/
def AnyActive (rules : List (NameRule WeeklyRanges)) : Prop :=
  ∃ r ∈ rules, r.matches lib glob q = true ∧ r.Active now

/-- The rule in charge has the kind and the key of the rule, and is not active. -/
def TakesOver (r : NameRule WeeklyRanges) (rules : List (NameRule WeeklyRanges)) : Prop :=
  TopRule lib glob q rules fun x => (r.kind = x.kind ∧ r.key = x.key) ∧ ¬ x.Active now

variable {lib glob now q}

theorem TopRule.not_both {rules : List (NameRule WeeklyRanges)}
    (h : TopRule lib glob q rules (·.Active now)) :
    ¬ TopRule lib glob q rules (¬ ·.Active now) := by
  intro h'
  obtain ⟨r, -, -, hActive, hNot⟩ := (h.and h').exists_mem
  exact hNot hActive

/-- Any rule that matches and is active blocks the name, unless the name is too
short or another rule is in charge of it. -/
theorem anyActive_iff (rules : List (NameRule WeeklyRanges)) :
    (TopRule lib glob q rules (·.Active now) ↔ AnyActive lib glob now q rules) ↔
      ¬ (AnyActive lib glob now q rules ∧
        (q.length < 2 ∨ TopRule lib glob q rules (¬ ·.Active now))) := by
  constructor
  · rintro h ⟨hAny, hShort | hNot⟩
    · obtain ⟨before, r, after, -, hCharge, -⟩ := h.mpr hAny
      have := hCharge.long
      omega
    · exact (h.mpr hAny).not_both hNot
  · intro h
    refine ⟨TopRule.exists_mem, fun hAny => ?_⟩
    have hLong : 2 ≤ q.length := by
      by_contra hShort
      exact h ⟨hAny, .inl (by omega)⟩
    obtain ⟨before, x, after, hRules, hCharge, -⟩ :=
      (topRule_true hLong).mpr (hAny.imp fun _ hr => ⟨hr.1, hr.2.1⟩)
    refine ⟨before, x, after, hRules, hCharge, ?_⟩
    by_contra hNot
    exact h ⟨hAny, .inr ⟨before, x, after, hRules, hCharge, hNot⟩⟩

/-- A rule that is put among others keeps a name blocked, unless it takes over. -/
theorem topRule_insert_iff (front back : List (NameRule WeeklyRanges))
    (r : NameRule WeeklyRanges) :
    (TopRule lib glob q (front ++ back) (·.Active now) →
        TopRule lib glob q (front ++ r :: back) (·.Active now)) ↔
      ¬ (TopRule lib glob q (front ++ back) (·.Active now) ∧
        TakesOver lib glob now q r (front ++ r :: back)) := by
  constructor
  · rintro h ⟨hActive, hOver⟩
    exact (h hActive).not_both (hOver.imp fun _ hx => hx.2)
  · intro h hActive
    obtain ⟨o, ho, hMatch, -⟩ := hActive.exists_mem
    have hLong : 2 ≤ q.length := by
      obtain ⟨_, _, _, -, hCharge, -⟩ := hActive
      exact hCharge.long
    have hMem : o ∈ front ++ r :: back := by
      rcases mem_append.mp ho with ho | ho
      · exact mem_append_left _ ho
      · exact mem_append_right _ (mem_cons_of_mem _ ho)
    obtain ⟨before, x, after, hRules, hCharge, -⟩ := (topRule_true hLong).mpr ⟨o, hMem, hMatch⟩
    -- the rule in charge is active, or it is the new one, or it was in charge before
    by_contra hNot
    have hx : ¬ x.Active now := fun hx => hNot ⟨before, x, after, hRules, hCharge, hx⟩
    by_cases hSame : r.kind = x.kind ∧ r.key = x.key
    · exact h ⟨hActive, before, x, after, hRules, hCharge, hSame, hx⟩
    · have hRemoved : TopRule lib glob q (front ++ back) (¬ ·.Active now) :=
        TopRule.remove ⟨before, x, after, hRules, hCharge, hSame, hx⟩
      exact hActive.not_both hRemoved

variable {allWeeklyRanges : Bytes → Option WeeklyRanges}

/-- Blocking is what any active rule would do iff the rule in charge of a name is
not an inactive one; one more rule, at either end, keeps a name blocked iff it
does not take over with a schedule that does not hold. -/
theorem block_rules_monotone_iff (hLib : lib.Lawful) (log : BlockLog) (lines : List (Nat × Bytes))
    (line : Nat × Bytes) :
    ((blocks lib glob now allWeeklyRanges log lines q = true ↔
          AnyActive lib glob now q (blockRules lib allWeeklyRanges lines)) ↔
        ¬ (AnyActive lib glob now q (blockRules lib allWeeklyRanges lines) ∧ (q.length < 2 ∨
            TopRule lib glob q (blockRules lib allWeeklyRanges lines) (¬ ·.Active now)))) ∧
      ((blocks lib glob now allWeeklyRanges log lines q = true →
          blocks lib glob now allWeeklyRanges log (lines ++ [line]) q = true ∧
            blocks lib glob now allWeeklyRanges log (line :: lines) q = true) ↔
        ¬ (TopRule lib glob q (blockRules lib allWeeklyRanges lines) (·.Active now) ∧
          ∃ r, blockRuleOf lib allWeeklyRanges line = some r ∧
            (TakesOver lib glob now q r (blockRules lib allWeeklyRanges lines ++ [r]) ∨
              TakesOver lib glob now q r (r :: blockRules lib allWeeklyRanges lines)))) := by
  simp only [blocks_iff hLib]
  refine ⟨anyActive_iff _, ?_⟩
  rw [blockRules_concat, blockRules_cons]
  cases blockRuleOf lib allWeeklyRanges line with
  | none =>
    -- a line with an error adds nothing
    rw [toList_none, append_nil, nil_append]
    refine iff_of_true (fun h => ⟨h, h⟩) ?_
    rintro ⟨-, r, hRule, -⟩
    cases hRule
  | some r =>
    have hLast : _ ↔ ¬ (_ ∧ TakesOver lib glob now q r _) :=
      topRule_insert_iff (blockRules lib allWeeklyRanges lines) [] r
    have hFirst : _ ↔ ¬ (_ ∧ TakesOver lib glob now q r _) :=
      topRule_insert_iff [] (blockRules lib allWeeklyRanges lines) r
    rw [append_nil] at hLast
    rw [nil_append, nil_append] at hFirst
    rw [toList_some, singleton_append, imp_and, hLast, hFirst, ← not_or, ← and_or_left]
    simp only [some.injEq, exists_eq_left']

end Monotone

/-- From nine to five, from Monday to Friday. -/
def workHours : WeeklyRanges :=
  ⟨fun day => if day = 0 ∨ day = 6 then [] else [⟨9 * 3600, 17 * 3600⟩]⟩

def workRanges (name : Bytes) : Option WeeklyRanges :=
  if name = ascii "work" then some workHours else none

def sundayNoon : LocalTime := ⟨0, 12, 0⟩

/-- Rules without schedules. -/
theorem unscheduled_rules_monotone :
    blocks asciiText (fun _ _ => false) sundayNoon workRanges .noLogger
        [(0, ascii "example.com")] (ascii "www.example.com") = true ∧
      blocks asciiText (fun _ _ => false) sundayNoon workRanges .noLogger
          ([(0, ascii "example.com")] ++ [(1, ascii "=www.example.com")])
          (ascii "www.example.com") = true ∧
        blocks asciiText (fun _ _ => false) sundayNoon workRanges .noLogger
          [(1, ascii "=www.example.com"), (0, ascii "example.com")]
          (ascii "www.example.com") = true := by
  have hNone : ∀ line ∈ [(0, ascii "example.com"), (1, ascii "=www.example.com")],
      ∀ r ∈ blockRuleOf asciiText workRanges line, r.val = none := by
    decide +kernel
  refine ⟨?before, (block_rules_monotone_iff asciiText_lawful .noLogger _ _).2.mpr ?_ ?before⟩
  case before => decide +kernel
  rintro ⟨-, r, hRule, hOver⟩
  have hActive : ∀ x ∈ r :: blockRules asciiText workRanges [(0, ascii "example.com")],
      x.Active sundayNoon := by
    intro x hx weeklyRanges hVal
    refine absurd (hVal.symm.trans ?_) (some_ne_none weeklyRanges)
    rcases mem_cons.mp hx with rfl | hx
    · exact hNone _ (by simp) x hRule
    · obtain ⟨line, hLine, hx⟩ := mem_filterMap.mp hx
      exact hNone line (mem_cons.mpr (.inl (mem_singleton.mp hLine))) x hx
  rcases hOver with hOver | hOver
  · obtain ⟨x, hx, -, -, hNot⟩ := hOver.exists_mem
    exact hNot (hActive x (by simpa [or_comm] using hx))
  · obtain ⟨x, hx, -, -, hNot⟩ := hOver.exists_mem
    exact hNot (hActive x hx)

/-- On a Sunday a rule for working hours takes `www.example.com` from the rule
that blocks all of `example.com`, before or after it; and the unconditional rule
`*track*`, put first, takes `ads.track.com` from `*ads*` in favour of the last
rule with its own text. -/
theorem schedule_unblocks :
    blocks asciiText (fun _ _ => false) sundayNoon workRanges .noLogger
        [(0, ascii "example.com")] (ascii "www.example.com") = true ∧
      blocks asciiText (fun _ _ => false) sundayNoon workRanges .noLogger
        [(0, ascii "example.com"), (1, ascii "=www.example.com @work")]
        (ascii "www.example.com") = false ∧
      blocks asciiText (fun _ _ => false) sundayNoon workRanges .noLogger
        [(0, ascii "=www.example.com @work"), (1, ascii "example.com")]
        (ascii "www.example.com") = false ∧
      blocks asciiText (fun _ _ => false) sundayNoon workRanges .noLogger
        [(0, ascii "*ads*"), (1, ascii "*track* @work")] (ascii "ads.track.com") = true ∧
      blocks asciiText (fun _ _ => false) sundayNoon workRanges .noLogger
        [(0, ascii "*track*"), (1, ascii "*ads*"), (2, ascii "*track* @work")]
        (ascii "ads.track.com") = false := by
  decide +kernel

end DnscryptProxy
