import DnscryptProxy.Scheduler.Mds

/-!
# The configuration of the scheduler

`applyMDSConfig` of `config_loader.go` checks every key of the `[scheduler_mds]`
section against its range, and two pairs of keys against each other. What fails
becomes the default. A TOML float can be `nan`, which is neither less than the
lower bound nor greater than the upper one.

* `mds_config_valid_iff` — what comes out is valid exactly if no key is `nan`;
  keys that pass the checks are kept.
-/

namespace DnscryptProxy

/-! ## Keys -/

/-- A finite float of a TOML file, or its `nan`. -/
inductive TomlFloat where
  | nan
  | finite (value : ℚ)

inductive KeyKind where
  | uint | float | duration

@[reducible] def KeyKind.Value : KeyKind → Type
  | .uint => Nat
  | .float => TomlFloat
  | .duration => Duration

/-- The number that a value is; `nan` is none. -/
def KeyKind.number : {kind : KeyKind} → kind.Value → Option ℚ
  | .uint, n => some n
  | .float, .nan => none
  | .float, .finite x => some x
  | .duration, d => some d

/-- `<` of Go: no comparison with `nan` holds. -/
def KeyKind.lt {kind : KeyKind} (v w : kind.Value) : Bool :=
  (number v).any fun x => (number w).any fun y => decide (x < y)

/-- The keys of `MDSSchedulerConfig`. -/
inductive MDSKey where
  | warmupSamples | penaltyMinSamples | switchMargin | tieBand | dwell | explorationProbability
  | circuitBreakerThreshold | halfOpenInterval | metricsWindow
  | weightTimeout | weightErrors | weightServfail | weightDNSSECBogus | weightTruncated
  | weightFallback | weightConnNew | weightJitter

@[reducible] def MDSKey.kind : MDSKey → KeyKind
  | .warmupSamples | .penaltyMinSamples | .circuitBreakerThreshold => .uint
  | .dwell | .halfOpenInterval | .metricsWindow => .duration
  | _ => .float

/-- The bounds that the key is checked against. -/
def MDSKey.range : (key : MDSKey) → key.kind.Value × key.kind.Value
  | .warmupSamples | .penaltyMinSamples => (1, 10000)
  | .circuitBreakerThreshold => (1, 100)
  | .switchMargin | .explorationProbability => (.finite 0, .finite 1)
  | .tieBand => (.finite 0, .finite (1 / 2))
  | .dwell => (0, 3600 * Second)
  | .halfOpenInterval => (Second, 3600 * Second)
  | .metricsWindow => (30 * Second, 1800 * Second)
  | .weightTimeout | .weightErrors | .weightServfail | .weightDNSSECBogus | .weightTruncated
  | .weightFallback | .weightConnNew | .weightJitter => (.finite 0, .finite 10)

/-- `MDSParams` and the window. -/
abbrev MDSSettings : Type := (key : MDSKey) → key.kind.Value

def MDSParams.settings (p : MDSParams) (window : Duration) : MDSSettings
  | .warmupSamples => p.warmupSamples
  | .penaltyMinSamples => p.penaltyMinSamples
  | .switchMargin => .finite p.switchMargin
  | .tieBand => .finite p.tieBand
  | .dwell => p.dwell
  | .explorationProbability => .finite p.exploreProb
  | .circuitBreakerThreshold => p.breakerThreshold
  | .halfOpenInterval => p.halfOpenInterval
  | .metricsWindow => window
  | .weightTimeout => .finite p.weightTimeout
  | .weightErrors => .finite p.weightErrors
  | .weightServfail => .finite p.weightServfail
  | .weightDNSSECBogus => .finite p.weightBogus
  | .weightTruncated => .finite p.weightTruncated
  | .weightFallback => .finite p.weightFallback
  | .weightConnNew => .finite p.weightConnNew
  | .weightJitter => .finite p.weightJitter

/-- What the keys are before the section is read. -/
def defaultSettings : MDSSettings := defaultMDSParams.settings metricsWindow

/-- What the section says of each key. A text that `time.ParseDuration` refuses is
`none`, as an absent key is; a negative integer does not decode. -/
abbrev MDSSchedulerConfig : Type := (key : MDSKey) → Option key.kind.Value

/-! ## The checks -/

open KeyKind

namespace MDSSchedulerConfig

variable (cfg : MDSSchedulerConfig)

/-- `floatInRange`, `durationInRange` and the checks of the integers. -/
def inRange : MDSSettings := fun key =>
  match cfg key with
  | none => defaultSettings key
  | some v =>
    if lt v key.range.1 || lt key.range.2 v then defaultSettings key else v

/-- The key belongs to a pair whose values are in the wrong order. -/
def pairFails : MDSKey → Bool
  | .warmupSamples | .penaltyMinSamples =>
    lt (inRange cfg .warmupSamples) (inRange cfg .penaltyMinSamples)
  | .switchMargin | .tieBand => lt (inRange cfg .switchMargin) (inRange cfg .tieBand)
  | _ => false

def applyMDSConfig : MDSSettings := fun key =>
  if pairFails cfg key then defaultSettings key else inRange cfg key

end MDSSchedulerConfig

/-! ## Valid settings -/

section Valid

variable {kind : KeyKind} {v w : kind.Value} {x y : ℚ}

/-- Both are numbers, and the first is at most the second. -/
def KeyKind.AtMost (v w : kind.Value) : Prop :=
  ∃ x y, number v = some x ∧ number w = some y ∧ x ≤ y

theorem KeyKind.atMost_of_not_lt (hv : number v = some x) (hw : number w = some y)
    (h : lt v w = false) : AtMost w v :=
  ⟨y, x, hw, hv, not_lt.mp (by simpa [lt, hv, hw] using h)⟩

theorem KeyKind.lt_nan (h : number v = none) : lt v w = false ∧ lt w v = false := by
  simp [lt, h]

/-- Two numbers in the wrong order give way to two in the right one. -/
theorem KeyKind.atMost_ite {d e a b : kind.Value} (hDefault : AtMost d e) (hv : AtMost v a)
    (hw : AtMost w b) : AtMost (if lt w v then d else v) (if lt w v then e else w) := by
  obtain ⟨_, _, hx, -⟩ := hv
  obtain ⟨_, _, hy, -⟩ := hw
  cases hLt : lt w v with
  | true => exact hDefault
  | false => exact atMost_of_not_lt hy hx hLt

end Valid

/-- The value is a number within the bounds of the key. -/
def MDSKey.Allows (key : MDSKey) (v : key.kind.Value) : Prop :=
  AtMost key.range.1 v ∧ AtMost v key.range.2

structure MDSSettings.Valid (settings : MDSSettings) : Prop where
  allows : ∀ key : MDSKey, key.Allows (settings key)
  samples : AtMost (settings .penaltyMinSamples) (settings .warmupSamples)
  margins : AtMost (settings .tieBand) (settings .switchMargin)

/-- Neither `scoreAll` nor `advanceLocked` divides by zero. -/
structure MDSSettings.Divides (settings : MDSSettings) : Prop where
  samples : ∀ w : MetricsWindow, settings .penaltyMinSamples ≤ w.samples → w.samples ≠ 0
  epochDur : 0 < (newResolverMetricsWithWindow (settings .metricsWindow)).epochDur

/-- The value of the key, if it has one, is not `nan`. -/
def MDSSchedulerConfig.NumberAt (cfg : MDSSchedulerConfig) (key : MDSKey) : Prop :=
  ∀ v, cfg key = some v → number v ≠ none

/-- Keys in range, in the right order where they are paired, keep their values. -/
def MDSSchedulerConfig.Kept (cfg : MDSSchedulerConfig) (settings : MDSSettings) : Prop :=
  ∀ key v, cfg key = some v → key.Allows v → pairFails cfg key = false → settings key = v

/-- Every default passes its own check. -/
theorem allows_default (key : MDSKey) : key.Allows (defaultSettings key) := by
  cases key <;> exact ⟨⟨_, _, rfl, rfl, by decide +kernel⟩, ⟨_, _, rfl, rfl, by decide +kernel⟩⟩

theorem epochDur_pos {window : Duration} (h : 30 * Second ≤ window) :
    0 < (newResolverMetricsWithWindow window).epochDur := by
  have hPos : 0 < window := lt_of_lt_of_le (by decide) h
  show 0 < (if window ≤ 0 then metricsWindow else window).tdiv 10
  rw [if_neg (not_le.mpr hPos), Int.tdiv_eq_ediv_of_nonneg hPos.le]
  exact (Int.le_ediv_iff_mul_le (by decide)).mpr (le_trans (by decide) h)

namespace MDSSchedulerConfig

variable {cfg : MDSSchedulerConfig} {key : MDSKey}

theorem NumberAt.inRange (h : NumberAt cfg key) : key.Allows (inRange cfg key) := by
  unfold MDSSchedulerConfig.inRange
  split
  · exact allows_default key
  · next v hv =>
    split
    · exact allows_default key
    · next hIn =>
      obtain ⟨x, hx⟩ := Option.ne_none_iff_exists'.mp (h v hv)
      obtain ⟨⟨_, _, hLow, -⟩, ⟨_, _, -, hHigh, -⟩⟩ := allows_default key
      rw [Bool.or_eq_true, not_or, Bool.not_eq_true, Bool.not_eq_true] at hIn
      exact ⟨atMost_of_not_lt hx hLow hIn.1, atMost_of_not_lt hHigh hx hIn.2⟩

theorem NumberAt.applyMDSConfig (h : NumberAt cfg key) : key.Allows (applyMDSConfig cfg key) := by
  unfold MDSSchedulerConfig.applyMDSConfig
  split
  · exact allows_default key
  · exact h.inRange

/-- `nan` passes the check of its range and the check of its pair. -/
theorem applyMDSConfig_nan {v : key.kind.Value} (hv : cfg key = some v) (h : number v = none) :
    applyMDSConfig cfg key = v := by
  have hIn : inRange cfg key = v := by
    rw [inRange, hv]
    simp [lt_nan h]
  have hPair : pairFails cfg key = false := by
    cases key
    case warmupSamples | switchMargin => rw [pairFails, hIn, (lt_nan h).1]
    case penaltyMinSamples | tieBand => rw [pairFails, hIn, (lt_nan h).2]
    all_goals rfl
  rw [applyMDSConfig, hPair, hIn]
  rfl

theorem kept_applyMDSConfig : Kept cfg (applyMDSConfig cfg) := by
  rintro key v hv ⟨⟨_, _, hLow, hx, hLe⟩, ⟨_, _, hx', hHigh, hLe'⟩⟩ hPair
  cases hx.symm.trans hx'
  rw [applyMDSConfig, hPair, inRange, hv]
  simp [lt, hLow, hHigh, hx, hLe.not_gt, hLe'.not_gt]

/-- A key that is no float is always in its range. -/
theorem divides_applyMDSConfig : (applyMDSConfig cfg).Divides := by
  have hMin : NumberAt cfg .penaltyMinSamples := fun _ _ => Option.some_ne_none _
  have hWindow : NumberAt cfg .metricsWindow := fun _ _ => Option.some_ne_none _
  obtain ⟨⟨_, _, ⟨⟩, ⟨⟩, hOne⟩, -⟩ := hMin.applyMDSConfig
  obtain ⟨⟨_, _, ⟨⟩, ⟨⟩, hThirty⟩, -⟩ := hWindow.applyMDSConfig
  exact ⟨fun w hSamples => Nat.ne_of_gt ((Nat.cast_le.mp hOne).trans hSamples),
    epochDur_pos (Int.cast_le.mp hThirty)⟩

/-- The settings are valid exactly if no key is `nan`. -/
theorem mds_config_valid_iff (cfg : MDSSchedulerConfig) :
    ((applyMDSConfig cfg).Valid ↔ ∀ key, NumberAt cfg key) ∧
      (applyMDSConfig cfg).Divides ∧ Kept cfg (applyMDSConfig cfg) := by
  refine ⟨⟨fun hValid key v hv hNan => ?_, fun h => ⟨fun key => (h key).applyMDSConfig, ?_, ?_⟩⟩,
    divides_applyMDSConfig, kept_applyMDSConfig⟩
  · obtain ⟨⟨_, _, -, hNum, -⟩, -⟩ := hValid.allows key
    rw [applyMDSConfig_nan hv hNan, hNan] at hNum
    cases hNum
  · exact atMost_ite ⟨_, _, rfl, rfl, by decide +kernel⟩ (h .penaltyMinSamples).inRange.2
      (h .warmupSamples).inRange.2
  · exact atMost_ite ⟨_, _, rfl, rfl, by decide +kernel⟩ (h .tieBand).inRange.2
      (h .switchMargin).inRange.2

/-- `weight_timeout = nan` and nothing else: the weight is not a number. -/
theorem nan_weight_accepted :
    let cfg : MDSSchedulerConfig := fun
      | .weightTimeout => some .nan
      | _ => none
    applyMDSConfig cfg .weightTimeout = .nan ∧ ¬ (applyMDSConfig cfg).Valid := by
  refine ⟨rfl, fun hValid => ?_⟩
  obtain ⟨⟨_, _, -, hNum, -⟩, -⟩ := hValid.allows .weightTimeout
  cases hNum

end MDSSchedulerConfig

end DnscryptProxy
