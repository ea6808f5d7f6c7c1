import DnscryptProxy.Scheduler.Servers
import DnscryptProxy.Scheduler.Window
import Mathlib.Tactic.Positivity

/-!
# Rates and penalties

`buildSchedulerReportLocked` of `scheduler_observability.go`, and the ratios that
it exports and that `scoreAll` weighs. Two of the weighed ratios add two counters
of the window: whether they are rates is a matter of which flags one outcome can
carry.

* `Tallied` — a store whose epochs are tallies of outcomes with some property;
* `Tallied.snapshot` — if no outcome was truncated twice or fell back twice, every
  counter of a snapshot is at most its number of samples;
* `Tallied.unitRates` — then every ratio is in `[0, 1]` and no penalty exceeds the
  sum of the weights.
-/

namespace DnscryptProxy

open Base List Function
open scoped BigOperators

/-! ## The report -/

/-- A row of the report. The `nolog` property of the server, which nothing here
reads, is left out. -/
structure ResolverReportRow where
  name : String
  warming : Bool
  samples : Nat
  totalSamples : Nat
  p50Ms : Option ℚ
  p95Ms : Option ℚ
  p99Ms : Option ℚ
  latencyEwmaMs : ℚ
  jitterEwmaMs : ℚ
  timeoutRate : ℚ
  errorRate : ℚ
  servfailRate : ℚ
  bogusRate : ℚ
  truncatedRate : ℚ
  tcpFallbackRate : ℚ
  quicFallbackRate : ℚ
  connNewRate : ℚ
  ecsRate : ℚ
  timeoutCount : Nat
  errorCount : Nat
  servfailCount : Nat
  bogusCount : Nat
  truncatedCount : Nat
  tcpFallbackCount : Nat
  quicFallbackCount : Nat
  connNewCount : Nat
  connReusedCount : Nat
  ecsCount : Nat
  dnssec : Bool
  noFilter : Bool
  primary : Bool
  circuitOpen : Bool
  switchesTo : Nat
  score : ℚ

/-- The names of the open circuits are in the rows. -/
structure SchedulerReport where
  primaryName : String
  totalSwitches : Nat
  rows : List ResolverReportRow

/-- A counter over the samples of its window; no rate without a sample. -/
def MetricsWindow.exported (w : MetricsWindow) (n : Nat) : ℚ :=
  if 0 < w.samples then (n : ℚ) / w.samples else 0

namespace ServersInfo

variable (si : ServersInfo)

/-- The row of a candidate and its score. -/
def reportRow (now : Time) (c : ResolverCandidate) (scored : MdsScored) : ResolverReportRow :=
  let w := c.metrics.snapshot now
  { name := c.server.name
    -- the probation after a recovery is shown like the warmup
    warming := decide (c.metrics.totalSamples < si.mds.params.warmupSamples) || scored.warming
    samples := w.samples
    totalSamples := w.totalSamples
    p50Ms := c.metrics.percentile now (1 / 2)
    p95Ms := c.metrics.percentile now (95 / 100)
    p99Ms := c.metrics.percentile now (99 / 100)
    latencyEwmaMs := w.latencyEwmaMs
    jitterEwmaMs := w.jitterEwmaMs
    timeoutRate := w.exported w.timeout
    errorRate := w.exported w.errors
    servfailRate := w.exported w.servfail
    bogusRate := w.exported w.dnssecBogus
    truncatedRate := w.exported w.truncated
    tcpFallbackRate := w.exported w.tcpFallback
    quicFallbackRate := w.exported w.quicFallback
    connNewRate := w.exported w.connNew
    ecsRate := w.exported w.ecsReturned
    timeoutCount := w.timeout
    errorCount := w.errors
    servfailCount := w.servfail
    bogusCount := w.dnssecBogus
    truncatedCount := w.truncated
    tcpFallbackCount := w.tcpFallback
    quicFallbackCount := w.quicFallback
    connNewCount := w.connNew
    connReusedCount := w.connReused
    ecsCount := w.ecsReturned
    dnssec := c.server.dnssec
    noFilter := c.server.noFilter
    primary := decide (si.mds.primaryName = c.server.name)
    circuitOpen := si.mds.isOpen c.server.name
    switchesTo := si.mds.switchesByName c.server.name
    score := scored.base }

def buildSchedulerReportLocked (now : Time) : SchedulerReport :=
  { primaryName := si.mds.primaryName
    totalSwitches := si.mds.totalSwitches
    rows := (si.candidatesLocked.zip (si.mds.scoreAll now si.candidatesLocked)).map fun x =>
      si.reportRow now x.1 x.2 }

/-- Reading the metrics for a report turns the epochs of the live servers. -/
def readForReport (now : Time) : ServersInfo :=
  { si with
    metrics := fun name =>
      if name ∈ si.inner.map (·.name) then (si.metrics name).map (·.advance now)
      else si.metrics name }

end ServersInfo

/-! ## The ratios -/

/-- The ratios that `scoreAll` weighs. -/
def MetricsWindow.weighed (w : MetricsWindow) (tail : ℚ) : List ℚ :=
  let rate (n : Nat) : ℚ := (n : ℚ) / w.samples
  [rate w.timeout, rate w.errors, rate w.servfail, rate w.dnssecBogus, rate w.truncated,
    rate (w.tcpFallback + w.quicFallback), rate w.connNew,
    if 0 < tail then min 1 (w.jitterEwmaMs / tail) else 0]

/-- The weights, in the same order. -/
def MDSParams.weights (p : MDSParams) : List ℚ :=
  [p.weightTimeout, p.weightErrors, p.weightServfail, p.weightBogus, p.weightTruncated,
    p.weightFallback, p.weightConnNew, p.weightJitter]

/-- The ratios of a row. -/
def ResolverReportRow.rates (row : ResolverReportRow) : List ℚ :=
  [row.timeoutRate, row.errorRate, row.servfailRate, row.bogusRate, row.truncatedRate,
    row.tcpFallbackRate, row.quicFallbackRate, row.connNewRate, row.ecsRate]

theorem LBStrategyMDS.penalty_eq (mds : LBStrategyMDS) (w : MetricsWindow) (warming : Bool)
    (tail : ℚ) :
    mds.penalty w warming tail =
      if !warming && decide (mds.params.penaltyMinSamples ≤ w.samples) then
        (zipWith (· * ·) mds.params.weights (w.weighed tail)).sum
      else 0 := by
  unfold penalty MetricsWindow.weighed MDSParams.weights
  dsimp only
  split
  · simp only [zipWith_cons_cons, zipWith_nil_left, sum_cons, sum_nil]
    ring
  · rfl

/-- Every ratio that the scheduler weighs or reports at `now` is a rate, and no
penalty is larger than all weights together. -/
structure ServersInfo.UnitRates (si : ServersInfo) (now : Time) : Prop where
  weighed : ∀ c ∈ si.candidatesLocked, ∀ tail, ∀ r ∈ (c.metrics.snapshot now).weighed tail,
    0 ≤ r ∧ r ≤ 1
  penalty : ∀ s ∈ si.mds.scoreAll now si.candidatesLocked, s.penalty ≤ si.mds.params.weights.sum
  reported : ∀ row ∈ (si.buildSchedulerReportLocked now).rows, ∀ r ∈ row.rates, 0 ≤ r ∧ r ≤ 1

/-- The ranges of `applyMDSConfig` that matter here. -/
structure MDSParams.WeightsInRange (p : MDSParams) : Prop where
  weights : ∀ w ∈ p.weights, 0 ≤ w ∧ w ≤ 10
  penaltyMinSamples : 1 ≤ p.penaltyMinSamples

theorem defaultMDSParams_weightsInRange : defaultMDSParams.WeightsInRange :=
  ⟨by decide +kernel, by decide⟩

/-! ## Counters of a window -/

/-- No counter that becomes a ratio exceeds the samples. -/
structure MetricsWindow.Proper (w : MetricsWindow) : Prop where
  timeout : w.timeout ≤ w.samples
  errors : w.errors ≤ w.samples
  servfail : w.servfail ≤ w.samples
  dnssecBogus : w.dnssecBogus ≤ w.samples
  truncated : w.truncated ≤ w.samples
  fallback : w.tcpFallback + w.quicFallback ≤ w.samples
  connNew : w.connNew ≤ w.samples
  ecsReturned : w.ecsReturned ≤ w.samples
  jitter : 0 ≤ w.jitterEwmaMs

section Ratios

theorem ratio_mem_unit {n samples : Nat} (h : n ≤ samples) :
    0 ≤ (n : ℚ) / samples ∧ (n : ℚ) / samples ≤ 1 := by
  refine ⟨by positivity, div_le_one_of_le₀ ?_ (by positivity)⟩
  exact_mod_cast h

theorem exported_mem_unit {w : MetricsWindow} {n : Nat} (h : n ≤ w.samples) :
    0 ≤ w.exported n ∧ w.exported n ≤ 1 := by
  unfold MetricsWindow.exported
  split
  · exact ratio_mem_unit h
  · exact ⟨le_refl 0, zero_le_one⟩

theorem jitterRatio_mem_unit {jitter tail : ℚ} (hJitter : 0 ≤ jitter) :
    0 ≤ (if 0 < tail then min 1 (jitter / tail) else 0) ∧
      (if 0 < tail then min 1 (jitter / tail) else 0) ≤ 1 := by
  split
  · next hTail => exact ⟨le_min zero_le_one (by positivity), min_le_left _ _⟩
  · exact ⟨le_refl 0, zero_le_one⟩

variable {w : MetricsWindow}

theorem MetricsWindow.Proper.weighed (h : w.Proper) (tail : ℚ) :
    ∀ r ∈ w.weighed tail, 0 ≤ r ∧ r ≤ 1 := by
  unfold MetricsWindow.weighed
  simp only [forall_mem_cons]
  exact ⟨ratio_mem_unit h.timeout, ratio_mem_unit h.errors, ratio_mem_unit h.servfail,
    ratio_mem_unit h.dnssecBogus, ratio_mem_unit h.truncated, ratio_mem_unit h.fallback,
    ratio_mem_unit h.connNew, jitterRatio_mem_unit h.jitter,
    fun _ hr => (nomatch hr)⟩

theorem MetricsWindow.Proper.reported {now : Time} {c : ResolverCandidate}
    (h : (c.metrics.snapshot now).Proper) (si : ServersInfo) (scored : MdsScored) :
    ∀ r ∈ (si.reportRow now c scored).rates, 0 ≤ r ∧ r ≤ 1 := by
  -- the report has the two kinds of fallback apart
  have hTcp := (Nat.le_add_right _ _).trans h.fallback
  have hQuic := (Nat.le_add_left _ _).trans h.fallback
  unfold ResolverReportRow.rates ServersInfo.reportRow
  simp only [forall_mem_cons]
  exact ⟨exported_mem_unit h.timeout, exported_mem_unit h.errors, exported_mem_unit h.servfail,
    exported_mem_unit h.dnssecBogus, exported_mem_unit h.truncated, exported_mem_unit hTcp,
    exported_mem_unit hQuic, exported_mem_unit h.connNew, exported_mem_unit h.ecsReturned,
    fun _ hr => (nomatch hr)⟩

/-- Weights times rates add up to no more than the weights. -/
theorem zipWith_mul_sum_le {weights : List ℚ} (hWeights : ∀ w ∈ weights, 0 ≤ w) :
    ∀ {rates : List ℚ}, (∀ r ∈ rates, 0 ≤ r ∧ r ≤ 1) →
      (zipWith (· * ·) weights rates).sum ≤ weights.sum := by
  induction weights with
  | nil =>
    intro rates _
    exact le_refl 0
  | cons w ws ih =>
    rw [forall_mem_cons] at hWeights
    intro rates hRates
    cases rates with
    -- weights without a rate only make the right side larger
    | nil => exact sum_nonneg (forall_mem_cons.mpr hWeights)
    -- `w * r ≤ w`, as `r ≤ 1`
    | cons r rs =>
      rw [forall_mem_cons] at hRates
      exact add_le_add (mul_le_of_le_one_right hWeights.1 hRates.1.2) (ih hWeights.2 hRates.2)

theorem LBStrategyMDS.penalty_le {mds : LBStrategyMDS} (hParams : mds.params.WeightsInRange)
    (h : w.Proper) (warming : Bool) (tail : ℚ) :
    mds.penalty w warming tail ≤ mds.params.weights.sum := by
  have hWeights : ∀ w ∈ mds.params.weights, 0 ≤ w := fun w hw => (hParams.weights w hw).1
  rw [penalty_eq]
  split
  · exact zipWith_mul_sum_le hWeights (h.weighed tail)
  · exact sum_nonneg hWeights

end Ratios

/-! ## Stores -/

/-- Not truncated by both ends, and not after two kinds of fallback. -/
def ExchangeOutcome.CountedOnce (o : ExchangeOutcome) : Prop :=
  ¬(o.upstreamTruncated = true ∧ o.localTruncated = true) ∧
    ¬(o.tcpFallback = true ∧ o.quicFallback = true)

/-- Every epoch of the store is a tally of outcomes with `good`. -/
structure ResolverMetrics.Tallied (good : ExchangeOutcome → Prop) (m : ResolverMetrics) : Prop where
  epochs : ∀ i, ∃ os, m.epochs i = tally os ∧ ∀ o ∈ os, good o
  jitter : 0 ≤ m.jitterEwmaMs

namespace ResolverMetrics.Tallied

variable {good : ExchangeOutcome → Prop} {m : ResolverMetrics}

theorem new (window : Duration) : (newResolverMetricsWithWindow window).Tallied good :=
  ⟨fun _ => ⟨[], rfl, fun _ h => (nomatch h)⟩, le_refl 0⟩

theorem rotate (h : m.Tallied good) : m.rotate.Tallied good := by
  refine ⟨fun i => ?_, h.jitter⟩
  show ∃ os, update m.epochs (m.curEpoch + 1) newMetricsEpoch i = tally os ∧ _
  rw [update_apply]
  split
  · exact ⟨[], rfl, fun _ h => (nomatch h)⟩
  · exact h.epochs i

theorem advance (h : m.Tallied good) (now : Time) : (m.advance now).Tallied good := by
  have hTurned : ∀ n, ((ResolverMetrics.rotate)^[n] m).Tallied good := by
    intro n
    induction n with
    | zero => exact h
    | succ n ih =>
      rw [iterate_succ_apply']
      exact ih.rotate
  unfold ResolverMetrics.advance
  split
  · exact ⟨h.epochs, h.jitter⟩
  · dsimp only
    split
    · exact h
    · split
      · exact ⟨fun _ => ⟨[], rfl, fun _ h => (nomatch h)⟩, h.jitter⟩
      · exact ⟨(hTurned _).epochs, (hTurned _).jitter⟩

theorem observe (h : m.Tallied good) (now : Time) {o : ExchangeOutcome} (ho : good o) :
    (m.observe now o).Tallied good := by
  have hNow := h.advance now
  constructor
  · intro i
    show ∃ os, update (m.advance now).epochs (m.advance now).curEpoch
      (ResolverMetrics.count ((m.advance now).epochs (m.advance now).curEpoch) o o.latencyMs) i =
        tally os ∧ _
    rw [update_apply]
    split
    · obtain ⟨os, hOs, hGood⟩ := hNow.epochs (m.advance now).curEpoch
      refine ⟨os ++ [o], ?_, ?_⟩
      · rw [tally_append, ← hOs]
      · intro o' ho'
        rcases mem_append.mp ho' with hOld | hNew
        · exact hGood o' hOld
        · obtain rfl := mem_singleton.mp hNew
          exact ho
    · exact hNow.epochs i
  · have hOld := hNow.jitter
    show 0 ≤ if (m.advance now).hasLatency then _ else (m.advance now).jitterEwmaMs
    -- the moving average is a convex combination of values that are not negative
    split
    · have hRest : (0 : ℚ) ≤ 1 - 2 / 11 := by norm_num
      positivity
    · exact hOld

end ResolverMetrics.Tallied

/-- Of two flags that are never both set, each outcome is counted under one. -/
theorem countP_add_countP_le {os : List ExchangeOutcome} {f g : ExchangeOutcome → Bool}
    (h : ∀ o ∈ os, ¬(f o = true ∧ g o = true)) : os.countP f + os.countP g ≤ os.length := by
  induction os with
  | nil => exact le_refl 0
  | cons o os ih =>
    rw [forall_mem_cons] at h
    have hRest := ih h.2
    simp only [countP_cons, length_cons]
    have hHere : (if f o = true then 1 else 0) + (if g o = true then 1 else 0) ≤ 1 := by
      split <;> split <;> simp_all
    omega

namespace ResolverMetrics

variable {m : ResolverMetrics}

theorem sumEpochs_le {c c' : MetricsEpoch → Nat} (h : ∀ i, c (m.epochs i) ≤ c' (m.epochs i)) :
    m.sumEpochs c ≤ m.sumEpochs c' := by
  rw [sumEpochs_eq, sumEpochs_eq]
  exact Finset.sum_le_sum fun i _ => h i

theorem sumEpochs_add (c c' : MetricsEpoch → Nat) :
    m.sumEpochs c + m.sumEpochs c' = m.sumEpochs fun e => c e + c' e := by
  rw [sumEpochs_eq, sumEpochs_eq, sumEpochs_eq, Finset.sum_add_distrib]

end ResolverMetrics

theorem ResolverMetrics.Tallied.snapshot {m : ResolverMetrics}
    (h : m.Tallied ExchangeOutcome.CountedOnce) (now : Time) : (m.snapshot now).Proper := by
  have hNow := h.advance now
  have hTotal : ∀ os, (tally os).total = os.length := by
    intro os
    have hCounts : CountsFlag (·.total) (fun _ => true) := ⟨rfl, fun _ _ _ => rfl⟩
    rw [hCounts.tally, countP_true]
  -- one counter, for one flag
  have hOne : ∀ {c : MetricsEpoch → Nat} {f : ExchangeOutcome → Bool}, CountsFlag c f →
      (m.advance now).sumEpochs c ≤ (m.advance now).sumEpochs (·.total) := by
    intro c f hc
    refine sumEpochs_le fun i => ?_
    obtain ⟨os, hOs, -⟩ := hNow.epochs i
    rw [hOs, hc.tally, hTotal]
    exact countP_le_length
  -- two counters, for two flags that exclude each other
  have hTwo : ∀ {c c' : MetricsEpoch → Nat} {f g : ExchangeOutcome → Bool}, CountsFlag c f →
      CountsFlag c' g → (∀ o, o.CountedOnce → ¬(f o = true ∧ g o = true)) →
      (m.advance now).sumEpochs c + (m.advance now).sumEpochs c' ≤
        (m.advance now).sumEpochs (·.total) := by
    intro c c' f g hc hc' hApart
    rw [sumEpochs_add]
    refine sumEpochs_le fun i => ?_
    obtain ⟨os, hOs, hOnce⟩ := hNow.epochs i
    rw [hOs, hc.tally, hc'.tally, hTotal]
    exact countP_add_countP_le fun o ho => hApart o (hOnce o ho)
  refine
    { timeout := hOne (f := (·.timeout)) ?_
      errors := hOne (f := (·.error)) ?_
      servfail := hOne (f := (·.servfail)) ?_
      dnssecBogus := hOne (f := (·.dnssecBogus)) ?_
      truncated :=
        hTwo (f := (·.upstreamTruncated)) (g := (·.localTruncated)) ?_ ?_ fun _ h => h.1
      fallback := hTwo (f := (·.tcpFallback)) (g := (·.quicFallback)) ?_ ?_ fun _ h => h.2
      connNew := hOne (f := (!·.connReused)) ?_
      ecsReturned := hOne (f := (·.ecsReturned)) ?_
      jitter := hNow.jitter }
  all_goals exact ⟨rfl, fun _ _ _ => rfl⟩

/-! ## A registry -/

namespace ServersInfo

variable {si : ServersInfo}

/-- Every store of the registry is a tally of outcomes with `good`. -/
def Tallied (good : ExchangeOutcome → Prop) (si : ServersInfo) : Prop :=
  ∀ name m, si.metrics name = some m → m.Tallied good

theorem Tallied.metricsForLocked {good : ExchangeOutcome → Prop} (h : si.Tallied good)
    (name : String) : (si.metricsForLocked name).Tallied good := by
  unfold ServersInfo.metricsForLocked
  cases hMetrics : si.metrics name with
  | none => exact .new _
  | some m => exact h name m hMetrics

theorem Tallied.unitRates (h : si.Tallied ExchangeOutcome.CountedOnce)
    (hParams : si.mds.params.WeightsInRange) (now : Time) : si.UnitRates now := by
  have hProper : ∀ c ∈ si.candidatesLocked, (c.metrics.snapshot now).Proper := by
    intro c hc
    obtain ⟨s, -, rfl⟩ := mem_map.mp hc
    exact (h.metricsForLocked s.name).snapshot now
  constructor
  · intro c hc tail
    exact (hProper c hc).weighed tail
  · intro scored hScored
    -- normalising the latencies leaves the penalty alone
    obtain ⟨raw, hRaw, rfl⟩ := mem_map.mp hScored
    obtain ⟨c, hc, rfl⟩ := mem_map.mp hRaw
    exact LBStrategyMDS.penalty_le hParams (hProper c hc) _ _
  · intro row hRow
    obtain ⟨⟨c, scored⟩, hMem, rfl⟩ := mem_map.mp hRow
    exact (hProper c (of_mem_zip hMem).1).reported si scored

end ServersInfo

end DnscryptProxy
