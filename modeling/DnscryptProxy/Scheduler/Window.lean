import DnscryptProxy.Base.Epochs
import DnscryptProxy.Base.Run
import DnscryptProxy.Scheduler.Metrics

/-!
# The sliding window

The ten rotating epochs of a metric store against the history of everything it
has observed. Time is cut into epochs of `epochDur` from the first call on; the
window of a call are the outcomes of the last ten epochs.

* `tally` — what an epoch accumulates, as a function of its outcomes;
* `HoldsAt.advance` — `advanceLocked` turns the ring to the epoch of the clock, in
  one of two ways;
* `WindowInv.of_reach` — after any calls the store holds the history;
* `snapshot_eq` — `Snapshot` is the count of the window.
-/

namespace DnscryptProxy

open Base List ResolverMetrics Function Machine
open scoped BigOperators

/-! ## Outcomes of one epoch -/

/-- The latency that `Observe` files. -/
def ExchangeOutcome.latencyMs (o : ExchangeOutcome) : ℚ := max 0 ((o.duration : ℚ) / Millisecond)

/-- What counts as a success. -/
def ExchangeOutcome.isSuccess (o : ExchangeOutcome) : Bool :=
  !o.timeout && !o.error && !o.servfail && !o.dnssecBogus

/-- The accumulators of an epoch with these outcomes. -/
def tally (os : List ExchangeOutcome) : MetricsEpoch :=
  os.foldl (fun e o => count e o o.latencyMs) newMetricsEpoch

theorem tally_append (os : List ExchangeOutcome) (o : ExchangeOutcome) :
    tally (os ++ [o]) = count (tally os) o o.latencyMs := by
  simp [tally]

/-- The accumulator `c` counts the outcomes with `flag`. -/
structure CountsFlag (c : MetricsEpoch → Nat) (flag : ExchangeOutcome → Bool) : Prop where
  zero : c newMetricsEpoch = 0
  step : ∀ e o latency, c (count e o latency) = c e + if flag o then 1 else 0

theorem CountsFlag.tally {c : MetricsEpoch → Nat} {flag : ExchangeOutcome → Bool}
    (hc : CountsFlag c flag) (os : List ExchangeOutcome) : c (tally os) = os.countP flag := by
  induction os using reverseRecOn with
  | nil => exact hc.zero
  | append_singleton os o ih =>
    rw [tally_append, hc.step, ih, countP_append, countP_singleton]

/-! ## The histogram -/

theorem latencyBucketMaxMs_mem_edges (fuel : Nat) :
    ∀ v, latencyBucketMaxMs ∈ bucketEdgesFrom fuel v := by
  induction fuel with
  | zero =>
    intro v
    exact mem_singleton_self _
  | succ fuel ih =>
    intro v
    unfold bucketEdgesFrom
    split
    · exact mem_cons_of_mem _ (ih _)
    · exact mem_singleton_self _

theorem latencyBucketIndex_lt (latencyMs : ℚ) :
    latencyBucketIndex latencyMs < latencyBucketEdges.length := by
  have hMax : latencyBucketMaxMs ∈ latencyBucketEdges := latencyBucketMaxMs_mem_edges 64 _
  have hPos : 0 < latencyBucketEdges.length := length_pos_of_mem hMax
  unfold latencyBucketIndex
  split
  · exact hPos
  · split
    · omega
    · next hBelow =>
      rw [findIdx_lt_length]
      exact ⟨_, hMax, decide_eq_true (le_of_lt (not_le.mp hBelow))⟩

/-- The bucket of an outcome. -/
def ExchangeOutcome.bucket (o : ExchangeOutcome) : Fin latencyBucketEdges.length :=
  ⟨latencyBucketIndex o.latencyMs, latencyBucketIndex_lt _⟩

theorem tally_latencyBuckets (os : List ExchangeOutcome) :
    (tally os).latencyBuckets.length = latencyBucketEdges.length ∧
      ∀ b : Fin latencyBucketEdges.length, (tally os).latencyBuckets.getD b 0 =
        os.countP fun o => decide (o.bucket = b) := by
  -- outcomes are appended, so the induction takes them off at the end
  induction os using reverseRecOn with
  | nil => simp [tally, newMetricsEpoch]
  | append_singleton os o ih =>
    obtain ⟨hLen, hCount⟩ := ih
    rw [tally_append]
    refine ⟨?_, ?_⟩
    · show ((tally os).latencyBuckets.set _ _).length = _
      rw [length_set, hLen]
    · intro b
      rw [countP_append, countP_singleton, ← hCount b]
      show ((tally os).latencyBuckets.set o.bucket
        ((tally os).latencyBuckets.getD o.bucket 0 + 1)).getD b 0 = _
      -- the bucket of the new outcome goes up by one, the others stay
      by_cases hb : o.bucket = b
      · have hLt : (b : Nat) < (tally os).latencyBuckets.length := by
          rw [hLen]
          exact b.isLt
        subst hb
        simp [getD_eq_getElem?_getD, hLt]
      · have hNe : (o.bucket : Nat) ≠ b := fun h => hb (Fin.ext h)
        simp [getD_eq_getElem?_getD, hNe, hb]

/-! ## The ring of a store -/

namespace ResolverMetrics

variable {m : ResolverMetrics}

/-- The epochs of a store. -/
def ring (m : ResolverMetrics) : Ring metricsEpochCount MetricsEpoch :=
  { slots := m.epochs, cur := m.curEpoch }

theorem ring_rotate_iterate (m : ResolverMetrics) (j : Nat) :
    ((rotate)^[j] m).ring = (Ring.rotate newMetricsEpoch)^[j] m.ring := by
  induction j with
  | zero => rfl
  | succ j ih =>
    rw [iterate_succ_apply', iterate_succ_apply', ← ih]
    rfl

/-- Turning the ring touches nothing else. -/
theorem rotate_iterate_eq (m : ResolverMetrics) (j : Nat) :
    (rotate)^[j] m = { m with
      epochs := ((rotate)^[j] m).epochs, curEpoch := ((rotate)^[j] m).curEpoch } := by
  induction j with
  | zero => rfl
  | succ j ih =>
    rw [iterate_succ_apply', ih]
    rfl

theorem sumEpochs_eq (m : ResolverMetrics) (c : MetricsEpoch → Nat) :
    m.sumEpochs c = ∑ i, c (m.ring.slots i) := by
  rfl

/-- The latency histogram that `Percentile` walks over. -/
def histogram (m : ResolverMetrics) : List Nat :=
  (range latencyBucketEdges.length).map fun b =>
    m.sumEpochs fun e => e.latencyBuckets.getD b 0

/-- `Percentile` reads the histogram and the number of samples. -/
theorem percentile_eq (m : ResolverMetrics) (now : Time) (p : ℚ) :
    m.percentile now p = if (m.snapshot now).samples = 0 then none
      else
        let p := if p < 0 then 0 else if p > 1 then 1 else p
        let rank := max 1 ⌈((m.snapshot now).samples : ℚ) * p⌉.toNat
        some ((bucketAtRank rank 0 (m.advance now).histogram latencyBucketEdges).getD
          latencyBucketMaxMs) := rfl

/-- A store at epoch `k` of a clock that started at `first` holds `h`. -/
structure HoldsAt (m : ResolverMetrics) (first : Time) (k : Nat)
    (h : List (Nat × ExchangeOutcome)) : Prop where
  start : m.epochStart = some (first + k * m.epochDur)
  ring : m.ring.Holds tally k h

/-- The number of the epoch at time `t`. -/
def epochOf (first : Time) (d : Duration) (t : Time) : Nat := ((t - first) / d).toNat

/-- How many epochs `advanceLocked` moves on. -/
theorem steps_eq {first now : Time} {d : Duration} {k : Nat} (hd : 0 < d)
    (hNow : first + k * d ≤ now) :
    (now - (first + k * d)).tdiv d = ((epochOf first d now : Nat) : Int) - k := by
  have hSplit : now - (first + k * d) = now - first + (-(k : Int)) * d := by ring
  have hNonneg : 0 ≤ now - (first + k * d) := Int.sub_nonneg.mpr hNow
  have hFirst : 0 ≤ (now - first) / d := by
    refine Int.ediv_nonneg ?_ (le_of_lt hd)
    have : 0 ≤ (k : Int) * d := Int.mul_nonneg (Int.natCast_nonneg k) (le_of_lt hd)
    linarith
  -- Go divides towards zero; the clock has not gone back, so the two divisions agree
  rw [Int.tdiv_eq_ediv_of_nonneg hNonneg, hSplit, Int.add_mul_ediv_right _ _ (ne_of_gt hd), epochOf,
    Int.toNat_of_nonneg hFirst]
  ring

theorem ring_advance_of_steps {start : Time} (hStart : m.epochStart = some start) {now : Time}
    {j : Nat} (hj : 0 < j) (hSteps : (now - start).tdiv m.epochDur = j) :
    (m.advance now).epochStart = some (start + j * m.epochDur) ∧ (m.advance now).ring =
        if metricsEpochCount ≤ j then m.ring.clear newMetricsEpoch j
        else (Ring.rotate newMetricsEpoch)^[j] m.ring := by
  have hPos : ¬((j : Int) ≤ 0) := by omega
  unfold advance
  rw [hStart]
  simp only [hSteps, if_neg hPos, Int.toNat_natCast]
  -- after ten epochs or more the whole ring is cleared, before that it turns step by step
  by_cases hFull : metricsEpochCount ≤ j
  · rw [if_pos hFull, if_pos (by exact_mod_cast hFull)]
    exact ⟨trivial, rfl⟩
  · rw [if_neg hFull, if_neg (by exact_mod_cast hFull), ← ring_rotate_iterate]
    exact ⟨trivial, rfl⟩

/-- `advanceLocked` turns the store to the epoch of the clock. -/
theorem HoldsAt.advance {first : Time} {k : Nat} {h : List (Nat × ExchangeOutcome)}
    (hm : m.HoldsAt first k h) (hd : 0 < m.epochDur) {now : Time}
    (hNow : first + k * m.epochDur ≤ now) :
    (m.advance now).HoldsAt first (epochOf first m.epochDur now) h ∧
      (m.advance now).epochDur = m.epochDur := by
  have hSteps := steps_eq hd hNow
  have hDur : (m.advance now).epochDur = m.epochDur := by
    unfold ResolverMetrics.advance
    rw [hm.start]
    dsimp only
    split
    · rfl
    · split
      · rfl
      · rw [rotate_iterate_eq]
  refine ⟨?_, hDur⟩
  have hLe : k ≤ epochOf first m.epochDur now := by
    have : 0 ≤ (now - (first + k * m.epochDur)).tdiv m.epochDur :=
      Int.tdiv_nonneg (Int.sub_nonneg.mpr hNow) (le_of_lt hd)
    omega
  -- `j` epochs have passed since the last call
  obtain ⟨j, hj⟩ := Nat.exists_eq_add_of_le hLe
  rw [hj] at hSteps ⊢
  have hSteps : (now - (first + k * m.epochDur)).tdiv m.epochDur = j := by
    rw [hSteps]
    push_cast
    ring
  rcases Nat.eq_zero_or_pos j with rfl | hPos
  · -- still the same epoch
    have hSame : m.advance now = m := by
      unfold ResolverMetrics.advance
      rw [hm.start]
      simp [hSteps]
    rw [hSame]
    exact hm
  · obtain ⟨hStart, hRing⟩ := ring_advance_of_steps hm.start hPos hSteps
    refine ⟨?_, ?_⟩
    · rw [hStart, hDur]
      push_cast
      congr 1
      ring
    · rw [hRing]
      split
      · next hFull => exact hm.ring.clear hFull
      · exact hm.ring.rotate_iterate j

end ResolverMetrics

/-! ## Runs of a store -/

/-- A call of a metric store, with the clock it reads. -/
inductive MetricsCall where
  | observe (now : Time) (o : ExchangeOutcome)
  | snapshot (now : Time)
  | percentile (now : Time) (p : ℚ)

def MetricsCall.now : MetricsCall → Time
  | .observe now _ => now
  | .snapshot now => now
  | .percentile now _ => now

/-- A store, with what it was told. -/
structure MetricsState where
  metrics : ResolverMetrics
  clock : Time
  /-- when the first call came -/
  first : Option Time
  /-- the outcomes, the oldest first -/
  history : List (Time × ExchangeOutcome)

namespace MetricsState

variable (s : MetricsState)

/-- The store after a call. Both readers advance it. -/
def call : MetricsCall → MetricsState
  | .observe now o =>
    { metrics := s.metrics.observe now o, clock := now, first := some (s.first.getD now)
      history := s.history ++ [(now, o)] }
  | .snapshot now =>
    { s with metrics := s.metrics.advance now, clock := now, first := some (s.first.getD now) }
  | .percentile now _ =>
    { s with metrics := s.metrics.advance now, clock := now, first := some (s.first.getD now) }

/-- The outcomes whose epoch is fewer than ten before that of a call at `now`. -/
def window (now : Time) : List ExchangeOutcome :=
  let epoch := epochOf (s.first.getD now) s.metrics.epochDur
  (s.history.filter fun x => decide (epoch now < epoch x.1 + metricsEpochCount)).map Prod.snd

end MetricsState

/-- A store that retains `window`, from its creation on; the clock does not go
backwards. -/
def metricsMachine (window : Duration) : Machine MetricsState MetricsCall where
  init s := s.metrics = newResolverMetricsWithWindow window ∧ s.first = none ∧ s.history = []
  step s c := if s.clock ≤ c.now then some (s.call c) else none

/-- What holds throughout a run of calls. -/
structure WindowInv (d : Duration) (s : MetricsState) : Prop where
  dur : s.metrics.epochDur = d
  total : s.metrics.totalSamples = s.history.length
  /-- before the first call nothing is there -/
  fresh : s.first = none → s.history = [] ∧ s.metrics.epochStart = none ∧
    s.metrics.ring.Holds tally 0 []
  /-- afterwards the store is at the epoch of the last call -/
  started : ∀ first, s.first = some first → first ≤ s.clock ∧
    s.metrics.HoldsAt first (epochOf first d s.clock)
      (s.history.map fun x => (epochOf first d x.1, x.2))

namespace WindowInv

variable {d : Duration} {s : MetricsState}

theorem epochOf_mul_le {first t : Time} (hd : 0 < d) (hLe : first ≤ t) :
    first + (epochOf first d t : Nat) * d ≤ t := by
  have hNonneg : 0 ≤ (t - first) / d := Int.ediv_nonneg (Int.sub_nonneg.mpr hLe) (le_of_lt hd)
  have hMul : (t - first) / d * d ≤ t - first := Int.ediv_mul_le _ (ne_of_gt hd)
  rw [epochOf, Int.toNat_of_nonneg hNonneg]
  linarith

/-- The store at the time of a call. -/
theorem advance (h : WindowInv d s) (hd : 0 < d) {now : Time} (hNow : s.clock ≤ now) :
    s.first.getD now ≤ now ∧ (s.metrics.advance now).epochDur = d ∧
      (s.metrics.advance now).HoldsAt (s.first.getD now)
        (epochOf (s.first.getD now) d now)
        (s.history.map fun x => (epochOf (s.first.getD now) d x.1, x.2)) := by
  cases hFirst : s.first with
  | none =>
    -- the first call of all
    obtain ⟨hHistory, hStart, hRing⟩ := h.fresh hFirst
    have hAdvance : s.metrics.advance now = { s.metrics with epochStart := some now } := by
      unfold ResolverMetrics.advance
      rw [hStart]
    have hEpoch : epochOf now d now = 0 := by simp [epochOf]
    simp only [Option.getD_none, hAdvance, hHistory, hEpoch, map_nil]
    exact ⟨le_refl now, h.dur, by simp, hRing⟩
  | some first =>
    obtain ⟨hLe, hHolds⟩ := h.started first hFirst
    -- the last call left the store at the epoch of its clock, which has begun by then
    have hEpoch := epochOf_mul_le hd hLe
    rw [← h.dur] at hHolds hd hEpoch
    have hAdvanced := hHolds.advance hd (hEpoch.trans hNow)
    rw [h.dur] at hAdvanced
    exact ⟨hLe.trans hNow, hAdvanced.2, hAdvanced.1⟩

/-- A reader leaves the store at the epoch of its clock. -/
theorem read (h : WindowInv d s) (hd : 0 < d) {now : Time} (hNow : s.clock ≤ now) :
    WindowInv d { s with
      metrics := s.metrics.advance now, clock := now, first := some (s.first.getD now) } := by
  obtain ⟨hFirst, hDur, hHolds⟩ := h.advance hd hNow
  refine ⟨hDur, ?_, fun hNone => (nomatch hNone), ?_⟩
  · show (s.metrics.advance now).totalSamples = _
    rw [advance_totalSamples]
    exact h.total
  · intro first hEq
    obtain rfl : s.first.getD now = first := Option.some.inj hEq
    exact ⟨hFirst, hHolds⟩

theorem observe (h : WindowInv d s) (hd : 0 < d) {now : Time} (hNow : s.clock ≤ now)
    (o : ExchangeOutcome) : WindowInv d (s.call (.observe now o)) := by
  obtain ⟨hFirst, hDur, hHolds⟩ := h.advance hd hNow
  refine ⟨hDur, ?_, fun hNone => (nomatch hNone), ?_⟩
  · show (s.metrics.observe now o).totalSamples = (s.history ++ [(now, o)]).length
    rw [observe_totalSamples, h.total, length_append]
    rfl
  · intro first hEq
    obtain rfl : s.first.getD now = first := Option.some.inj hEq
    refine ⟨hFirst, hHolds.start, ?_⟩
    -- the outcome goes into the epoch that `advanceLocked` has just made the current one
    have hRing : (s.metrics.observe now o).ring =
        (s.metrics.advance now).ring.push fun e => count e o o.latencyMs := rfl
    show (s.metrics.observe now o).ring.Holds tally _ ((s.history ++ [(now, o)]).map _)
    rw [hRing, map_append]
    exact hHolds.ring.push fun os => tally_append os o

theorem of_reach {window : Duration} (hd : 0 < (newResolverMetricsWithWindow window).epochDur)
    (hs : (metricsMachine window).Reach anyStep s) :
    WindowInv (newResolverMetricsWithWindow window).epochDur s := by
  refine hs.invariant (P := WindowInv (newResolverMetricsWithWindow window).epochDur) ?_ ?_
  · rintro s ⟨hMetrics, hFirst, hHistory⟩
    refine ⟨by rw [hMetrics], ?_, ?_, ?_⟩
    · rw [hMetrics, hHistory]
      rfl
    · intro _
      rw [hMetrics]
      exact ⟨hHistory, rfl, Ring.Holds.empty tally⟩
    · intro first hEq
      rw [hFirst] at hEq
      cases hEq
  · intro s c s' ih _ hStep
    simp only [metricsMachine, Option.ite_none_right_eq_some, Option.some.injEq] at hStep
    obtain ⟨hNow, rfl⟩ := hStep
    cases c with
    | observe now o => exact ih.observe hd hNow o
    | snapshot now => exact ih.read hd hNow
    | percentile now p => exact ih.read hd hNow

/-- A counter summed over the epochs counts the window. -/
theorem sumEpochs (h : WindowInv d s) (hd : 0 < d) {now : Time} (hNow : s.clock ≤ now)
    {c : MetricsEpoch → Nat} {flag : ExchangeOutcome → Bool}
    (hc : ∀ os, c (tally os) = os.countP flag) :
    (s.metrics.advance now).sumEpochs c = (s.window now).countP flag := by
  obtain ⟨-, -, hHolds⟩ := h.advance hd hNow
  rw [sumEpochs_eq, hHolds.ring.sum_slots hc, MetricsState.window, h.dur]
  simp only [Ring.windowItems, filter_map, map_map]
  rfl

end WindowInv

/-! ## What a snapshot says -/

/-- The counters of a window, as counts of its outcomes. -/
def windowCounts (os : List ExchangeOutcome) (totalSamples : Nat) (latencyEwmaMs jitterEwmaMs : ℚ) :
    MetricsWindow :=
  { samples := os.length
    totalSamples := totalSamples
    success := os.countP (·.isSuccess)
    timeout := os.countP (·.timeout)
    errors := os.countP (·.error)
    servfail := os.countP (·.servfail)
    dnssecBogus := os.countP (·.dnssecBogus)
    upstreamTruncated := os.countP (·.upstreamTruncated)
    localTruncated := os.countP (·.localTruncated)
    tcpFallback := os.countP (·.tcpFallback)
    quicFallback := os.countP (·.quicFallback)
    connNew := os.countP (!·.connReused)
    connReused := os.countP (·.connReused)
    ecsReturned := os.countP (·.ecsReturned)
    latencyEwmaMs := latencyEwmaMs
    jitterEwmaMs := jitterEwmaMs }

section Snapshot

variable {window : Duration} {s : MetricsState} {now : Time}
  (hd : 0 < (newResolverMetricsWithWindow window).epochDur)
  (hs : (metricsMachine window).Reach anyStep s) (hNow : s.clock ≤ now)
include hd hs hNow

theorem snapshot_eq : s.metrics.snapshot now = windowCounts (s.window now) s.history.length
      (s.metrics.advance now).latencyEwmaMs (s.metrics.advance now).jitterEwmaMs := by
  have h := WindowInv.of_reach hd hs
  have hCount : ∀ {c : MetricsEpoch → Nat} {f : ExchangeOutcome → Bool}, CountsFlag c f →
      (s.metrics.advance now).sumEpochs c = (s.window now).countP f :=
    fun hc => h.sumEpochs hd hNow hc.tally
  have hSamples : (s.metrics.advance now).sumEpochs (·.total) = (s.window now).length := by
    rw [hCount (f := fun _ => true) ⟨rfl, fun _ _ _ => rfl⟩, countP_true]
  have hTotal : (s.metrics.advance now).totalSamples = s.history.length := by
    rw [advance_totalSamples, h.total]
  -- every other counter goes up with its flag
  rw [MetricsWindow.mk.injEq]
  refine ⟨hSamples, hTotal, ?_, ?_, ?_, ?_, ?_, ?_, ?_, ?_, ?_, ?_, ?_, ?_, rfl, rfl⟩
  all_goals exact hCount ⟨rfl, fun _ _ _ => rfl⟩

/-- Every outcome of the window is in one bucket of the histogram. -/
theorem histogram_sum : (s.metrics.advance now).histogram.sum = (s.window now).length := by
  have h := WindowInv.of_reach hd hs
  have hBucket : ∀ b : Fin latencyBucketEdges.length,
      ((s.metrics.advance now).sumEpochs fun e => e.latencyBuckets.getD b 0) =
        (s.window now).countP fun o => true && decide (o.bucket = b) := by
    intro b
    simpa using h.sumEpochs hd hNow fun os => (tally_latencyBuckets os).2 b
  -- sum over the buckets first, each counts the outcomes that fall into it
  have hSum : (s.metrics.advance now).histogram.sum = ∑ b ∈ Finset.range latencyBucketEdges.length,
      (s.metrics.advance now).sumEpochs fun e => e.latencyBuckets.getD b 0 := rfl
  rw [hSum, Finset.sum_range, Finset.sum_congr rfl fun b _ => hBucket b, sum_countP_fiber,
    countP_true]

end Snapshot

/-- Outcomes of one class each, counted by class. -/
theorem countP_classes {os : List ExchangeOutcome}
    (hOne : ∀ o ∈ os, [o.isSuccess, o.timeout, o.error, o.servfail, o.dnssecBogus].count true = 1) :
    os.countP (·.isSuccess) + os.countP (·.timeout) + os.countP (·.error) +
      os.countP (·.servfail) + os.countP (·.dnssecBogus) = os.length := by
  induction os with
  | nil => rfl
  | cons o os ih =>
    have hRest := ih fun o' ho' => hOne o' (mem_cons_of_mem o ho')
    have hHere := hOne o mem_cons_self
    simp only [count_cons, count_nil, beq_true] at hHere
    simp only [countP_cons, length_cons]
    omega

/-- A store that has not been called yet. -/
def newMetricsState : MetricsState :=
  { metrics := newResolverMetricsWithWindow metricsWindow, clock := 0, first := none
    history := [] }

theorem newMetricsState_init : (metricsMachine metricsWindow).init newMetricsState :=
  ⟨rfl, rfl, rfl⟩

end DnscryptProxy
