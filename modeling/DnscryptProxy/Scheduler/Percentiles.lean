import DnscryptProxy.Base.Quantile
import DnscryptProxy.Base.Slice
import DnscryptProxy.Scheduler.Window

/-!
# Percentiles

`PercentileBuf` adds up the histograms of the epochs in an accumulator that the
caller may lend it, and walks over the sums up to the rank of the quantile.

* `percentileBuf_eq` — whatever the accumulator held and however long it is, the
  result is that of `percentile`;
* `percentile_accuracy` — which is the upper edge of the bucket of the exact
  quantile of the window.
-/

namespace DnscryptProxy

open Base List ResolverMetrics Option Machine

/-! ## The buckets -/

/-- The upper edge of a bucket, in milliseconds. -/
def bucketEdge (b : Nat) : ℚ := latencyBucketEdges.getD b latencyBucketMaxMs

theorem latencyBucketEdges_chain :
    latencyBucketEdges.IsChain fun a b : ℚ => a < b ∧ b ≤ latencyBucketGrowth * a := by
  decide +kernel

theorem latencyBucketEdges_getLast : bucketEdge (latencyBucketEdges.length - 1) =
    latencyBucketMaxMs := by
  decide +kernel

theorem bucketEdge_eq {b : Nat} (hb : b < latencyBucketEdges.length) :
    bucketEdge b = latencyBucketEdges[b] := by
  rw [bucketEdge, getD_eq_getElem?_getD, getElem?_eq_getElem hb, getD_some]

theorem bucketEdge_lt {a b : Nat} (hab : a < b) (hb : b < latencyBucketEdges.length) :
    bucketEdge a < bucketEdge b := by
  have hPairwise : latencyBucketEdges.Pairwise (· < ·) :=
    isChain_iff_pairwise.mp (latencyBucketEdges_chain.imp fun _ _ h => h.1)
  rw [bucketEdge_eq hb, bucketEdge_eq (hab.trans hb)]
  exact pairwise_iff_getElem.mp hPairwise _ _ _ _ hab

theorem bucketEdge_mono {a b : Nat} (hab : a ≤ b) (hb : b < latencyBucketEdges.length) :
    bucketEdge a ≤ bucketEdge b := by
  rcases Nat.lt_or_eq_of_le hab with h | rfl
  · exact le_of_lt (bucketEdge_lt h hb)
  · exact le_rfl

/-- By a quarter at most. -/
theorem bucketEdge_succ_le {b : Nat} (hb : b + 1 < latencyBucketEdges.length) :
    bucketEdge (b + 1) ≤ latencyBucketGrowth * bucketEdge b := by
  rw [bucketEdge_eq hb, bucketEdge_eq (Nat.lt_of_succ_lt hb)]
  exact (isChain_iff_getElem.mp latencyBucketEdges_chain b hb).2

section Index

variable {latencyMs : ℚ}

/-- The bucket of a latency: the first whose edge is not below it. -/
theorem latencyBucketIndex_spec (hMax : latencyMs ≤ latencyBucketMaxMs) :
    latencyMs ≤ bucketEdge (latencyBucketIndex latencyMs) ∧
      ∀ b < latencyBucketIndex latencyMs, bucketEdge b < latencyMs := by
  have hLast := latencyBucketIndex_lt latencyMs
  unfold latencyBucketIndex at hLast ⊢
  by_cases hFirst : latencyMs ≤ latencyBucketEdges.headD 0
  · rw [if_pos hFirst] at hLast ⊢
    exact ⟨hFirst, fun b hb => absurd hb (Nat.not_lt_zero b)⟩
  · rw [if_neg hFirst] at hLast ⊢
    by_cases hTop : latencyBucketMaxMs ≤ latencyMs
    · -- the source does not search here: the last bucket
      rw [if_pos hTop] at hLast ⊢
      rw [latencyBucketEdges_getLast]
      refine ⟨hMax, fun b hb => lt_of_lt_of_le (bucketEdge_lt hb hLast) ?_⟩
      rw [latencyBucketEdges_getLast]
      exact hTop
    · rw [if_neg hTop] at hLast ⊢
      refine ⟨?_, fun b hb => ?_⟩
      · rw [bucketEdge_eq hLast]
        exact of_decide_eq_true (findIdx_getElem (w := hLast))
      · rw [bucketEdge_eq (hb.trans hLast)]
        exact not_le.mp (of_decide_eq_false (not_of_lt_findIdx hb))

theorem latencyBucketIndex_mono {latencyMs' : ℚ} (hLe : latencyMs ≤ latencyMs')
    (hMax : latencyMs' ≤ latencyBucketMaxMs) :
    latencyBucketIndex latencyMs ≤ latencyBucketIndex latencyMs' := by
  by_contra hNot
  have hBelow := (latencyBucketIndex_spec (hLe.trans hMax)).2 _ (not_le.mp hNot)
  have hAbove := (latencyBucketIndex_spec hMax).1
  exact absurd (hLe.trans hAbove) (not_le.mpr hBelow)

/-- The edge is less than a quarter above a latency that is not in the first bucket. -/
theorem bucketEdge_lt_growth (hMax : latencyMs ≤ latencyBucketMaxMs)
    (hFirst : latencyBucketFirstMs < latencyMs) :
    bucketEdge (latencyBucketIndex latencyMs) < latencyBucketGrowth * latencyMs := by
  have hLast := latencyBucketIndex_lt latencyMs
  obtain ⟨hEdge, hBefore⟩ := latencyBucketIndex_spec hMax
  cases hIndex : latencyBucketIndex latencyMs with
  | zero =>
    rw [hIndex] at hEdge
    exact absurd hFirst (not_lt.mpr hEdge)
  | succ b =>
    rw [hIndex] at hLast hBefore
    calc bucketEdge (b + 1) ≤ latencyBucketGrowth * bucketEdge b := bucketEdge_succ_le hLast
      _ < latencyBucketGrowth * latencyMs :=
          mul_lt_mul_of_pos_left (hBefore b (Nat.lt_succ_self b)) (by decide +kernel)

end Index

/-! ## The walk over a histogram -/

namespace ResolverMetrics

/-- The walk stops at the bucket where the running count reaches the rank. -/
theorem bucketAtRank_eq {rank b : Nat} :
    ∀ {cumulative : Nat} {counts : List Nat} {edges : List ℚ}, b < counts.length →
      cumulative + (counts.take b).sum < rank → rank ≤ cumulative + (counts.take (b + 1)).sum →
        bucketAtRank rank cumulative counts edges = edges[b]? := by
  -- the walk drops the buckets in front of `b` one by one
  induction b with
  | zero =>
    intro cumulative counts edges hLt _ hReached
    cases counts with
    | nil => cases hLt
    | cons c counts =>
      cases edges with
      | nil => rfl
      | cons edge edges =>
        rw [bucketAtRank, if_pos (by simpa using hReached)]
        rfl
  | succ b ih =>
    intro cumulative counts edges hLt hBefore hReached
    cases counts with
    | nil => cases hLt
    | cons c counts =>
      simp only [take_succ_cons, sum_cons] at hBefore hReached
      cases edges with
      | nil => rfl
      | cons edge edges =>
        rw [bucketAtRank, if_neg (by omega), ih (Nat.lt_of_succ_lt_succ hLt) (by omega) (by omega)]
        rfl

/-! ## The accumulator -/

/-- The accumulator at the start: a new one if there is not enough room in the one
that was passed, and otherwise that one, cleared. -/
def clearAccumulator (h : Heap Nat) (aggregated : Slice) : Heap Nat × Slice :=
  if aggregated.cap < latencyBucketEdges.length then
    h.alloc (replicate latencyBucketEdges.length 0) 0
  else
    (h.store aggregated.arr aggregated.off (replicate latencyBucketEdges.length 0),
      aggregated.keepFirst latencyBucketEdges.length)

/-- `aggregated[b] += c` for the counts of an epoch, from bucket `b` on. -/
def addBuckets (aggregated : Slice) : Nat → List Nat → Heap Nat → Heap Nat
  | _, [], h => h
  | b, c :: counts, h =>
    addBuckets aggregated (b + 1) counts
      (h.store aggregated.arr (aggregated.off + b) [(h.read aggregated).getD b 0 + c])

/-- The loop over the epochs. -/
def addEpochs (m : ResolverMetrics) (aggregated : Slice) (h : Heap Nat) : Heap Nat :=
  (finRange metricsEpochCount).foldl
    (fun h i => addBuckets aggregated 0 (m.epochs i).latencyBuckets h) h

/-- What `PercentileBuf` returns, and what it leaves behind. -/
structure PercentileResult where
  latency : Duration
  ok : Bool
  aggregated : Slice
  heap : Heap Nat
  metrics : ResolverMetrics

/-- `time.Duration(edge * float64(time.Millisecond))`, for an edge in milliseconds. -/
def edgeDuration (edge : ℚ) : Duration := ⌊edge * Millisecond⌋

/-- `PercentileBuf` at `now`. -/
def percentileBuf (m : ResolverMetrics) (now : Time) (p : ℚ) (h : Heap Nat) (aggregated : Slice) :
    PercentileResult :=
  let p := if p < 0 then 0 else if p > 1 then 1 else p
  let m := m.advance now
  let start := clearAccumulator h aggregated
  let h := m.addEpochs start.2 start.1
  let total := m.sumEpochs (·.total)
  if total = 0 then
    { latency := 0, ok := false, aggregated := start.2, heap := h, metrics := m }
  else
    let rank := max 1 ⌈(total : ℚ) * p⌉.toNat
    let edge := (bucketAtRank rank 0 (h.read start.2) latencyBucketEdges).getD latencyBucketMaxMs
    { latency := edgeDuration edge, ok := true, aggregated := start.2, heap := h, metrics := m }

/-- An accumulator that can be passed: nil or anything else that is too short, or a
slice that is there. -/
def Usable (h : Heap Nat) (aggregated : Slice) : Prop :=
  aggregated.cap < latencyBucketEdges.length ∨ h.Valid aggregated

section Accumulator

variable {h : Heap Nat} {aggregated : Slice}

/-- At the start there is nothing in the accumulator. -/
theorem clearAccumulator_spec (hUsable : Usable h aggregated) :
    (clearAccumulator h aggregated).1.Valid (clearAccumulator h aggregated).2 ∧
      (clearAccumulator h aggregated).1.read (clearAccumulator h aggregated).2 =
        replicate latencyBucketEdges.length 0 := by
  unfold clearAccumulator
  by_cases hRoom : aggregated.cap < latencyBucketEdges.length
  · rw [if_pos hRoom]
    exact ⟨Heap.valid_alloc _ _ _, Heap.read_alloc _ _ _⟩
  · -- `clear` over the first buckets of the array that was passed
    rw [if_neg hRoom]
    have hValid := hUsable.resolve_left hRoom
    have hKept : h.Valid (aggregated.keepFirst latencyBucketEdges.length) :=
      ⟨hValid.alloc, Nat.le_of_not_lt hRoom, hValid.cap_le⟩
    have hZeros : (replicate latencyBucketEdges.length 0).length =
        latencyBucketEdges.length := length_replicate
    refine ⟨hKept.store hValid.alloc ?_, ?_⟩
    · have hCap := hValid.cap_le
      omega
    · have hRead : (h.store aggregated.arr (aggregated.off + 0)
          (replicate latencyBucketEdges.length 0)).read
            (aggregated.keepFirst latencyBucketEdges.length) = _ :=
        Heap.read_store_self hKept (by rw [hZeros, zero_add]; exact le_refl _)
      rw [overwrite_all (by rw [hZeros, hKept.length_read]; rfl)] at hRead
      exact hRead

/-- Each count goes to its bucket, and the other buckets stay. -/
theorem addBuckets_spec {counts : List Nat} :
    ∀ {b : Nat} {h : Heap Nat}, h.Valid aggregated → b + counts.length ≤ aggregated.len →
      (addBuckets aggregated b counts h).Valid aggregated ∧
        ∀ j, ((addBuckets aggregated b counts h).read aggregated).getD j 0 =
          (h.read aggregated).getD j 0 + if b ≤ j then counts.getD (j - b) 0 else 0 := by
  induction counts with
  | nil =>
    intro b h hValid _
    refine ⟨hValid, fun j => ?_⟩
    show (h.read aggregated).getD j 0 = _
    simp
  | cons c counts ih =>
    intro b h hValid hFit
    rw [length_cons] at hFit
    have hLen := hValid.length_read
    have hInside : b < (h.read aggregated).length := by omega
    have hCap := hValid.cap_le
    have hLenCap := hValid.len_le
    -- one bucket, then the rest
    generalize hStored : h.store aggregated.arr (aggregated.off + b)
      [(h.read aggregated).getD b 0 + c] = h'
    have hValid' : h'.Valid aggregated := by
      rw [← hStored]
      refine hValid.store hValid.alloc ?_
      rw [length_singleton]
      omega
    have hRead : ∀ j, (h'.read aggregated).getD j 0 =
        if j = b then (h.read aggregated).getD b 0 + c else (h.read aggregated).getD j 0 := by
      intro j
      rw [← hStored, Heap.read_store_self hValid (by rw [length_singleton]; omega),
        overwrite_singleton_getD hInside]
    obtain ⟨hDone, hRest⟩ := ih (b := b + 1) hValid' (by omega)
    rw [addBuckets, hStored]
    refine ⟨hDone, fun j => ?_⟩
    rw [hRest j, hRead j]
    rcases Nat.lt_trichotomy j b with hj | rfl | hj
    · rw [if_neg (by omega), if_neg (by omega), if_neg (by omega)]
    · rw [if_pos rfl, if_neg (by omega), if_pos (Nat.le_refl _), Nat.sub_self]
      simp
    · rw [if_neg (by omega), if_pos (by omega), if_pos (by omega),
        show j - b = j - (b + 1) + 1 by omega]
      simp

/-- The loop over the epochs adds up their histograms. -/
theorem addEpochs_read {m : ResolverMetrics} (hValid : h.Valid aggregated)
    (hZeros : h.read aggregated = replicate latencyBucketEdges.length 0)
    (hLen : ∀ i, (m.epochs i).latencyBuckets.length = latencyBucketEdges.length) :
    (m.addEpochs aggregated h).read aggregated = m.histogram := by
  have hRoom : aggregated.len = latencyBucketEdges.length := by
    rw [← hValid.length_read, hZeros, length_replicate]
  -- the induction is on the epochs that are still to come
  have hLoop : ∀ (is : List (Fin metricsEpochCount)) (h : Heap Nat), h.Valid aggregated →
      (is.foldl (fun h i => addBuckets aggregated 0 (m.epochs i).latencyBuckets h) h).Valid
          aggregated ∧
        ∀ j, ((is.foldl (fun h i => addBuckets aggregated 0 (m.epochs i).latencyBuckets h) h).read
          aggregated).getD j 0 = (h.read aggregated).getD j 0 +
            (is.map fun i => (m.epochs i).latencyBuckets.getD j 0).sum := by
    intro is
    induction is with
    | nil =>
      intro h hValid
      exact ⟨hValid, fun j => rfl⟩
    | cons i is ih =>
      intro h hValid
      have hFit : 0 + (m.epochs i).latencyBuckets.length ≤ aggregated.len := by
        rw [hLen, hRoom, zero_add]
      obtain ⟨hNext, hAdded⟩ := addBuckets_spec hValid hFit
      obtain ⟨hDone, hRest⟩ := ih _ hNext
      refine ⟨hDone, fun j => ?_⟩
      rw [foldl_cons, hRest j, hAdded j, if_pos (Nat.zero_le j), Nat.sub_zero, map_cons,
        sum_cons, Nat.add_assoc]
  obtain ⟨hDone, hSum⟩ := hLoop (finRange metricsEpochCount) h hValid
  refine ext_getElem ?_ fun j hj hj' => ?_
  · rw [addEpochs, hDone.length_read, hRoom, histogram, length_map, length_range]
  · have hZero : (h.read aggregated).getD j 0 = 0 := by
      rw [hZeros, getD_eq_getElem?_getD, getElem?_replicate]
      split <;> rfl
    have hSumJ : ((m.addEpochs aggregated h).read aggregated).getD j 0 = _ := hSum j
    rw [hZero, zero_add, getD_eq_getElem?_getD, getElem?_eq_getElem hj, getD_some] at hSumJ
    rw [hSumJ]
    simp only [histogram, getElem_map, getElem_range]
    rfl

theorem percentileBuf_eq {m : ResolverMetrics} {now : Time} (p : ℚ)
    (hLen : ∀ i, ((m.advance now).epochs i).latencyBuckets.length = latencyBucketEdges.length)
    (hUsable : Usable h aggregated) :
    (m.percentileBuf now p h aggregated).latency = ((m.percentile now p).map edgeDuration).getD 0 ∧
      (m.percentileBuf now p h aggregated).ok = (m.percentile now p).isSome := by
  obtain ⟨hValid, hZeros⟩ := clearAccumulator_spec hUsable
  have hRead := addEpochs_read hValid hZeros hLen
  rw [percentile_eq]
  unfold percentileBuf
  dsimp only
  rw [hRead]
  by_cases hEmpty : (m.advance now).sumEpochs (·.total) = 0
  · rw [if_pos hEmpty, if_pos (show (m.snapshot now).samples = 0 from hEmpty)]
    exact ⟨rfl, rfl⟩
  · rw [if_neg hEmpty, if_neg (show (m.snapshot now).samples ≠ 0 from hEmpty)]
    exact ⟨rfl, rfl⟩

end Accumulator

end ResolverMetrics

/-! ## The quantile of the window -/

/-- The rank of a quantile among `n` samples. -/
def nearestRank (n : Nat) (p : ℚ) : Nat := max 1 ⌈(n : ℚ) * p⌉.toNat

section Rank

variable {n : Nat} {p : ℚ}

theorem one_le_nearestRank : 1 ≤ nearestRank n p := le_max_left _ _

theorem nearestRank_le (hn : 0 < n) (hp : p ≤ 1) : nearestRank n p ≤ n := by
  have hCeil : ⌈(n : ℚ) * p⌉ ≤ (n : ℤ) := by
    refine Int.ceil_le.mpr ?_
    calc (n : ℚ) * p ≤ (n : ℚ) * 1 := mul_le_mul_of_nonneg_left hp (Nat.cast_nonneg n)
      _ = ((n : ℤ) : ℚ) := by simp
  unfold nearestRank
  omega

theorem nearestRank_mono {p' : ℚ} (hLe : p ≤ p') : nearestRank n p ≤ nearestRank n p' := by
  have hCeil : ⌈(n : ℚ) * p⌉ ≤ ⌈(n : ℚ) * p'⌉ :=
    Int.ceil_mono (mul_le_mul_of_nonneg_left hLe (Nat.cast_nonneg n))
  unfold nearestRank
  omega

end Rank

/-- The latencies of the window. -/
def MetricsState.latencies (s : MetricsState) (now : Time) : List ℚ :=
  (s.window now).map (·.latencyMs)

section Window

variable {window : Duration} {s : MetricsState} {now : Time}

theorem latencyMs_mul (o : ExchangeOutcome) :
    o.latencyMs * Millisecond = ((max 0 o.duration : ℤ) : ℚ) := by
  have hMs : ((Millisecond : ℤ) : ℚ) = 1000000 := rfl
  unfold ExchangeOutcome.latencyMs
  rw [hMs, max_mul_of_nonneg _ _ (by norm_num), zero_mul, div_mul_cancel₀ _ (by norm_num)]
  push_cast
  rfl

theorem le_edgeDuration {q : ℚ} (hq : q ∈ s.latencies now) {edge : ℚ} (hEdge : q ≤ edge) :
    q * Millisecond ≤ edgeDuration edge := by
  obtain ⟨o, -, rfl⟩ := mem_map.mp hq
  rw [latencyMs_mul, edgeDuration, Int.cast_le, Int.le_floor, ← latencyMs_mul]
  exact mul_le_mul_of_nonneg_right hEdge (by decide)

variable (hd : 0 < (newResolverMetricsWithWindow window).epochDur)
  (hs : (metricsMachine window).Reach anyStep s) (hNow : s.clock ≤ now)
include hd hs hNow

theorem length_latencyBuckets (i : Fin metricsEpochCount) :
    ((s.metrics.advance now).epochs i).latencyBuckets.length = latencyBucketEdges.length := by
  obtain ⟨-, -, hHolds⟩ := (WindowInv.of_reach hd hs).advance hd hNow
  have hSlot : (s.metrics.advance now).epochs i = _ := hHolds.ring.slots i
  rw [hSlot]
  exact (tally_latencyBuckets _).1

/-- The histogram of a store counts the latencies of its window. -/
theorem histogram_eq :
    (s.metrics.advance now).histogram =
      bucketCounts latencyBucketIndex latencyBucketEdges.length (s.latencies now) := by
  have h := WindowInv.of_reach hd hs
  refine map_congr_left fun b hb => ?_
  have hLt : b < latencyBucketEdges.length := mem_range.mp hb
  rw [h.sumEpochs hd hNow fun os => (tally_latencyBuckets os).2 ⟨b, hLt⟩, MetricsState.latencies,
    countP_map]
  refine countP_congr fun o _ => ?_
  simp [ExchangeOutcome.bucket, Fin.ext_iff]

/-- The result is the edge of the bucket of the exact quantile. -/
theorem percentile_eq_edge
    (hMax : ∀ latencyMs ∈ s.latencies now, latencyMs ≤ latencyBucketMaxMs) {p q : ℚ} (hp : 0 ≤ p)
    (hp' : p ≤ 1)
    (hq : ranked (s.latencies now) (nearestRank (s.latencies now).length p) = some q) :
    s.metrics.percentile now p = some (bucketEdge (latencyBucketIndex q)) := by
  have hMem := mem_of_ranked hq
  have hSamples : (s.metrics.snapshot now).samples = (s.latencies now).length := by
    rw [snapshot_eq hd hs hNow, MetricsState.latencies, length_map]
    rfl
  have hSome : (s.latencies now).length ≠ 0 := Nat.ne_of_gt (length_pos_of_mem hMem)
  obtain ⟨hBefore, hReached⟩ := reached_at_bucket one_le_nearestRank hq
    (fun x hx y hy hxy => latencyBucketIndex_mono hxy (hMax y hy)) (latencyBucketIndex_lt q)
  have hLength : latencyBucketIndex q <
      (bucketCounts latencyBucketIndex latencyBucketEdges.length (s.latencies now)).length := by
    rw [bucketCounts, length_map, length_range]
    exact latencyBucketIndex_lt q
  rw [percentile_eq, hSamples, if_neg hSome, if_neg (not_lt.mpr hp),
    if_neg (not_lt.mpr hp'), histogram_eq hd hs hNow]
  dsimp only
  rw [show max 1 ⌈((s.latencies now).length : ℚ) * p⌉.toNat =
      nearestRank (s.latencies now).length p from rfl,
    bucketAtRank_eq hLength (by rw [zero_add]; exact hBefore)
      (by rw [zero_add]; exact hReached)]
  rfl

/-- What is returned, with any accumulator. -/
theorem percentileBuf_eq_edge
    (hMax : ∀ latencyMs ∈ s.latencies now, latencyMs ≤ latencyBucketMaxMs) {p q : ℚ} (hp : 0 ≤ p)
    (hp' : p ≤ 1)
    (hq : ranked (s.latencies now) (nearestRank (s.latencies now).length p) = some q)
    {h : Heap Nat} {aggregated : Slice} (hUsable : ResolverMetrics.Usable h aggregated) :
    (s.metrics.percentileBuf now p h aggregated).ok = true ∧
      (s.metrics.percentileBuf now p h aggregated).latency =
        edgeDuration (bucketEdge (latencyBucketIndex q)) := by
  obtain ⟨hLatency, hOk⟩ :=
    percentileBuf_eq p (length_latencyBuckets hd hs hNow) hUsable
  rw [hLatency, hOk, percentile_eq_edge hd hs hNow hMax hp hp' hq]
  exact ⟨rfl, rfl⟩

/-- For a window with some outcomes, none slower than the last edge: the result is
the upper edge of the bucket of the exact quantile, so at least the quantile and
less than a quarter above it if that is not in the first bucket; it does not fall
when `p` grows, and does not depend on the accumulator. -/
theorem percentile_accuracy (hSome : s.latencies now ≠ [])
    (hMax : ∀ latencyMs ∈ s.latencies now, latencyMs ≤ latencyBucketMaxMs) :
    (∀ p : ℚ, 0 ≤ p → p ≤ 1 → ∃ q,
      ranked (s.latencies now) (nearestRank (s.latencies now).length p) = some q ∧
        s.metrics.percentile now p = some (bucketEdge (latencyBucketIndex q)) ∧
        ∀ h aggregated, ResolverMetrics.Usable h aggregated →
          (s.metrics.percentileBuf now p h aggregated).ok = true ∧
          (s.metrics.percentileBuf now p h aggregated).latency =
            edgeDuration (bucketEdge (latencyBucketIndex q)) ∧
          q * Millisecond ≤ (s.metrics.percentileBuf now p h aggregated).latency ∧
          (latencyBucketFirstMs < q → (s.metrics.percentileBuf now p h aggregated).latency <
              latencyBucketGrowth * (q * Millisecond))) ∧
    ∀ p p' : ℚ, 0 ≤ p → p ≤ p' → p' ≤ 1 → ∀ h aggregated h' aggregated',
      ResolverMetrics.Usable h aggregated → ResolverMetrics.Usable h' aggregated' →
        (s.metrics.percentileBuf now p h aggregated).latency ≤
          (s.metrics.percentileBuf now p' h' aggregated').latency := by
  have hQuantile : ∀ p : ℚ, p ≤ 1 → ∃ q,
      ranked (s.latencies now) (nearestRank (s.latencies now).length p) = some q :=
    fun p hp => exists_ranked one_le_nearestRank (nearestRank_le (length_pos_iff.mpr hSome) hp)
  constructor
  · intro p hp hp'
    obtain ⟨q, hq⟩ := hQuantile p hp'
    have hMem := mem_of_ranked hq
    refine ⟨q, hq, percentile_eq_edge hd hs hNow hMax hp hp' hq, ?_⟩
    intro h aggregated hUsable
    obtain ⟨hOk, hLatency⟩ := percentileBuf_eq_edge hd hs hNow hMax hp hp' hq hUsable
    refine ⟨hOk, hLatency, ?_, fun hFirst => ?_⟩
    · rw [hLatency]
      exact le_edgeDuration hMem (latencyBucketIndex_spec (hMax q hMem)).1
    · rw [hLatency]
      calc ((edgeDuration (bucketEdge (latencyBucketIndex q)) : ℤ) : ℚ)
          ≤ bucketEdge (latencyBucketIndex q) * Millisecond := Int.floor_le _
        _ < latencyBucketGrowth * q * Millisecond :=
            mul_lt_mul_of_pos_right (bucketEdge_lt_growth (hMax q hMem) hFirst) (by decide)
        _ = latencyBucketGrowth * (q * Millisecond) := mul_assoc _ _ _
  · intro p p' hp hLe hp' h aggregated h' aggregated' hUsable hUsable'
    obtain ⟨q, hq⟩ := hQuantile p (hLe.trans hp')
    obtain ⟨q', hq'⟩ := hQuantile p' hp'
    rw [(percentileBuf_eq_edge hd hs hNow hMax hp (hLe.trans hp') hq hUsable).2,
      (percentileBuf_eq_edge hd hs hNow hMax (hp.trans hLe) hp' hq' hUsable').2]
    -- a higher rank, a greater quantile, a later bucket
    have hQuantiles : q ≤ q' := ranked_mono (nearestRank_mono hLe) hq hq'
    have hBuckets := latencyBucketIndex_mono hQuantiles (hMax q' (mem_of_ranked hq'))
    have hEdges := bucketEdge_mono hBuckets (latencyBucketIndex_lt q')
    exact Int.floor_mono (mul_le_mul_of_nonneg_right hEdges (by decide))

end Window

/-- Exchanges of 10, 20 and 100 milliseconds. -/
def threeExchanges : List MetricsCall :=
  [10, 20, 100].map fun ms => .observe 0 { ExchangeOutcome.zero with duration := ms * Millisecond }

theorem threeExchanges_isSome :
    ((metricsMachine metricsWindow).exec newMetricsState threeExchanges).isSome = true := rfl

/-- Their median, with a new accumulator, is less than a quarter above 20 ms, and not
above their 95th percentile. -/
theorem percentile_accuracy_three :
    let s := ((metricsMachine metricsWindow).exec newMetricsState threeExchanges).get
      threeExchanges_isSome
    let latency (p : ℚ) := (s.metrics.percentileBuf 0 p ⟨[]⟩ ⟨0, 0, 0, 0⟩).latency
    s.latencies 0 = [10, 20, 100] ∧ 20 * Millisecond ≤ latency (1 / 2) ∧
      latency (1 / 2) < 25 * Millisecond ∧ latency (1 / 2) ≤ latency (95 / 100) := by
  intro s latency
  have hReach : (metricsMachine metricsWindow).Reach anyStep s :=
    .exec_get (.init newMetricsState_init) threeExchanges_isSome
  have hLatencies : s.latencies 0 = [10, 20, 100] := by decide +kernel
  have hSome : s.latencies 0 ≠ [] := by
    exact cons_ne_nil _ _
  have hMax : ∀ latencyMs ∈ s.latencies 0, latencyMs ≤ latencyBucketMaxMs := by
    decide +kernel
  have hNew : ResolverMetrics.Usable ⟨[]⟩ ⟨0, 0, 0, 0⟩ := .inl (by decide +kernel)
  obtain ⟨hAt, hMono⟩ := percentile_accuracy (by decide) hReach (le_refl 0) hSome hMax
  obtain ⟨q, hq, -, hBuf⟩ := hAt (1 / 2) (by norm_num) (by norm_num)
  obtain ⟨-, -, hLow, hHigh⟩ := hBuf ⟨[]⟩ ⟨0, 0, 0, 0⟩ hNew
  have hRank : nearestRank (s.latencies 0).length (1 / 2) = 2 := by
    decide +kernel
  obtain rfl : 20 = q := by
    rw [hRank, hLatencies, ranked, sorted, mergeSort_of_pairwise (by decide +kernel)] at hq
    exact some.inj hq
  refine ⟨hLatencies, ?_, ?_, ?_⟩
  · exact_mod_cast hLow
  · have hBound : latencyBucketGrowth * (20 * (Millisecond : ℚ)) = (25 * Millisecond : Int) := by
      decide +kernel
    have hGrown := hHigh (by decide +kernel)
    rw [hBound] at hGrown
    exact_mod_cast hGrown
  · exact hMono _ _ (by norm_num) (by norm_num) (by norm_num) _ _ _ _ hNew hNew

end DnscryptProxy
