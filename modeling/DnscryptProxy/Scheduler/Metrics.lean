import DnscryptProxy.Common
import Mathlib.Data.Rat.Floor
import Mathlib.Data.Fintype.Basic

/-!
# Per-resolver metrics

The bounded metric store of `scheduler_metrics.go`: ten rotating epochs of
counters and latency buckets, a lifetime sample count and the latency EWMAs.
Floating-point values are exact rationals.

`ExchangeOutcome` is the feedback record of one upstream exchange; the
scheduler reads a store only through `snapshot` and `percentile`.
-/

namespace DnscryptProxy

/-! ## Outcomes -/

inductive ExchangeTransport where
  | unknown
  | dnscryptUDP
  | dnscryptTCP
  | dohH2
  | dohH3
  | odoh
deriving Repr, DecidableEq

structure ExchangeOutcome where
  duration : Duration
  transport : ExchangeTransport
  timeout : Bool
  error : Bool
  servfail : Bool
  dnssecBogus : Bool
  upstreamTruncated : Bool
  localTruncated : Bool
  tcpFallback : Bool
  quicFallback : Bool
  connReused : Bool
  ecsReturned : Bool
deriving Repr, DecidableEq

/-- `ExchangeOutcome{}`. -/
def ExchangeOutcome.zero : ExchangeOutcome :=
  { duration := 0, transport := .unknown, timeout := false, error := false, servfail := false,
    dnssecBogus := false, upstreamTruncated := false, localTruncated := false,
    tcpFallback := false, quicFallback := false, connReused := false, ecsReturned := false }

/-- A hard failure: the exchange is recorded as a timeout or an error. -/
def ExchangeOutcome.hardFailure (o : ExchangeOutcome) : Bool := o.timeout || o.error

/-! ## Latency buckets -/

abbrev metricsEpochCount : Nat := 10
def metricsWindow : Duration := 300 * Second
def latencyBucketFirstMs : ℚ := 1
def latencyBucketGrowth : ℚ := 5 / 4
def latencyBucketMaxMs : ℚ := 10000

/-- The loop of `buildLatencyBucketEdges`; 64 rounds are more than enough to
pass `latencyBucketMaxMs`. -/
def bucketEdgesFrom : Nat → ℚ → List ℚ
  | 0, _ => [latencyBucketMaxMs]
  | fuel + 1, v =>
    if v < latencyBucketMaxMs then v :: bucketEdgesFrom fuel (v * latencyBucketGrowth)
    else [latencyBucketMaxMs]

def latencyBucketEdges : List ℚ := bucketEdgesFrom 64 latencyBucketFirstMs

def latencyBucketIndex (latencyMs : ℚ) : Nat :=
  if latencyMs ≤ latencyBucketEdges.headD 0 then 0
  else if latencyBucketMaxMs ≤ latencyMs then latencyBucketEdges.length - 1
  else latencyBucketEdges.findIdx (fun edge => decide (latencyMs ≤ edge))

/-! ## The store -/

structure MetricsEpoch where
  latencyBuckets : List Nat
  total : Nat
  success : Nat
  timeout : Nat
  errors : Nat
  servfail : Nat
  dnssecBogus : Nat
  upstreamTruncated : Nat
  localTruncated : Nat
  tcpFallback : Nat
  quicFallback : Nat
  connNew : Nat
  connReused : Nat
  ecsReturned : Nat
deriving Repr, DecidableEq

/-- `newMetricsEpoch`; `reset` leaves an epoch in the same state. -/
def newMetricsEpoch : MetricsEpoch :=
  { latencyBuckets := List.replicate latencyBucketEdges.length 0, total := 0, success := 0,
    timeout := 0, errors := 0, servfail := 0, dnssecBogus := 0, upstreamTruncated := 0,
    localTruncated := 0, tcpFallback := 0, quicFallback := 0, connNew := 0, connReused := 0,
    ecsReturned := 0 }

structure MetricsWindow where
  samples : Nat
  totalSamples : Nat
  success : Nat
  timeout : Nat
  errors : Nat
  servfail : Nat
  dnssecBogus : Nat
  upstreamTruncated : Nat
  localTruncated : Nat
  tcpFallback : Nat
  quicFallback : Nat
  connNew : Nat
  connReused : Nat
  ecsReturned : Nat
  latencyEwmaMs : ℚ
  jitterEwmaMs : ℚ
deriving Repr, DecidableEq

/-- `MetricsWindow.Truncated`. -/
def MetricsWindow.truncated (w : MetricsWindow) : Nat := w.upstreamTruncated + w.localTruncated

structure ResolverMetrics where
  epochs : Fin metricsEpochCount → MetricsEpoch
  curEpoch : Fin metricsEpochCount
  epochStart : Option Time
  totalSamples : Nat
  latencyEwmaMs : ℚ
  jitterEwmaMs : ℚ
  hasLatency : Bool
  prevLatencyMs : ℚ
  epochDur : Duration

def newResolverMetricsWithWindow (window : Duration) : ResolverMetrics :=
  let window := if window ≤ 0 then metricsWindow else window
  { epochs := fun _ => newMetricsEpoch, curEpoch := 0, epochStart := none, totalSamples := 0,
    latencyEwmaMs := 0, jitterEwmaMs := 0, hasLatency := false, prevLatencyMs := 0,
    epochDur := window.tdiv metricsEpochCount }

namespace ResolverMetrics

variable (m : ResolverMetrics)

/-- One turn of the epoch ring: the next slot becomes current and is reset. -/
def rotate : ResolverMetrics :=
  { m with
    curEpoch := m.curEpoch + 1
    epochs := Function.update m.epochs (m.curEpoch + 1) newMetricsEpoch }

/-- `advanceLocked`. -/
def advance (now : Time) : ResolverMetrics :=
  match m.epochStart with
  | none => { m with epochStart := some now }
  | some start =>
    let steps := (now - start).tdiv m.epochDur
    if steps ≤ 0 then m
    else
      -- after a whole turn of the ring nothing is left
      let rotated :=
        if (metricsEpochCount : Int) ≤ steps then
          { m with
            epochs := fun _ => newMetricsEpoch
            curEpoch := m.curEpoch + Fin.ofNat metricsEpochCount steps.toNat }
        else (rotate)^[steps.toNat] m
      { rotated with epochStart := some (start + steps * m.epochDur) }

/-- The counters of the current epoch after one more outcome. -/
def count (e : MetricsEpoch) (o : ExchangeOutcome) (latencyMs : ℚ) : MetricsEpoch :=
  let b (flag : Bool) : Nat := if flag then 1 else 0
  let bucket := latencyBucketIndex latencyMs
  { latencyBuckets := e.latencyBuckets.set bucket (e.latencyBuckets.getD bucket 0 + 1)
    total := e.total + 1
    success := e.success + b (!o.timeout && !o.error && !o.servfail && !o.dnssecBogus)
    timeout := e.timeout + b o.timeout
    errors := e.errors + b o.error
    servfail := e.servfail + b o.servfail
    dnssecBogus := e.dnssecBogus + b o.dnssecBogus
    upstreamTruncated := e.upstreamTruncated + b o.upstreamTruncated
    localTruncated := e.localTruncated + b o.localTruncated
    tcpFallback := e.tcpFallback + b o.tcpFallback
    quicFallback := e.quicFallback + b o.quicFallback
    connNew := e.connNew + b (!o.connReused)
    connReused := e.connReused + b o.connReused
    ecsReturned := e.ecsReturned + b o.ecsReturned }

/-- `Observe` at `now`. -/
def observe (now : Time) (o : ExchangeOutcome) : ResolverMetrics :=
  let latencyMs : ℚ := max 0 ((o.duration : ℚ) / Millisecond)
  let alpha : ℚ := 2 / 11
  let m := m.advance now
  -- the first sample sets the average and has no predecessor to differ from
  { m with
    totalSamples := m.totalSamples + 1
    jitterEwmaMs :=
      if m.hasLatency then alpha * |latencyMs - m.prevLatencyMs| + (1 - alpha) * m.jitterEwmaMs
      else m.jitterEwmaMs
    latencyEwmaMs :=
      if m.hasLatency then alpha * latencyMs + (1 - alpha) * m.latencyEwmaMs else latencyMs
    hasLatency := true
    prevLatencyMs := latencyMs
    epochs := Function.update m.epochs m.curEpoch (count (m.epochs m.curEpoch) o latencyMs) }

/-- A counter summed over the ring. -/
def sumEpochs (f : MetricsEpoch → Nat) : Nat :=
  ((List.finRange metricsEpochCount).map fun i => f (m.epochs i)).sum

/-- `aggregateLocked`. -/
def aggregate : MetricsWindow :=
  { samples := m.sumEpochs (·.total)
    totalSamples := m.totalSamples
    success := m.sumEpochs (·.success)
    timeout := m.sumEpochs (·.timeout)
    errors := m.sumEpochs (·.errors)
    servfail := m.sumEpochs (·.servfail)
    dnssecBogus := m.sumEpochs (·.dnssecBogus)
    upstreamTruncated := m.sumEpochs (·.upstreamTruncated)
    localTruncated := m.sumEpochs (·.localTruncated)
    tcpFallback := m.sumEpochs (·.tcpFallback)
    quicFallback := m.sumEpochs (·.quicFallback)
    connNew := m.sumEpochs (·.connNew)
    connReused := m.sumEpochs (·.connReused)
    ecsReturned := m.sumEpochs (·.ecsReturned)
    latencyEwmaMs := m.latencyEwmaMs
    jitterEwmaMs := m.jitterEwmaMs }

/-- `Snapshot` at `now`. -/
def snapshot (now : Time) : MetricsWindow := (m.advance now).aggregate

/-- The walk over the aggregated buckets: the edge of the first bucket at
which the cumulative count reaches `rank`. -/
def bucketAtRank (rank : Nat) : Nat → List Nat → List ℚ → Option ℚ
  | cumulative, c :: counts, edge :: edges =>
    if rank ≤ cumulative + c then some edge
    else bucketAtRank rank (cumulative + c) counts edges
  | _, _, _ => none

/-- `Percentile` at `now`, in milliseconds; `none` when the window is empty. -/
def percentile (now : Time) (p : ℚ) : Option ℚ :=
  let p := if p < 0 then 0 else if p > 1 then 1 else p
  let m := m.advance now
  let aggregated := (List.range latencyBucketEdges.length).map fun b =>
    m.sumEpochs fun e => e.latencyBuckets.getD b 0
  let total := m.sumEpochs (·.total)
  if total = 0 then none
  else
    let rank := max 1 ⌈(total : ℚ) * p⌉.toNat
    some ((bucketAtRank rank 0 aggregated latencyBucketEdges).getD latencyBucketMaxMs)

/-! ## The lifetime count -/

@[simp] theorem rotate_iterate_totalSamples (m : ResolverMetrics) (n : Nat) :
    ((rotate)^[n] m).totalSamples = m.totalSamples := by
  induction n generalizing m with
  | zero => rfl
  | succ n ih => exact ih m.rotate

/-- Turning the epochs keeps the lifetime count. -/
@[simp] theorem advance_totalSamples (m : ResolverMetrics) (now : Time) :
    (m.advance now).totalSamples = m.totalSamples := by
  unfold advance
  split
  · rfl
  · dsimp only
    split
    · rfl
    · split
      · rfl
      · exact m.rotate_iterate_totalSamples _

@[simp] theorem observe_totalSamples (m : ResolverMetrics) (now : Time)
    (o : ExchangeOutcome) : (m.observe now o).totalSamples = m.totalSamples + 1 := by
  show (m.advance now).totalSamples + 1 = m.totalSamples + 1
  rw [advance_totalSamples]

end ResolverMetrics

end DnscryptProxy
