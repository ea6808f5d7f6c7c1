import DnscryptProxy.Scheduler.Metrics

/-!
# The multi-dimensional scheduler

`LBStrategyMDS` of `scheduler_mds.go`: scoring, the sticky primary, random
exploration and one circuit breaker per resolver name. Both operations run
under the lock of `ServersInfo`, so each is a function on the scheduler state:

* `selectCandidateLocked` — pick a candidate for one query;
* `observeFeedbackLocked` — digest the outcome of one exchange.

The clock and the random draws are arguments. Scores are exact rationals.
-/

namespace DnscryptProxy

open Function

/-! ## Parameters and state -/

structure MDSParams where
  warmupSamples : Nat
  penaltyMinSamples : Nat
  switchMargin : ℚ
  tieBand : ℚ
  dwell : Duration
  exploreProb : ℚ
  breakerThreshold : Nat
  halfOpenInterval : Duration
  weightTimeout : ℚ
  weightErrors : ℚ
  weightServfail : ℚ
  weightBogus : ℚ
  weightTruncated : ℚ
  weightFallback : ℚ
  weightConnNew : ℚ
  weightJitter : ℚ

def defaultMDSParams : MDSParams :=
  { warmupSamples := 20, penaltyMinSamples := 10, switchMargin := 15 / 100, tieBand := 3 / 100,
    dwell := 5 * Second, exploreProb := 15 / 100, breakerThreshold := 3,
    halfOpenInterval := 10 * Second, weightTimeout := 5 / 10, weightErrors := 3 / 10,
    weightServfail := 2 / 10, weightBogus := 5 / 10, weightTruncated := 5 / 100,
    weightFallback := 1 / 10, weightConnNew := 5 / 100, weightJitter := 1 / 10 }

/-- `mdsCircuit`: the breaker of one resolver. -/
structure MdsCircuit where
  /-- a `uint32` -/
  consecHardFails : Nat
  «open» : Bool
  /-- one half-open probe query is in flight -/
  probing : Bool
  openedAt : Time
  nextProbeAt : Time
  /-- a `uint64`; warmup semantics apply below this lifetime sample count -/
  recoverUntilTotal : Nat
deriving Repr, DecidableEq

/-- `&mdsCircuit{}`. -/
def MdsCircuit.zero : MdsCircuit :=
  { consecHardFails := 0, «open» := false, probing := false, openedAt := 0, nextProbeAt := 0,
    recoverUntilTotal := 0 }

structure LBStrategyMDS where
  params : MDSParams
  primaryName : String
  primarySince : Time
  circuits : String → Option MdsCircuit
  totalSwitches : Nat
  switchesByName : String → Nat

def newLBStrategyMDS (params : MDSParams) : LBStrategyMDS :=
  { params := params, primaryName := "", primarySince := 0, circuits := fun _ => none,
    totalSwitches := 0, switchesByName := fun _ => 0 }

/-- What the scheduler reads of a live server. -/
structure ServerProps where
  name : String
  /-- milliseconds, from the certificate probe -/
  initialRtt : Int
  noFilter : Bool
  dnssec : Bool
deriving Repr, DecidableEq

structure ResolverCandidate where
  server : ServerProps
  metrics : ResolverMetrics

/-! ## Scoring -/

structure MdsScored where
  name : String
  warming : Bool
  «open» : Bool
  tailMs : ℚ
  cost : ℚ
  penalty : ℚ
  base : ℚ
  soft : ℚ
deriving Repr, DecidableEq

namespace LBStrategyMDS

variable (mds : LBStrategyMDS)

/-- `mds.circuits[name] != nil && mds.circuits[name].open`. -/
def isOpen (name : String) : Bool := (mds.circuits name).any (·.open)

def isWarmingLocked (name : String) (totalSamples warmupSamples : Nat) : Bool :=
  if totalSamples < warmupSamples then true
  else (mds.circuits name).any fun cb => decide (totalSamples < cb.recoverUntilTotal)

def softPreference (server : ServerProps) (w : MetricsWindow) (warming : Bool) : ℚ :=
  (if server.noFilter then 1 else 0) + (if server.dnssec then 1 else 0) +
    (if !warming && decide (mds.params.penaltyMinSamples ≤ w.samples) then
      (w.ecsReturned : ℚ) / w.samples
    else 0)

/-- The tail-latency indicator of one candidate. -/
def tailMs (c : ResolverCandidate) (w : MetricsWindow) (warming : Bool) (now : Time) : ℚ :=
  let initialMs : ℚ := c.server.initialRtt
  if warming then initialMs
  else
    let latency := if w.latencyEwmaMs ≤ 0 then initialMs else w.latencyEwmaMs
    -- the percentile forgets, the average does not: without samples in the window, the latter
    let tail := match c.metrics.percentile now (95 / 100) with
      | some p95ms => 6 / 10 * latency + 4 / 10 * p95ms
      | none => latency
    if tail ≤ 0 then initialMs else tail

/-- The weighted quality penalties of one candidate. -/
def penalty (w : MetricsWindow) (warming : Bool) (tail : ℚ) : ℚ :=
  let p := mds.params
  if !warming && decide (p.penaltyMinSamples ≤ w.samples) then
    let rate (n : Nat) : ℚ := (n : ℚ) / w.samples
    let jitterRatio : ℚ := if 0 < tail then min 1 (w.jitterEwmaMs / tail) else 0
    p.weightTimeout * rate w.timeout + p.weightErrors * rate w.errors +
      p.weightServfail * rate w.servfail + p.weightBogus * rate w.dnssecBogus +
      p.weightTruncated * rate w.truncated +
      p.weightFallback * rate (w.tcpFallback + w.quicFallback) +
      p.weightConnNew * rate w.connNew + p.weightJitter * jitterRatio
  else 0

/-- The first loop of `scoreAll`: everything but `cost` and `base`. -/
def scoreOne (now : Time) (c : ResolverCandidate) : MdsScored :=
  let w := c.metrics.snapshot now
  let warming := mds.isWarmingLocked c.server.name w.totalSamples mds.params.warmupSamples
  let tail := tailMs c w warming now
  { name := c.server.name, warming := warming, «open» := mds.isOpen c.server.name,
    tailMs := tail, cost := 0, penalty := mds.penalty w warming tail, base := 0,
    soft := mds.softPreference c.server w warming }

/-- The second loop of `scoreAll`: latency cost relative to the spread. -/
def normalize (bestTail worstTail : ℚ) (s : MdsScored) : MdsScored :=
  let spread := worstTail - bestTail
  let cost := if 1 / 1000000000 < spread then max 0 (min 1 ((s.tailMs - bestTail) / spread)) else 0
  { s with cost := cost, base := 1 - cost - s.penalty }

/-- The running minimum of `scoreAll`, which starts above every float. -/
def bestTail : List ℚ → ℚ
  | [] => 0
  | [t] => t
  | t :: ts => min t (bestTail ts)

/-- The running maximum of `scoreAll`, which starts at zero. -/
def worstTail : List ℚ → ℚ
  | [] => 0
  | t :: ts => max t (worstTail ts)

def scoreAll (now : Time) (candidates : List ResolverCandidate) : List MdsScored :=
  let raw := candidates.map (mds.scoreOne now)
  let tails := raw.map (·.tailMs)
  raw.map (normalize (bestTail tails) (worstTail tails))

def better (a b : MdsScored) : Bool :=
  if mds.params.tieBand < |a.base - b.base| then decide (b.base < a.base)
  else if a.soft ≠ b.soft then decide (b.soft < a.soft)
  else decide (a.name < b.name)

/-! ## Selection -/

/-- An open circuit whose probe is due at `now`. -/
def probeDue (now : Time) (name : String) : Bool :=
  (mds.circuits name).any fun cb => !cb.probing && decide (cb.nextProbeAt ≤ now)

/-- `pickHalfOpenProbe`, carrying the best pick so far with its `openedAt`. -/
def pickHalfOpenProbeFrom (now : Time) :
    Nat → Option (Nat × Time) → List MdsScored → Option (Nat × Time)
  | _, pick, [] => pick
  | i, pick, s :: rest =>
    if s.open && mds.probeDue now s.name then
      let openedAt := ((mds.circuits s.name).getD .zero).openedAt
      match pick with
      | none => pickHalfOpenProbeFrom now (i + 1) (some (i, openedAt)) rest
      | some (j, earliest) =>
        if openedAt < earliest then
          pickHalfOpenProbeFrom now (i + 1) (some (i, openedAt)) rest
        else pickHalfOpenProbeFrom now (i + 1) (some (j, earliest)) rest
    else pickHalfOpenProbeFrom now (i + 1) pick rest

variable (now : Time) (scored : List MdsScored)

def pickHalfOpenProbe : Option Nat :=
  (mds.pickHalfOpenProbeFrom now 0 none scored).map Prod.fst

/-- The indices exploration may use: neither the primary nor an open circuit. -/
def exploreIdxs (scored : List MdsScored) (primaryIdx : Option Nat) : List Nat :=
  (List.range scored.length).filter fun i =>
    decide (some i ≠ primaryIdx) && !(scored[i]?.any (·.open))

/-- `pickExploreTarget`; `pickDraw` is the value behind `rng.Intn`. -/
def pickExploreTarget (scored : List MdsScored) (primaryIdx : Option Nat) (pickDraw : Nat) :
    Option Nat :=
  let healthy := exploreIdxs scored primaryIdx
  let warming := healthy.filter fun i => scored[i]?.any (·.warming)
  let pool := if warming.length > 0 then warming else healthy
  if pool.length = 0 then none else pool[pickDraw % pool.length]?

/-- `bestHealthy`, carrying the best index so far. -/
def bestHealthyFrom (exclude : Option Nat) :
    Nat → Option (Nat × MdsScored) → List MdsScored → Option (Nat × MdsScored)
  | _, best, [] => best
  | i, best, s :: rest =>
    if some i = exclude ∨ s.open = true then bestHealthyFrom exclude (i + 1) best rest
    else
      match best with
      | none => bestHealthyFrom exclude (i + 1) (some (i, s)) rest
      | some (j, b) =>
        if mds.better s b then bestHealthyFrom exclude (i + 1) (some (i, s)) rest
        else bestHealthyFrom exclude (i + 1) (some (j, b)) rest

def bestHealthy (scored : List MdsScored) (exclude : Option Nat) : Option (Nat × MdsScored) :=
  mds.bestHealthyFrom exclude 0 none scored

/-- The fallback loop when every circuit is open. -/
def bestOfAllFrom : Nat → Nat × MdsScored → List MdsScored → Nat × MdsScored
  | _, best, [] => best
  | i, best, s :: rest =>
    if mds.better s best.2 then bestOfAllFrom (i + 1) (i, s) rest
    else bestOfAllFrom (i + 1) best rest

/-- `becomePrimary` at `now`. -/
def becomePrimary (now : Time) (name : String) : LBStrategyMDS :=
  if mds.primaryName = name then mds
  else
    { mds with
      totalSwitches := mds.totalSwitches + 1
      switchesByName := update mds.switchesByName name (mds.switchesByName name + 1)
      primaryName := name
      primarySince := now }

/-- Mark the half-open probe of `name`. -/
def markProbing (name : String) : LBStrategyMDS :=
  { mds with
    circuits := update mds.circuits name
      ((mds.circuits name).map fun cb => { cb with probing := true }) }

/-- Step 4 of `selectCandidateLocked`: the best healthy resolver becomes the
primary; when every breaker is open, the best of all does. -/
def selectBest : LBStrategyMDS × Nat :=
  match mds.bestHealthy scored none with
  | some best => (mds.becomePrimary now best.2.name, best.1)
  | none =>
    match scored with
    | [] => (mds, 0)
    | first :: rest =>
      let best := mds.bestOfAllFrom 1 (0, first) rest
      (mds.becomePrimary now best.2.name, best.1)

/-- Steps 3 and 4 of `selectCandidateLocked`: the sticky primary, or the best
resolver when there is none to stick to. -/
def selectPrimary (primaryIdx : Option Nat) : LBStrategyMDS × Nat :=
  match primaryIdx.bind fun p => scored[p]?.map fun s => (p, s) with
  | none => mds.selectBest now scored
  | some (p, primary) =>
    if primary.open then mds.selectBest now scored
    else
      match mds.bestHealthy scored (some p) with
      | none => (mds, p)
      | some (bestOther, other) =>
        -- against oscillation: a primary stays for a while, and a small lead is no reason
        if now - mds.primarySince < mds.params.dwell then (mds, p)
        else if mds.params.switchMargin ≤ other.base - primary.base ∧
            mds.better other primary = true then
          (mds.becomePrimary now other.name, bestOther)
        else (mds, p)

/-- `selectCandidateLocked`. `draw` is `rng.Float64()`, `pickDraw` the value
behind `rng.Intn`. -/
def selectCandidateLocked (now : Time) (draw : ℚ) (pickDraw : Nat)
    (candidates : List ResolverCandidate) : LBStrategyMDS × Nat :=
  match candidates with
  | [] => (mds, 0)
  | [c] => (mds.becomePrimary now c.server.name, 0)
  | _ =>
    let scored := mds.scoreAll now candidates
    let primaryIdx := scored.findIdx? fun s => decide (s.name = mds.primaryName)
    -- a probe that is due goes before anything else, exploration before the primary
    match mds.pickHalfOpenProbe now scored with
    | some probeIdx => (mds.markProbing ((scored[probeIdx]?.map (·.name)).getD ""), probeIdx)
    | none =>
      let explore :=
        if draw < mds.params.exploreProb then pickExploreTarget scored primaryIdx pickDraw else none
      match explore with
      | some exploreIdx => (mds, exploreIdx)
      | none => mds.selectPrimary now scored primaryIdx

/-! ## Feedback -/

def circuitFor (name : String) : MdsCircuit := (mds.circuits name).getD .zero

end LBStrategyMDS

/-- The body of `observeFeedbackLocked`: one breaker digests one outcome. -/
def MdsCircuit.observe (params : MDSParams) (now : Time) (cb : MdsCircuit) (hardFailure : Bool)
    (totalSamples : Nat) : MdsCircuit :=
  if hardFailure then
    if cb.open && cb.probing then
      -- the half-open probe failed: wait another interval
      { cb with
        consecHardFails := (cb.consecHardFails + 1) % 2 ^ 32
        probing := false
        nextProbeAt := now + params.halfOpenInterval }
    else if totalSamples < cb.recoverUntilTotal then
      -- a failure inside recovery probation ends it and seeds a fresh streak
      { cb with recoverUntilTotal := 0, consecHardFails := 1 }
    else if totalSamples < params.warmupSamples then
      -- a new resolver gets away with it
      { cb with consecHardFails := 0 }
    else
      let fails := (cb.consecHardFails + 1) % 2 ^ 32
      if !cb.open && decide (params.breakerThreshold ≤ fails) then
        { consecHardFails := fails
          «open» := true
          openedAt := now
          nextProbeAt := now + params.halfOpenInterval
          probing := false
          recoverUntilTotal := 0 }
      else { cb with consecHardFails := fails }
  else if cb.open && cb.probing then
    -- the probe proved reachability: close, and re-enter warmup semantics
    { cb with
      consecHardFails := 0
      «open» := false
      probing := false
      recoverUntilTotal := (totalSamples + params.warmupSamples) % 2 ^ 64 }
  else { cb with consecHardFails := 0 }

def LBStrategyMDS.observeFeedbackLocked (mds : LBStrategyMDS) (now : Time) (name : String)
    (o : ExchangeOutcome) (totalSamples : Nat) : LBStrategyMDS :=
  { mds with
    circuits := update mds.circuits name
      (some ((mds.circuitFor name).observe mds.params now o.hardFailure totalSamples)) }

end DnscryptProxy
