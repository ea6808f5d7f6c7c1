import DnscryptProxy.Query.Run
import DnscryptProxy.Scheduler.Window

/-!
# The signals of an exchange

`PluginsState.exchange` collects what the transport layer notices about an
exchange. Plugins do not write it; the exchange does, and `sendResponse` when it
cuts a response for a UDP client. `observeOutcome` adds the classification of the
response and records the result.

* `completeQuery_exchange` — the signals at the end of a query: those of the
  transcript, and whether the response was cut;
* `Dispatched.noted_signals` — what the transport layer can have noticed;
* `Proxy.Records.one_class` — a recorded outcome is a success, a timeout, an error, a
  SERVFAIL or bogus, and only one of these;
* `window_exact` — a snapshot counts the outcomes of the last ten epochs.
-/

namespace DnscryptProxy

open Base ExchangeOutcome List Machine

/-! ## Nobody else writes the signals -/

section Keep

variable {W : Type*} {lib : DnsLib} {g : PluginsGlobals W} {now : Time} {w : W} {ps : PluginsState}

theorem runPlugins_exchange (phase : Phase) (plugins : List (Plugin W)) (m : Msg) :
    (runPlugins g phase now plugins w ps m).state.exchange = ps.exchange := by
  refine runPlugins_invariant (P := fun _ ps' _ => ps'.exchange = ps.exchange) ?_ ?_ plugins ?_
    w ps m rfl
  · intro _ _ _ _ h
    exact h
  · intro _ _ _ _ h
    exact h
  · intro p _ w ps' m h
    have hEval := (p.exchange_eq now w ps' m).trans h
    cases phase with
    | query => exact hEval
    | response => exact hEval

theorem exchange_passesKeep (e : ExchangeOutcome) : g.PassesKeep fun _ ps => ps.exchange = e :=
  ⟨fun _ _ _ h => h, fun _ _ _ h => h, fun p _ now w ps m h => (p.exchange_eq now w ps m).trans h⟩

theorem applyLoggingPlugins_exchange :
    (applyLoggingPlugins g now w ps).2.exchange = ps.exchange :=
  applyLoggingPlugins_keeps (exchange_passesKeep ps.exchange) rfl

theorem processPlugins_exchange (response : Bytes) :
    (processPlugins lib g now w ps response).state.exchange = ps.exchange :=
  processPlugins_keeps (exchange_passesKeep ps.exchange) rfl fun _ _ => runPlugins_exchange ..

end Keep

/-! ## Sending may cut the response -/

section Send

variable {W : Type*} {p : Proxy W} {now : Time} {w : W} {ps : PluginsState}

/-- The response is longer than what a UDP client may be sent. -/
def tooLongFor (clientProto : ClientProto) (ps : PluginsState) (response : Bytes) : Bool :=
  decide (clientProto = .udp) && decide (ps.maxUnencryptedUDPSafePayloadSize < response.length)

theorem sendResponse_exchange (now : Time) (w : W) (ps : PluginsState) (lib : DnsLib)
    (g : PluginsGlobals W) (growth : Growth) (clientProto : ClientProto) (clientPc : Bool)
    (h : Heap UInt8) (s : Slice) :
    ∃ cut, (sendResponse lib g growth now clientProto clientPc w ps h s).state.exchange =
        { ps.exchange with localTruncated := ps.exchange.localTruncated || cut } ∧
      (cut = true → tooLongFor clientProto ps (h.read s) = true) := by
  -- every branch but one leaves the signals alone
  have hKept : ∀ e : ExchangeOutcome, e = ps.exchange → ∃ cut,
      e = { ps.exchange with localTruncated := ps.exchange.localTruncated || cut } ∧
        (cut = true → tooLongFor clientProto ps (h.read s) = true) := by
    rintro e rfl
    exact ⟨false, by simp, fun hCut => (nomatch hCut)⟩
  have hRefuse : ∀ heap code, (refuseToSend g now w ps heap code).state.exchange = ps.exchange :=
    fun _ _ => applyLoggingPlugins_exchange
  unfold sendResponse
  dsimp only
  split
  · exact hKept _ (hRefuse _ _)
  · split
    · split
      · next hLong =>
        split
        · exact hKept _ (hRefuse _ _)
        · refine ⟨true, by simp, fun _ => ?_⟩
          simpa [tooLongFor] using hLong
      · exact hKept _ rfl
    · split
      · exact hKept _ (hRefuse _ _)
      · exact hKept _ rfl
    · exact hKept _ rfl
    · exact hKept _ rfl

theorem respond_exchange (p : Proxy W) (now : Time) (w : W) (ps : PluginsState) (spare : Nat)
    (client : ClientQuery) (response : Bytes) :
    ∃ cut, (p.respond now spare client w ps response).state.exchange =
        { ps.exchange with localTruncated := ps.exchange.localTruncated || cut } ∧
      (cut = true → tooLongFor client.clientProto ps response = true) := by
  unfold Proxy.respond
  split
  · exact ⟨false, applyLoggingPlugins_exchange.trans (by simp), fun hCut => (nomatch hCut)⟩
  · obtain ⟨cut, hSent, hCut⟩ := sendResponse_exchange now w ps p.lib p.globals p.growth
      client.clientProto client.clientPc ((Heap.mk []).alloc response spare).1
      ((Heap.mk []).alloc response spare).2
    refine ⟨cut, applyLoggingPlugins_exchange.trans hSent, fun h => ?_⟩
    have := hCut h
    rwa [Heap.read_alloc] at this

/-- What the response plugins hand on is too long for the client. -/
def Proxy.CutsResponse (p : Proxy W) (now : Time) (w : W) (x : Dispatched) (up : Upstream) :
    Prop :=
  ∃ b packed, ((x.transcript up).outcome p.lib).filter validResponseSize = some b ∧
    (processPlugins p.lib p.globals now w (x.transcript up).noted b).result = .ok packed ∧
    tooLongFor x.client.clientProto
      (processPlugins p.lib p.globals now w (x.transcript up).noted b).state packed = true

theorem completeQuery_exchange (p : Proxy W) (now : Time) (up : Upstream) (spare : Nat) (w : W)
    (x : Dispatched) :
    ∃ cut, (p.completeQuery now up spare w x).state.exchange =
        { (x.transcript up).noted.exchange with
          localTruncated := (x.transcript up).noted.exchange.localTruncated || cut } ∧
      (cut = true → p.CutsResponse now w x up) := by
  have hSilent : ∀ e : ExchangeOutcome, e = (x.transcript up).noted.exchange → ∃ cut,
      e = { (x.transcript up).noted.exchange with
        localTruncated := (x.transcript up).noted.exchange.localTruncated || cut } ∧
      (cut = true → p.CutsResponse now w x up) := by
    rintro e rfl
    exact ⟨false, by simp, fun hCut => (nomatch hCut)⟩
  have hPath := handleDNSExchange_path p.lib p.globals now w x up
  have hNoted := hPath.keeps (exchange_passesKeep (x.transcript up).noted.exchange) rfl
  unfold Proxy.completeQuery
  generalize handleDNSExchange p.lib p.globals now x.server up w x.state x.query
    x.client.serverProto = r at hPath hNoted ⊢
  generalize hOut : ((x.transcript up).outcome p.lib).filter validResponseSize = outcome at hPath
  cases hPath with
  | givenUp err => exact hSilent _ hNoted
  | failed code err _ => exact hSilent _ hNoted
  | answered b =>
    dsimp only
    split
    · exact hSilent _ (processPlugins_exchange b)
    · next packed hResult =>
      obtain ⟨cut, hSent, hCut⟩ := respond_exchange p now
        (processPlugins p.lib p.globals now w (x.transcript up).noted b).world
        (processPlugins p.lib p.globals now w (x.transcript up).noted b).state spare x.client packed
      rw [processPlugins_exchange] at hSent
      exact ⟨cut, hSent, fun h => ⟨b, packed, hOut, hResult, hCut h⟩⟩

end Send

/-! ## What the transport layer notices -/

/-- The signals of an exchange before its response is classified. -/
structure TransportSignals (x : Dispatched) (up : Upstream) (e : ExchangeOutcome) : Prop where
  timeout : e.timeout = false
  error : e.error = false
  servfail : e.servfail = false
  dnssecBogus : e.dnssecBogus = false
  ecsReturned : e.ecsReturned = false
  localTruncated : e.localTruncated = false
  /-- only DNSCrypt falls back to TCP, and only DoH from QUIC -/
  oneFallback : ¬(e.tcpFallback = true ∧ e.quicFallback = true)
  /-- the TC bit is one of a DNSCrypt answer over UDP -/
  truncated : e.upstreamTruncated = true → x.server.proto = .dnsCrypt ∧ udpTruncated up.udp = true

theorem exchangeOver_signals {x : Dispatched} (hProto : x.server.proto = .dnsCrypt)
    (hZero : x.state.exchange = .zero) (up : Upstream) (proto : ServerProto) :
    TransportSignals x up (exchangeOver up proto x.state).1.exchange := by
  unfold exchangeOver
  cases proto with
  | tcp =>
    dsimp only [markTCP, markUDP]
    rw [hZero]
    exact ⟨rfl, rfl, rfl, rfl, rfl, rfl, fun h => (nomatch h.1), fun h => (nomatch h)⟩
  | udp =>
    dsimp only [exchangeOverUDP, markUDP]
    rw [hZero]
    -- with the retry over TCP, and without it
    split
    · split
      · refine ⟨rfl, rfl, rfl, rfl, rfl, rfl, fun h => (nomatch h.2), fun h => ⟨hProto, ?_⟩⟩
        simpa [zero] using h
      · refine ⟨rfl, rfl, rfl, rfl, rfl, rfl, fun h => (nomatch h.2), fun h => ⟨hProto, ?_⟩⟩
        simpa [markTCP, zero] using h
    · exact ⟨rfl, rfl, rfl, rfl, rfl, rfl, fun h => (nomatch h.1), fun h => (nomatch h)⟩

theorem applyHTTPFetchTrace_signals {x : Dispatched} (hZero : x.state.exchange = .zero)
    (up : Upstream) (ft : Option FetchTrace) (odoh : Bool) :
    TransportSignals x up (applyHTTPFetchTrace x.state ft odoh).exchange := by
  unfold applyHTTPFetchTrace
  cases ft with
  | none =>
    rw [hZero]
    exact ⟨rfl, rfl, rfl, rfl, rfl, rfl, fun h => (nomatch h.1), fun h => (nomatch h)⟩
  | some ft =>
    rw [hZero]
    exact ⟨rfl, rfl, rfl, rfl, rfl, rfl, fun h => (nomatch h.1), fun h => (nomatch h)⟩

theorem Dispatched.noted_signals {x : Dispatched} (hZero : x.state.exchange = .zero)
    (up : Upstream) : TransportSignals x up (x.transcript up).noted.exchange := by
  have hNothing : TransportSignals x up x.state.exchange := by
    rw [hZero]
    exact ⟨rfl, rfl, rfl, rfl, rfl, rfl, fun h => (nomatch h.1), fun h => (nomatch h)⟩
  rcases x.noted_cases up with h | ⟨hProto, proto, h⟩ | ⟨odoh, h⟩
  · exact h ▸ hNothing
  · exact h ▸ exchangeOver_signals hProto hZero up proto
  · exact h ▸ applyHTTPFetchTrace_signals hZero up up.fetchTrace odoh

/-! ## What is recorded -/

section Recorded

variable {W : Type*} {p : Proxy W}

theorem beginQuery_exchange {now : Time} {first second : Draws} {spare : Nat}
    {servers servers' : ServersInfo} {w w' : W} {client : ClientQuery} {x : Dispatched}
    (h : p.beginQuery now first second spare servers w client = .dispatched servers' w' x) :
    x.state.exchange = .zero := by
  obtain ⟨hErr, -, relayName, hState⟩ := beginQuery_dispatched h
  obtain ⟨r, packet2, hChain, hPass⟩ := queryPass_passed hErr
  obtain ⟨msg, -, qName, -, -, rfl, -⟩ := runQueryChain_passed hChain
  have hRun : (runPlugins p.globals .query now p.globals.queryPlugins w
      { p.newState client with
        qName := qName, questionMsg := some msg } msg).state.exchange = .zero :=
    runPlugins_exchange ..
  rw [hState]
  -- with or without padding of the stored question
  rcases hPass with hPass | hPass
  · rw [hPass]
    exact hRun
  · rw [hPass]
    exact hRun

/-- `o` is what `observeOutcome` records when the exchange `x` completes at `now`. -/
def Proxy.RecordsAt (p : Proxy W) (now : Time) (up : Upstream) (spare : Nat) (w : W)
    (x : Dispatched) (o : ExchangeOutcome) : Prop :=
  ∃ start, (p.completeQuery now up spare w x).state.exchangeStart = some start ∧
    o = exchangeOutcome p.lib p.params.timeout (now - start)
      (p.completeQuery now up spare w x).state
      (p.completeQuery now up spare w x).response (p.completeQuery now up spare w x).queryErr

/-- `o` is what `observeOutcome` records for some query: it arrives, its exchange
is dispatched, and it completes in whatever has become of the world by then. -/
def Proxy.Records (p : Proxy W) (o : ExchangeOutcome) : Prop :=
  ∃ arrival first second spare₀ servers w₀ client servers' w₁ x now up spare w,
    p.beginQuery arrival first second spare₀ servers w₀ client = .dispatched servers' w₁ x ∧
      p.RecordsAt now up spare w x o

/-- What can be said of the outcome of every exchange. -/
structure OutcomeSignals (p : Proxy W) (now : Time) (up : Upstream) (w : W) (x : Dispatched)
    (o : ExchangeOutcome) : Prop where
  oneClass : ([o.isSuccess, o.timeout, o.error, o.servfail, o.dnssecBogus].count true) = 1
  oneFallback : ¬(o.tcpFallback = true ∧ o.quicFallback = true)
  upstreamTruncated : o.upstreamTruncated = true →
    x.server.proto = .dnsCrypt ∧ udpTruncated up.udp = true
  localTruncated : o.localTruncated = true → p.CutsResponse now w x up

/-- A SERVFAIL is bogus or it is not. -/
theorem classifyExchangeResponse_exclusive (lib : DnsLib) (response : Bytes) (dnssec : Bool) :
    ((classifyExchangeResponse lib response dnssec).1 &&
      (classifyExchangeResponse lib response dnssec).2.1) = false := by
  unfold classifyExchangeResponse
  split
  · rfl
  · dsimp only
    split <;> cases dnssec <;> simp

/-- The outcome of an exchange that was dispatched with a clean slate. -/
theorem Proxy.RecordsAt.signals {now : Time} {up : Upstream} {spare : Nat} {w : W} {x : Dispatched}
    {o : ExchangeOutcome} (hZero : x.state.exchange = .zero)
    (h : p.RecordsAt now up spare w x o) : OutcomeSignals p now up w x o := by
  obtain ⟨start, -, rfl⟩ := h
  obtain ⟨cut, hExchange, hCut⟩ := completeQuery_exchange p now up spare w x
  have hNoted := x.noted_signals hZero up
  generalize p.completeQuery now up spare w x = f at hExchange
  have hClass := classifyExchangeResponse_exclusive p.lib f.response f.state.dnssec
  unfold exchangeOutcome
  generalize classifyExchangeResponse p.lib f.response f.state.dnssec = flags at hClass
  obtain ⟨servfail, bogus, ecs⟩ := flags
  rw [hExchange, hNoted.localTruncated, Bool.false_or]
  -- only the class of the outcome is decided here
  have hRest : ∀ o : ExchangeOutcome, o.tcpFallback = (x.transcript up).noted.exchange.tcpFallback →
      o.quicFallback = (x.transcript up).noted.exchange.quicFallback →
      o.upstreamTruncated = (x.transcript up).noted.exchange.upstreamTruncated →
      o.localTruncated = cut →
      ([o.isSuccess, o.timeout, o.error, o.servfail, o.dnssecBogus].count true) = 1 →
      OutcomeSignals p now up w x o := by
    intro o hTcp hQuic hUp hLocal hOne
    refine ⟨hOne, ?_, ?_, ?_⟩
    · rw [hTcp, hQuic]
      exact hNoted.oneFallback
    · rw [hUp]
      exact hNoted.truncated
    · rw [hLocal]
      exact hCut
  split
  · split
    · exact hRest _ rfl rfl rfl rfl (by
        simp [isSuccess, hNoted.error, hNoted.servfail, hNoted.dnssecBogus])
    · split
      · exact hRest _ rfl rfl rfl rfl (by
          simp [isSuccess, hNoted.error, hNoted.servfail, hNoted.dnssecBogus])
      · exact hRest _ rfl rfl rfl rfl (by
          simp [isSuccess, hNoted.timeout, hNoted.servfail, hNoted.dnssecBogus])
  · refine hRest _ rfl rfl rfl rfl ?_
    simp only [isSuccess, hNoted.timeout, hNoted.error]
    -- a response was classified: not both flags, and a success if none
    cases servfail <;> cases bogus <;> simp at hClass ⊢

theorem Proxy.Records.one_class {o : ExchangeOutcome} (h : p.Records o) :
    [o.isSuccess, o.timeout, o.error, o.servfail, o.dnssecBogus].count true = 1 := by
  obtain ⟨_, _, _, _, _, _, _, _, _, x, _, _, _, _, hBegun, hAt⟩ := h
  exact (hAt.signals (beginQuery_exchange hBegun)).oneClass

end Recorded

/-! ## The window of what was recorded -/

/-- After any calls of a store, a snapshot counts the outcomes of the last ten epochs
by flag, the histogram and the two connection counters add up to its samples, and the
lifetime count is that of every outcome ever observed. Where the outcomes are those of
the proxy's exchanges, the five classes add up to the samples too. -/
theorem window_exact {W : Type*} (p : Proxy W) {window : Duration} {s : MetricsState} {now : Time}
    (hd : 0 < (newResolverMetricsWithWindow window).epochDur)
    (hs : (metricsMachine window).Reach anyStep s) (hNow : s.clock ≤ now) :
    s.metrics.snapshot now = windowCounts (s.window now) s.history.length
        (s.metrics.advance now).latencyEwmaMs (s.metrics.advance now).jitterEwmaMs ∧
      (s.metrics.advance now).histogram.sum = (s.metrics.snapshot now).samples ∧
      (s.metrics.snapshot now).connNew + (s.metrics.snapshot now).connReused =
        (s.metrics.snapshot now).samples ∧
      (s.metrics.snapshot now).totalSamples = s.history.length ∧
      ((∀ x ∈ s.history, p.Records x.2) →
        (s.metrics.snapshot now).success + (s.metrics.snapshot now).timeout +
          (s.metrics.snapshot now).errors + (s.metrics.snapshot now).servfail +
          (s.metrics.snapshot now).dnssecBogus = (s.metrics.snapshot now).samples) := by
  have hSnapshot := snapshot_eq hd hs hNow
  refine ⟨hSnapshot, ?_, ?_, ?_, ?_⟩
  · rw [hSnapshot]
    exact histogram_sum hd hs hNow
  · rw [hSnapshot]
    show (s.window now).countP (!·.connReused) + (s.window now).countP (·.connReused) =
      (s.window now).length
    rw [length_eq_countP_add_countP (·.connReused), add_comm]
    simp
  · rw [hSnapshot]
    rfl
  · intro hRecords
    rw [hSnapshot]
    refine countP_classes fun o ho => ?_
    -- the window is a part of the history
    obtain ⟨x, hx, rfl⟩ := mem_map.mp ho
    exact (hRecords x (mem_of_mem_filter hx)).one_class

/-- What is recorded when the first exchange of `bareProxy` completes at `now`. -/
def bareOutcome (now : Time) (up : Upstream) : ExchangeOutcome :=
  let f := bareProxy.completeQuery now up 0 () bareExchange
  exchangeOutcome rootLib defaultProxyParams.timeout now f.state f.response f.queryErr

theorem bareOutcome_records {now : Time} {up : Upstream}
    (hStart : (bareProxy.completeQuery now up 0 () bareExchange).state.exchangeStart = some 0) :
    bareProxy.Records (bareOutcome now up) := by
  obtain ⟨servers, w, hBegun⟩ := bareExchange_begun
  refine ⟨_, _, _, _, _, _, _, _, _, _, now, up, 0, (), hBegun, 0, hStart, ?_⟩
  rw [sub_zero]
  rfl

/-- An answer, an answer 200 s later and a timeout 100 s after that. -/
def threeOutcomes : List MetricsCall :=
  [.observe 0 (bareOutcome Millisecond rootUpstream),
    .observe (200 * Second) (bareOutcome Millisecond rootUpstream),
    .observe (300 * Second) (bareOutcome (5 * Second) deadUpstream)]

theorem threeOutcomes_isSome :
    ((metricsMachine metricsWindow).exec newMetricsState threeOutcomes).isSome = true := rfl

/-- When the window is over for the first, the classes add up to the other two. -/
theorem window_exact_expired :
    let s := ((metricsMachine metricsWindow).exec newMetricsState threeOutcomes).get
      threeOutcomes_isSome
    let w := s.metrics.snapshot (300 * Second)
    w.totalSamples = 3 ∧ w.samples = 2 ∧
      w.success + w.timeout + w.errors + w.servfail + w.dnssecBogus = 2 := by
  intro s w
  have hReach : (metricsMachine metricsWindow).Reach anyStep s :=
    .exec_get (.init newMetricsState_init) threeOutcomes_isSome
  have hAnswer : bareProxy.Records (bareOutcome Millisecond rootUpstream) :=
    bareOutcome_records (by decide +kernel)
  have hTimeout : bareProxy.Records (bareOutcome (5 * Second) deadUpstream) :=
    bareOutcome_records (by decide +kernel)
  have hRecords : ∀ x ∈ s.history, bareProxy.Records x.2 :=
    forall_mem_cons.mpr ⟨hAnswer, forall_mem_cons.mpr ⟨hAnswer, forall_mem_singleton.mpr hTimeout⟩⟩
  obtain ⟨hSnapshot, -, -, hTotal, hClasses⟩ :=
    window_exact bareProxy (by decide) hReach (le_refl (300 * Second))
  have hSamples : w.samples = 2 := by
    show (s.metrics.snapshot (300 * Second)).samples = 2
    rfl
  exact ⟨hTotal, hSamples, (hClasses hRecords).trans hSamples⟩

end DnscryptProxy
