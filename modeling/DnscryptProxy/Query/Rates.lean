import DnscryptProxy.Query.Signals
import DnscryptProxy.Scheduler.MdsRun
import DnscryptProxy.Scheduler.Report

/-!
# Rates over whole runs

Every outcome that reaches a metric store comes from an exchange of the proxy. One
exchange never falls back from both UDP and QUIC. It can be truncated twice: its
answer over UDP had the TC bit, and the one from the retry over TCP is too long for
the client.

* `beginQuery_servers` — an arriving query changes the registry by selections only;
* `penalty_rates_are_rates` — in a run without an exchange truncated twice every ratio is
  a rate, and no penalty exceeds the sum of the weights;
* `truncated_twice` — otherwise a rate can be two.
-/

namespace DnscryptProxy

open Base Option List

/-! ## The registry between two steps -/

/-- The registry after an arrival. -/
def Begun.servers {W : Type*} : Begun W → ServersInfo
  | .finished servers _ => servers
  | .dispatched servers _ _ => servers

section Arrival

variable {P : ServersInfo → Prop} {now : Time}

theorem Selection.select_servers
    (hGet : ∀ si draw pickDraw, P si → P (si.getOne now draw pickDraw).1) (d : Draws)
    {sel : Selection} (h : P sel.servers) : P (sel.select now d).servers := by
  have hPicked := hGet sel.servers d.draw d.pickDraw h
  unfold Selection.select
  split
  · exact h
  · split
    · next hOne =>
      rw [hOne] at hPicked
      exact hPicked
    · next hOne =>
      rw [hOne] at hPicked
      exact hPicked

theorem beginQuery_servers {W : Type*} {p : Proxy W} {first second : Draws} {spare : Nat}
    {servers : ServersInfo} {w : W} {client : ClientQuery}
    (hGet : ∀ si draw pickDraw, P si → P (si.getOne now draw pickDraw).1) (h : P servers) :
    P (p.beginQuery now first second spare servers w client).servers := by
  have hPass : P (p.queryPass now first servers w client).sel.servers := by
    have hSel : (p.queryPass now first servers w client).sel = _ ∨ _ := queryPass_sel
    rcases hSel with hIdle | hSelected
    · rw [hIdle]
      exact h
    · rw [hSelected]
      exact Selection.select_servers hGet first h
  have hDispatch : ∀ ps response, P (p.dispatch now second spare client
      (p.queryPass now first servers w client) ps response).servers := by
    intro ps response
    have hAgain := Selection.select_servers hGet second hPass
    unfold Proxy.dispatch
    split
    · dsimp only
      split
      · exact hAgain
      · exact hAgain
    · exact hPass
  have hPath := beginQuery_path p now first second spare servers w client
  generalize p.beginQuery now first second spare servers w client = b at hPath ⊢
  cases hPath with
  | invalid => exact h
  | dropped => exact hPass
  | unanswered => exact hPass
  | goesOn _ _ hEq =>
    rw [hEq]
    exact hDispatch _ _

end Arrival

/-- The parameters are in range, and every store has been told outcomes that count
once. -/
structure ServersInfo.Accounted (si : ServersInfo) : Prop where
  params : si.mds.params.WeightsInRange
  stores : si.Tallied ExchangeOutcome.CountedOnce

namespace ServersInfo.Accounted

variable {si : ServersInfo}

theorem advance (h : si.Accounted) {si' : ServersInfo} (hParams : si'.mds.params = si.mds.params)
    (now : Time) (hStores : ∀ name, si'.metrics name = si.metrics name ∨
      si'.metrics name = (si.metrics name).map (·.advance now)) : si'.Accounted := by
  refine ⟨hParams ▸ h.params, ?_⟩
  intro name m hm
  -- turning epochs drops outcomes and adds none
  rcases hStores name with hSame | hTurned
  · exact h.stores name m (hSame ▸ hm)
  · rw [hTurned] at hm
    obtain ⟨old, hOld, rfl⟩ := map_eq_some_iff.mp hm
    exact (h.stores name old hOld).advance now

theorem getOne (h : si.Accounted) (now : Time) (draw : ℚ) (pickDraw : Nat) :
    (si.getOne now draw pickDraw).1.Accounted := by
  unfold ServersInfo.getOne
  split
  · exact h
  · refine h.advance (LBStrategyMDS.selectCandidateLocked_breakers ..).1 now fun name => ?_
    dsimp only [advanceMetrics]
    split
    · exact .inr rfl
    · exact .inl rfl

theorem readForReport (h : si.Accounted) (now : Time) : (si.readForReport now).Accounted := by
  refine h.advance rfl now fun name => ?_
  dsimp only [ServersInfo.readForReport]
  split
  · exact .inr rfl
  · exact .inl rfl

theorem update (h : si.Accounted) {si' : ServersInfo} (hParams : si'.mds.params = si.mds.params)
    {name : String} {m : ResolverMetrics} (hm : m.Tallied ExchangeOutcome.CountedOnce)
    (hStores : si'.metrics = Function.update si.metrics name (some m)) : si'.Accounted := by
  refine ⟨hParams ▸ h.params, ?_⟩
  intro name' m' hm'
  rw [hStores, Function.update_apply] at hm'
  split at hm'
  · obtain rfl := some.inj hm'
    exact hm
  · exact h.stores name' m' hm'

theorem publish (h : si.Accounted) (new : ServerInfo) : (si.publish new).Accounted :=
  h.update rfl (h.stores.metricsForLocked new.name) rfl

theorem recordOutcome (h : si.Accounted) (now : Time) (timeout elapsed : Duration) (dropped : Bool)
    (name : String) {o : ExchangeOutcome} (ho : o.CountedOnce) :
    (si.recordOutcome now timeout elapsed dropped name o).Accounted :=
  h.update rfl ((h.stores.metricsForLocked name).observe now ho) rfl

end ServersInfo.Accounted

/-! ## Runs -/

/-- A step of the proxy, or the scheduler report is built. -/
inductive ReportedLabel (W : Type*) where
  | proxy (l : ProxyLabel W)
  | report (now : Time)

/-- The proxy with somebody who asks for reports. No exchange has been recorded at
first, and the parameters are as the configuration admits them. -/
def reportedMachine {W : Type*} (p : Proxy W) : Machine (ProxyState W) (ReportedLabel W) where
  init s := (proxyMachine p).init s ∧ s.servers.metrics = (fun _ => none) ∧
    s.servers.mds.params.WeightsInRange
  step s
    | .proxy l => (proxyMachine p).step s l
    | .report now => some { s with servers := s.servers.readForReport now }

/-- No exchange completes whose DNSCrypt answer over UDP had the TC bit and whose
final response is too long for the client. -/
def TruncatedOnce {W : Type*} (p : Proxy W) (s : ProxyState W) : ReportedLabel W → Prop
  | .proxy (.complete id now up _) => ∀ x, (id, x) ∈ s.inFlight →
      ¬(x.server.proto = .dnsCrypt ∧ udpTruncated up.udp = true ∧ p.CutsResponse now s.world x up)
  | _ => True

/-- What holds throughout such a run. -/
structure RatesInv {W : Type*} (s : ProxyState W) : Prop where
  /-- exchanges are dispatched with a clean slate -/
  clean : ∀ y ∈ s.inFlight, y.2.state.exchange = .zero
  servers : s.servers.Accounted

namespace RatesInv

variable {W : Type*} {p : Proxy W} {s s' : ProxyState W}

theorem arrive (h : RatesInv s) (client : ClientQuery) (now : Time) (first second : Draws)
    (spare : Nat) : RatesInv (s.arrive p client now first second spare) := by
  have hServers :
      (p.beginQuery now first second spare s.servers s.world client).servers.Accounted :=
    beginQuery_servers (P := ServersInfo.Accounted) (fun _ draw pickDraw hsi =>
      hsi.getOne now draw pickDraw) h.servers
  unfold ProxyState.arrive
  cases hBegun : p.beginQuery now first second spare s.servers s.world client with
  | finished servers f =>
    rw [hBegun] at hServers
    exact ⟨h.clean, hServers⟩
  | dispatched servers w x =>
    rw [hBegun] at hServers
    refine ⟨?_, hServers⟩
    intro y hy
    rcases mem_append.mp hy with hOld | hNew
    · exact h.clean y hOld
    · obtain rfl := mem_singleton.mp hNew
      exact beginQuery_exchange hBegun

theorem complete (h : RatesInv s) {id : Nat} {x : Dispatched} (hx : (id, x) ∈ s.inFlight)
    {now : Time} {up : Upstream} (spare : Nat)
    (hOnce : ¬(x.server.proto = .dnsCrypt ∧ udpTruncated up.udp = true ∧
      p.CutsResponse now s.world x up)) :
    RatesInv (s.complete p id x now up spare) := by
  refine ⟨fun y hy => h.clean y (mem_of_mem_filter hy), ?_⟩
  show (observeOutcome p.lib p.params.timeout now s.servers
    (p.completeQuery now up spare s.world x).state (p.completeQuery now up spare s.world x).response
    (p.completeQuery now up spare s.world x).queryErr).Accounted
  unfold observeOutcome
  split
  · exact h.servers
  · next start hStart =>
    split
    · exact h.servers
    · -- the outcome carries at most one flag of each pair
      have hSignals := Proxy.RecordsAt.signals (h.clean _ hx)
        ⟨start, hStart, (rfl : exchangeOutcome p.lib p.params.timeout (now - start)
          (p.completeQuery now up spare s.world x).state
          (p.completeQuery now up spare s.world x).response
          (p.completeQuery now up spare s.world x).queryErr = _)⟩
      refine h.servers.recordOutcome _ _ _ _ _ ⟨?_, hSignals.oneFallback⟩
      rintro ⟨hUp, hLocal⟩
      obtain ⟨hProto, hTC⟩ := hSignals.upstreamTruncated hUp
      exact hOnce ⟨hProto, hTC, hSignals.localTruncated hLocal⟩

theorem of_reach (hs : (reportedMachine p).Reach (TruncatedOnce p) s) : RatesInv s := by
  refine hs.invariant (P := RatesInv) ?_ ?_
  · rintro s ⟨⟨-, hInFlight, -⟩, hMetrics, hParams⟩
    refine ⟨?_, hParams, ?_⟩
    · rw [hInFlight]
      exact fun _ hy => (nomatch hy)
    · intro name m hm
      rw [hMetrics] at hm
      cases hm
  · intro s l s' ih hOk hStep
    cases l with
    | report now =>
      obtain rfl := some.inj hStep
      exact ⟨ih.clean, ih.servers.readForReport now⟩
    | proxy l =>
      rcases proxyMachine_step hStep with ⟨client, now, first, second, spare, rfl, rfl⟩ |
        ⟨id, x, now, up, spare, rfl, hx, rfl⟩ | ⟨server, rfl, rfl⟩ | ⟨ref, now, rfl, rfl⟩ |
        ⟨world, rfl, rfl⟩
      · exact ih.arrive client now first second spare
      · exact ih.complete hx spare (hOk x hx)
      · exact ⟨ih.clean, ih.servers.publish server⟩
      · exact ⟨ih.clean, ih.servers.params, ih.servers.stores⟩
      · exact ⟨ih.clean, ih.servers⟩

end RatesInv

/-- In a run in which no exchange is truncated twice, every ratio that the scheduler
weighs or reports is a rate, and no penalty exceeds the sum of the weights. -/
theorem penalty_rates_are_rates {W : Type*} {p : Proxy W} {s : ProxyState W}
    (hs : (reportedMachine p).Reach (TruncatedOnce p) s) (now : Time) : s.servers.UnitRates now :=
  have hInv := RatesInv.of_reach hs
  hInv.servers.stores.unitRates hInv.servers.params now

/-- A query goes to `a`, which answers within a millisecond. -/
def answeredRun : List (ReportedLabel Unit) :=
  [.proxy (.arrive (rootClient false) 0 noExploration noExploration 0),
    .proxy (.complete 0 Millisecond rootUpstream 0), .report Second]

theorem idleProxy_reported : (reportedMachine bareProxy).init idleProxy :=
  ⟨idleProxy_init, rfl, ⟨by decide +kernel, by decide⟩⟩

theorem penalty_rates_are_rates_answered :
    ∃ s, (reportedMachine bareProxy).exec idleProxy answeredRun = some s ∧
      s.servers.UnitRates Second := by
  obtain ⟨s, hs⟩ := isSome_iff_exists.mp
    (show ((reportedMachine bareProxy).exec idleProxy answeredRun).isSome = true by decide +kernel)
  refine ⟨s, hs, penalty_rates_are_rates (p := bareProxy) (Machine.Reach.exec ?_
    (.init idleProxy_reported) hs) Second⟩
  -- the answer over UDP was complete
  have hTC : udpTruncated rootUpstream.udp = false := by decide
  simp only [answeredRun, forall_mem_cons]
  refine ⟨fun _ => trivial, fun s x _ => ?_, fun _ => trivial, fun _ hl => (nomatch hl)⟩
  rintro ⟨-, h, -⟩
  cases h

/-! ### An exchange truncated twice -/

/-- Ninety addresses, more than fit in a UDP response. -/
def ninetyAnswers : Msg :=
  { rootAnswer with
    answer := (range 90).map fun i =>
      { name := [dot], rclass := ClassINET, ttl := 60, rdata := .a [10, 0, 0, UInt8.ofNat i] } }

def ninetyAnswersPacket : Bytes :=
  [0x12, 0x34, 0x81, 0x80, 0, 1, 0, 90, 0, 0, 0, 0, 0, 0, 1, 0, 1] ++
    (range 90).flatMap fun i => [0, 0, 1, 0, 1, 0, 0, 0, 60, 0, 4, 10, 0, 0, UInt8.ofNat i]

/-- What is left of them over UDP. -/
def noRoom : Msg := { rootAnswer with truncated := true }

def noRoomPacket : Bytes := [0x12, 0x34, 0x83, 0x80, 0, 1, 0, 0, 0, 0, 0, 0, 0, 0, 1, 0, 1]

def ninetyProxy : Proxy Unit :=
  { bareProxy with
    lib := tableLib [(rootQuery, rootQueryPacket), (ninetyAnswers, ninetyAnswersPacket),
      (noRoom, noRoomPacket)] }

/-- Truncated over UDP, complete over TCP. -/
def ninetyUpstream : Upstream :=
  { deadUpstream with udp := .ok noRoomPacket, tcp := .ok ninetyAnswersPacket }

/-- Two resolvers, with a penalty for truncation only. -/
def truncationPenalty : ProxyState Unit :=
  let mds := twoResolvers.mds
  let params :=
    { mds.params with
      weightTimeout := 0, weightErrors := 0, weightServfail := 0, weightBogus := 0,
      weightTruncated := 1, weightFallback := 0, weightConnNew := 0, weightJitter := 0 }
  { idleProxy with servers := { twoResolvers with mds := { mds with params := params } } }

theorem truncationPenalty_init : (reportedMachine ninetyProxy).init truncationPenalty :=
  ⟨⟨rfl, rfl, rfl⟩, rfl, ⟨by decide, by decide⟩⟩

def truncatedRun : List (ReportedLabel Unit) :=
  [.proxy (.arrive (rootClient false) 0 noExploration noExploration 0),
    .proxy (.complete 0 Millisecond ninetyUpstream 0)]

theorem truncatedRun_isSome :
    ((reportedMachine ninetyProxy).exec truncationPenalty truncatedRun).isSome = true := by
  decide +kernel

def truncatedState : ProxyState Unit :=
  ((reportedMachine ninetyProxy).exec truncationPenalty truncatedRun).get truncatedRun_isSome

/-- One query, truncated by the server over UDP and by the proxy for the client: two
of one sample, and a penalty of twice the sum of the weights. -/
theorem truncated_twice :
    (reportedMachine ninetyProxy).Reach Machine.anyStep truncatedState ∧
      (truncatedState.servers.buildSchedulerReportLocked Second).rows.map (fun row =>
        (row.name, row.samples, row.truncatedRate)) = [("a", 1, 2), ("b", 0, 0)] ∧
      (truncatedState.servers.mds.scoreAll Second truncatedState.servers.candidatesLocked).map
        (fun x => (x.name, x.penalty)) = [("a", 2), ("b", 0)] ∧
      truncatedState.servers.mds.params.weights.sum = 1 ∧
      ¬truncatedState.servers.UnitRates Second := by
  have hPenalty : (truncatedState.servers.mds.scoreAll Second
      truncatedState.servers.candidatesLocked).map (fun x => (x.name, x.penalty)) =
        [("a", 2), ("b", 0)] := by
    decide +kernel
  have hSum : truncatedState.servers.mds.params.weights.sum = 1 := by decide +kernel
  refine ⟨Machine.Reach.exec_get (.init truncationPenalty_init) truncatedRun_isSome,
    by decide +kernel, hPenalty, hSum, ?_⟩
  intro hUnit
  have hMem : (("a", 2) : String × ℚ) ∈ (truncatedState.servers.mds.scoreAll Second
      truncatedState.servers.candidatesLocked).map (fun x => (x.name, x.penalty)) := by
    rw [hPenalty]
    exact mem_cons_self
  obtain ⟨x, hx, hEq⟩ := mem_map.mp hMem
  have hLe := hUnit.penalty x hx
  rw [hSum, (Prod.mk.inj hEq).2] at hLe
  exact absurd hLe (by norm_num)

end DnscryptProxy
