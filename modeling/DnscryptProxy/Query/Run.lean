import DnscryptProxy.Base.Run
import DnscryptProxy.Query.Session

/-!
# Runs of the proxy

Many queries at once: each arrives, runs to the dispatch of its exchange (or
to its end), and completes whenever the network lets it. Between these points
other queries run, servers are refreshed, and the shared world of the plugins
changes on its own. A step is one uninterrupted stretch of one query: between
`arrive` and `complete` it only waits.

`ProxyState.delivered` is not in the source: it remembers what upstreams
delivered, and when.
-/

namespace DnscryptProxy

open Base Option

structure ProxyState (W : Type*) where
  world : W
  servers : ServersInfo
  inFlight : List (Nat × Dispatched)
  nextId : Nat
  delivered : List (Time × Bytes)

inductive ProxyLabel (W : Type*) where
  /-- a client query arrives and runs up to its exchange -/
  | arrive (client : ClientQuery) (now : Time) (first second : Draws) (spare : Nat)
  /-- the exchange `id` ends, and its query with it -/
  | complete (id : Nat) (now : Time) (up : Upstream) (spare : Nat)
  /-- `refreshServer` publishes a server -/
  | publish (server : ServerInfo)
  /-- `noticeBegin` of an exchange -/
  | notice (ref : Nat) (now : Time)
  /-- the world changes by itself -/
  | outside (world : W)

namespace ProxyState

variable {W : Type*} (p : Proxy W)

def arrive (s : ProxyState W) (client : ClientQuery) (now : Time) (first second : Draws)
    (spare : Nat) : ProxyState W :=
  match p.beginQuery now first second spare s.servers s.world client with
  | .finished servers f => { s with servers := servers, world := f.world }
  | .dispatched servers w x =>
    { s with
      servers := servers
      world := w
      inFlight := s.inFlight ++ [(s.nextId, x)]
      nextId := s.nextId + 1 }

/-- The exchange `x`, called `id`, ends: its query is finished and its outcome
observed. -/
def complete (s : ProxyState W) (id : Nat) (x : Dispatched) (now : Time) (up : Upstream)
    (spare : Nat) : ProxyState W :=
  let f := p.completeQuery now up spare s.world x
  { s with
    servers := p.feedback now s.servers f
    world := f.world
    inFlight := s.inFlight.filter fun y => decide (y.1 ≠ id)
    delivered := s.delivered ++ (x.transcript up).deliveries.map fun response => (now, response) }

end ProxyState

/-- The proxy `p` as a machine. It starts with no breaker and no query. -/
def proxyMachine {W : Type*} (p : Proxy W) : Machine (ProxyState W) (ProxyLabel W) where
  init s := s.servers.mds.circuits = (fun _ => none) ∧ s.inFlight = [] ∧ s.delivered = []
  step s
    | .arrive client now first second spare => some (s.arrive p client now first second spare)
    | .complete id now up spare =>
      (s.inFlight.find? fun x => decide (x.1 = id)).map fun x => s.complete p id x.2 now up spare
    | .publish server => some { s with servers := s.servers.publish server }
    | .notice ref now => some { s with servers := s.servers.noticeBegin ref now }
    | .outside world => some { s with world := world }

/-- What one step of the proxy can do. -/
theorem proxyMachine_step {W : Type*} {p : Proxy W} {s s' : ProxyState W} {l : ProxyLabel W}
    (h : (proxyMachine p).step s l = some s') :
    (∃ client now first second spare, l = .arrive client now first second spare ∧
        s' = s.arrive p client now first second spare) ∨
      (∃ id x now up spare, l = .complete id now up spare ∧ (id, x) ∈ s.inFlight ∧
        s' = s.complete p id x now up spare) ∨
      (∃ server, l = .publish server ∧ s' = { s with servers := s.servers.publish server }) ∨
      (∃ ref now, l = .notice ref now ∧ s' = { s with servers := s.servers.noticeBegin ref now }) ∨
      ∃ world, l = .outside world ∧ s' = { s with world := world } := by
  cases l with
  | arrive client now first second spare =>
    exact .inl ⟨client, now, first, second, spare, rfl, (some.inj h).symm⟩
  | complete id now up spare =>
    simp only [proxyMachine, map_eq_some_iff] at h
    obtain ⟨⟨id', x⟩, hFind, rfl⟩ := h
    obtain rfl : id' = id := by simpa using List.find?_some hFind
    exact .inr (.inl ⟨id', x, now, up, spare, rfl, List.mem_of_find?_eq_some hFind, rfl⟩)
  | publish server => exact .inr (.inr (.inl ⟨server, rfl, (some.inj h).symm⟩))
  | notice ref now => exact .inr (.inr (.inr (.inl ⟨ref, now, rfl, (some.inj h).symm⟩)))
  | outside world => exact .inr (.inr (.inr (.inr ⟨world, rfl, (some.inj h).symm⟩)))

/-! ### A small proxy -/

/-- No plugins, and a codec for one query and its answer. -/
def bareProxy : Proxy Unit :=
  { lib := rootLib, globals := noPlugins Unit, params := defaultProxyParams, growth := exactGrowth }

theorem bareProxy_keepsName (now : Time) (up : Upstream) (spare : Nat) (w : Unit)
    (x : Dispatched) : bareProxy.KeepsName now up spare w x := by
  have hKept := completeQuery_kept (p := bareProxy) (N := (· = x.state.serverName))
    (by rintro q ⟨⟩) now up spare w x
  exact hKept.serverName rfl

/-- The query, over UDP. -/
def rootClient (onlyCached : Bool) : ClientQuery :=
  { clientProto := .udp, serverProto := .udp, query := rootQueryPacket, clientPc := true, start := 0
    onlyCached := onlyCached }

/-- Two resolvers and no query yet. -/
def idleProxy : ProxyState Unit :=
  { world := (), servers := twoResolvers, inFlight := [], nextId := 0, delivered := [] }

theorem idleProxy_init : (proxyMachine bareProxy).init idleProxy := ⟨rfl, rfl, rfl⟩

/-- An upstream that delivers `rootAnswer`. -/
def rootUpstream : Upstream := { deadUpstream with udp := .ok rootAnswerPacket }

/-- A draw above every exploration probability. -/
def noExploration : Draws := { draw := 1, pickDraw := 0 }

/-- The first exchange of a proxy with two resolvers. -/
def firstExchange (p : Proxy Unit) : Option Dispatched :=
  (p.beginQuery 0 noExploration noExploration 0 twoResolvers () (rootClient false)).exchange

theorem bareExchange_isSome : (firstExchange bareProxy).isSome = true := by decide +kernel

def bareExchange : Dispatched := (firstExchange bareProxy).get bareExchange_isSome

theorem bareExchange_begun : ∃ servers w, bareProxy.beginQuery 0 noExploration noExploration 0
    twoResolvers () (rootClient false) = .dispatched servers w bareExchange :=
  Begun.eq_dispatched (some_get bareExchange_isSome).symm

end DnscryptProxy
