import DnscryptProxy.Query.Send

/-!
# Processing a client query

`processIncomingQuery` of `proxy.go`, cut at the one place where it waits for
the network: `beginQuery` runs from the arrival of the query to the dispatch
of an exchange (or to the end, if none is needed), `completeQuery` from there
to the end, and `observeOutcome` is the deferred call.

`Finished.handed` and `Finished.written` record what was passed to
`sendResponse` and what `sendResponse` wrote to the client.
-/

namespace DnscryptProxy

universe u

open Base

/-- The parts of the proxy that stay fixed. -/
structure Proxy (W : Type u) (Plug : Type u := Plugin W) where
  lib : DnsLib
  globals : PluginsGlobals W Plug
  params : ProxyParams
  growth : Growth

/-- The arguments of `processIncomingQuery`. -/
structure ClientQuery where
  clientProto : ClientProto
  serverProto : ServerProto
  query : Bytes
  /-- a TCP client is there to write to -/
  clientPc : Bool
  start : Time
  onlyCached : Bool
deriving Repr, DecidableEq

/-- The random draws of one `getOne`. -/
structure Draws where
  draw : ℚ
  pickDraw : Nat
deriving Repr, DecidableEq

/-! ## Lazy server selection -/

structure Selection where
  servers : ServersInfo
  serverInfo : Option ServerInfo
  serverName : String

/-- No server yet. -/
abbrev Selection.unselected (servers : ServersInfo) : Selection :=
  { servers := servers, serverInfo := none, serverName := "-" }

/-- Select a server, once. -/
def Selection.select (now : Time) (d : Draws) (sel : Selection) : Selection :=
  match sel.serverInfo with
  | some _ => sel
  | none =>
    match sel.servers.getOne now d.draw d.pickDraw with
    | (servers, none) => { sel with servers := servers }
    | (servers, some server) =>
      { servers := servers, serverInfo := some server, serverName := server.name }

/-- The closure handed to `ApplyQueryPlugins`. -/
def Selection.getServerInfo (now : Time) (d : Draws) (sel : Selection) : Selection × Bool :=
  let sel := sel.select now d
  (sel, sel.serverInfo.any fun s => decide (s.proto = .doH))

/-! ## The end of a query -/

/-- A query that is done: `response` and `queryErr` are what the deferred
`observeOutcome` sees. -/
structure Finished (W : Type*) where
  world : W
  state : PluginsState
  response : Bytes
  queryErr : Option GoError
  handed : List Bytes
  written : List Bytes

/-- An exchange under way. -/
structure Dispatched where
  server : ServerInfo
  state : PluginsState
  query : Bytes
  client : ClientQuery

/-- `beginQuery` ends a query, or dispatches an exchange. -/
inductive Begun (W : Type*) where
  | finished (servers : ServersInfo) (f : Finished W)
  | dispatched (servers : ServersInfo) (world : W) (x : Dispatched)

/-- The exchange that was dispatched, if any. -/
def Begun.exchange {W : Type*} : Begun W → Option Dispatched
  | .finished _ _ => none
  | .dispatched _ _ x => some x

theorem Begun.eq_dispatched {W : Type*} {b : Begun W} {x : Dispatched} (h : b.exchange = some x) :
    ∃ servers w, b = .dispatched servers w x := by
  cases b with
  | finished servers f => cases h
  | dispatched servers w y =>
    obtain rfl : y = x := Option.some.inj h
    exact ⟨servers, w, rfl⟩

namespace Proxy

variable {W Plug : Type u} [PluginEval W Plug] (p : Proxy W Plug)

/-- `NewPluginsState`, for a query of `client`. -/
abbrev newState (client : ClientQuery) : PluginsState :=
  newPluginsState p.params client.clientProto client.serverProto client.start

/-- A return without a response. -/
def unanswered (w : W) (ps : PluginsState) (err : Option GoError) : Finished W :=
  { world := w, state := ps, response := [], queryErr := err, handed := [], written := [] }

variable (now : Time)

/-- Log a dropped query and return. -/
def dropQuery (w : W) (ps : PluginsState) : Finished W :=
  let (w, ps) := applyLoggingPlugins p.globals now w
    { ps with action := .drop, returnCode := .drop }
  unanswered w ps none

/-- The tail of `processIncomingQuery`: check the size, send, log. The response
sits in an array with `spare` unused bytes. -/
def respond (spare : Nat) (client : ClientQuery) (w : W) (ps : PluginsState)
    (response : Bytes) : Finished W :=
  if validResponseSize response = false then
    let (w, ps) := applyLoggingPlugins p.globals now w
      { ps with returnCode := sizeReturnCode response }
    { world := w, state := ps, response := response
      queryErr := some (.plain "invalid response size"), handed := [], written := [] }
  else
    let (h, s) := (Heap.mk []).alloc response spare
    let sent :=
      sendResponse p.lib p.globals p.growth now client.clientProto client.clientPc w ps h s
    let (w, ps) := applyLoggingPlugins p.globals now sent.world sent.state
    { world := w, state := ps, response := sent.heap.read s, queryErr := none
      handed := [response], written := sent.written }

/-- The query goes to the upstream, unless a synthesized response is there
already or no server is. -/
def dispatch (d : Draws) (spare : Nat) (client : ClientQuery)
    (pass : QueryPass W Selection) (ps : PluginsState) (response : Bytes) : Begun W :=
  if response.length = 0 then
    let sel := pass.sel.select now d
    match sel.serverInfo with
    | none => .finished sel.servers (p.respond now spare client pass.world ps response)
    | some server =>
      .dispatched sel.servers pass.world
        { server := server, query := pass.packet, client := client
          state := { ps with
            serverName := sel.serverName
            relayName := server.relayName.getD ps.relayName
            exchangeStart := some now } }
  else .finished pass.sel.servers (p.respond now spare client pass.world ps response)

/-- The pass of the query plugins over an arriving query. -/
def queryPass (first : Draws) (servers : ServersInfo) (w : W)
    (client : ClientQuery) : QueryPass W Selection :=
  applyQueryPlugins p.lib p.globals now w (p.newState client) client.query
    (Selection.getServerInfo now first) (.unselected servers)

/-- `processIncomingQuery` up to the exchange. -/
def beginQuery (first second : Draws) (spare : Nat) (servers : ServersInfo) (w : W)
    (client : ClientQuery) : Begun W :=
  if validateQuery client.query = false then
    .finished servers (unanswered w (p.newState client) none)
  else
    let pass := p.queryPass now first servers w client
    if pass.err.isSome then .finished pass.sel.servers (p.dropQuery now pass.world pass.state)
    -- the padded query may be too large
    else if validateQuery pass.packet = false then
      .finished pass.sel.servers (unanswered pass.world pass.state none)
    else if pass.state.action = .drop then
      .finished pass.sel.servers (p.dropQuery now pass.world pass.state)
    else
      match pass.state.synthResponse.map (handleSynthesizedResponse p.lib pass.state) with
      | some (ps, .error _) => .finished pass.sel.servers (unanswered pass.world ps none)
      | some (ps, .ok response) =>
        if client.onlyCached = true ∧ response.length = 0 then
          .finished pass.sel.servers (unanswered pass.world ps none)
        else p.dispatch now second spare client pass ps response
      | none =>
        -- a server may have been selected by now, and it gets no feedback
        if client.onlyCached then
          .finished pass.sel.servers (unanswered pass.world pass.state none)
        else p.dispatch now second spare client pass pass.state []

/-- `processIncomingQuery` from the exchange on. -/
def completeQuery (up : Upstream) (spare : Nat) (w : W) (x : Dispatched) : Finished W :=
  let r := handleDNSExchange p.lib p.globals now x.server up w x.state x.query x.client.serverProto
  match r.result with
  | .error err => unanswered r.world r.state err
  | .ok response =>
    let pass := processPlugins p.lib p.globals now r.world r.state response
    match pass.result with
    | .error err => unanswered pass.world pass.state (some err)
    | .ok response => p.respond now spare x.client pass.world pass.state response

/-- The deferred feedback. -/
def feedback (servers : ServersInfo) (f : Finished W) : ServersInfo :=
  observeOutcome p.lib p.params.timeout now servers f.state f.response f.queryErr

/-- What one query meets on its way: the clock at both ends, the random draws,
the network, the spare capacity behind the response, and what everybody else
does to the registry and the world while the query waits for its exchange. -/
structure Environment (W : Type*) where
  arrival : Time
  completion : Time
  first : Draws
  second : Draws
  upstream : Upstream
  spare : Nat
  registry : ServersInfo → ServersInfo
  meanwhile : W → W

def processIncomingQuery (env : Environment W) (servers : ServersInfo) (w : W)
    (client : ClientQuery) : ServersInfo × Finished W :=
  match p.beginQuery env.arrival env.first env.second env.spare servers w client with
  | .finished servers f => (servers, f)
  | .dispatched servers w x =>
    let f := p.completeQuery env.completion env.upstream env.spare (env.meanwhile w) x
    (p.feedback env.completion (env.registry servers) f, f)

end Proxy

end DnscryptProxy
