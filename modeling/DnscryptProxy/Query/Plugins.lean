import DnscryptProxy.Dns.Message
import DnscryptProxy.Scheduler.Metrics

/-!
# The plugin pipeline

`plugins.go`: the session of one query, the three plugin chains, and the
passes over a query, a response and the log. A plugin is any function of the
clock, the shared world `W` (caches, rule files, forwarders, sub-queries), the
session and the message. The chains run plugins of any type with an `Eval`;
`Plugin` is the type of those that keep what the plugins of the repository do.

* `runPlugins_invariant`, `applyLoggingPlugins_invariant` — a property of
  world, session and message that every plugin keeps survives a whole chain.
-/

namespace DnscryptProxy

open List

universe u

/-! ## Sessions -/

inductive PluginsAction where
  | none
  | continue
  | drop
  | reject
  | synth
deriving Repr, DecidableEq

inductive PluginsReturnCode where
  | pass
  | forward
  | drop
  | reject
  | synth
  | parseError
  | nxDomain
  | responseError
  | servFail
  | networkError
  | cloak
  | serverTimeout
  | notReady
deriving Repr, DecidableEq

/-- Who asks: a UDP or TCP listener, the local DoH server, or a sub-query. -/
inductive ClientProto where
  | udp
  | tcp
  | localDoH
  | trampoline
deriving Repr, DecidableEq

inductive ServerProto where
  | udp
  | tcp
deriving Repr, DecidableEq

/-- `PluginsState`. The two keys of `sessionData` are fields of their own. -/
structure PluginsState where
  requestStart : Time
  requestEnd : Option Time
  clientProto : ClientProto
  serverName : String
  relayName : String
  serverProto : ServerProto
  qName : Bytes
  synthResponse : Option Msg
  questionMsg : Option Msg
  /-- `sessionData["stale"]` -/
  stale : Option Msg
  /-- `sessionData["whitelisted"]` -/
  whitelisted : Bool
  action : PluginsAction
  timeout : Duration
  returnCode : PluginsReturnCode
  maxPayloadSize : Nat
  originalMaxPayloadSize : Nat
  maxUnencryptedUDPSafePayloadSize : Nat
  rejectTTL : UInt32
  cacheMaxTTL : UInt32
  cacheNegMaxTTL : UInt32
  cacheNegMinTTL : UInt32
  cacheMinTTL : UInt32
  cacheHit : Bool
  dnssec : Bool
  exchange : ExchangeOutcome
  exchangeStart : Option Time
deriving Repr, DecidableEq

/-- What a session takes from the configuration of the proxy. -/
structure ProxyParams where
  timeout : Duration
  cacheNegMinTTL : UInt32
  cacheNegMaxTTL : UInt32
  cacheMinTTL : UInt32
  cacheMaxTTL : UInt32
  rejectTTL : UInt32
deriving Repr, DecidableEq

/-- The values of `newConfig`. -/
def defaultProxyParams : ProxyParams :=
  { timeout := 5000 * Millisecond, cacheNegMinTTL := 60, cacheNegMaxTTL := 600, cacheMinTTL := 60,
    cacheMaxTTL := 86400, rejectTTL := 600 }

def newPluginsState (params : ProxyParams) (clientProto : ClientProto) (serverProto : ServerProto)
    (start : Time) : PluginsState :=
  { requestStart := start, requestEnd := none, clientProto := clientProto, serverName := "-",
    relayName := "", serverProto := serverProto, qName := [], synthResponse := none,
    questionMsg := none, stale := none, whitelisted := false, action := .continue,
    timeout := params.timeout, returnCode := .pass,
    maxPayloadSize := MaxDNSUDPPacketSize - ResponseOverhead, originalMaxPayloadSize := 0,
    maxUnencryptedUDPSafePayloadSize := MaxDNSUDPSafePacketSize, rejectTTL := params.rejectTTL,
    cacheMaxTTL := params.cacheMaxTTL, cacheNegMaxTTL := params.cacheNegMaxTTL,
    cacheNegMinTTL := params.cacheNegMinTTL, cacheMinTTL := params.cacheMinTTL, cacheHit := false,
    dnssec := false, exchange := .zero, exchangeStart := none }

/-- The TTL limits of the cache, copied into each session. -/
structure CacheLimits where
  minTTL : UInt32
  maxTTL : UInt32
  negMinTTL : UInt32
  negMaxTTL : UInt32
deriving Repr, DecidableEq

def PluginsState.limits (ps : PluginsState) : CacheLimits :=
  { minTTL := ps.cacheMinTTL, maxTTL := ps.cacheMaxTTL, negMinTTL := ps.cacheNegMinTTL
    negMaxTTL := ps.cacheNegMaxTTL }

/-- `m` answers the question the session has stored. -/
def PluginsState.AnsweredBy (ps : PluginsState) (m : Msg) : Prop :=
  ∃ q, ps.questionMsg = some q ∧ q.Answers m

/-! ## Plugins -/

structure EvalResult (W : Type*) where
  world : W
  state : PluginsState
  msg : Msg
  err : Option GoError

/-- A plugin and what all plugins of the repository leave alone: the exchange
observations are written by the exchange layer only, the TTL limits by nobody,
and where a plugin rewrites the server name it writes a non-empty one. -/
structure Plugin (W : Type*) where
  eval : Time → W → PluginsState → Msg → EvalResult W
  exchange_eq : ∀ now w ps m, (eval now w ps m).state.exchange = ps.exchange
  exchangeStart_eq : ∀ now w ps m, (eval now w ps m).state.exchangeStart = ps.exchangeStart
  limits_eq : ∀ now w ps m, (eval now w ps m).state.limits = ps.limits
  named : ∀ now w ps m, ps.serverName ≠ "" → (eval now w ps m).state.serverName ≠ ""

/-- What the chains ask of a plugin of type `Plug`: its `Eval`. -/
class PluginEval (W Plug : Type u) where
  eval : Plug → Time → W → PluginsState → Msg → EvalResult W

instance {W : Type u} : PluginEval W (Plugin W) := ⟨Plugin.eval⟩

structure PluginsGlobals (W : Type u) (Plug : Type u := Plugin W) where
  queryPlugins : List Plug
  responsePlugins : List Plug
  loggingPlugins : List Plug
  refusedCodeInResponses : Bool
  respondWithIPv4 : Option Bytes
  respondWithIPv6 : Option Bytes

/-- No plugins at all. -/
def noPlugins (W : Type*) : PluginsGlobals W :=
  { queryPlugins := [], responsePlugins := [], loggingPlugins := [],
    refusedCodeInResponses := false, respondWithIPv4 := none, respondWithIPv6 := none }

/-- The two passes that share the plugin loop. -/
inductive Phase where
  | query
  | response
deriving Repr, DecidableEq

/-- In the query pass `questionMsg` points at the message being rewritten. -/
def Phase.sync : Phase → PluginsState → Msg → PluginsState
  | .query, ps, msg => { ps with questionMsg := some msg }
  | .response, ps, _ => ps

section Loops

variable {W Plug : Type u}

/-- A rejected query or response is answered with a refusal. -/
def answerReject (g : PluginsGlobals W Plug) (ps : PluginsState) (msg : Msg) : PluginsState :=
  if ps.action = .reject then
    { ps with
      synthResponse := some (refusedResponseFromMessage msg g.refusedCodeInResponses
        g.respondWithIPv4 g.respondWithIPv6 ps.rejectTTL) }
  else ps

variable [PluginEval W Plug]

/-- The plugin loop of `ApplyQueryPlugins` and `ApplyResponsePlugins`. -/
def runPlugins (g : PluginsGlobals W Plug) (phase : Phase) (now : Time) :
    List Plug → W → PluginsState → Msg → EvalResult W
  | [], w, ps, msg => { world := w, state := ps, msg := msg, err := none }
  | plugin :: rest, w, ps, msg =>
    let r := PluginEval.eval plugin now w ps msg
    let ps := phase.sync r.state r.msg
    match r.err with
    | some err =>
      { world := r.world, state := { ps with action := .drop }, msg := r.msg, err := some err }
    | none =>
      let ps := answerReject g ps r.msg
      if ps.action ≠ .continue then { world := r.world, state := ps, msg := r.msg, err := none }
      else runPlugins g phase now rest r.world ps r.msg

/-- The loop of `ApplyLoggingPlugins`; it works on `questionMsg` itself. -/
def runLoggingPlugins (now : Time) : List Plug → W → PluginsState → Msg → W × PluginsState
  | [], w, ps, _ => (w, ps)
  | plugin :: rest, w, ps, msg =>
    let r := PluginEval.eval plugin now w ps msg
    let ps := { r.state with questionMsg := some r.msg }
    match r.err with
    | some _ => (r.world, ps)
    | none => runLoggingPlugins now rest r.world ps r.msg

variable (g : PluginsGlobals W Plug) (now : Time) (w : W) (ps : PluginsState)

/-- `ApplyLoggingPlugins`; no caller looks at its error. -/
def applyLoggingPlugins : W × PluginsState :=
  if g.loggingPlugins.length = 0 then (w, ps)
  else
    let ps := { ps with requestEnd := some now }
    match ps.questionMsg with
    | none => (w, ps)
    | some questionMsg => runLoggingPlugins now g.loggingPlugins w ps questionMsg

/-! ## The passes -/

/-- The query after its plugin chain: an error, or the chain's result and the
message it left, packed. -/
inductive ChainPass (W : Type*) where
  | failed (world : W) (state : PluginsState) (err : GoError)
  | passed (r : EvalResult W) (packet2 : Bytes)

variable (lib : DnsLib) (g : PluginsGlobals W Plug) (now : Time) (w : W) (ps : PluginsState)

/-- `ApplyQueryPlugins` up to the selection of a server. -/
def runQueryChain (packet : Bytes) : ChainPass W :=
  match lib.unpack packet with
  | .error err => .failed w ps err
  | .ok msg =>
    match msg.question with
    | [question] =>
      match normalizeQName question.name.bytes with
      | .error err => .failed w ps err
      | .ok qName =>
        let r := runPlugins g .query now g.queryPlugins w
          { ps with qName := qName, questionMsg := some msg } msg
        match r.err with
        | some err => .failed r.world r.state err
        | none =>
          match lib.pack r.msg with
          | .error err => .failed r.world r.state err
          | .ok packet2 => .passed r packet2
    | _ => .failed w ps (.plain "Unexpected number of questions")

/-- The padded query, if it can be packed, and the message as padding leaves it. -/
def padQuery (lib : DnsLib) (msg : Msg) (packet2 : Bytes) : Msg × Bytes :=
  let padLen := 63 - ((packet2.length + 63) &&& 63)
  let (msg, paddedPacket2) := addEDNS0PaddingIfNoneFound lib msg packet2 padLen
  (msg, paddedPacket2.getD packet2)

/-- What a query leaves behind after `ApplyQueryPlugins`: `sel` is the state of
the server selection. -/
structure QueryPass (W S : Type*) where
  world : W
  sel : S
  state : PluginsState
  packet : Bytes
  err : Option GoError

/-- `ApplyQueryPlugins`: a query that goes on has a server selected, and is
padded if the protocol of the server wants that. -/
def applyQueryPlugins {S : Type*} (lib : DnsLib) (g : PluginsGlobals W Plug) (now : Time) (w : W)
    (ps : PluginsState) (packet : Bytes) (getServerInfo : S → S × Bool) (sel : S) :
    QueryPass W S :=
  match runQueryChain lib g now w ps packet with
  | .failed w ps err => { world := w, sel := sel, state := ps, packet := packet, err := some err }
  | .passed r packet2 =>
    if r.state.action = .continue then
      -- this is where a server is selected, and a probe marked
      let (sel, needsEDNS0Padding) := getServerInfo sel
      if needsEDNS0Padding then
        let (msg, padded) := padQuery lib r.msg packet2
        { world := r.world, sel := sel, state := { r.state with questionMsg := some msg },
          packet := padded, err := none }
      else { world := r.world, sel := sel, state := r.state, packet := packet2, err := none }
    else { world := r.world, sel := sel, state := r.state, packet := packet2, err := none }

/-- The return code `ApplyResponsePlugins` reads off the raw packet. -/
def returnCodeOfRcode (rcode : UInt8) : PluginsReturnCode :=
  if rcode.toUInt16 = RcodeSuccess then .pass
  else if rcode.toUInt16 = RcodeNameError then .nxDomain
  else if rcode.toUInt16 = RcodeServerFailure then .servFail
  else .responseError

/-- What a response leaves behind after a pass. -/
structure ResponsePass (W : Type*) where
  world : W
  state : PluginsState
  result : Except GoError Bytes

/-- The response plugins, run over the message `msg` of `packet`. -/
def runResponseChain (packet : Bytes) (msg : Msg) : EvalResult W :=
  runPlugins g .response now g.responsePlugins w
    { ps with returnCode := returnCodeOfRcode (rcode packet) } (removeEDNS0Options msg)

def applyResponsePlugins (packet : Bytes) : ResponsePass W :=
  match lib.unpack packet with
  | .error err => { world := w, state := ps, result := .error err }
  | .ok msg =>
    match validateResponseForQuery ps.questionMsg (some msg) with
    | some err => { world := w, state := ps, result := .error err }
    | none =>
      let r := runResponseChain g now w ps packet msg
      match r.err with
      | some err => { world := r.world, state := r.state, result := .error err }
      | none =>
        -- once more: the plugins may have rewritten the message
        match validateResponseForQuery r.state.questionMsg (some r.msg) with
        | some err => { world := r.world, state := r.state, result := .error err }
        | none => { world := r.world, state := r.state, result := lib.pack r.msg }

def handleSynthesizedResponse (lib : DnsLib) (ps : PluginsState) (synth : Msg) :
    PluginsState × Except GoError Bytes :=
  match validateResponseForQuery ps.questionMsg (some synth) with
  | some err => ({ ps with returnCode := .parseError }, .error err)
  | none =>
    match lib.pack synth with
    | .error err => ({ ps with returnCode := .parseError }, .error err)
    | .ok data => (ps, .ok data)

def processPlugins (response : Bytes) : ResponsePass W :=
  let pass := applyResponsePlugins lib g now w ps response
  match pass.result with
  | .error err =>
    let (w, ps) :=
      applyLoggingPlugins g now pass.world { pass.state with returnCode := .parseError }
    { world := w, state := ps, result := .error err }
  | .ok response =>
    -- a dropped response is logged, and returned like any other
    if pass.state.action = .drop then
      let (w, ps) := applyLoggingPlugins g now pass.world { pass.state with returnCode := .drop }
      { world := w, state := ps, result := .ok response }
    else
      match pass.state.synthResponse with
      | none => { world := pass.world, state := pass.state, result := .ok response }
      | some synth =>
        match handleSynthesizedResponse lib pass.state synth with
        | (ps, .error err) =>
          let (w, ps) := applyLoggingPlugins g now pass.world ps
          { world := w, state := ps, result := .error err }
        | (ps, .ok data) => { world := pass.world, state := ps, result := .ok data }

/-! ## Invariant rules -/

variable {g : PluginsGlobals W} {phase : Phase} {now : Time}

theorem runPlugins_invariant {P : W → PluginsState → Msg → Prop}
    (hAction : ∀ w ps m a, P w ps m → P w { ps with action := a } m)
    (hSynth : ∀ w ps m synth, P w ps m → P w { ps with synthResponse := synth } m) :
    ∀ (plugins : List (Plugin W)), (∀ p ∈ plugins, ∀ w ps m, P w ps m → P (p.eval now w ps m).world
          (phase.sync (p.eval now w ps m).state (p.eval now w ps m).msg) (p.eval now w ps m).msg) →
      ∀ w ps m, P w ps m → P (runPlugins g phase now plugins w ps m).world
          (runPlugins g phase now plugins w ps m).state
          (runPlugins g phase now plugins w ps m).msg
  | [], _, _, _, _, h => h
  | plugin :: rest, hEach, w, ps, m, h => by
    have hHere := hEach plugin (mem_cons_self ..) w ps m h
    have hAnswered : P (plugin.eval now w ps m).world
        (answerReject g (phase.sync (plugin.eval now w ps m).state (plugin.eval now w ps m).msg)
          (plugin.eval now w ps m).msg) (plugin.eval now w ps m).msg := by
      unfold answerReject
      split
      · exact hSynth _ _ _ _ hHere
      · exact hHere
    unfold runPlugins
    dsimp only
    -- an error ends the chain, then a final action, and otherwise the rest runs
    split
    · exact hAction _ _ _ _ hHere
    · split
      · exact hAnswered
      · exact runPlugins_invariant hAction hSynth rest
          (fun p hp => hEach p (mem_cons_of_mem _ hp)) _ _ _ hAnswered

/-- A chain in two parts: the first part ends it, or hands over to the second. -/
theorem runPlugins_append (g : PluginsGlobals W) (phase : Phase) (now : Time)
    (second : List (Plugin W)) : ∀ (first : List (Plugin W)) w ps m,
    runPlugins g phase now (first ++ second) w ps m = runPlugins g phase now first w ps m ∨
      runPlugins g phase now (first ++ second) w ps m =
        runPlugins g phase now second (runPlugins g phase now first w ps m).world
          (runPlugins g phase now first w ps m).state (runPlugins g phase now first w ps m).msg
  | [], _, _, _ => .inr rfl
  | plugin :: rest, w, ps, m => by
    simp only [cons_append, runPlugins]
    split
    · exact .inl rfl
    · split
      · exact .inl rfl
      · exact runPlugins_append g phase now second rest _ _ _

theorem runLoggingPlugins_invariant {P : W → PluginsState → Prop} :
    ∀ (plugins : List (Plugin W)), (∀ p ∈ plugins, ∀ w ps m, ps.questionMsg = some m → P w ps →
        P (p.eval now w ps m).world
          { (p.eval now w ps m).state with questionMsg := some (p.eval now w ps m).msg }) →
      ∀ w ps m, ps.questionMsg = some m → P w ps →
        P (runLoggingPlugins now plugins w ps m).1 (runLoggingPlugins now plugins w ps m).2
  | [], _, _, _, _, _, h => h
  | plugin :: rest, hEach, w, ps, m, hQ, h => by
    have hHere := hEach plugin (mem_cons_self ..) w ps m hQ h
    unfold runLoggingPlugins
    dsimp only
    split
    · exact hHere
    · exact runLoggingPlugins_invariant rest (fun p hp => hEach p (mem_cons_of_mem _ hp))
        _ _ _ rfl hHere

theorem applyLoggingPlugins_invariant {P : W → PluginsState → Prop}
    (hEnd : ∀ w ps t, P w ps → P w { ps with requestEnd := t })
    (hEach : ∀ p ∈ g.loggingPlugins, ∀ w ps m, ps.questionMsg = some m → P w ps →
      P (p.eval now w ps m).world
        { (p.eval now w ps m).state with questionMsg := some (p.eval now w ps m).msg })
    {w : W} {ps : PluginsState} (h : P w ps) :
    P (applyLoggingPlugins g now w ps).1 (applyLoggingPlugins g now w ps).2 := by
  unfold applyLoggingPlugins
  split
  · exact h
  · dsimp only
    split
    · exact hEnd _ _ _ h
    · next m hQ => exact runLoggingPlugins_invariant _ hEach _ _ _ hQ (hEnd _ _ _ h)

end Loops

end DnscryptProxy
