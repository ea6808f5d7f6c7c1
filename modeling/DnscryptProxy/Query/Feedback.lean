import DnscryptProxy.Query.Exchange

/-!
# Feedback

`scheduler_feedback.go`: the outcome of an exchange as `observeOutcome` reads
it off the session, the response and the error, and its way into the registry.

`exchangeOutcome_hardFailure` says when an outcome is a hard failure.
-/

namespace DnscryptProxy

/-- `classifyExchangeResponse`: SERVFAIL, DNSSEC bogus, ECS scope returned. -/
def classifyExchangeResponse (lib : DnsLib) (response : Bytes) (dnssecExpected : Bool) :
    Bool × Bool × Bool :=
  if response.length < MinDNSPacketSize then (false, false, false)
  else
    let failure := decide ((rcode response).toUInt16 = RcodeServerFailure)
    let servfail := failure && !dnssecExpected
    let bogus := failure && dnssecExpected
    match lib.unpack response with
    | .error _ => (servfail, bogus, false)
    | .ok msg =>
      (servfail, bogus, msg.pseudo.any fun rr => match rr with
        | .subnet _ _ scope _ => decide (scope ≠ 0)
        | _ => false)

/-- `isTimeoutError` on an error that may be nil. -/
def isTimeoutError (err : Option GoError) : Bool := err.any (·.isTimeoutError)

/-- `failed` of `observeOutcome`. -/
def exchangeFailed (response : Bytes) (exchangeErr : Option GoError) : Bool :=
  exchangeErr.isSome || !validResponseSize response

/-- The outcome `observeOutcome` records. -/
def exchangeOutcome (lib : DnsLib) (timeout elapsed : Duration) (ps : PluginsState)
    (response : Bytes) (exchangeErr : Option GoError) : ExchangeOutcome :=
  let o := ps.exchange
  if exchangeFailed response exchangeErr then
    let o := { o with duration := timeout }
    if ps.returnCode = .serverTimeout then { o with timeout := true }
    else if isTimeoutError exchangeErr then { o with timeout := true }
    else { o with error := true }
  else
    let (servfail, bogus, ecs) := classifyExchangeResponse lib response ps.dnssec
    { o with duration := elapsed, servfail := servfail, dnssecBogus := bogus, ecsReturned := ecs }

/-- `observeOutcome` at `now`. -/
def observeOutcome (lib : DnsLib) (timeout : Duration) (now : Time) (servers : ServersInfo)
    (ps : PluginsState) (response : Bytes) (exchangeErr : Option GoError) : ServersInfo :=
  match ps.exchangeStart with
  -- nothing was dispatched
  | none => servers
  | some start =>
    if ps.serverName = "" then servers
    else
      servers.recordOutcome now timeout (now - start) (decide (ps.action = .drop)) ps.serverName
        (exchangeOutcome lib timeout (now - start) ps response exchangeErr)

end DnscryptProxy
