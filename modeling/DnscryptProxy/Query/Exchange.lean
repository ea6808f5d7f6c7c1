import DnscryptProxy.Query.Plugins
import DnscryptProxy.Scheduler.Servers

/-!
# Exchanges with an upstream

`query_processing.go` from `processDNSCryptQuery` to `handleDNSExchange`.
What the network and the cryptography do during one exchange is an input
(`Upstream`): the results of the encryption attempts, of the UDP, TCP and HTTP
round trips, of the decryption of an oblivious answer. The functions here
decide which of these are used, when a stale answer of the cache is served
instead, and what the session remembers of the exchange.
-/

namespace DnscryptProxy

universe u

structure FetchTrace where
  usedHTTP3 : Bool
  negotiatedProto : String
  quicFallback : Bool
  connReused : Bool
deriving Repr, DecidableEq

/-- The behaviour of network and cryptography during one exchange. -/
structure Upstream where
  /-- the errors of `Encrypt`, `none` on success: the first call, the one for
  TCP after it, and the one for the retry over TCP -/
  encrypt : Option GoError
  encryptForTCP : Option GoError
  encryptForRetry : Option GoError
  /-- `exchangeWithUDPServer` -/
  udp : Except GoError Bytes
  udpConnReused : Bool
  /-- `exchangeWithTCPServer` -/
  tcp : Except GoError Bytes
  /-- `DoHQuery`, and `tls.HandshakeComplete` if there is a TLS state -/
  doh : Except GoError Bytes
  tlsHandshakeComplete : Option Bool
  /-- `encryptQuery`, `ObliviousDoHQuery`, `decryptResponse` -/
  odohEncrypt : Option GoError
  odohErr : Option GoError
  odohBody : Bytes
  odohStatus : Nat
  odohDecrypt : Except GoError Bytes
  /-- the error of the key refresh after a 401, `none` if it was skipped -/
  odohRefresh : Option GoError
  fetchTrace : Option FetchTrace
deriving Repr

/-- A server that never answers. -/
def deadUpstream : Upstream :=
  let timeout : GoError := .net true "i/o timeout"
  { encrypt := none, encryptForTCP := none, encryptForRetry := none, udp := .error timeout,
    udpConnReused := false, tcp := .error timeout, doh := .error timeout,
    tlsHandshakeComplete := none, odohEncrypt := none, odohErr := some timeout, odohBody := [],
    odohStatus := 0, odohDecrypt := .error timeout, odohRefresh := none, fetchTrace := none }

/-- How an exchange ends. `.error none` is the pair of two nils. -/
structure Exchanged (W : Type*) where
  world : W
  state : PluginsState
  result : Except (Option GoError) Bytes

section Transports

variable {W Plug : Type u} [PluginEval W Plug] (lib : DnsLib) (g : PluginsGlobals W Plug)
  (now : Time)

/-- The answer of the cache that has expired, if it can be packed. -/
def staleResponse (ps : PluginsState) : Option Bytes :=
  ps.stale.bind fun staleMsg => (lib.pack staleMsg).toOption

/-- A definitive failure: remember why, and log the query. -/
def failExchange (w : W) (ps : PluginsState) (code : PluginsReturnCode) (err : Option GoError) :
    Exchanged W :=
  let (w, ps) := applyLoggingPlugins g now w { ps with returnCode := code }
  { world := w, state := ps, result := .error err }

/-! ## DNSCrypt -/

/-- The TC bit test on the plaintext of a UDP answer. -/
def udpTruncated : Except GoError Bytes → Bool
  | .ok response => decide (MinDNSPacketSize ≤ response.length) && hasTCFlag response
  | .error _ => false

/-- The timeout test on the error of a UDP round trip. -/
def udpTimedOut : Except GoError Bytes → Bool
  | .ok _ => false
  | .error err => err.netTimeout

variable (up : Upstream)

/-- The protocol after the first encryption, which may have to give up padding
for UDP, and the error that is left. -/
def encryptQuery (serverProto : ServerProto) : ServerProto × Option GoError :=
  match up.encrypt, serverProto with
  -- whatever the error is, TCP is tried
  | some _, .udp => (.tcp, up.encryptForTCP)
  | err, proto => (proto, err)

/-- Note the transport of an exchange. -/
def markUDP (ps : PluginsState) : PluginsState :=
  { ps with exchange := { ps.exchange with transport := .dnscryptUDP } }

def markTCP (ps : PluginsState) : PluginsState :=
  { ps with exchange := { ps.exchange with transport := .dnscryptTCP, connReused := false } }

/-- The UDP branch of `processDNSCryptQuery`: the outer error is an encryption
that failed on the way to the retry over TCP. -/
def exchangeOverUDP (ps : PluginsState) : PluginsState × Except GoError (Except GoError Bytes) :=
  let ps := { ps with exchange := { ps.exchange with connReused := up.udpConnReused } }
  let truncated := udpTruncated up.udp
  if truncated || udpTimedOut up.udp then
    let ps :=
      { ps with
        exchange := { ps.exchange with
          upstreamTruncated := ps.exchange.upstreamTruncated || truncated
          tcpFallback := true } }
    -- the retry is encrypted anew, with the padding for TCP
    match up.encryptForRetry with
    | some err => (ps, .error err)
    | none => (markTCP ps, .ok up.tcp)
  else (ps, .ok up.udp)

/-- The round trips of a DNSCrypt exchange, over the protocol that is left. -/
def exchangeOver (proto : ServerProto) (ps : PluginsState) :
    PluginsState × Except GoError (Except GoError Bytes) :=
  match proto with
  | .udp => exchangeOverUDP up (markUDP ps)
  | .tcp => (markTCP (markUDP ps), .ok up.tcp)

def processDNSCryptQuery (w : W) (ps : PluginsState) (serverProto : ServerProto) : Exchanged W :=
  match encryptQuery up serverProto with
  | (_, some err) => failExchange g now w ps .parseError (some err)
  | (proto, none) =>
    match exchangeOver up proto ps with
    | (ps, .error err) => failExchange g now w ps .parseError (some err)
    | (ps, .ok (.ok response)) => { world := w, state := ps, result := .ok response }
    | (ps, .ok (.error err)) =>
      -- a stale answer takes the place of the missing one, and nobody is told
      match staleResponse lib ps with
      | some data => { world := w, state := ps, result := .ok data }
      | none =>
        failExchange g now w ps (if err.netTimeout then .serverTimeout else .networkError)
          (some err)

/-! ## DoH and ODoH -/

def applyHTTPFetchTrace (ps : PluginsState) (ft : Option FetchTrace) (odoh : Bool) : PluginsState :=
  match ft with
  | none => ps
  | some ft =>
    { ps with
      exchange := { ps.exchange with
        quicFallback := ft.quicFallback
        connReused := ft.connReused
        transport :=
          if odoh then .odoh
          else if ft.usedHTTP3 = true ∨ ft.negotiatedProto = "h3" then .dohH3
          else .dohH2 } }

/-- Restore the transaction ID of the client in an answer. -/
def restoreTransactionID (query response : Bytes) : Bytes :=
  if MinDNSPacketSize ≤ response.length then setTransactionID response (transactionID query)
  else response

def processDoHQuery (w : W) (ps : PluginsState) (query : Bytes) : Exchanged W :=
  let ps := applyHTTPFetchTrace ps up.fetchTrace false
  match up.doh, up.tlsHandshakeComplete with
  | .ok serverResponse, some true =>
    let response := restoreTransactionID query serverResponse
    { world := w, state := ps, result := .ok response }
  | doh, _ =>
    -- also an answer without a complete handshake ends here, with a nil error
    match staleResponse lib ps with
    | some data => { world := w, state := ps, result := .ok data }
    | none =>
      let err := match doh with
        | .ok _ => none
        | .error err => some err
      failExchange g now w ps .networkError err

variable (server : ServerInfo) (up : Upstream) (w : W) (ps : PluginsState) (query : Bytes)

/-- `processODoHQuery`. The key refresh after a 401 runs in the registry; here
only its error matters. -/
def processODoHQuery : Exchanged W :=
  if server.odohTargetConfigs = 0 then
    { world := w, state := ps, result := .error none }
  else
    match up.odohEncrypt with
    | some err => { world := w, state := ps, result := .error (some err) }
    | none =>
      let ps := applyHTTPFetchTrace ps up.fetchTrace true
      if up.odohErr = none ∧ 0 < up.odohBody.length ∧ up.odohStatus = 200 then
        match up.odohDecrypt with
        | .error err => { world := w, state := ps, result := .error (some err) }
        | .ok plain =>
          let response := restoreTransactionID query plain
          { world := w, state := ps, result := .ok response }
      else
        -- the target may have new keys; the error of the refresh replaces that of the query
        let refresh := up.odohStatus = 401 ∨ (up.odohStatus = 200 ∧ up.odohBody.length = 0)
        failExchange g now w ps .networkError
          (if refresh then up.odohRefresh.or up.odohErr else up.odohErr)

/-! ## The exchange -/

/-- `len(response) < MinDNSPacketSize || len(response) > MaxDNSPacketSize`, negated. -/
def validResponseSize (response : Bytes) : Bool :=
  decide (MinDNSPacketSize ≤ response.length) && decide (response.length ≤ MaxDNSPacketSize)

/-- The exchange over the protocol of the server. -/
def exchangeWith (serverProto : ServerProto) : Exchanged W :=
  match server.proto with
  | .dnsCrypt => processDNSCryptQuery lib g now up w ps serverProto
  | .doH => processDoHQuery lib g now up w ps query
  | .odohTarget => processODoHQuery g now server up w ps query

/-- `handleDNSExchange`, after it anchored the exchange at `exchangeStart`. -/
def handleDNSExchange (serverProto : ServerProto) : Exchanged W :=
  let r := exchangeWith lib g now server up w ps query serverProto
  match r.result with
  | .error (some _) => r
  -- no response and no error: that is a response of no bytes
  | .error none => failExchange g now r.world r.state .parseError none
  | .ok response =>
    if validResponseSize response then r
    else failExchange g now r.world r.state .parseError none

end Transports

end DnscryptProxy
