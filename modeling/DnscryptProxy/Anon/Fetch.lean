import DnscryptProxy.Anon.Route
import DnscryptProxy.Base.Traced
import DnscryptProxy.Crypto.Certs
import DnscryptProxy.Query.Send
import Mathlib.Data.List.Sort

/-!
# What is sent to a DNSCrypt server

The functions that talk to a DNSCrypt server, with everything they send as
events: `_dnsExchange` and `DNSExchange` of `dnsutils.go`,
`FetchCurrentDNSCryptCert`, `fetchDNSCryptServerInfo`, and the two exchanges of
`proxy.go` with the server that was found. What the network does is an input.

A datagram counts when it is handed to the socket, a TCP connection when it is
dialled, whether or not this succeeds. A proxy that connections are made
through is given the same destinations.
-/

namespace DnscryptProxy

open Base

/-! ## Sending -/

inductive NetEvent where
  | datagram (dest : NetAddr) (payload : Bytes)
  | connect (dest : NetAddr)
  | stream (dest : NetAddr) (payload : Bytes)
deriving Repr, DecidableEq

abbrev Sending (α : Type) := Traced NetEvent GoError α

def anonymizedDNSHeaderSize : Nat := 8 + 2 + 16 + 2

def prepareForRelay (ip : Bytes) (port : UInt16) (encryptedQuery : Bytes) : Bytes :=
  List.replicate 8 0xff ++ [0, 0] ++ (ipTo16 ip).getD [] ++ putUint16 port.toNat ++ encryptedQuery

/-- Where a query goes, and what goes there. -/
def upstreamFor (relayAddr : Option NetAddr) (serverAddr : NetAddr) (query : Bytes) :
    NetAddr × Bytes :=
  match relayAddr with
  | none => (serverAddr, query)
  | some addr => (addr, prepareForRelay serverAddr.ip serverAddr.port query)

/-- What happens on one connection. -/
structure ConnNet where
  dialErr : Option GoError
  deadlineErr : Option GoError
  writeErr : Option GoError
  reply : Except GoError Bytes
  rtt : Duration

/-- Dial, write a datagram, read one. -/
def sendDatagram (conn : ConnNet) (upstream : NetAddr × Bytes) : Sending Bytes := do
  -- dialling UDP sends nothing
  .check conn.dialErr
  .check conn.deadlineErr
  .emit (.datagram upstream.1 upstream.2)
  .check conn.writeErr
  let packet ← .lift conn.reply
  pure (packet.take MaxDNSPacketSize)

/-- What `PrefixWithSize` returns. -/
def framed (packet : Bytes) : Except GoError Bytes :=
  if packet.length > 0xffff then .error (.plain "Packet too large")
  else .ok (putUint16 packet.length ++ packet)

/-- Dial, write a framed query, read a framed answer. -/
def sendStream (conn : ConnNet) (upstream : NetAddr × Bytes) : Sending Bytes := do
  .emit (.connect upstream.1)
  .check conn.dialErr
  .check conn.deadlineErr
  let framed ← .lift (framed upstream.2)
  .emit (.stream upstream.1 framed)
  .check conn.writeErr
  .lift conn.reply

/-! ## Probes -/

def certProbePaddedLen : Nat := 3200
def certProbeFragmentsBlockedLen : Nat := 480

/-- What stays fixed while a server is fetched. -/
structure FetchEnv where
  lib : DnsLib
  net : NetLib
  cfg : AnonConfig
  cert : CertEnv
  /-- `dns.NewMsg` and `RR.String` -/
  newMsg : String → UInt16 → Msg
  rrString : RR → String
  mainProto : ServerProto

def packDNSExchangeQuery (lib : DnsLib) (query : Msg) (paddedLen : Nat) (viaRelay : Bool) :
    Except GoError Bytes :=
  if paddedLen = 0 then lib.pack query
  else
    let paddedLen := if viaRelay then paddedLen - anonymizedDNSHeaderSize else paddedLen
    if paddedLen = 0 then
      .error (.plain "Padded length is too small for an anonymized DNS header")
    else
      let query :=
        { query with
          udpSize := if query.udpSize = 0 then UInt16.ofNat MaxDNSPacketSize else query.udpSize }
      let padded (padding : Nat) : Msg :=
        { query with pseudo := query.pseudo ++ [.padding (List.replicate padding 0)] }
      match lib.pack (padded 0) with
      | .error err => .error err
      | .ok data =>
        if data.length < paddedLen then lib.pack (padded (paddedLen - data.length)) else .ok data

variable (env : FetchEnv)

variable (conn : ConnNet) (proto : ServerProto) (query : Msg) (serverAddress : String)
  (relay : Option DNSCryptRelay) (paddedLen : Nat)

/-- The round trip of `_dnsExchange`. -/
def probeRoundTrip : Sending Bytes :=
  match proto with
  | .udp => do
    let binQuery ← .lift (packDNSExchangeQuery env.lib query paddedLen relay.isSome)
    let udpAddr ← .lift (env.net.resolveUDPAddr serverAddress)
    sendDatagram conn (upstreamFor (relay.map (·.relayUDPAddr)) udpAddr binQuery)
  | .tcp => do
    -- a relay forwards over UDP, so the padding must cover a large answer
    let binQuery ← .lift (match relay with
      | none => env.lib.pack query
      | some _ => packDNSExchangeQuery env.lib query certProbePaddedLen false)
    let tcpAddr ← .lift (env.net.resolveTCPAddr serverAddress)
    sendStream conn (upstreamFor (relay.map (·.relayTCPAddr)) tcpAddr binQuery)

/-- `_dnsExchange`. -/
def dnsExchangeProbe : Sending (Msg × Duration) := do
  let packet ← probeRoundTrip env conn proto query serverAddress relay paddedLen
  let msg ← .lift (env.lib.unpack packet)
  .check (validateResponseForQuery (some query) (some msg))
  pure (msg, conn.rtt)

/-! ## `DNSExchange` -/

/-- The probes of one round: which of them start before the round is cancelled,
what each meets, and in which order their outcomes arrive. -/
structure RoundNet where
  started : Nat → Bool
  conn : Nat → ConnNet
  arrival : Nat → Nat

structure DNSExchangeResponse where
  response : Msg
  rtt : Duration
  fragmentsBlocked : Bool

/-- The probes: padded length, and `fragmentsBlocked`. -/
def probeOptions (tryFragmentsSupport : Bool) : List (Nat × Bool) :=
  let small := (certProbeFragmentsBlockedLen, true)
  let perTry := if tryFragmentsSupport then [(certProbePaddedLen, false), small] else [small]
  perTry ++ perTry ++ perTry

variable (round : RoundNet) (proto : ServerProto) (query : Msg) (serverAddress : String)
  (relay : Option DNSCryptRelay)

/-- One probe with its number, which goes into the ID of its query. -/
def runProbe (option : (Nat × Bool) × Nat) : Sending (Msg × Duration) :=
  if round.started option.2 then
    dnsExchangeProbe env (round.conn option.2) proto
      { cloneMsg query with id := query.id + UInt16.ofNat option.2 } serverAddress relay option.1.1
  else .lift (.error (.plain "Canceled"))

/-- The loop over the outcomes. All have the same priority, so the first that
succeeds is the best, and the loop ends with it. -/
def bestOption : List (Bool × Except GoError (Msg × Duration)) → Option GoError →
    Except (Option GoError) DNSExchangeResponse
  | [], err => .error err
  | (fragmentsBlocked, .ok (response, rtt)) :: _, _ =>
    .ok { response := response, rtt := rtt, fragmentsBlocked := fragmentsBlocked }
  | (_, .error err) :: rest, _ => bestOption rest (some err)

/-- One pass of the loop of `DNSExchange`. The probes that are under way when
the round is cancelled still send. -/
def exchangeRound (tryFragmentsSupport : Bool) :
    Sending (Except (Option GoError) DNSExchangeResponse) :=
  let options := (probeOptions tryFragmentsSupport).zipIdx
  let run := runProbe env round proto query serverAddress relay
  let arrivals := options.insertionSort fun a b => round.arrival a.2 ≤ round.arrival b.2
  { events := options.flatMap fun option => (run option).events
    result := .ok (bestOption (arrivals.map fun option => (option.1.2, (run option).result)) none) }

/-- No probe succeeded. -/
def noProbeSucceeded (err : Option GoError) : Sending DNSExchangeResponse :=
  .lift (.error (err.getD (.plain "Unable to reach the server")))

/-- What the network does during both passes of `DNSExchange`. -/
structure ExchangeNet where
  first : RoundNet
  second : RoundNet

/-- `DNSExchange`. The second pass, without the relay, returns in any case. -/
def dnsExchange (net : ExchangeNet) (proto : ServerProto) (query : Msg)
    (serverAddress : String) (relay : Option DNSCryptRelay) (tryFragmentsSupport : Bool) :
    Sending DNSExchangeResponse := do
  match ← exchangeRound env net.first proto query serverAddress relay tryFragmentsSupport with
  | .ok response => pure response
  | .error err =>
    if relay.isNone || !env.cfg.anonDirectCertFallback then noProbeSucceeded err
    else
      match ← exchangeRound env net.second proto query serverAddress none tryFragmentsSupport with
      | .ok response => pure response
      | .error err => noProbeSucceeded err

/-! ## Fetching the certificate -/

structure ServerBugs where
  fragmentsBlocked : Bool
deriving Repr, DecidableEq

/-- What the network does while a server is fetched, and the random name of the
last test. -/
structure FetchNet where
  /-- the choice of a relay -/
  draw : Nat
  cert : ExchangeNet
  /-- the retry over TCP after a truncated answer -/
  certTCP : ExchangeNet
  nxTest : ExchangeNet
  nxName : String

/-- The provider name with a final dot. -/
def fqdnOf (providerName : String) : String :=
  if providerName.toList.getLast? = some '.' then providerName else providerName ++ "."

/-- The relay through which the certificate is fetched. -/
def certRelay (cfg : AnonConfig) (providerName : String) (relay : Option DNSCryptRelay) :
    Option DNSCryptRelay :=
  -- for an unusual provider name the source drops the relay, unless that is forbidden
  if "2.dnscrypt-cert.".toList <+: providerName.toList then relay
  else if relay.isSome && !cfg.anonDirectCertFallback then relay
  else none

variable (net : FetchNet)

/-- The answer with the certificates; a truncated one is fetched again over TCP. -/
def certResponse (proto : ServerProto) (query : Msg)
    (serverAddress : String) (relay : Option DNSCryptRelay) (response : Msg) : Sending Msg := do
  if response.truncated && decide (proto ≠ .tcp) then
    match ← (dnsExchange env net.certTCP .tcp query serverAddress relay false).outcome with
    | .ok exchanged => pure exchanged.response
    -- what there is of a truncated answer may still hold a certificate
    | .error _ => pure response
  else pure response

/-- `FetchCurrentDNSCryptCert`: `fragmentsBlocked`, and the certificate with the
round-trip time or an error. -/
def fetchCurrentDNSCryptCert (proto : ServerProto) (pk : Bytes)
    (serverAddress providerName : String) (relay : Option DNSCryptRelay) (knownBugs : ServerBugs) :
    Sending (Bool × Except GoError (CertInfo × Int)) := do
  if pk.length ≠ 32 then pure (false, .error (.plain "Invalid public key length"))
  else
    let providerName := fqdnOf providerName
    let query := env.newMsg providerName TypeTXT
    let relay := certRelay env.cfg providerName relay
    match ← (dnsExchange env net.cert proto query serverAddress relay
        (!knownBugs.fragmentsBlocked)).outcome with
    | .error err => pure (false, .error err)
    | .ok exchanged =>
      let response ← certResponse env net proto query serverAddress relay exchanged.response
      match currentCert env.cert pk response.answer with
      | .error err => pure (exchanged.fragmentsBlocked, .error err)
      | .ok certInfo =>
        pure (exchanged.fragmentsBlocked, .ok (certInfo, exchanged.rtt / Millisecond))

/-! ## Fetching the server -/

/-- `hex.DecodeString`. -/
def hexDecode : Bytes → Option Bytes
  | [] => some []
  | [_] => none
  | a :: b :: rest => do
    let hi ← hexDigit a
    let lo ← hexDigit b
    let decoded ← hexDecode rest
    pure ((16 * hi + lo) :: decoded)
where
  /-- the value of a hexadecimal digit -/
  hexDigit (c : UInt8) : Option UInt8 :=
    if 48 ≤ c ∧ c ≤ 57 then some (c - 48)
    else if 97 ≤ c ∧ c ≤ 102 then some (c - 87)
    else if 65 ≤ c ∧ c ≤ 70 then some (c - 55)
    else none

/-- The key of the stamp, which old lists encode. -/
def stampServerPk (stamp : ServerStamp) : Option Bytes :=
  if stamp.serverPk.length = 32 then some stamp.serverPk
  else (hexDecode (stamp.serverPk.filter fun c => decide (c ≠ 58))).filter fun pk =>
    decide (pk.length = 32)

/-- The part of a DNSCrypt `ServerInfo` that exchanges use. -/
structure DNSCryptServerInfo where
  name : String
  certInfo : CertInfo
  udpAddr : NetAddr
  tcpAddr : NetAddr
  relay : Option Relay
  initialRtt : Int
  knownBugs : ServerBugs

/-- The verdict on the answer to the test for lying and dummy resolvers. -/
def nxTestErr (name : String) (msg : Msg) : Option GoError :=
  match msg.answer.find? fun rr => decide (rr.rrToType = TypeA ∨ rr.rrToType = TypeAAAA) with
  | some rr => some (.plain s!"[{name}] unexpected record: [{env.rrString rr}]")
  | none =>
    (msg.extra.findSome? fun rr =>
      match rr.rdata with
      | .txt txts => some (txts.headD [])
      | _ => none).map fun cause => .plain s!"[{name}] unexpected record: [{cause.text}]"

/-- The test of `fetchDNSCryptServerInfo` on plaintext queries. -/
def nxTest (name serverAddress : String) (relay : Option DNSCryptRelay) : Sending Unit := do
  let query :=
    { env.newMsg (net.nxName ++ ".test.dnscrypt.") TypeNS with
      id := 0xcafe, recursionDesired := true }
  match ← (dnsExchange env net.nxTest env.mainProto query serverAddress relay false).outcome with
  | .error _ => pure ()
  | .ok exchanged => .check (nxTestErr env name exchanged.response)

/-- The second half of `fetchDNSCryptServerInfo`. -/
def serverInfoOf (name : String) (stamp : ServerStamp)
    (dnscryptRelay : Option DNSCryptRelay) (relay : Option Relay) (knownBugs : ServerBugs)
    (certInfo : CertInfo) (rtt : Int) : Sending DNSCryptServerInfo := do
  let udpAddr ← .lift (env.net.resolveUDPAddr stamp.serverAddrStr)
  let tcpAddr ← .lift (env.net.resolveTCPAddr stamp.serverAddrStr)
  (if certInfo.construction = .xSalsa20Poly1305 then
    nxTest env net name stamp.serverAddrStr dnscryptRelay
  else pure ())
  pure
    { name := name, certInfo := certInfo, udpAddr := udpAddr, tcpAddr := tcpAddr, relay := relay
      initialRtt := rtt, knownBugs := knownBugs }

/-- `fetchDNSCryptServerInfo`. A public key of the wrong kind ends the program,
which is an error here. -/
def fetchDNSCryptServerInfo (name : String) (stamp : ServerStamp) : Sending DNSCryptServerInfo := do
  match stampServerPk stamp with
  | none =>
    .lift (.error (.plain s!"Unsupported public key for [{name}]: [{stamp.serverPk.text}]"))
  | some serverPk =>
    let knownBugs : ServerBugs :=
      { fragmentsBlocked := env.cfg.serversBlockingFragments.contains name }
    let relay ← .lift (route env.net env.cfg net.draw name stamp.proto)
    let dnscryptRelay := relay.bind (·.dnscrypt)
    let (fragmentsBlocked, certResult) ← fetchCurrentDNSCryptCert env net env.mainProto serverPk
      stamp.serverAddrStr stamp.providerName dnscryptRelay knownBugs
    let knownBugs : ServerBugs :=
      { fragmentsBlocked := knownBugs.fragmentsBlocked || fragmentsBlocked }
    -- checked before the error of the fetch; the server found then has no relay, but the
    -- test on plaintext queries still goes through it
    if knownBugs.fragmentsBlocked && dnscryptRelay.isSome then
      if env.cfg.skipAnonIncompatibleResolvers then
        .lift (.error (.plain "Resolver couldn't be reached anonymously"))
      else
        let (certInfo, rtt) ← .lift certResult
        serverInfoOf env net name stamp dnscryptRelay none knownBugs certInfo rtt
    else
      let (certInfo, rtt) ← .lift certResult
      serverInfoOf env net name stamp dnscryptRelay relay knownBugs certInfo rtt

/-! ## Query exchanges -/

/-- One write and one read on a UDP connection. -/
structure UdpRound where
  writeErr : Option GoError
  reply : Except GoError Bytes

/-- What happens during `exchangeWithUDPServer`. -/
structure UdpNet where
  getErr : Option GoError
  deadlineErr : Option GoError
  first : UdpRound
  second : UdpRound

def udpRound (round : UdpRound) (upstream : NetAddr × Bytes) : Sending (Except GoError Bytes) := do
  .emit (.datagram upstream.1 upstream.2)
  .check round.writeErr
  pure (round.reply.map fun datagram => datagram.take MaxDNSPacketSize)

/-- The DNSCrypt relay of a server. -/
def DNSCryptServerInfo.dnscryptRelay (server : DNSCryptServerInfo) : Option DNSCryptRelay :=
  server.relay.bind (·.dnscrypt)

/-- `exchangeWithUDPServer`, over a pooled connection or through a proxy. -/
def exchangeWithUDPServer (decrypt : Bytes → Except GoError Bytes) (net : UdpNet)
    (server : DNSCryptServerInfo) (encryptedQuery : Bytes) : Sending Bytes := do
  let upstream :=
    upstreamFor (server.dnscryptRelay.map (·.relayUDPAddr)) server.udpAddr encryptedQuery
  .check net.getErr
  .check net.deadlineErr
  match ← udpRound net.first upstream with
  | .ok encryptedResponse => .lift (decrypt encryptedResponse)
  | .error _ =>
    let encryptedResponse ← .lift (← udpRound net.second upstream)
    .lift (decrypt encryptedResponse)

def exchangeWithTCPServer (decrypt : Bytes → Except GoError Bytes) (conn : ConnNet)
    (server : DNSCryptServerInfo) (encryptedQuery : Bytes) : Sending Bytes := do
  let encryptedResponse ← sendStream conn
    (upstreamFor (server.dnscryptRelay.map (·.relayTCPAddr)) server.tcpAddr encryptedQuery)
  .lift (decrypt encryptedResponse)

end DnscryptProxy
