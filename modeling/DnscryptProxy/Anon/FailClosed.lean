import DnscryptProxy.Anon.Fetch

/-!
# Anonymization fails closed

A DNSCrypt server with a relay list, `skipAnonIncompatibleResolvers` set and
`anonDirectCertFallback` not: whatever the network does, everything that is
sent for this server goes to a relay that the list allows, with a header that
tells the relay where to forward it.

The relay is chosen by `route` (`route_ok`). From there on every function of
`Anon.Fetch` is taken through the rule for its form, with the relay as the
part that must not get lost.

* `anonymization_fails_closed` — while the server is fetched, and in every
  exchange with the server that was found.
-/

namespace DnscryptProxy

open Base Base.Traced List

/-- The event goes to a relay that the list of `name` allows, and says where
the relay has to send the query. -/
def Relayed (env : FetchEnv) (name serverAddress : String) : NetEvent → Prop
  | .datagram dest payload =>
    ∃ relay server query, AllowedRelay env.net env.cfg (env.cfg.relayNames name) relay ∧
      env.net.resolveUDPAddr serverAddress = .ok server ∧
      dest = relay.relayUDPAddr ∧ payload = prepareForRelay server.ip server.port query
  | .connect dest =>
    ∃ relay, AllowedRelay env.net env.cfg (env.cfg.relayNames name) relay ∧
      dest = relay.relayTCPAddr
  | .stream dest payload =>
    ∃ relay server query, AllowedRelay env.net env.cfg (env.cfg.relayNames name) relay ∧
      env.net.resolveTCPAddr serverAddress = .ok server ∧ dest = relay.relayTCPAddr ∧
      framed (prepareForRelay server.ip server.port query) = .ok payload

/-! ## What each function sends -/

section Sending

variable {P : NetEvent → Prop}

variable {upstream : NetAddr × Bytes}

theorem meets_sendDatagram {conn : ConnNet} (h : P (.datagram upstream.1 upstream.2)) :
    Meets P (fun _ => True) (sendDatagram conn upstream) :=
  .bind .check fun _ _ => .bind .check fun _ _ => .bind (.emit h) fun _ _ =>
    .bind .check fun _ _ => .bind (.lift fun _ _ => trivial) fun _ _ => .pure trivial

theorem meets_sendStream {conn : ConnNet} (hConnect : P (.connect upstream.1))
    (hStream : ∀ payload, framed upstream.2 = .ok payload → P (.stream upstream.1 payload)) :
    Meets P (fun _ => True) (sendStream conn upstream) :=
  .bind (.emit hConnect) fun _ _ => .bind .check fun _ _ => .bind .check fun _ _ =>
    .bind (.lift fun _ => id) fun payload hFramed => .bind (.emit (hStream payload hFramed))
      fun _ _ => .bind .check fun _ _ => .lift fun _ _ => trivial

theorem meets_udpRound {round : UdpRound} (h : P (.datagram upstream.1 upstream.2)) :
    Meets P (fun _ => True) (udpRound round upstream) :=
  .bind (.emit h) fun _ _ => .bind .check fun _ _ => .pure trivial

end Sending

section Relays

variable {env : FetchEnv} {name serverAddress : String} {relay : DNSCryptRelay}

variable {proto : ServerProto} {net : FetchNet} {conn : ConnNet} {query : Msg}

/-- The server was found through this relay, and is used through it. -/
structure UsedThrough (env : FetchEnv) (name serverAddress : String) (relay : DNSCryptRelay)
    (server : DNSCryptServerInfo) : Prop where
  allowed : AllowedRelay env.net env.cfg (env.cfg.relayNames name) relay
  relay : server.dnscryptRelay = some relay
  udpAddr : env.net.resolveUDPAddr serverAddress = .ok server.udpAddr
  tcpAddr : env.net.resolveTCPAddr serverAddress = .ok server.tcpAddr

/-- Without the fallback the certificate is fetched through the relay, also
under a non-standard provider name. -/
theorem certRelay_some {cfg : AnonConfig} {providerName : String}
    (hFallback : cfg.anonDirectCertFallback = false) :
    certRelay cfg providerName (some relay) = some relay := by
  unfold certRelay
  rw [hFallback]
  split
  · rfl
  · rfl

section Allowed

variable (hRelay : AllowedRelay env.net env.cfg (env.cfg.relayNames name) relay)
include hRelay

theorem Relayed.datagram {server : NetAddr}
    (hServer : env.net.resolveUDPAddr serverAddress = .ok server) (query : Bytes) :
    Relayed env name serverAddress
      (.datagram (upstreamFor (some relay.relayUDPAddr) server query).1
        (upstreamFor (some relay.relayUDPAddr) server query).2) :=
  ⟨relay, server, query, hRelay, hServer, rfl, rfl⟩

/-- A TCP exchange through an allowed relay. -/
theorem meets_sendStream_relayed {server : NetAddr}
    (hServer : env.net.resolveTCPAddr serverAddress = .ok server) (query : Bytes) :
    Meets (Relayed env name serverAddress) (fun _ => True)
      (sendStream conn (upstreamFor (some relay.relayTCPAddr) server query)) :=
  meets_sendStream ⟨relay, hRelay, rfl⟩ fun _ hFramed =>
    ⟨relay, server, query, hRelay, hServer, rfl, hFramed⟩

theorem meets_dnsExchangeProbe {paddedLen : Nat} :
    Meets (Relayed env name serverAddress) (fun _ => True)
      (dnsExchangeProbe env conn proto query serverAddress (some relay) paddedLen) := by
  have hTrip : Meets (Relayed env name serverAddress) (fun _ => True)
      (probeRoundTrip env conn proto query serverAddress (some relay) paddedLen) := by
    cases proto with
    | udp =>
      exact .bind (.lift fun _ _ => trivial) fun binQuery _ => .bind (.lift fun _ => id)
        fun udpAddr hServer => meets_sendDatagram (.datagram hRelay hServer binQuery)
    | tcp =>
      exact .bind (.lift fun _ _ => trivial) fun binQuery _ => .bind (.lift fun _ => id)
        fun tcpAddr hServer => meets_sendStream_relayed hRelay hServer binQuery
  exact .bind hTrip fun _ _ => .bind (.lift fun _ _ => trivial) fun _ _ =>
    .bind .check fun _ _ => .pure trivial

/-- All probes of a round. -/
theorem meets_exchangeRound {round : RoundNet} {tryFragmentsSupport : Bool} :
    Meets (Relayed env name serverAddress) (fun _ => True)
      (exchangeRound env round proto query serverAddress (some relay) tryFragmentsSupport) := by
  refine ⟨fun e hMem => ?_, fun _ _ => trivial⟩
  obtain ⟨option, -, hEvent⟩ := mem_flatMap.mp hMem
  unfold runProbe at hEvent
  split at hEvent
  · exact (meets_dnsExchangeProbe hRelay).events e hEvent
  · cases hEvent

variable (hFallback : env.cfg.anonDirectCertFallback = false)
include hFallback

/-- Without the fallback there is no second round. -/
theorem meets_dnsExchange {net : ExchangeNet} {tryFragmentsSupport : Bool} :
    Meets (Relayed env name serverAddress) (fun _ => True)
      (dnsExchange env net proto query serverAddress (some relay) tryFragmentsSupport) := by
  refine .bind (meets_exchangeRound hRelay) fun collected _ => ?_
  cases collected with
  | ok response => exact .pure trivial
  | error err =>
    rw [hFallback]
    exact .throw

theorem meets_fetchCurrentDNSCryptCert {pk : Bytes} {providerName : String}
    {knownBugs : ServerBugs} :
    Meets (Relayed env name serverAddress) (fun _ => True)
      (fetchCurrentDNSCryptCert env net proto pk serverAddress providerName (some relay)
        knownBugs) := by
  unfold fetchCurrentDNSCryptCert
  split
  · exact .pure trivial
  · dsimp only
    rw [certRelay_some hFallback]
    refine .bind (meets_dnsExchange hRelay hFallback).outcome fun r _ => ?_
    cases r with
    | error err => exact .pure trivial
    | ok exchanged =>
      have hResponse : Meets (Relayed env name serverAddress) (fun _ => True)
          (certResponse env net proto (env.newMsg (fqdnOf providerName) TypeTXT) serverAddress
            (some relay) exchanged.response) := by
        unfold certResponse
        split
        · refine .bind (meets_dnsExchange hRelay hFallback).outcome fun r _ => ?_
          cases r <;> exact .pure trivial
        · exact .pure trivial
      refine .bind hResponse fun response _ => ?_
      split <;> exact .pure trivial

theorem meets_nxTest :
    Meets (Relayed env name serverAddress) (fun _ => True)
      (nxTest env net name serverAddress (some relay)) := by
  refine .bind (meets_dnsExchange hRelay hFallback).outcome fun r _ => ?_
  cases r with
  | error err => exact .pure trivial
  | ok exchanged => exact .check

theorem meets_serverInfoOf {stamp : ServerStamp} {r : Relay}
    {knownBugs : ServerBugs} {certInfo : CertInfo} {rtt : Int}
    (hDnscrypt : r.dnscrypt = some relay) :
    Meets (Relayed env name stamp.serverAddrStr)
      (UsedThrough env name stamp.serverAddrStr relay)
      (serverInfoOf env net name stamp (some relay) (some r) knownBugs certInfo rtt) := by
  refine .bind (.lift fun _ => id) fun udpAddr hUDP => .bind (.lift fun _ => id)
    fun tcpAddr hTCP => .bind (Q := fun _ => True) ?_ fun _ _ =>
      .pure ⟨hRelay, hDnscrypt, hUDP, hTCP⟩
  split
  · exact meets_nxTest hRelay hFallback
  · exact .pure trivial

end Allowed

/-- Fetching a server that has a relay list. -/
theorem meets_fetchDNSCryptServerInfo {stamp : ServerStamp}
    (hSkip : env.cfg.skipAnonIncompatibleResolvers = true)
    (hFallback : env.cfg.anonDirectCertFallback = false) (hProto : stamp.proto = .dnsCrypt)
    (hList : env.cfg.relayNames name ≠ []) :
    Meets (Relayed env name stamp.serverAddrStr)
      (fun server => ∃ relay, UsedThrough env name stamp.serverAddrStr relay server)
      (fetchDNSCryptServerInfo env net name stamp) := by
  unfold fetchDNSCryptServerInfo
  split
  · exact .throw
  · rename_i serverPk _
    rw [hProto]
    refine .bind (.lift fun _ => id) fun found hRoute => ?_
    obtain ⟨r, relay, rfl, hDnscrypt, hRelay⟩ := route_ok hList hRoute
    dsimp only [Option.bind_some]
    rw [hDnscrypt]
    refine .bind (meets_fetchCurrentDNSCryptCert hRelay hFallback) fun fetched _ => ?_
    obtain ⟨fragmentsBlocked, certResult⟩ := fetched
    split
    · -- the relay would be given up here, so `hSkip` decides: the server is skipped
      exact .throw
    · refine .bind (.lift fun _ _ => trivial) fun cert _ => ?_
      exact (meets_serverInfoOf hRelay hFallback hDnscrypt).weaken fun _ hUsed => ⟨relay, hUsed⟩

/-! ## What exchanges with the server send -/

theorem meets_exchangeWithUDPServer {decrypt : Bytes → Except GoError Bytes} {net : UdpNet}
    {server : DNSCryptServerInfo} {query : Bytes}
    (hUsed : UsedThrough env name serverAddress relay server) :
    Meets (Relayed env name serverAddress) (fun _ => True)
      (exchangeWithUDPServer decrypt net server query) := by
  unfold exchangeWithUDPServer
  rw [hUsed.relay]
  have hSent := Relayed.datagram hUsed.allowed hUsed.udpAddr query
  refine .bind .check fun _ _ => .bind .check fun _ _ => .bind (meets_udpRound hSent)
    fun reply _ => ?_
  cases reply with
  | ok response => exact .lift fun _ _ => trivial
  | error err =>
    exact .bind (meets_udpRound hSent) fun _ _ => .bind (.lift fun _ _ => trivial) fun _ _ =>
      .lift fun _ _ => trivial

theorem meets_exchangeWithTCPServer {decrypt : Bytes → Except GoError Bytes}
    {server : DNSCryptServerInfo} {query : Bytes}
    (hUsed : UsedThrough env name serverAddress relay server) :
    Meets (Relayed env name serverAddress) (fun _ => True)
      (exchangeWithTCPServer decrypt conn server query) := by
  unfold exchangeWithTCPServer
  rw [hUsed.relay]
  exact .bind (meets_sendStream_relayed hUsed.allowed hUsed.tcpAddr query) fun _ _ =>
    .lift fun _ _ => trivial

end Relays

/-- **Anonymization fails closed.** Everything that is sent while the server is
fetched goes through a relay of its list. If this yields a server, then one
with such a relay, and everything that exchanges with it send goes through that
relay. -/
theorem anonymization_fails_closed (env : FetchEnv) (net : FetchNet) (name : String)
    (stamp : ServerStamp) (hSkip : env.cfg.skipAnonIncompatibleResolvers = true)
    (hFallback : env.cfg.anonDirectCertFallback = false) (hProto : stamp.proto = .dnsCrypt)
    (hList : env.cfg.relayNames name ≠ []) :
    (∀ e ∈ (fetchDNSCryptServerInfo env net name stamp).events,
      Relayed env name stamp.serverAddrStr e) ∧
    ∀ server, (fetchDNSCryptServerInfo env net name stamp).result = .ok server →
      (∃ relay, server.dnscryptRelay = some relay ∧
        AllowedRelay env.net env.cfg (env.cfg.relayNames name) relay) ∧
      (∀ decrypt udp query, ∀ e ∈ (exchangeWithUDPServer decrypt udp server query).events,
        Relayed env name stamp.serverAddrStr e) ∧
      ∀ decrypt conn query, ∀ e ∈ (exchangeWithTCPServer decrypt conn server query).events,
        Relayed env name stamp.serverAddrStr e := by
  have hFetch : Meets (Relayed env name stamp.serverAddrStr)
      (fun server => ∃ relay, UsedThrough env name stamp.serverAddrStr relay server)
      (fetchDNSCryptServerInfo env net name stamp) :=
    meets_fetchDNSCryptServerInfo hSkip hFallback hProto hList
  refine ⟨hFetch.events, fun server hServer => ?_⟩
  obtain ⟨relay, hUsed⟩ := hFetch.result server hServer
  exact ⟨⟨relay, hUsed.relay, hUsed.allowed⟩,
    fun decrypt udp query => (meets_exchangeWithUDPServer hUsed).events,
    fun decrypt conn query => (meets_exchangeWithTCPServer hUsed).events⟩

/-! ### A server and its relay -/

/-- A server at `192.0.2.1`, a relay at `192.0.2.9`. -/
def twoHosts : NetLib where
  newServerStampFromString _ := .error (.plain "not a stamp")
  stampString stamp := stamp.serverAddrStr
  parseIP _ := none
  resolveUDPAddr := addrOf
  resolveTCPAddr := addrOf
  relayBaseURL _ := .error (.plain "not a URL")
  withTarget url _ := url
where
  /-- the address of a host -/
  addrOf (host : String) : Except GoError NetAddr :=
    if host = "192.0.2.1:443" then .ok ⟨[192, 0, 2, 1], 443⟩
    else if host = "192.0.2.9:443" then .ok ⟨[192, 0, 2, 9], 443⟩
    else .error (.plain "no such host")

def relayedServer : ServerStamp where
  proto := .dnsCrypt
  serverAddrStr := "192.0.2.1:443"
  serverPk := replicate 32 7
  providerName := "2.dnscrypt-cert.example"
  path := ""

/-- The route of the server names the relay. -/
def oneRoute : AnonConfig where
  routes := some fun name => if name = "server" then some ["relay"] else none
  skipAnonIncompatibleResolvers := true
  anonDirectCertFallback := false
  serversBlockingFragments := []
  registeredServers := [⟨"server", relayedServer⟩]
  registeredRelays := [⟨"relay", { relayedServer with
    proto := .dnsCryptRelay, serverAddrStr := "192.0.2.9:443" }⟩]

/-- An XChaCha20 certificate with serial number 1. -/
def sampleCert : Bytes :=
  CertMagic ++ [0, 2, 0, 0] ++ replicate 64 1 ++ replicate 32 2 ++ replicate 8 3 ++
    [0, 0, 0, 1, 0, 0, 0, 0, 0, 0, 0, 9]

/-- `dns.NewMsg`, with a fixed ID. -/
def newMsg (name : String) (qtype : UInt16) : Msg :=
  { Msg.empty with
    recursionDesired := true
    question := if h : (ascii name).getLast? = some dot then [⟨⟨ascii name, h⟩, qtype, ClassINET⟩]
      else [] }

/-- The answer to the first probe. -/
def certAnswer : Msg :=
  let name := relayedServer.providerName ++ "."
  { newMsg name TypeTXT with
    response := true
    answer := [{ name := ascii name, rclass := ClassINET, ttl := 0, rdata := .txt [sampleCert] }] }

def relayedEnv : FetchEnv where
  lib := wireLib [certAnswer]
  net := twoHosts
  cfg := oneRoute
  cert :=
    { verify := fun _ _ _ => true
      curve := { scalarBaseMult := id, xSharedKey := fun a _ => .ok a, precompute := fun a _ => a }
      secretKey := zeroKey
      random := zeroKey
      pqDNSCrypt := true
      certIgnoreTimestamp := true
      now := 0 }
  newMsg := newMsg
  rrString _ := ""
  mainProto := .udp

/-- Everybody answers, in the order of the probes. -/
def answeringNet : FetchNet :=
  let conn : ConnNet :=
    { dialErr := none, deadlineErr := none, writeErr := none, rtt := 0
      reply := .ok certAnswer.wire }
  let round : RoundNet := { started := fun _ => true, conn := fun _ => conn, arrival := id }
  { draw := 0, cert := ⟨round, round⟩, certTCP := ⟨round, round⟩, nxTest := ⟨round, round⟩
    nxName := "" }

/-- Six probes go to the relay, and the server is used through it. -/
theorem anonymization_fails_closed_one_route :
    (fetchDNSCryptServerInfo relayedEnv answeringNet "server" relayedServer).events.length = 6 ∧
    (∀ e ∈ (fetchDNSCryptServerInfo relayedEnv answeringNet "server" relayedServer).events,
      Relayed relayedEnv "server" relayedServer.serverAddrStr e) ∧
    ∃ server, (fetchDNSCryptServerInfo relayedEnv answeringNet "server" relayedServer).result =
        .ok server ∧
      ∃ relay, server.dnscryptRelay = some relay ∧
        AllowedRelay relayedEnv.net relayedEnv.cfg (relayedEnv.cfg.relayNames "server") relay := by
  obtain ⟨hEvents, hServer⟩ := anonymization_fails_closed relayedEnv answeringNet "server"
    relayedServer rfl rfl rfl (by decide)
  have hOk : (fetchDNSCryptServerInfo relayedEnv answeringNet "server"
      relayedServer).result.isOk = true := by decide +kernel
  refine ⟨by decide +kernel, hEvents, ?_⟩
  cases hResult : (fetchDNSCryptServerInfo relayedEnv answeringNet "server"
      relayedServer).result with
  | error err =>
    rw [hResult] at hOk
    cases hOk
  | ok server => exact ⟨server, rfl, (hServer server hResult).1⟩

end DnscryptProxy
