import DnscryptProxy.Dns.Message
import Mathlib.Algebra.Ring.Int.Defs

/-!
# Routes through relays

`route` of `serversInfo.go`, with `findFarthestRoute`: which relay the queries
to a server go through. The stamp, address and URL libraries are parameters.

* `route_ok` — a server with a relay list gets a relay that the list allows, or
  an error; never a direct connection.
-/

namespace DnscryptProxy

/-! ## Stamps and addresses -/

/-- `stamps.StampProtoType`. -/
inductive StampProto where
  | plain
  | dnsCrypt
  | doH
  | tls
  | doQ
  | odohTarget
  | dnsCryptRelay
  | odohRelay
deriving Repr, DecidableEq

/-- `stamps.ServerStamp`. -/
structure ServerStamp where
  proto : StampProto
  serverAddrStr : String
  serverPk : Bytes
  providerName : String
  path : String
deriving Repr, DecidableEq

structure RegisteredServer where
  name : String
  stamp : ServerStamp
deriving Repr, DecidableEq

/-- `net.UDPAddr` and `net.TCPAddr`. -/
structure NetAddr where
  ip : Bytes
  port : UInt16
deriving Repr, DecidableEq

/-- The libraries that read and print stamps, addresses and URLs. -/
structure NetLib where
  /-- `stamps.NewServerStampFromString` -/
  newServerStampFromString : String → Except GoError ServerStamp
  /-- `ServerStamp.String` -/
  stampString : ServerStamp → String
  /-- `net.ParseIP`: sixteen bytes -/
  parseIP : String → Option Bytes
  resolveUDPAddr : String → Except GoError NetAddr
  resolveTCPAddr : String → Except GoError NetAddr
  /-- the base URL of an ODoH relay -/
  relayBaseURL : ServerStamp → Except GoError String
  /-- the URL with `targethost` and `targetpath` added -/
  withTarget : String → ServerStamp → String

/-- `strconv.Atoi`, with an `int` of 64 bits. -/
def atoi (s : List Char) : Option Int :=
  let (negative, digits) := match s with
    | '-' :: rest => (true, rest)
    | '+' :: rest => (false, rest)
    | rest => (false, rest)
  if digits = [] ∨ digits.any (fun c => !c.isDigit) then none
  else
    let n : Int := digits.foldl (fun n c => 10 * n + (c.toNat - '0'.toNat : Nat)) 0
    let n := if negative then -n else n
    if -2 ^ 63 ≤ n ∧ n < 2 ^ 63 then some n else none

/-- What stands before and after the last colon. -/
def splitLastColon (str : List Char) : Option (List Char × List Char) :=
  let after := (str.reverse.takeWhile (· ≠ ':')).reverse
  if after.length < str.length then some (str.take (str.length - after.length - 1), after)
  else none

def extractHostAndPort (str : String) (defaultPort : Int) : String × Int :=
  match splitLastColon str.toList with
  | none => (str, defaultPort)
  | some (host, after) =>
    if after = [] then (str, defaultPort)
    else
      match atoi after with
      | none => (str, defaultPort)
      | some port => (String.ofList host, port)

/-! ## The farthest relay -/

/-- `bits.LeadingZeros8`. -/
def leadingZeros8 (x : UInt8) : Nat :=
  if x = 0 then 8 else 7 - x.toNat.log2

/-- The loop over the bytes of two addresses. -/
def samePrefixBits : Bytes → Bytes → Nat
  | a :: as, b :: bs =>
    if a ^^^ b = 0 then leadingZeros8 0 + samePrefixBits as bs else leadingZeros8 (a ^^^ b)
  | _, _ => 0

/-- How many bits a relay shares with the server, if it may be considered. -/
def relayDistance (net : NetLib) (serverAddr : Bytes) (relayStamp : ServerStamp) : Option Nat :=
  if relayStamp.proto ≠ .dnsCryptRelay then none
  else
    match net.parseIP (extractHostAndPort relayStamp.serverAddrStr 443).1 with
    | none => none
    | some relayAddr =>
      let relayIsIPv6 := (ipTo4 relayAddr).isNone
      if relayIsIPv6 ≠ (ipTo4 serverAddr).isNone then none
      else
        -- an IPv4 address sits in the last four of its sixteen bytes
        let firstByte := if relayIsIPv6 then 0 else 12
        some (samePrefixBits (serverAddr.drop firstByte) (relayAddr.drop firstByte))

/-- The loop over the relays: the fewest bits so far, and who has them. -/
def bestRelays (net : NetLib) (serverAddr : Bytes) :
    List ServerStamp → Nat → List ServerStamp → List ServerStamp
  | [], _, best => best
  | relayStamp :: rest, bestBits, best =>
    match relayDistance net serverAddr relayStamp with
    | none => bestRelays net serverAddr rest bestBits best
    | some bits =>
      if bits < bestBits then bestRelays net serverAddr rest bits [relayStamp]
      else if bits = bestBits then bestRelays net serverAddr rest bestBits (best ++ [relayStamp])
      else bestRelays net serverAddr rest bestBits best

/-- `&l[rand.Intn(len(l))]`; `none` for an empty list. -/
def pickOne {α : Type*} (draw : Nat) (l : List α) : Option α := l[draw % l.length]?

/-- The part of the proxy that decides about anonymization. -/
structure AnonConfig where
  routes : Option (String → Option (List String))
  skipAnonIncompatibleResolvers : Bool
  anonDirectCertFallback : Bool
  serversBlockingFragments : List String
  registeredServers : List RegisteredServer
  registeredRelays : List RegisteredServer

variable (net : NetLib) (cfg : AnonConfig) (draw : Nat) (name : String)

def findFarthestRoute (relayStamps : List ServerStamp) : Option ServerStamp :=
  match cfg.registeredServers.find? fun server => decide (server.name = name) with
  | none => none
  | some server =>
    if server.stamp.proto = .odohTarget then
      -- the distance is not known for these: any relay will do
      pickOne draw (relayStamps.filter fun stamp => decide (stamp.proto = .odohRelay))
    else if server.stamp.proto ≠ .dnsCrypt then none
    else
      match net.parseIP (extractHostAndPort server.stamp.serverAddrStr 443).1 with
      | none => none
      | some serverAddr =>
        if cfg.registeredRelays = [] then none
        else pickOne draw (bestRelays net serverAddr relayStamps 128 [])

/-! ## Routes -/

structure DNSCryptRelay where
  relayUDPAddr : NetAddr
  relayTCPAddr : NetAddr
deriving Repr, DecidableEq

structure Relay where
  proto : StampProto
  dnscrypt : Option DNSCryptRelay
  /-- the URL of an ODoH relay -/
  odoh : Option String
  name : String
deriving Repr, DecidableEq

def relayProtoForServerProto : StampProto → Except GoError StampProto
  | .dnsCrypt => .ok .dnsCryptRelay
  | .odohTarget => .ok .odohRelay
  | _ => .error (.plain "protocol cannot be anonymized")

/-- The relays found so far. -/
structure RelaySet where
  relayStamps : List ServerStamp
  relayStampToName : String → String
  wildcard : Bool

def RelaySet.add (net : NetLib) (set : RelaySet) (stamp : ServerStamp) (name : String) : RelaySet :=
  { set with
    relayStamps := set.relayStamps ++ [stamp]
    relayStampToName := Function.update set.relayStampToName (net.stampString stamp) name }

/-- The loop of `route` over the relay names. -/
def collectRelays (net : NetLib) (cfg : AnonConfig) (relayProto : StampProto) :
    List String → RelaySet → RelaySet
  | [], set => set
  | relayName :: rest, set =>
    match net.newServerStampFromString relayName with
    | .ok stamp =>
      collectRelays net cfg relayProto rest
        (if stamp.proto = relayProto then set.add net stamp relayName else set)
    | .error _ =>
      if relayName = "*" then
        -- all relays; the rest of the list does not matter any more
        let all := cfg.registeredRelays.filter fun r => decide (r.stamp.proto = relayProto)
        { all.foldl (fun set r => set.add net r.stamp r.name) set with wildcard := true }
      else
        match cfg.registeredRelays.find? fun r =>
            decide (r.name = relayName ∧ r.stamp.proto = relayProto) with
        -- a name that nothing is registered under is skipped
        | none => collectRelays net cfg relayProto rest set
        | some r => collectRelays net cfg relayProto rest (set.add net r.stamp relayName)

/-- The relay behind the stamp that was picked. -/
def relayOfStamp (net : NetLib) (cfg : AnonConfig) (name relayName : String)
    (stamp : ServerStamp) : Except GoError Relay :=
  match stamp.proto with
  | .dnsCrypt | .dnsCryptRelay => do
    let relayUDPAddr ← net.resolveUDPAddr stamp.serverAddrStr
    let relayTCPAddr ← net.resolveTCPAddr stamp.serverAddrStr
    pure
      { proto := .dnsCryptRelay
        dnscrypt := some { relayUDPAddr := relayUDPAddr, relayTCPAddr := relayTCPAddr }
        odoh := none
        name := relayName }
  | .odohRelay => do
    let relayBaseURL ← net.relayBaseURL stamp
    match cfg.registeredServers.find? fun server =>
        decide (server.name = name ∧ server.stamp.proto = .odohTarget) with
    | none => .error (.plain s!"Relay [{relayName}] not found")
    | some server =>
      pure
        { proto := .odohRelay
          dnscrypt := none
          odoh := some (net.withTarget relayBaseURL server.stamp)
          name := relayName }
  | _ => .error (.plain s!"Invalid relay set for server [{name}]")

/-- The relay list of a server: its own if the routes name it, even an empty
one, and the wildcard one otherwise. -/
def AnonConfig.relayNames (cfg : AnonConfig) (name : String) : List String :=
  (cfg.routes.bind fun routes => (routes name).or (routes "*")).getD []

/-- `route`. `none` is a direct connection. -/
def route (serverProto : StampProto) : Except GoError (Option Relay) :=
  match cfg.routes with
  | none => .ok none
  | some routes =>
    let relayNames := ((routes name).or (routes "*")).getD []
    if relayNames = [] then .ok none
    else
      match relayProtoForServerProto serverProto with
      -- logged, but a direct connection all the same
      | .error _ => .ok none
      | .ok relayProto =>
        let set := collectRelays net cfg relayProto relayNames
          { relayStamps := [], relayStampToName := fun _ => "", wildcard := (routes name).isNone }
        if set.relayStamps = [] then
          .error (.plain s!"Non-existent relay set for server [{name}]")
        else
          let relayCandidateStamp :=
            if set.wildcard = false ∨ set.relayStamps.length = 1 then pickOne draw set.relayStamps
            else findFarthestRoute net cfg draw name set.relayStamps
          match relayCandidateStamp with
          | none => .error (.plain s!"No valid relay for server [{name}]")
          | some stamp =>
            let relayName := set.relayStampToName (net.stampString stamp)
            (relayOfStamp net cfg name relayName stamp).map some

/-! ## What a route is -/

/-- The relay name stands for this relay: it is its stamp, its name, or the
name for all of them. -/
def StandsFor (net : NetLib) (cfg : AnonConfig) (relayProto : StampProto) (relayName : String)
    (stamp : ServerStamp) : Prop :=
  stamp.proto = relayProto ∧ (net.newServerStampFromString relayName = .ok stamp ∨
    ∃ r ∈ cfg.registeredRelays, r.stamp = stamp ∧ (relayName = "*" ∨ r.name = relayName))

/-- The relay is at the address of a DNSCrypt relay that the list allows. -/
def AllowedRelay (net : NetLib) (cfg : AnonConfig) (relayNames : List String)
    (relay : DNSCryptRelay) : Prop :=
  ∃ relayName ∈ relayNames, ∃ stamp, StandsFor net cfg .dnsCryptRelay relayName stamp ∧
    net.resolveUDPAddr stamp.serverAddrStr = .ok relay.relayUDPAddr ∧
    net.resolveTCPAddr stamp.serverAddrStr = .ok relay.relayTCPAddr

theorem mem_of_pickOne {α : Type*} {draw : Nat} {l : List α} {a : α} (h : pickOne draw l = some a) :
    a ∈ l :=
  List.mem_of_getElem? h

section Routes

variable {net : NetLib} {cfg : AnonConfig}

variable {stamp : ServerStamp}

theorem mem_bestRelays {serverAddr : Bytes} {relayStamps : List ServerStamp} :
    ∀ {bestBits : Nat} {best : List ServerStamp},
      stamp ∈ bestRelays net serverAddr relayStamps bestBits best →
        stamp ∈ best ∨ stamp ∈ relayStamps := by
  induction relayStamps with
  | nil => exact fun h => .inl h
  | cons head rest ih =>
    intro bestBits best h
    unfold bestRelays at h
    -- each way on starts over with the best relays so far, which may include `head`
    split at h
    · exact (ih h).imp_right (List.mem_cons_of_mem head)
    · split at h
      · rcases ih h with hBest | hRest
        · exact .inr (List.mem_singleton.mp hBest ▸ List.mem_cons_self)
        · exact .inr (List.mem_cons_of_mem head hRest)
      · split at h
        · rcases ih h with hBest | hRest
          · rcases List.mem_append.mp hBest with hOld | hHead
            · exact .inl hOld
            · exact .inr (List.mem_singleton.mp hHead ▸ List.mem_cons_self)
          · exact .inr (List.mem_cons_of_mem head hRest)
        · exact (ih h).imp_right (List.mem_cons_of_mem head)

/-- The farthest relay is one of those given. -/
theorem mem_of_findFarthestRoute {draw : Nat} {name : String} {relayStamps : List ServerStamp}
    (h : findFarthestRoute net cfg draw name relayStamps = some stamp) :
    stamp ∈ relayStamps := by
  unfold findFarthestRoute at h
  split at h
  · cases h
  · split at h
    · exact List.mem_of_mem_filter (mem_of_pickOne h)
    · split at h
      · cases h
      · split at h
        · cases h
        · split at h
          · cases h
          · rcases mem_bestRelays (mem_of_pickOne h) with hNil | hMem
            · cases hNil
            · exact hMem

theorem mem_foldl_add {relays : List RegisteredServer} :
    ∀ {set : RelaySet},
      stamp ∈ (relays.foldl (fun set r => set.add net r.stamp r.name) set).relayStamps →
        stamp ∈ set.relayStamps ∨ ∃ r ∈ relays, r.stamp = stamp := by
  induction relays with
  | nil => exact fun h => .inl h
  | cons head rest ih =>
    intro set h
    rcases ih h with hSet | ⟨r, hr, hStamp⟩
    · rcases List.mem_append.mp hSet with hOld | hHead
      · exact .inl hOld
      · exact .inr ⟨head, List.mem_cons_self, (List.mem_singleton.mp hHead).symm⟩
    · exact .inr ⟨r, List.mem_cons_of_mem head hr, hStamp⟩

/-- The loop over the relay names adds nothing else. -/
theorem mem_collectRelays {relayProto : StampProto} {relayNames : List String} :
    ∀ {set : RelaySet}, stamp ∈ (collectRelays net cfg relayProto relayNames set).relayStamps →
      stamp ∈ set.relayStamps ∨
        ∃ relayName ∈ relayNames, StandsFor net cfg relayProto relayName stamp := by
  induction relayNames with
  | nil => exact fun h => .inl h
  | cons relayName rest ih =>
    intro set h
    -- what the rest of the list adds, and what `relayName` adds
    have hLater : (∃ n ∈ rest, StandsFor net cfg relayProto n stamp) →
        ∃ n ∈ relayName :: rest, StandsFor net cfg relayProto n stamp :=
      fun ⟨n, hn, hStands⟩ => ⟨n, List.mem_cons_of_mem relayName hn, hStands⟩
    have hAdd : ∀ {other : ServerStamp} {n : String}, StandsFor net cfg relayProto relayName other →
        stamp ∈ (set.add net other n).relayStamps → stamp ∈ set.relayStamps ∨
          ∃ n ∈ relayName :: rest, StandsFor net cfg relayProto n stamp := by
      intro other n hOther hMem
      rcases List.mem_append.mp hMem with hOld | hNew
      · exact .inl hOld
      · exact .inr ⟨relayName, List.mem_cons_self, List.mem_singleton.mp hNew ▸ hOther⟩
    unfold collectRelays at h
    split at h
    · rename_i other hParse
      rcases ih h with hSet | hRest
      · split at hSet
        · rename_i hProto
          exact hAdd ⟨hProto, .inl hParse⟩ hSet
        · exact .inl hSet
      · exact .inr (hLater hRest)
    · split at h
      · rename_i hStar
        rcases mem_foldl_add h with hSet | ⟨r, hr, hStamp⟩
        · exact .inl hSet
        · obtain ⟨hRelay, hProto⟩ := List.mem_filter.mp hr
          rw [decide_eq_true_eq, hStamp] at hProto
          exact .inr ⟨relayName, List.mem_cons_self, hProto, .inr ⟨r, hRelay, hStamp, .inl hStar⟩⟩
      · split at h
        · exact (ih h).imp_right hLater
        · rename_i r hFind
          have hNamed := List.find?_some hFind
          rw [decide_eq_true_eq] at hNamed
          rcases ih h with hSet | hRest
          · have hMem : r ∈ cfg.registeredRelays := List.mem_of_find?_eq_some hFind
            exact hAdd ⟨hNamed.2, .inr ⟨r, hMem, rfl, .inr hNamed.1⟩⟩ hSet
          · exact .inr (hLater hRest)

/-- The relay of a DNSCrypt relay stamp is at its address. -/
theorem relayOfStamp_ok {name relayName : String} {relay : Relay}
    (hProto : stamp.proto = .dnsCryptRelay)
    (h : relayOfStamp net cfg name relayName stamp = .ok relay) :
    ∃ d, relay.dnscrypt = some d ∧ net.resolveUDPAddr stamp.serverAddrStr = .ok d.relayUDPAddr ∧
      net.resolveTCPAddr stamp.serverAddrStr = .ok d.relayTCPAddr := by
  unfold relayOfStamp at h
  rw [hProto] at h
  cases hUDP : net.resolveUDPAddr stamp.serverAddrStr with
  | error err =>
    rw [hUDP] at h
    cases h
  | ok udp =>
    rw [hUDP] at h
    cases hTCP : net.resolveTCPAddr stamp.serverAddrStr with
    | error err =>
      rw [hTCP] at h
      cases h
    | ok tcp =>
      rw [hTCP] at h
      cases h
      exact ⟨_, rfl, rfl, rfl⟩

theorem route_ok {draw : Nat} {name : String} {relay : Option Relay}
    (hList : cfg.relayNames name ≠ [])
    (h : route net cfg draw name .dnsCrypt = .ok relay) :
    ∃ r d, relay = some r ∧ r.dnscrypt = some d ∧ AllowedRelay net cfg (cfg.relayNames name) d := by
  unfold AnonConfig.relayNames at hList ⊢
  unfold route at h
  cases hRoutes : cfg.routes with
  | none =>
    rw [hRoutes] at hList
    exact absurd rfl hList
  | some routes =>
    rw [hRoutes] at hList h
    rw [Option.bind_some] at hList ⊢
    dsimp only [relayProtoForServerProto] at h
    generalize ((routes name).or (routes "*")).getD [] = relayNames at hList h ⊢
    rw [if_neg hList] at h
    -- the first two returns, both direct connections, are behind; the others are errors
    generalize hSet : collectRelays net cfg .dnsCryptRelay relayNames _ = set at h
    split at h
    · cases h
    · split at h
      · cases h
      · rename_i stamp hPicked
        have hMem : stamp ∈ set.relayStamps := by
          split at hPicked
          · exact mem_of_pickOne hPicked
          · exact mem_of_findFarthestRoute hPicked
        -- the set was empty to begin with, so a name of the list brought the relay in
        subst hSet
        obtain ⟨relayName, hName, hStands⟩ := (mem_collectRelays hMem).resolve_left
          List.not_mem_nil
        rcases hRelay : relayOfStamp net cfg name _ stamp with err | r
        · rw [hRelay] at h
          cases h
        · rw [hRelay] at h
          cases h
          obtain ⟨d, hDnscrypt, hUDP, hTCP⟩ := relayOfStamp_ok hStands.1 hRelay
          exact ⟨r, d, rfl, hDnscrypt, relayName, hName, stamp, hStands, hUDP, hTCP⟩

end Routes

end DnscryptProxy
