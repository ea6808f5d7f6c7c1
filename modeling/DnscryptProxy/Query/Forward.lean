import DnscryptProxy.Query.Plugins

/-!
# The forwarding plugin

`PluginForward.Eval` of `plugin_forward.go`: the rule for a name, and the loop
over the servers of its sequence. At most four servers are tried. A server that
cannot be reached leaves its error in the variable the function returns; one
that answers another question leaves it nil; after a negative answer the loop
goes on with the answer in hand.

What the outside does during one call is a `ForwardEnv`, indexed by the position
in the sequence: every position is visited once.

* `forwardLoop_run` — what is left of the tries when the loop ends: the error of
  the last one, and the answer of the last one that had any;
* `forward_keeps_answer_iff` — an obtained answer is kept, and a failure
  reported, exactly when the last try tells: it was unreachable if and only if
  no server answered.
-/

namespace DnscryptProxy

open List

/-! ## Rules -/

/-- The address of a server with its port; `net.JoinHostPort` returns no empty
text. -/
abbrev ServerAddr := { s : String // s ≠ "" }

/-- A list of servers that is not empty. -/
structure Servers where
  first : ServerAddr
  others : List ServerAddr
deriving Repr, DecidableEq

/-- `servers[rand.Intn(len(servers))]`. -/
def Servers.pick (servers : Servers) (draw : Nat) : ServerAddr :=
  (servers.first :: servers.others).getD (draw % (servers.others.length + 1)) servers.first

/-- `SearchSequenceItem`. `parseForwardFile` makes an explicit item with its
first server, and refuses a bootstrap item when there are no bootstrap
resolvers; here the item carries them. -/
inductive SearchSequenceItem where
  | explicit (servers : Servers)
  | bootstrap (bootstrapResolvers : Servers)
  | dhcp
  | resolvconf (file : String) (rcLastFail : Int)
deriving Repr, DecidableEq

structure PluginForwardEntry where
  domain : Bytes
  sequence : List SearchSequenceItem
  viaProxy : Bool
deriving Repr, DecidableEq

/-- The test of `Eval` on one candidate. -/
def PluginForwardEntry.covers (candidate : PluginForwardEntry) (qName : Bytes) : Bool :=
  let qNameLen := qName.length
  let candidateLen := candidate.domain.length
  if candidateLen > qNameLen then false
  else
    (decide (qName.drop (qNameLen - candidateLen) = candidate.domain) &&
      (decide (candidateLen = qNameLen) ||
        decide (qName[qNameLen - candidateLen - 1]? = some dot))) ||
      decide (candidate.domain = [dot])

/-! ## Servers -/

/-- What `Status` of a DHCP detector returns. -/
structure DhcpStatus where
  inconsistency : Nat
  ip : String
  dhcpDNS : List String
  err : Option GoError
deriving Repr, DecidableEq

/-- What the outside does during one call, by the position in the sequence. -/
structure ForwardEnv where
  /-- `time.Now().Unix()` -/
  now : Nat → Int
  /-- `rand.Intn`, before it is reduced -/
  draw : Nat → Nat
  dhcpStatus : Nat → List DhcpStatus
  parseResolvConf : Nat → String → Except GoError (List String)
  /-- `normalizeIPAndOptionalPort(nameserver, "53")` -/
  normalize : String → Except GoError ServerAddr
  /-- `client.Exchange`: a message and an error, where it has any -/
  exchange : Nat → ServerProto → ServerAddr → Msg → Option Msg × Option GoError
  exchangeViaProxy : Nat → ServerAddr → Msg → Except GoError (Option Msg)

theorem append_ne_empty {s t : String} (h : t ≠ "") : s ++ t ≠ "" :=
  fun hEmpty => h (String.append_eq_empty_iff.mp hEmpty).2

/-- `net.JoinHostPort(host, "53")`. -/
def joinPort53 (host : String) : ServerAddr :=
  if host.toList.any (fun c => c == ':' || c == '%') then
    ⟨"[" ++ host ++ "]:53", append_ne_empty (by decide)⟩
  else ⟨host ++ ":53", append_ne_empty (by decide)⟩

def maxInconsistency : Nat := 9

/-- The loop over the DHCP detectors. -/
def dhcpServer (draw : Nat) : List DhcpStatus → Option ServerAddr
  | [] => none
  | status :: rest =>
    if status.err ≠ none ∧ status.ip ≠ "" ∧ status.inconsistency > maxInconsistency then
      dhcpServer draw rest
    else
      match status.dhcpDNS with
      | [] => dhcpServer draw rest
      | first :: others =>
        some (joinPort53 ((first :: others).getD (draw % (others.length + 1)) first))

def resolvconfRetryInterval : Int := 30

/-- The `switch` of the loop: the server for an item, and the item afterwards. -/
def selectServer (env : ForwardEnv) (i : Nat) (item : SearchSequenceItem) :
    Option ServerAddr × SearchSequenceItem :=
  match item with
  | .explicit servers => (some (servers.pick (env.draw i)), item)
  | .bootstrap bootstrapResolvers => (some (bootstrapResolvers.pick (env.draw i)), item)
  | .dhcp => (dhcpServer (env.draw i) (env.dhcpStatus i), item)
  | .resolvconf file rcLastFail =>
    if rcLastFail ≠ 0 ∧ env.now i - rcLastFail < resolvconfRetryInterval then (none, item)
    else
      match env.parseResolvConf i file with
      | .error _ => (none, .resolvconf file (env.now i))
      | .ok [] => (none, .resolvconf file (env.now i))
      | .ok (first :: others) =>
        let nameserver := (first :: others).getD (env.draw i % (others.length + 1)) first
        match env.normalize nameserver with
        | .error _ => (none, .resolvconf file 0)
        | .ok server => (some server, .resolvconf file 0)

def exchangeDirect (exchange : ServerProto → Option Msg × Option GoError) (proto : ServerProto) :
    Except GoError (Option Msg) :=
  let (respMsg, err) := exchange proto
  let truncated := respMsg.any Msg.truncated
  match err, truncated with
  | some err, false => .error err
  | _, true =>
    let (respMsg, err) := exchange .tcp
    match err with
    | some err => .error err
    | none => .ok respMsg
  | none, false => .ok respMsg

/-- The copy of the message that is sent, without its additional section. -/
def forwardMsgOf (msg : Msg) : Msg := { msg with extra := [] }

/-- The exchange with a server. -/
def forwardExchange (env : ForwardEnv) (viaProxy forceTCP : Bool) (i : Nat)
    (item : SearchSequenceItem) (server : ServerAddr) (msg : Msg) : Except GoError (Option Msg) :=
  let forwardMsg := forwardMsgOf msg
  if viaProxy then env.exchangeViaProxy i server forwardMsg
  else
    let proto := match item with
      | .bootstrap _ => if forceTCP then .tcp else .udp
      | _ => .udp
    exchangeDirect (fun proto => env.exchange i proto server forwardMsg) proto

/-! ## The loop -/

/-- The response that is handed to the client. -/
def forwardedResponse (msg respMsg : Msg) : Msg :=
  { respMsg with
    authenticatedData := if respMsg.security then respMsg.authenticatedData else false
    id := msg.id }

/-- The response codes after which the next server is tried. -/
def isNegative (respMsg : Msg) : Bool :=
  decide (respMsg.rcode = RcodeNameError) || decide (respMsg.rcode = RcodeRefused) ||
    decide (respMsg.rcode = RcodeNotAuth)

/-- The variables of the loop. -/
structure ForwardState where
  state : PluginsState
  err : Option GoError
deriving Repr, DecidableEq

/-- A response whose question matches is stored in the session. -/
def ForwardState.accept (s : ForwardState) (msg respMsg : Msg) : ForwardState :=
  { state :=
      { s.state with
        synthResponse := some (forwardedResponse msg respMsg)
        action := .synth
        returnCode := .forward }
    err := none }

/-- The loop of `Eval`, from position `i` on, and the sequence as it leaves it. -/
def forwardLoop (env : ForwardEnv) (viaProxy forceTCP : Bool) (msg : Msg) :
    Nat → List SearchSequenceItem → Nat → ForwardState → ForwardState × List SearchSequenceItem
  | _, [], _, s => (s, [])
  | i, item :: rest, tries, s =>
    match selectServer env i item with
    | (none, item') =>
      let r := forwardLoop env viaProxy forceTCP msg (i + 1) rest tries s
      (r.1, item' :: r.2)
    | (some server, item') =>
      let s := { s with state := { s.state with serverName := server.val } }
      match tries with
      | 0 => (s, item' :: rest)
      | tries + 1 =>
        match forwardExchange env viaProxy forceTCP i item server msg with
        | .error err =>
          let r := forwardLoop env viaProxy forceTCP msg (i + 1) rest tries
            { s with err := some err }
          (r.1, item' :: r.2)
        | .ok respMsg =>
          match validateResponseQuestion (some (forwardMsgOf msg)) respMsg, respMsg with
          | none, some respMsg =>
            let s := s.accept msg respMsg
            if isNegative respMsg then
              let r := forwardLoop env viaProxy forceTCP msg (i + 1) rest tries s
              (r.1, item' :: r.2)
            else (s, item' :: rest)
          | _, _ =>
            -- the error of the check is a variable of its own
            let r := forwardLoop env viaProxy forceTCP msg (i + 1) rest tries
              { s with err := none }
            (r.1, item' :: r.2)

/-- `PluginForward`: the rules. `forceTCP` is copied from the proxy. -/
structure PluginForward where
  forwardMap : List PluginForwardEntry
  forceTCP : Bool
deriving Repr, DecidableEq

/-- The first rule for the name, with its index. -/
def PluginForward.lookup (p : PluginForward) (qName : Bytes) : Option (PluginForwardEntry × Nat) :=
  p.forwardMap.zipIdx.find? fun e => e.1.covers qName

/-- `PluginForward.Eval`: the session and the error it leaves, and the plugin. -/
def PluginForward.eval (p : PluginForward) (env : ForwardEnv) (ps : PluginsState) (msg : Msg) :
    ForwardState × PluginForward :=
  match p.lookup ps.qName with
  | none => ({ state := ps, err := none }, p)
  | some (entry, k) =>
    let r := forwardLoop env entry.viaProxy p.forceTCP msg 0 entry.sequence 4
      { state := ps, err := none }
    (r.1, { p with forwardMap := p.forwardMap.set k { entry with sequence := r.2 } })

/-! ## What the servers did -/

/-- What comes of trying a server. -/
inductive ServerOutcome where
  | unreachable (err : GoError)
  | invalidQuestion
  | answered (respMsg : Msg)
deriving Repr, DecidableEq

namespace ServerOutcome

def answer : ServerOutcome → Option Msg
  | answered respMsg => some respMsg
  | _ => none

def isUnreachable : ServerOutcome → Bool
  | unreachable _ => true
  | _ => false

/-- An answer that is not negative ends the search. -/
def isFinal : ServerOutcome → Bool
  | answered respMsg => !isNegative respMsg
  | _ => false

end ServerOutcome

/-- What an exchange amounts to. -/
def outcomeOf (msg : Msg) (r : Except GoError (Option Msg)) : ServerOutcome :=
  match r with
  | .error err => .unreachable err
  | .ok none => .invalidQuestion
  | .ok (some respMsg) =>
    match validateResponseQuestion (some (forwardMsgOf msg)) (some respMsg) with
    | none => .answered respMsg
    | some _ => .invalidQuestion

variable (env : ForwardEnv) (viaProxy forceTCP : Bool) (msg : Msg) (i : Nat)

/-- What trying the item at position `i` comes to, if it yields a server. -/
def itemOutcome (item : SearchSequenceItem) : Option ServerOutcome :=
  (selectServer env i item).1.map fun server =>
    outcomeOf msg (forwardExchange env viaProxy forceTCP i item server msg)

/-- The outcomes of a sequence, were all its servers tried. -/
def outcomes (sequence : List SearchSequenceItem) : List ServerOutcome :=
  (sequence.zipIdx i).filterMap fun e => itemOutcome env viaProxy forceTCP msg e.2 e.1

/-- A list up to its first final outcome. -/
def upToFinal : List ServerOutcome → List ServerOutcome
  | [] => []
  | o :: rest => if o.isFinal then [o] else o :: upToFinal rest

/-- The outcomes of the servers that are tried for a query. -/
def PluginForward.tried (p : PluginForward) (env : ForwardEnv) (ps : PluginsState) (msg : Msg) :
    List ServerOutcome :=
  match p.lookup ps.qName with
  | none => []
  | some (entry, _) =>
    upToFinal ((outcomes env entry.viaProxy p.forceTCP msg 0 entry.sequence).take 4)

variable (s : ForwardState)

/-- What the tries leave in the variables of the loop. -/
def ForwardState.after (msg : Msg) (o : ServerOutcome) : ForwardState :=
  match o with
  | .unreachable err => { s with err := some err }
  | .invalidQuestion => { s with err := none }
  | .answered respMsg => s.accept msg respMsg

def ForwardState.afterAll (msg : Msg) (l : List ServerOutcome) : ForwardState :=
  l.foldl (fun s o => s.after msg o) s

/-- The error a try leaves. -/
def ServerOutcome.error : ServerOutcome → Option GoError
  | unreachable err => some err
  | _ => none

/-! ## The loop leaves what its tries leave -/

/-- Another server name in the session. -/
def ForwardState.rename (name : String) : ForwardState :=
  { s with state := { s.state with serverName := name } }

theorem ForwardState.afterAll_cons (msg : Msg) (o : ServerOutcome)
    (rest : List ServerOutcome) : s.afterAll msg (o :: rest) = (s.after msg o).afterAll msg rest :=
  rfl

theorem ForwardState.afterAll_concat (msg : Msg) (front : List ServerOutcome)
    (o : ServerOutcome) : s.afterAll msg (front ++ [o]) = (s.afterAll msg front).after msg o := by
  rw [afterAll, foldl_append]
  rfl

theorem ForwardState.afterAll_rename (msg : Msg) (l : List ServerOutcome) (s : ForwardState)
    (name : String) : (s.rename name).afterAll msg l = (s.afterAll msg l).rename name := by
  induction l generalizing s with
  | nil => rfl
  | cons o rest ih =>
    rw [afterAll_cons, afterAll_cons, ← ih]
    cases o <;> rfl

section Loop

variable (env : ForwardEnv) (viaProxy forceTCP : Bool) (msg : Msg)

theorem outcomes_cons (i : Nat) (item : SearchSequenceItem) (rest : List SearchSequenceItem) :
    outcomes env viaProxy forceTCP msg i (item :: rest) =
      (itemOutcome env viaProxy forceTCP msg i item).toList ++
        outcomes env viaProxy forceTCP msg (i + 1) rest := by
  rw [outcomes, zipIdx_cons, filterMap_cons]
  cases itemOutcome env viaProxy forceTCP msg i item <;> rfl

/-- One try: the loop ends with a final answer, and goes on after anything else. -/
theorem forwardLoop_try {i : Nat} {item item' : SearchSequenceItem} {server : ServerAddr}
    (hServer : selectServer env i item = (some server, item')) (rest : List SearchSequenceItem)
    (tries : Nat) (s : ForwardState) :
    (forwardLoop env viaProxy forceTCP msg i (item :: rest) (tries + 1) s).1 =
      let o := outcomeOf msg (forwardExchange env viaProxy forceTCP i item server msg)
      let s' := (s.after msg o).rename server.val
      if o.isFinal then s'
      else (forwardLoop env viaProxy forceTCP msg (i + 1) rest tries s').1 := by
  rw [forwardLoop, hServer]
  dsimp only
  cases forwardExchange env viaProxy forceTCP i item server msg with
  | error err => rfl
  | ok respMsg =>
    dsimp only
    cases respMsg with
    | none => cases validateResponseQuestion (some (forwardMsgOf msg)) none <;> rfl
    | some respMsg =>
      cases hValid : validateResponseQuestion (some (forwardMsgOf msg)) (some respMsg) with
      | some e =>
        have hOutcome : outcomeOf msg (.ok (some respMsg)) = .invalidQuestion := by
          rw [outcomeOf, hValid]
        rw [hOutcome]
        rfl
      | none =>
        have hOutcome : outcomeOf msg (.ok (some respMsg)) = .answered respMsg := by
          rw [outcomeOf, hValid]
        rw [hOutcome]
        dsimp only
        by_cases hNegative : isNegative respMsg = true
        · rw [if_pos hNegative, if_neg (by simp [ServerOutcome.isFinal, hNegative])]
          rfl
        · rw [if_neg hNegative, if_pos (by simp [ServerOutcome.isFinal, hNegative])]
          rfl

theorem forwardLoop_run (i : Nat) (sequence : List SearchSequenceItem) (tries : Nat)
    (s : ForwardState) :
    ∃ name, (s.state.serverName ≠ "" → name ≠ "") ∧
      (forwardLoop env viaProxy forceTCP msg i sequence tries s).1 = (s.afterAll msg
          (upToFinal ((outcomes env viaProxy forceTCP msg i sequence).take tries))).rename
            name := by
  induction sequence generalizing i tries s with
  | nil => exact ⟨s.state.serverName, id, by rw [outcomes, zipIdx_nil]; simp [upToFinal]; rfl⟩
  | cons item rest ih =>
    rw [outcomes_cons]
    cases hServer : selectServer env i item with
    | mk server item' =>
      cases server with
      | none =>
        -- no server for the item, and no try
        have hNone : itemOutcome env viaProxy forceTCP msg i item = none := by
          rw [itemOutcome, hServer]
          rfl
        obtain ⟨name, hName, hRun⟩ := ih (i + 1) tries s
        refine ⟨name, hName, ?_⟩
        rw [hNone, Option.toList_none, nil_append, ← hRun, forwardLoop, hServer]
      | some server =>
        have hSome : itemOutcome env viaProxy forceTCP msg i item =
            some (outcomeOf msg (forwardExchange env viaProxy forceTCP i item server msg)) := by
          rw [itemOutcome, hServer]
          rfl
        rw [hSome, Option.toList_some, singleton_append]
        cases tries with
        | zero =>
          refine ⟨server.val, fun _ => server.property, ?_⟩
          rw [forwardLoop, hServer]
          rfl
        | succ tries =>
          rw [forwardLoop_try env viaProxy forceTCP msg hServer, take_succ_cons, upToFinal]
          generalize outcomeOf msg (forwardExchange env viaProxy forceTCP i item server msg) = o
          by_cases hFinal : o.isFinal = true
          · refine ⟨server.val, fun _ => server.property, ?_⟩
            simp only [hFinal, if_true]
            rfl
          · obtain ⟨name, hName, hRun⟩ := ih (i + 1) tries ((s.after msg o).rename server.val)
            refine ⟨name, fun _ => hName server.property, ?_⟩
            simp only [hFinal, Bool.false_eq_true, if_false]
            rw [hRun, ForwardState.afterAll_cons, ForwardState.afterAll_rename]
            rfl

end Loop

/-! ## What is left of the tries -/

section Left

variable (msg : Msg) (s : ForwardState)

theorem afterAll_err (l : List ServerOutcome) :
    (s.afterAll msg l).err = match l.getLast? with
      | none => s.err
      | some o => o.error := by
  induction l using reverseRecOn with
  | nil => rfl
  | append_singleton front o ih =>
    rw [ForwardState.afterAll_concat, getLast?_concat]
    cases o <;> rfl

/-- The answer is that of the last server that had one. -/
theorem afterAll_synth (l : List ServerOutcome) {respMsg : Msg}
    (h : (l.filterMap ServerOutcome.answer).getLast? = some respMsg) :
    (s.afterAll msg l).state.action = .synth ∧
      (s.afterAll msg l).state.synthResponse = some (forwardedResponse msg respMsg) := by
  induction l using reverseRecOn with
  | nil => cases h
  | append_singleton front o ih =>
    rw [ForwardState.afterAll_concat]
    cases o with
    | unreachable err =>
      obtain ⟨hAction, hSynth⟩ := ih (by simpa [ServerOutcome.answer] using h)
      exact ⟨hAction, hSynth⟩
    | invalidQuestion =>
      obtain ⟨hAction, hSynth⟩ := ih (by simpa [ServerOutcome.answer] using h)
      exact ⟨hAction, hSynth⟩
    | answered resp =>
      obtain rfl : resp = respMsg := by simpa [ServerOutcome.answer] using h
      exact ⟨rfl, rfl⟩

end Left

variable (p : PluginForward) (env : ForwardEnv) (ps : PluginsState) (msg : Msg)

/-- `Eval` as a whole: the session and the error its tries leave. -/
theorem PluginForward.eval_run : ∃ name, (ps.serverName ≠ "" → name ≠ "") ∧ (p.eval env ps msg).1 =
        (ForwardState.afterAll { state := ps, err := none } msg (p.tried env ps msg)).rename
          name := by
  unfold eval tried
  cases p.lookup ps.qName with
  | none => exact ⟨ps.serverName, id, rfl⟩
  | some found =>
    exact forwardLoop_run env found.1.viaProxy p.forceTCP msg 0 found.1.sequence 4
      { state := ps, err := none }

/-! ## Keeping an answer -/

/-- An obtained answer is kept, and an error is returned exactly when servers
were tried and none of them answered. -/
structure PluginForward.KeepsAnswer (p : PluginForward) (env : ForwardEnv) (ps : PluginsState)
    (msg : Msg) : Prop where
  kept : ∀ respMsg, ((p.tried env ps msg).filterMap ServerOutcome.answer).getLast? = some respMsg →
      (p.eval env ps msg).1.err = none ∧ (p.eval env ps msg).1.state.action = .synth ∧
        (p.eval env ps msg).1.state.synthResponse = some (forwardedResponse msg respMsg)
  error_iff : (p.eval env ps msg).1.err ≠ none ↔
    p.tried env ps msg ≠ [] ∧ ∀ o ∈ p.tried env ps msg, o.answer = none

/-- The last server that was tried was unreachable exactly if no server
answered. -/
def LastTells (tried : List ServerOutcome) : Prop :=
  ∀ o, tried.getLast? = some o → (o.isUnreachable = true ↔ ∀ o' ∈ tried, o'.answer = none)

theorem error_ne_none {o : ServerOutcome} : o.error ≠ none ↔ o.isUnreachable = true := by
  cases o <;> simp [ServerOutcome.error, ServerOutcome.isUnreachable]

/-- Forwarding keeps an answer, and reports that there is none, exactly when the
last try tells. -/
theorem forward_keeps_answer_iff : p.KeepsAnswer env ps msg ↔ LastTells (p.tried env ps msg) := by
  obtain ⟨name, -, hRun⟩ := p.eval_run env ps msg
  have hErr : (p.eval env ps msg).1.err = match (p.tried env ps msg).getLast? with
      | none => none
      | some o => o.error := by
    rw [hRun]
    exact afterAll_err msg _ _
  constructor
  · intro hKeeps o hLast
    have hIff := hKeeps.error_iff
    rw [hErr, hLast] at hIff
    have hNonempty : p.tried env ps msg ≠ [] := by
      intro hNil
      rw [hNil] at hLast
      cases hLast
    rw [← error_ne_none]
    exact ⟨fun h => (hIff.mp h).2, fun h => hIff.mpr ⟨hNonempty, h⟩⟩
  · intro hTells
    have hIff : (p.eval env ps msg).1.err ≠ none ↔
        p.tried env ps msg ≠ [] ∧ ∀ o ∈ p.tried env ps msg, o.answer = none := by
      rw [hErr]
      cases hLast : (p.tried env ps msg).getLast? with
      | none =>
        have hNil := getLast?_eq_none_iff.mp hLast
        simp [hNil]
      | some o =>
        have hNonempty : p.tried env ps msg ≠ [] := by
          intro hNil
          rw [hNil] at hLast
          cases hLast
        rw [← hTells o hLast, ← error_ne_none]
        exact ⟨fun h => ⟨hNonempty, h⟩, fun h => h.2⟩
    refine ⟨fun respMsg hAnswer => ?_, hIff⟩
    -- some server answered, so no error is returned
    have hMem := mem_of_getLast? hAnswer
    obtain ⟨o, ho, hResp⟩ := mem_filterMap.mp hMem
    have hNone : (p.eval env ps msg).1.err = none := by
      by_contra hSome
      have hNoAnswer := (hIff.mp hSome).2 o ho
      rw [hNoAnswer] at hResp
      cases hResp
    refine ⟨hNone, ?_⟩
    rw [hRun]
    exact afterAll_synth msg _ _ hAnswer

/-- A rule for all names, with a server of its own and the bootstrap resolver. -/
def forwardAll : PluginForward :=
  { forwardMap :=
      [{ domain := [dot]
         sequence :=
          [.explicit { first := ⟨"192.0.2.1:53", by decide⟩, others := [] },
            .bootstrap { first := ⟨"192.0.2.2:53", by decide⟩, others := [] }]
         viaProxy := false }]
    forceTCP := false }

/-- An outside in which the two servers do what is given. -/
def twoServers (first second : Option Msg × Option GoError) : ForwardEnv :=
  { now := fun _ => 0, draw := fun _ => 0, dhcpStatus := fun _ => []
    parseResolvConf := fun _ _ => .error (.plain "no such file")
    normalize := fun _ => .error (.plain "invalid IP address")
    exchange := fun i _ _ _ => if i = 0 then first else second
    exchangeViaProxy := fun _ _ _ => .error (.plain "no proxy") }

/-- A session for `rootQuery`. -/
def rootSession : PluginsState :=
  { newPluginsState defaultProxyParams .udp .udp 0 with qName := [dot] }

/-- `rootAnswer` with NXDOMAIN, and the answer to another question. -/
def rootNxDomain : Msg := { rootAnswer with rcode := RcodeNameError }

def otherAnswer : Msg :=
  { rootAnswer with question := [{ rootQuestion with qtype := TypeAAAA }] }

/-- NXDOMAIN from the first server is lost when the second one cannot be
reached; after two answers to another question the query goes on as if there
was no rule. -/
theorem forward_loses_answer :
    (let down := (none, some (.net true "i/o timeout"))
      let r := (forwardAll.eval (twoServers (some rootNxDomain, none) down) rootSession rootQuery).1
      r.state.synthResponse = some rootNxDomain ∧ r.err = some (.net true "i/o timeout")) ∧
    (let other := (some otherAnswer, none)
      let r := (forwardAll.eval (twoServers other other) rootSession rootQuery).1
      forwardAll.tried (twoServers other other) rootSession rootQuery =
          [.invalidQuestion, .invalidQuestion] ∧
        r.err = none ∧ r.state.action = .continue) := by
  decide +kernel

end DnscryptProxy
