import DnscryptProxy.Query.Process

/-!
# What the upstream did

The transcript of an exchange, as a function of its inputs: which answers the
upstream delivered, and which one the exchange goes on with. It is the abstract
side of `handleDNSExchange`, which sees the same answers but hands over a single
response, perhaps a stale one of the cache.

`handleDNSExchange_path` connects the two.
-/

namespace DnscryptProxy

open Option Except

/-- The transcript of an exchange: the session with the transport noted, the
answers delivered, the last of them if the last round trip delivered one, and
whether a stale answer may take its place. -/
structure Transcript where
  noted : PluginsState
  deliveries : List Bytes
  last : Option Bytes
  staleAllowed : Bool

/-- Nothing was delivered, and nothing takes its place. -/
def Transcript.silent (ps : PluginsState) : Transcript :=
  { noted := ps, deliveries := [], last := none, staleAllowed := false }

/-- The answers delivered by one round trip. -/
def deliveredBy : Except GoError Bytes → List Bytes
  | .ok response => [response]
  | .error _ => []

/-- The answers of the round trips of a DNSCrypt exchange. -/
def dnscryptDeliveries (up : Upstream) : ServerProto → List Bytes
  | .tcp => deliveredBy up.tcp
  | .udp =>
    if udpTruncated up.udp || udpTimedOut up.udp then
      deliveredBy up.udp ++ if up.encryptForRetry.isSome then [] else deliveredBy up.tcp
    else deliveredBy up.udp

def dnscryptTranscript (up : Upstream) (ps : PluginsState) (serverProto : ServerProto) :
    Transcript :=
  match encryptQuery up serverProto with
  | (_, some _) => .silent ps
  | (proto, none) =>
    let deliveries := dnscryptDeliveries up proto
    match exchangeOver up proto ps with
    | (noted, .error _) => { noted, deliveries, last := none, staleAllowed := false }
    | (noted, .ok (.ok response)) =>
      { noted, deliveries, last := some response, staleAllowed := false }
    | (noted, .ok (.error _)) => { noted, deliveries, last := none, staleAllowed := true }

def dohTranscript (up : Upstream) (ps : PluginsState) (query : Bytes) : Transcript :=
  let noted := applyHTTPFetchTrace ps up.fetchTrace false
  match up.doh, up.tlsHandshakeComplete with
  | .ok serverResponse, some true =>
    let response := restoreTransactionID query serverResponse
    { noted, deliveries := [response], last := some response, staleAllowed := false }
  | _, _ => { noted, deliveries := [], last := none, staleAllowed := true }

/-- There is no stale answer for an oblivious exchange. -/
def odohTranscript (server : ServerInfo) (up : Upstream) (ps : PluginsState) (query : Bytes) :
    Transcript :=
  if server.odohTargetConfigs = 0 then .silent ps
  else
    match up.odohEncrypt with
    | some _ => .silent ps
    | none =>
      let noted := applyHTTPFetchTrace ps up.fetchTrace true
      if up.odohErr = none ∧ 0 < up.odohBody.length ∧ up.odohStatus = 200 then
        match up.odohDecrypt with
        | .error _ => .silent noted
        | .ok plain =>
          let response := restoreTransactionID query plain
          { noted, deliveries := [response], last := some response, staleAllowed := false }
      else .silent noted

variable (x : Dispatched) (up : Upstream)

/-- The transcript of the exchange `x`. -/
def Dispatched.transcript : Transcript :=
  match x.server.proto with
  | .dnsCrypt => dnscryptTranscript up x.state x.client.serverProto
  | .doH => dohTranscript up x.state x.query
  | .odohTarget => odohTranscript x.server up x.state x.query

/-! ## The last answer was delivered -/

theorem dnscryptTranscript_last_mem {up : Upstream} {ps : PluginsState} {proto : ServerProto}
    {b : Bytes} (h : (dnscryptTranscript up ps proto).last = some b) :
    b ∈ (dnscryptTranscript up ps proto).deliveries := by
  unfold dnscryptTranscript at h ⊢
  generalize encryptQuery up proto = enc at h ⊢
  obtain ⟨proto', err⟩ := enc
  cases err with
  | some err => cases h
  | none =>
    dsimp only at h ⊢
    generalize hOver : exchangeOver up proto' ps = attempt at h ⊢
    obtain ⟨noted, outcome⟩ := attempt
    match outcome with
    | .error err => cases h
    | .ok (.error err) => cases h
    | .ok (.ok response) =>
      obtain rfl : response = b := some.inj h
      -- the answer came over TCP after a retry, over UDP, or over TCP from the start
      unfold exchangeOver exchangeOverUDP at hOver
      unfold dnscryptDeliveries
      dsimp only at hOver
      split at hOver
      · dsimp only
        split at hOver
        · next hRetry =>
          rw [if_pos hRetry]
          split at hOver
          · cases hOver
          · next hEnc =>
            simp only [Prod.mk.injEq, ok.injEq] at hOver
            simp [hEnc, hOver.2, deliveredBy]
        · next hRetry =>
          rw [if_neg hRetry]
          simp only [Prod.mk.injEq, ok.injEq] at hOver
          simp [hOver.2, deliveredBy]
      · simp only [Prod.mk.injEq, ok.injEq] at hOver
        simp [hOver.2, deliveredBy]

theorem Dispatched.last_mem {x : Dispatched} {up : Upstream} {b : Bytes}
    (h : (x.transcript up).last = some b) : b ∈ (x.transcript up).deliveries := by
  unfold Dispatched.transcript at h ⊢
  split at h
  · exact dnscryptTranscript_last_mem h
  · unfold dohTranscript at h ⊢
    split at h
    · exact List.mem_singleton.mpr (some.inj h).symm
    · cases h
  · unfold odohTranscript at h ⊢
    split at h
    · cases h
    · next hConfigs =>
      rw [if_neg hConfigs]
      split at h
      · cases h
      · dsimp only at h ⊢
        split at h
        · next hOk =>
          rw [if_pos hOk]
          split at h
          · cases h
          · exact List.mem_singleton.mpr (some.inj h).symm
        · cases h

/-! ## Only the transport is noted -/

/-- The session comes out as it went in, or with the transport of an attempt noted. -/
theorem Dispatched.noted_cases : (x.transcript up).noted = x.state ∨ (x.server.proto = .dnsCrypt ∧
        ∃ proto, (x.transcript up).noted = (exchangeOver up proto x.state).1) ∨
      ∃ odoh, (x.transcript up).noted = applyHTTPFetchTrace x.state up.fetchTrace odoh := by
  unfold Dispatched.transcript
  split
  · next hProto =>
    unfold dnscryptTranscript
    split
    · exact .inl rfl
    · next proto _ =>
      refine .inr (.inl ⟨hProto, proto, ?_⟩)
      generalize exchangeOver up proto x.state = attempt
      obtain ⟨noted, outcome⟩ := attempt
      match outcome with
      | .error err => rfl
      | .ok (.ok response) => rfl
      | .ok (.error err) => rfl
  · refine .inr (.inr ⟨false, ?_⟩)
    unfold dohTranscript
    split <;> rfl
  · unfold odohTranscript
    split
    · exact .inl rfl
    · split
      · exact .inl rfl
      · refine .inr (.inr ⟨true, ?_⟩)
        split
        · split <;> rfl
        · rfl

/-- The exchange writes nothing of the session but its own observations, and no
failure among them. -/
theorem Dispatched.noted_eq : ∃ e, (x.transcript up).noted = { x.state with exchange := e } ∧
      e.timeout = x.state.exchange.timeout ∧ e.error = x.state.exchange.error := by
  rcases x.noted_cases up with h | ⟨-, proto, h⟩ | ⟨odoh, h⟩
  · exact ⟨x.state.exchange, h, rfl, rfl⟩
  · rw [h]
    unfold exchangeOver exchangeOverUDP markUDP markTCP
    split
    · dsimp only
      split
      · split <;> exact ⟨_, rfl, rfl, rfl⟩
      · exact ⟨_, rfl, rfl, rfl⟩
    · exact ⟨_, rfl, rfl, rfl⟩
  · rw [h]
    cases up.fetchTrace with
    | none => exact ⟨x.state.exchange, rfl, rfl, rfl⟩
    | some ft => exact ⟨_, rfl, rfl, rfl⟩

/-! ## The exchange follows the transcript -/

/-- The response the exchange goes on with: the last answer, or a stale one. -/
def Transcript.outcome (lib : DnsLib) (t : Transcript) : Option Bytes :=
  t.last.or (if t.staleAllowed then staleResponse lib t.noted else none)

section Follows

variable {W : Type*} (lib : DnsLib) (g : PluginsGlobals W) (now : Time) (w : W)

/-- How an exchange ends whose session has come to `ps`, and that goes on with the
response given, if with any. -/
inductive ExchangePath (g : PluginsGlobals W) (now : Time) (w : W) (ps : PluginsState) :
    Option Bytes → Exchanged W → Prop where
  | answered (response : Bytes) :
      ExchangePath g now w ps (some response) { world := w, state := ps, result := .ok response }
  /-- an oblivious exchange can end without a word in the log -/
  | givenUp (err : Option GoError) :
      ExchangePath g now w ps none { world := w, state := ps, result := .error err }
  /-- a failure is logged, and without an error a second time -/
  | failed (code : PluginsReturnCode) (err : Option GoError) {r : Exchanged W} :
      ExchangePath g now w ps none r →
      ExchangePath g now w ps none (failExchange g now r.world r.state code err)

/-- The exchange `r` ends as the transcript `t` says. -/
def Exchanged.Follows (r : Exchanged W) (t : Transcript) : Prop :=
  ExchangePath g now w t.noted (t.outcome lib) r

theorem stale_follows (noted : PluginsState) (code : PluginsReturnCode) (err : Option GoError) :
    (match staleResponse lib noted with
      | some data => ({ world := w, state := noted, result := .ok data } : Exchanged W)
      | none => failExchange g now w noted code err).Follows lib g now w
        { noted, deliveries := [], last := none, staleAllowed := true } := by
  unfold Exchanged.Follows Transcript.outcome
  cases staleResponse lib noted with
  | some data => exact .answered data
  | none => exact .failed _ _ (.givenUp err)

theorem processDNSCryptQuery_follows (up : Upstream) (ps : PluginsState) (proto : ServerProto) :
    (processDNSCryptQuery lib g now up w ps proto).Follows lib g now w
      (dnscryptTranscript up ps proto) := by
  unfold processDNSCryptQuery dnscryptTranscript
  generalize encryptQuery up proto = enc
  obtain ⟨proto', err⟩ := enc
  cases err with
  | some err => exact .failed _ _ (.givenUp none)
  | none =>
    dsimp only
    generalize exchangeOver up proto' ps = attempt
    obtain ⟨noted, outcome⟩ := attempt
    match outcome with
    | .error err => exact .failed _ _ (.givenUp none)
    | .ok (.ok response) => exact .answered response
    | .ok (.error err) => exact stale_follows lib g now w noted _ (some err)

theorem processDoHQuery_follows (up : Upstream) (ps : PluginsState) (query : Bytes) :
    (processDoHQuery lib g now up w ps query).Follows lib g now w (dohTranscript up ps query) := by
  unfold processDoHQuery dohTranscript
  generalize applyHTTPFetchTrace ps up.fetchTrace false = noted
  generalize up.doh = doh
  generalize up.tlsHandshakeComplete = tls
  -- the failure path is the same for an error and for an incomplete handshake
  rcases doh with err | response
  · exact stale_follows lib g now w noted _ (some err)
  · rcases tls with _ | _ | _
    · exact stale_follows lib g now w noted _ none
    · exact stale_follows lib g now w noted _ none
    · exact .answered _

theorem processODoHQuery_follows (server : ServerInfo) (up : Upstream) (ps : PluginsState)
    (query : Bytes) :
    (processODoHQuery g now server up w ps query).Follows lib g now w
      (odohTranscript server up ps query) := by
  unfold processODoHQuery odohTranscript
  by_cases hConfigs : server.odohTargetConfigs = 0
  · rw [if_pos hConfigs, if_pos hConfigs]
    exact .givenUp none
  · rw [if_neg hConfigs, if_neg hConfigs]
    cases up.odohEncrypt with
    | some err => exact .givenUp (some err)
    | none =>
      dsimp only
      split
      · cases up.odohDecrypt with
        | error err => exact .givenUp (some err)
        | ok plain => exact .answered _
      · exact .failed _ _ (.givenUp none)

theorem exchangeWith_follows (x : Dispatched) (up : Upstream) :
    (exchangeWith lib g now x.server up w x.state x.query x.client.serverProto).Follows lib g now w
      (x.transcript up) := by
  unfold exchangeWith Dispatched.transcript
  cases x.server.proto with
  | dnsCrypt => exact processDNSCryptQuery_follows lib g now w up x.state x.client.serverProto
  | doH => exact processDoHQuery_follows lib g now w up x.state x.query
  | odohTarget => exact processODoHQuery_follows lib g now w x.server up x.state x.query

/-- `handleDNSExchange` hands over the outcome of the transcript, if it is of
valid size, with nothing but the transport noted. -/
theorem handleDNSExchange_path (x : Dispatched) (up : Upstream) :
    ExchangePath g now w (x.transcript up).noted
      (((x.transcript up).outcome lib).filter validResponseSize)
      (handleDNSExchange lib g now x.server up w x.state x.query x.client.serverProto) := by
  have hFollows : ExchangePath g now w (x.transcript up).noted ((x.transcript up).outcome lib) _ :=
    exchangeWith_follows lib g now w x up
  unfold handleDNSExchange
  generalize exchangeWith lib g now x.server up w x.state x.query x.client.serverProto = r
    at hFollows ⊢
  generalize (x.transcript up).outcome lib = outcome at hFollows ⊢
  cases hFollows with
  | givenUp err =>
    cases err with
    | some err => exact .givenUp (some err)
    | none => exact .failed .parseError none (.givenUp none)
  | failed code err hPath =>
    cases err with
    | some err => exact .failed code (some err) hPath
    | none => exact .failed .parseError none (.failed code none hPath)
  | answered response =>
    dsimp only
    rw [filter_some]
    split
    · exact .answered response
    · exact .failed .parseError none (.givenUp none)

end Follows

end DnscryptProxy
