import DnscryptProxy.Crypto.Pq

/-!
# Network epochs

Whoever sees two queries with the same ticket or the same ciphertext knows that they come
from one client. When the network changes, the epoch counter of `netmon.go` goes up, and
nothing that went out in an earlier epoch may go out again.

The epoch is read when a query is begun, compared when the session is asked for a ticket or
a ciphertext, and compared once more before the ticket of a response is stored. Queries run
at the same time, and the network can change in between: each step of the machine is what
happens under one lock.

A ghost record keeps every query, every encapsulation and, for every ticket that was stored,
the query it answered.

* `DerivedIn` — a key that goes back to encapsulations of one epoch, through queries of this
  epoch only;
* `EpochInv.of_reach` — what a session holds belongs to the epoch it is stored under;
* `pq_epoch_unlinkable` — no ticket and no ciphertext is in queries of two epochs.
-/

namespace DnscryptProxy

open Base Function Option List Machine

/-! ## The machine -/

/-- Where a call of `encryptPQ` is. -/
inductive EncryptStage where
  /-- about to ask the session for a ticket -/
  | get
  /-- about to ask it for a ciphertext -/
  | getCached
  | encapsulate
  /-- about to store the ciphertext of that encapsulation -/
  | store (encap : Nat) (ctKem key : Bytes)

/-- A call of `encryptPQ` that has read the epoch and drawn its nonce. -/
structure EncryptCall where
  server : Nat
  queryEpoch : UInt64
  input : PqInput
  stage : EncryptStage

/-- A call of `pqProcessControl` that has compared the epochs and is about to store. -/
structure ControlCall where
  query : Nat
  ticket : PqTicket

/-- What makes a query recognisable: the ticket of that issue, or the ciphertext of that
encapsulation. -/
inductive Carried where
  | ticket (issue : Nat)
  | ciphertext (encap : Nat)
deriving Repr, DecidableEq

/-- A query that was built. -/
structure PqQuery where
  server : Nat
  queryEpoch : UInt64
  input : PqInput
  result : PqEncrypted
  carried : Carried

/-- The query that a call builds. -/
def EncryptCall.query (c : EncryptCall) (result : PqEncrypted) (carried : Carried) : PqQuery :=
  { server := c.server, queryEpoch := c.queryEpoch, input := c.input, result, carried }

/-- A ticket that was stored, and the query whose response it came with. -/
structure Issue where
  query : Nat
  ticket : Bytes

structure Encapsulation where
  server : Nat
  queryEpoch : UInt64
  kemSS : Bytes
  ctKem : Bytes

/-- Everything there was; not in the source. -/
structure PqLog where
  queries : List PqQuery
  issued : List Issue
  encaps : List Encapsulation

structure PqState where
  /-- `networkEpoch` -/
  epoch : UInt64
  /-- the session of each `ServerInfo` object -/
  sessions : Nat → PqSessionState
  calls : Nat → Option EncryptCall
  controls : Nat → Option ControlCall
  /-- which issue, and which encapsulation, a session holds; not in the source -/
  ticketOf : Nat → Nat
  encapOf : Nat → Nat
  log : PqLog

inductive PqLabel where
  /-- `notifyNetworkChange` -/
  | networkChange
  /-- `encryptPQ` is called -/
  | begin (id server : Nat) (input : PqInput)
  /-- it goes on; `seed` is for an encapsulation -/
  | encrypt (id : Nat) (now : Time) (seed : Bytes)
  /-- a response to the query of that number has been opened to `plaintext` -/
  | respond (id query : Nat) (plaintext : Bytes)
  /-- its ticket is stored -/
  | store (id : Nat) (now : Time)

namespace PqState

variable (prim : PqPrimitives) (servers : Nat → PqServer) (s : PqState)

variable (id : Nat) (c : EncryptCall)

/-- A call of `encryptPQ` returns with a query. -/
def built (result : PqEncrypted) (carried : Carried) : PqState :=
  { s with
    calls := update s.calls id none
    log := { s.log with queries := s.log.queries ++ [c.query result carried] } }

/-- It gets to its next stage. -/
def goOn (stage : EncryptStage) : PqState :=
  { s with calls := update s.calls id (some { c with stage := stage }) }

/-- What a call of `encryptPQ` does next. -/
def encryptStep (now : Time) (seed : Bytes) : PqState :=
  let server := servers c.server
  match c.stage with
  | .get =>
    let (session, hit) := (s.sessions c.server).get now c.queryEpoch
    let s := { s with sessions := update s.sessions c.server session }
    match hit with
    | some (ticket, resumeSecret) =>
      s.built id c (resumedQuery prim server c.input ticket resumeSecret)
        (.ticket (s.ticketOf c.server))
    | none => s.goOn id c .getCached
  | .getCached =>
    let (session, hit) := (s.sessions c.server).getCachedEncapsulation c.queryEpoch
    let s := { s with sessions := update s.sessions c.server session }
    match hit with
    | some (ctKem, key) =>
      s.built id c (ciphertextQuery prim server c.input ctKem key)
        (.ciphertext (s.encapOf c.server))
    | none => s.goOn id c .encapsulate
  | .encapsulate =>
    match prim.encapsulate server.pqPublicKey seed with
    | .error _ => { s with calls := update s.calls id none }
    | .ok (kemSS, ctKem) =>
      let key := pqDeriveSharedKey prim kemSS server.magicQuery server.pqCertContext ctKem
      let encap : Encapsulation :=
        { server := c.server, queryEpoch := c.queryEpoch, kemSS, ctKem }
      let s' := { s with log := { s.log with encaps := s.log.encaps ++ [encap] } }
      s'.goOn id c (.store s.log.encaps.length ctKem key)
  | .store encap ctKem key =>
    let session := (s.sessions c.server).storeEncapsulation ctKem key c.queryEpoch
    let s :=
      { s with
        sessions := update s.sessions c.server session
        encapOf := update s.encapOf c.server encap }
    s.built id c (ciphertextQuery prim server c.input ctKem key) (.ciphertext encap)

/-- `pqStripControl`, and `pqProcessControl` up to its look at the epoch. -/
def respondStep (id query : Nat) (q : PqQuery) (plaintext : Bytes) : PqState :=
  match splitControl plaintext with
  | .error _ => s
  | .ok (control, _) =>
    match controlTicket control with
    | none => s
    | some t =>
      if q.queryEpoch ≠ s.epoch then s
      else { s with controls := update s.controls id (some { query, ticket := t }) }

/-- The end of `pqProcessControl`. -/
def storeStep (id : Nat) (c : ControlCall) (q : PqQuery) (now : Time) : PqState :=
  { s with
    sessions := update s.sessions q.server (storeTicket prim (servers q.server)
      q.result.sharedKey q.input.clientNonce q.queryEpoch now c.ticket (s.sessions q.server))
    controls := update s.controls id none
    ticketOf := update s.ticketOf q.server s.log.issued.length
    log := { s.log with
      issued := s.log.issued ++ [{ query := c.query, ticket := c.ticket.ticket }] } }

end PqState

def pqMachine (prim : PqPrimitives) (servers : Nat → PqServer) : Machine PqState PqLabel where
  init s := s.sessions = (fun _ => newPqSessionState) ∧ s.calls = (fun _ => none) ∧
    s.controls = (fun _ => none) ∧ s.log = { queries := [], issued := [], encaps := [] }
  step s
    | .networkChange => some { s with epoch := s.epoch + 1 }
    | .begin id server input =>
      if (s.calls id).isSome then none
      else
        let call : EncryptCall := { server, queryEpoch := s.epoch, input, stage := .get }
        some { s with calls := update s.calls id (some call) }
    | .encrypt id now seed => (s.calls id).map fun c => s.encryptStep prim servers id c now seed
    | .respond id query plaintext =>
      if (s.controls id).isSome then none
      else s.log.queries[query]?.map fun q => s.respondStep id query q plaintext
    | .store id now =>
      (s.controls id).bind fun c =>
        s.log.queries[c.query]?.map fun q => s.storeStep prim servers id c q now

/-! ## Where things come from -/

/-- Nothing is forgotten. -/
structure PqLog.Extends (log log' : PqLog) : Prop where
  queries : ∃ more, log'.queries = log.queries ++ more
  issued : ∃ more, log'.issued = log.issued ++ more
  encaps : ∃ more, log'.encaps = log.encaps ++ more

theorem exists_append_self {α : Type*} {l : List α} : ∃ more, l = l ++ more :=
  ⟨[], (append_nil l).symm⟩

theorem getElem?_of_append {α : Type*} {l l' : List α} {i : Nat} {a : α}
    (hMore : ∃ more, l' = l ++ more) (h : l[i]? = some a) : l'[i]? = some a := by
  obtain ⟨more, rfl⟩ := hMore
  obtain ⟨hLt, -⟩ := List.getElem?_eq_some_iff.mp h
  rw [List.getElem?_append_left hLt, h]

section Origins

variable (prim : PqPrimitives) (servers : Nat → PqServer)

/-- The ticket of issue `i` came with the response to a query of epoch `e` to that server, and
the secret is derived from the key of this query. -/
def TicketFrom (log : PqLog) (server : Nat) (e : UInt64) (i : Nat) (ticket resumeSecret : Bytes) :
    Prop :=
  ∃ issue q, log.issued[i]? = some issue ∧ log.queries[issue.query]? = some q ∧
    issue.ticket = ticket ∧ q.server = server ∧ q.queryEpoch = e ∧
    resumeSecret = pqResumeSecret prim q.result.sharedKey (servers server).magicQuery
      q.input.clientNonce

/-- The ciphertext was made by encapsulation `j`, for a query of epoch `e` to that server, and
the key is derived from its secret. -/
def CiphertextFrom (log : PqLog) (server : Nat) (e : UInt64) (j : Nat) (ctKem key : Bytes) : Prop :=
  ∃ encap, log.encaps[j]? = some encap ∧ encap.server = server ∧ encap.queryEpoch = e ∧
    encap.ctKem = ctKem ∧
    key = pqDeriveSharedKey prim encap.kemSS (servers server).magicQuery
      (servers server).pqCertContext ctKem

/-- The key is derived from an encapsulation of epoch `e`, directly or through the key of a
query of epoch `e` and the ticket that came with its response. -/
inductive DerivedIn (log : PqLog) (e : UInt64) : Bytes → Prop where
  | encapsulated {server j : Nat} {ctKem key : Bytes} :
      CiphertextFrom prim servers log server e j ctKem key → DerivedIn log e key
  | resumed {server i : Nat} {issue : Issue} {q : PqQuery} (clientNonce : Bytes) :
      log.issued[i]? = some issue → log.queries[issue.query]? = some q → q.server = server →
      q.queryEpoch = e → DerivedIn log e q.result.sharedKey →
      DerivedIn log e (pqResumedSharedKey prim (pqResumeSecret prim q.result.sharedKey
        (servers server).magicQuery q.input.clientNonce) (servers server).magicQuery clientNonce
        issue.ticket)

/-- The query carries a ticket that answered a query of its own epoch, or a ciphertext of
its own epoch. -/
def PqQuery.OwnEpoch (log : PqLog) (q : PqQuery) : Prop :=
  match q.carried with
  | .ticket i => ∃ ticket resumeSecret,
      TicketFrom prim servers log q.server q.queryEpoch i ticket resumeSecret ∧
        q.result = resumedQuery prim (servers q.server) q.input ticket resumeSecret
  | .ciphertext j => ∃ ctKem key,
      CiphertextFrom prim servers log q.server q.queryEpoch j ctKem key ∧
        q.result = ciphertextQuery prim (servers q.server) q.input ctKem key

variable {prim servers} {log log' : PqLog} {server : Nat} {e : UInt64}

theorem TicketFrom.mono (hExt : log.Extends log') {i : Nat} {ticket resumeSecret : Bytes}
    (h : TicketFrom prim servers log server e i ticket resumeSecret) :
    TicketFrom prim servers log' server e i ticket resumeSecret := by
  obtain ⟨issue, q, hIssue, hQuery, hRest⟩ := h
  exact ⟨issue, q, getElem?_of_append hExt.issued hIssue, getElem?_of_append hExt.queries hQuery,
    hRest⟩

theorem CiphertextFrom.mono (hExt : log.Extends log') {j : Nat} {ctKem key : Bytes}
    (h : CiphertextFrom prim servers log server e j ctKem key) :
    CiphertextFrom prim servers log' server e j ctKem key := by
  obtain ⟨encap, hEncap, hRest⟩ := h
  exact ⟨encap, getElem?_of_append hExt.encaps hEncap, hRest⟩

theorem DerivedIn.mono (hExt : log.Extends log') {key : Bytes}
    (h : DerivedIn prim servers log e key) : DerivedIn prim servers log' e key := by
  induction h with
  | encapsulated hFrom => exact .encapsulated (hFrom.mono hExt)
  | resumed clientNonce hIssue hQuery hServer hEpoch _ ih =>
    exact .resumed clientNonce (getElem?_of_append hExt.issued hIssue)
      (getElem?_of_append hExt.queries hQuery) hServer hEpoch ih

theorem PqQuery.OwnEpoch.mono (hExt : log.Extends log') {q : PqQuery}
    (h : q.OwnEpoch prim servers log) : q.OwnEpoch prim servers log' := by
  unfold OwnEpoch at h ⊢
  split at h
  · obtain ⟨ticket, secret, hFrom, hResult⟩ := h
    exact ⟨ticket, secret, hFrom.mono hExt, hResult⟩
  · obtain ⟨ctKem, key, hFrom, hResult⟩ := h
    exact ⟨ctKem, key, hFrom.mono hExt, hResult⟩

end Origins

/-! ## What sessions hold -/

section Sessions

variable (prim : PqPrimitives) (servers : Nat → PqServer)

/-- What the session of a server holds belongs to the epochs it is stored under. -/
structure SessionFrom (log : PqLog) (server i j : Nat) (session : PqSessionState) : Prop where
  ticket : ∀ ticket, session.ticket = some ticket →
    TicketFrom prim servers log server session.epoch i ticket session.resumeSecret
  encap : ∀ ctKem, session.encap = some ctKem →
    CiphertextFrom prim servers log server session.encapEpoch j ctKem session.encapKey

variable {prim servers} {log log' : PqLog} {server i j : Nat} {session : PqSessionState}

theorem SessionFrom.mono (hExt : log.Extends log')
    (h : SessionFrom prim servers log server i j session) :
    SessionFrom prim servers log' server i j session :=
  ⟨fun t ht => (h.ticket t ht).mono hExt, fun ct hct => (h.encap ct hct).mono hExt⟩

theorem copyOrNil_eq_some {b b' : Bytes} (h : copyOrNil b = some b') : b' = b := by
  unfold copyOrNil at h
  split at h
  · cases h
  · exact (some.inj h).symm

section

variable (h : SessionFrom prim servers log server i j session)
include h

/-- `get` hands out a ticket of the epoch it is asked for, and forgets at most. -/
theorem SessionFrom.get (now : Time) (e : UInt64) :
    SessionFrom prim servers log server i j (session.get now e).1 ∧
      ∀ ticket resumeSecret, (session.get now e).2 = some (ticket, resumeSecret) →
        TicketFrom prim servers log server e i ticket resumeSecret := by
  unfold PqSessionState.get
  split
  · next ticket expiry hTicket _ =>
    split
    · exact ⟨h, fun _ _ hHit => (nomatch hHit)⟩
    · split
      · exact ⟨⟨fun _ ht => (nomatch ht), h.encap⟩, fun _ _ hHit => (nomatch hHit)⟩
      · next hEpoch =>
        refine ⟨h, fun ticket' secret' hHit => ?_⟩
        obtain ⟨rfl, rfl⟩ := Prod.mk.inj (some.inj hHit)
        rw [← not_ne_iff.mp hEpoch]
        exact h.ticket ticket hTicket
  · exact ⟨h, fun _ _ hHit => (nomatch hHit)⟩

/-- So does `getCachedEncapsulation` with a ciphertext. -/
theorem SessionFrom.getCachedEncapsulation (e : UInt64) :
    SessionFrom prim servers log server i j (session.getCachedEncapsulation e).1 ∧
      ∀ ctKem key, (session.getCachedEncapsulation e).2 = some (ctKem, key) →
        CiphertextFrom prim servers log server e j ctKem key := by
  unfold PqSessionState.getCachedEncapsulation
  split
  · exact ⟨h, fun _ _ hHit => (nomatch hHit)⟩
  · next ctKem hEncap =>
    split
    · exact ⟨⟨h.ticket, fun _ hct => (nomatch hct)⟩, fun _ _ hHit => (nomatch hHit)⟩
    · next hEpoch =>
      refine ⟨h, fun ctKem' key' hHit => ?_⟩
      obtain ⟨rfl, rfl⟩ := Prod.mk.inj (some.inj hHit)
      rw [← not_ne_iff.mp hEpoch]
      exact h.encap ctKem hEncap

theorem SessionFrom.storeEncapsulation {j' : Nat} {ctKem key : Bytes} {e : UInt64}
    (hFrom : CiphertextFrom prim servers log server e j' ctKem key) :
    SessionFrom prim servers log server i j' (session.storeEncapsulation ctKem key e) := by
  refine ⟨h.ticket, fun ctKem' hct => ?_⟩
  rw [copyOrNil_eq_some hct]
  exact hFrom

theorem SessionFrom.store {i' : Nat} {ticket resumeSecret : Bytes} {e : UInt64} (expiry : Time)
    (hFrom : TicketFrom prim servers log server e i' ticket resumeSecret) :
    SessionFrom prim servers log server i' j (session.store ticket resumeSecret expiry e) := by
  refine ⟨fun ticket' ht => ?_, h.encap⟩
  rw [copyOrNil_eq_some ht]
  exact hFrom

end

end Sessions

/-! ## Runs -/

/-- What holds throughout a run. -/
structure EpochInv (prim : PqPrimitives) (servers : Nat → PqServer) (s : PqState) : Prop where
  sessions : ∀ k, SessionFrom prim servers s.log k (s.ticketOf k) (s.encapOf k) (s.sessions k)
  /-- a ciphertext about to be stored -/
  calls : ∀ id c encap ctKem key, s.calls id = some c → c.stage = .store encap ctKem key →
    CiphertextFrom prim servers s.log c.server c.queryEpoch encap ctKem key
  queries : ∀ q ∈ s.log.queries, q.OwnEpoch prim servers s.log ∧
    DerivedIn prim servers s.log q.queryEpoch q.result.sharedKey

/-- The key of a query, from what the query carries. A ticket leads to the key of an earlier
query. -/
theorem PqQuery.OwnEpoch.derived {prim : PqPrimitives} {servers : Nat → PqServer} {log : PqLog}
    {q : PqQuery} (h : q.OwnEpoch prim servers log)
    (hEarlier : ∀ q' ∈ log.queries, DerivedIn prim servers log q'.queryEpoch q'.result.sharedKey) :
    DerivedIn prim servers log q.queryEpoch q.result.sharedKey := by
  unfold OwnEpoch at h
  split at h
  · obtain ⟨ticket, secret, ⟨issue, q', hIssue, hQuery, rfl, hServer, hEpoch, rfl⟩, hResult⟩ := h
    -- one link of the chain: the key of the query that the ticket answered
    have hKey := hEarlier q' (mem_of_getElem? hQuery)
    rw [hEpoch] at hKey
    rw [hResult]
    exact .resumed q.input.clientNonce hIssue hQuery hServer hEpoch hKey
  · obtain ⟨ctKem, key, hFrom, hResult⟩ := h
    rw [hResult]
    exact .encapsulated hFrom

namespace EpochInv

variable {prim : PqPrimitives} {servers : Nat → PqServer} {s s' : PqState}

section

variable (h : EpochInv prim servers s)
include h

/-- A session changes, and may hold another ticket or ciphertext. -/
theorem withSession {k i j : Nat} {session : PqSessionState}
    (hSession : SessionFrom prim servers s.log k i j session) :
    EpochInv prim servers { s with
      sessions := update s.sessions k session
      ticketOf := update s.ticketOf k i
      encapOf := update s.encapOf k j } := by
  refine ⟨fun k' => ?_, h.calls, h.queries⟩
  dsimp only
  by_cases hk : k' = k
  · subst hk
    rw [update_self, update_self, update_self]
    exact hSession
  · rw [update_of_ne hk, update_of_ne hk, update_of_ne hk]
    exact h.sessions k'

/-- A call ends, or gets to a stage before the last. -/
theorem withCall (id : Nat) {call : Option EncryptCall}
    (hCall : ∀ c encap ctKem key, call = some c → c.stage = .store encap ctKem key →
      CiphertextFrom prim servers s.log c.server c.queryEpoch encap ctKem key) :
    EpochInv prim servers { s with calls := update s.calls id call } := by
  refine ⟨h.sessions, ?_, h.queries⟩
  intro id' c encap ctKem key hc hStage
  dsimp only at hc
  rw [update_apply] at hc
  split at hc
  · exact hCall c encap ctKem key hc hStage
  · exact h.calls id' c encap ctKem key hc hStage

/-- The log grows; what a new query carries is known already. -/
theorem withLog {log : PqLog} (hExt : s.log.Extends log)
    (hQueries : ∀ q ∈ log.queries, q ∈ s.log.queries ∨ q.OwnEpoch prim servers s.log) :
    EpochInv prim servers { s with log := log } := by
  refine ⟨fun k => (h.sessions k).mono hExt, ?_, ?_⟩
  · intro id c encap ctKem key hc hStage
    exact (h.calls id c encap ctKem key hc hStage).mono hExt
  · intro q hq
    rcases hQueries q hq with hOld | hOwn
    · obtain ⟨hOwn, hKey⟩ := h.queries q hOld
      exact ⟨hOwn.mono hExt, hKey.mono hExt⟩
    · exact ⟨hOwn.mono hExt, (hOwn.derived fun q' hq' => (h.queries q' hq').2).mono hExt⟩

theorem built (id : Nat) {c : EncryptCall} {result : PqEncrypted}
    {carried : Carried} (hOwn : (c.query result carried).OwnEpoch prim servers s.log) :
    EpochInv prim servers (s.built id c result carried) := by
  refine (h.withCall id fun _ _ _ _ (hNone : none = some _) => (nomatch hNone)).withLog
    ⟨⟨_, rfl⟩, exists_append_self, exists_append_self⟩ fun q hq => ?_
  rcases mem_append.mp hq with hOld | hNew
  · exact .inl hOld
  · obtain rfl := mem_singleton.mp hNew
    exact .inr hOwn

/-- A call of `encryptPQ` takes one step, whatever has happened since its last. -/
theorem encryptStep {id : Nat} {c : EncryptCall}
    (hc : s.calls id = some c) (now : Time) (seed : Bytes) :
    EpochInv prim servers (s.encryptStep prim servers id c now seed) := by
  unfold PqState.encryptStep
  cases hStage : c.stage with
  | get =>
    obtain ⟨hSession, hHit⟩ := (h.sessions c.server).get now c.queryEpoch
    have hWith := h.withSession hSession
    rw [update_eq_self, update_eq_self] at hWith
    dsimp only
    -- a hit is a ticket of the epoch of the call, however old the call is
    cases hFound : ((s.sessions c.server).get now c.queryEpoch).2 with
    | none => exact hWith.withCall id fun _ _ _ _ hCall hStore => by cases hCall; cases hStore
    | some found =>
      obtain ⟨ticket, resumeSecret⟩ := found
      exact hWith.built id ⟨ticket, resumeSecret, hHit ticket resumeSecret hFound, rfl⟩
  | getCached =>
    obtain ⟨hSession, hHit⟩ := (h.sessions c.server).getCachedEncapsulation c.queryEpoch
    have hWith := h.withSession hSession
    rw [update_eq_self, update_eq_self] at hWith
    dsimp only
    cases hFound : ((s.sessions c.server).getCachedEncapsulation c.queryEpoch).2 with
    | none => exact hWith.withCall id fun _ _ _ _ hCall hStore => by cases hCall; cases hStore
    | some found =>
      obtain ⟨ctKem, key⟩ := found
      exact hWith.built id ⟨ctKem, key, hHit ctKem key hFound, rfl⟩
  | encapsulate =>
    dsimp only
    cases prim.encapsulate (servers c.server).pqPublicKey seed with
    | error err => exact h.withCall id fun _ _ _ _ hNone => (nomatch hNone)
    | ok made =>
      obtain ⟨kemSS, ctKem⟩ := made
      have hExt : s.log.Extends { s.log with
          encaps := s.log.encaps ++
            [{ server := c.server, queryEpoch := c.queryEpoch, kemSS, ctKem }] } :=
        ⟨exists_append_self, exists_append_self, ⟨_, rfl⟩⟩
      refine (h.withLog hExt fun _ => .inl).withCall id fun c' encap ctKem' key hCall hStore => ?_
      obtain rfl := some.inj hCall
      obtain ⟨rfl, rfl, rfl⟩ := EncryptStage.store.inj hStore
      exact ⟨_, getElem?_concat_length, rfl, rfl, rfl, rfl⟩
  | store encap ctKem key =>
    -- the network may have changed since the encapsulation; the epoch stored is that of the call
    have hFrom := h.calls id c encap ctKem key hc hStage
    -- the session holds another encapsulation now
    have hStored := h.withSession ((h.sessions c.server).storeEncapsulation hFrom)
    rw [update_eq_self c.server s.ticketOf] at hStored
    exact hStored.built id ⟨ctKem, key, hFrom, rfl⟩

/-- A ticket is stored, whatever has happened since the epochs were compared. -/
theorem storeStep (id : Nat) {c : ControlCall} {q : PqQuery}
    (hq : s.log.queries[c.query]? = some q) (now : Time) :
    EpochInv prim servers (s.storeStep prim servers id c q now) := by
  have hExt : s.log.Extends { s.log with
      issued := s.log.issued ++ [{ query := c.query, ticket := c.ticket.ticket }] } :=
    ⟨exists_append_self, ⟨_, rfl⟩, exists_append_self⟩
  -- the epochs may differ by now; the ticket is stored under that of its query
  have hGrown := h.withLog hExt fun _ => .inl
  have hStored := hGrown.withSession ((hGrown.sessions q.server).store
    (now + c.ticket.lifetime * Second)
    ⟨_, q, getElem?_concat_length, hq, rfl, rfl, rfl, rfl⟩)
  rw [update_eq_self q.server s.encapOf] at hStored
  exact ⟨hStored.sessions, hStored.calls, hStored.queries⟩

theorem step {l : PqLabel}
    (hStep : (pqMachine prim servers).step s l = some s') : EpochInv prim servers s' := by
  cases l with
  | networkChange =>
    obtain rfl := some.inj hStep
    exact ⟨h.sessions, h.calls, h.queries⟩
  | begin id server input =>
    simp only [pqMachine, ite_none_left_eq_some, some.injEq] at hStep
    obtain ⟨-, rfl⟩ := hStep
    exact h.withCall id fun _ _ _ _ hCall hStore => by cases hCall; cases hStore
  | encrypt id now seed =>
    obtain ⟨c, hc, rfl⟩ := map_eq_some_iff.mp hStep
    exact h.encryptStep hc now seed
  | respond id query plaintext =>
    simp only [pqMachine, ite_none_left_eq_some, map_eq_some_iff] at hStep
    obtain ⟨-, q, -, rfl⟩ := hStep
    unfold PqState.respondStep
    split
    · exact h
    · split
      · exact h
      · split
        · exact h
        · exact ⟨h.sessions, h.calls, h.queries⟩
  | store id now =>
    obtain ⟨c, -, hMap⟩ := bind_eq_some_iff.mp hStep
    obtain ⟨q, hq, rfl⟩ := map_eq_some_iff.mp hMap
    exact h.storeStep id hq now

end

theorem of_reach (hs : (pqMachine prim servers).Reach anyStep s) :
    EpochInv prim servers s := by
  refine hs.invariant (P := EpochInv prim servers) ?_ fun s l s' ih _ hStep => ih.step hStep
  rintro s ⟨hSessions, hCalls, -, hLog⟩
  refine ⟨fun k => ?_, ?_, ?_⟩
  · rw [hSessions]
    exact ⟨fun _ ht => (nomatch ht), fun _ hct => (nomatch hct)⟩
  · intro id c encap ctKem key hc
    rw [hCalls] at hc
    cases hc
  · rw [hLog]
    exact fun _ hq => (nomatch hq)

end EpochInv

/-- What a query carries decides its epoch. -/
theorem PqQuery.OwnEpoch.same_epoch {prim : PqPrimitives} {servers : Nat → PqServer} {log : PqLog}
    {q q' : PqQuery} (h : q.OwnEpoch prim servers log) (h' : q'.OwnEpoch prim servers log)
    (hSame : q.carried = q'.carried) : q.queryEpoch = q'.queryEpoch := by
  unfold OwnEpoch at h h'
  rw [← hSame] at h'
  cases hCarried : q.carried with
  | ticket i =>
    rw [hCarried] at h h'
    obtain ⟨_, _, ⟨issue, q₁, hIssue, hQuery, -, -, hEpoch, -⟩, -⟩ := h
    obtain ⟨_, _, ⟨issue', q₁', hIssue', hQuery', -, -, hEpoch', -⟩, -⟩ := h'
    obtain rfl : issue = issue' := some.inj (hIssue.symm.trans hIssue')
    obtain rfl : q₁ = q₁' := some.inj (hQuery.symm.trans hQuery')
    exact hEpoch.symm.trans hEpoch'
  | ciphertext j =>
    rw [hCarried] at h h'
    obtain ⟨_, _, ⟨encap, hEncap, -, hEpoch, -⟩, -⟩ := h
    obtain ⟨_, _, ⟨encap', hEncap', -, hEpoch', -⟩, -⟩ := h'
    obtain rfl : encap = encap' := some.inj (hEncap.symm.trans hEncap')
    exact hEpoch.symm.trans hEpoch'

/-- However calls of `encryptPQ`, responses and changes of the network interleave: a query
carries a ticket that came with the response to a query of its own epoch, or a ciphertext made
for its own epoch, and its key goes back to encapsulations of this epoch only. So nothing
that a query carries is carried by a query of another epoch. -/
theorem pq_epoch_unlinkable {prim : PqPrimitives} {servers : Nat → PqServer} {s : PqState}
    (hs : (pqMachine prim servers).Reach anyStep s) :
    (∀ q ∈ s.log.queries, q.OwnEpoch prim servers s.log ∧
        DerivedIn prim servers s.log q.queryEpoch q.result.sharedKey) ∧
      ∀ q ∈ s.log.queries, ∀ q' ∈ s.log.queries, q.carried = q'.carried →
        q.queryEpoch = q'.queryEpoch := by
  have hInv := EpochInv.of_reach hs
  exact ⟨hInv.queries, fun q hq q' hq' => (hInv.queries q hq).1.same_epoch (hInv.queries q' hq').1⟩

/-! ### A ticket that is stored too late -/

/-- Encapsulation gives its seed, and nothing is encrypted. -/
def plainPrimitives : PqPrimitives where
  hkdfSha256 _ ikm _ := ikm
  sha256 data := data
  xsecretboxSeal _ _ packet := packet
  encapsulate _ seed := .ok (seed, seed)

def plainServer : PqServer :=
  { magicQuery := [1], pqPublicKey := [2], pqCertContext := [3], fragmentsBlocked := false }

def pqStart : PqState :=
  { epoch := 0, sessions := fun _ => newPqSessionState, calls := fun _ => none
    controls := fun _ => none, ticketOf := fun _ => 0, encapOf := fun _ => 0
    log := { queries := [], issued := [], encaps := [] } }

def pqQuestion : PqInput :=
  { packet := [9], proto := .udp, clientNonce := [7], minQuestionSize := 0 }

/-- A response with a ticket of one byte that lives for a minute. -/
def ticketResponse (ticket : UInt8) : Bytes :=
  [0, 12] ++ PQControlMagic ++ [PQControlVersion, 0, 0, 0, 60, 0, 1, ticket]

/-- A query gets a ticket, the next one uses it. Its response brings another ticket, and the
network changes after the epochs were compared and before this ticket is stored. -/
def lateTicketRun : List PqLabel :=
  [.begin 0 0 pqQuestion, .encrypt 0 0 [4], .encrypt 0 0 [4], .encrypt 0 0 [4], .encrypt 0 0 [4],
    .respond 0 0 (ticketResponse 5), .store 0 0, .begin 1 0 pqQuestion, .encrypt 1 0 [],
    .respond 1 1 (ticketResponse 6), .networkChange, .store 1 0,
    .begin 2 0 pqQuestion, .encrypt 2 0 [8], .encrypt 2 0 [8], .encrypt 2 0 [8], .encrypt 2 0 [8]]

theorem pq_epoch_unlinkable_late :
    ∃ s, (pqMachine plainPrimitives fun _ => plainServer).exec pqStart lateTicketRun = some s ∧
      s.log.queries.map (fun q => (q.queryEpoch, q.carried)) =
        [(0, .ciphertext 0), (0, .ticket 0), (1, .ciphertext 1)] ∧
      ∀ q ∈ s.log.queries, ∀ q' ∈ s.log.queries, q.carried = q'.carried →
        q.queryEpoch = q'.queryEpoch := by
  have hQueries : ((pqMachine plainPrimitives fun _ => plainServer).exec pqStart
      lateTicketRun).map (fun s => s.log.queries.map fun q => (q.queryEpoch, q.carried)) =
        some [(0, .ciphertext 0), (0, .ticket 0), (1, .ciphertext 1)] := by
    decide +kernel
  obtain ⟨s, hs, hCarried⟩ := map_eq_some_iff.mp hQueries
  have hReach : (pqMachine plainPrimitives fun _ => plainServer).Reach anyStep s :=
    Machine.Reach.exec (fun _ _ _ => trivial) (.init ⟨rfl, rfl, rfl, rfl⟩) hs
  exact ⟨s, hs, hCarried, (pq_epoch_unlinkable hReach).2⟩

end DnscryptProxy
