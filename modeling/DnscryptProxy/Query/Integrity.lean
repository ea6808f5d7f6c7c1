import DnscryptProxy.Query.Run

/-!
# What reaches the client answers the client

Every message handed to `sendResponse`, and every message `sendResponse`
writes, is a response to the client's own query, whatever produced it: the
upstream, a stale or fresh cache entry, a forwarder, a plugin that blocks or
synthesizes, or local truncation. All of them pass `validateResponseForQuery`
against the question the session has stored, so what is needed is that the
plugins leave that question alone, and that packing keeps it.

* `queryPass_stored` — after the query plugins the session stores the question
  of the client;
* `beginQuery_sound`, `completeQuery_sound` — what is handed over and written
  answers it, without an exchange and after one;
* `response_integrity` — the whole of `processIncomingQuery`.
-/

namespace DnscryptProxy

open Base Option List

/-! ## The stored question -/

/-- What a response has to match: the ID and the question. -/
def Msg.subject (m : Msg) : UInt16 × List Question := (m.id, m.question)

theorem Msg.Answers.congr {q q' r : Msg} (hSubject : q'.subject = q.subject) (h : q.Answers r) :
    q'.Answers r := by
  obtain ⟨hId, hQuestion⟩ := Prod.mk.inj hSubject
  obtain ⟨qq, rq, hqq, hrq, hMatches⟩ := h.question
  exact ⟨h.response, h.id.trans hId.symm, qq, rq, hQuestion.trans hqq, hrq, hMatches⟩

/-- The stored question, as far as it matters. -/
def PluginsState.subject (ps : PluginsState) : Option (UInt16 × List Question) :=
  ps.questionMsg.map Msg.subject

theorem PluginsState.AnsweredBy.of_subject {ps : PluginsState} {q m : Msg}
    (h : ps.AnsweredBy m) (hSubject : ps.subject = some q.subject) : q.Answers m := by
  obtain ⟨q', hQ, hAnswers⟩ := h
  rw [PluginsState.subject, hQ, map_some, some.injEq] at hSubject
  exact hAnswers.congr hSubject.symm

/-- No plugin modifies the stored question. A query plugin works on the stored
message itself, a response plugin on another one. -/
structure PluginsGlobals.KeepQuestion {W : Type*} (g : PluginsGlobals W) : Prop where
  query : ∀ p ∈ g.queryPlugins, ∀ now w ps m, ps.questionMsg = some m →
    (p.eval now w ps m).msg.subject = m.subject
  response : ∀ p ∈ g.responsePlugins, ∀ now w ps m, (p.eval now w ps m).state.subject = ps.subject

section Stored

variable {W : Type*} {p : Proxy W} {now : Time} {w : W} {ps : PluginsState}

theorem runPlugins_query_stored {g : PluginsGlobals W} (hKeep : g.KeepQuestion) (now : Time)
    (w : W) {ps : PluginsState} {m : Msg} (hm : ps.questionMsg = some m) :
    (runPlugins g .query now g.queryPlugins w ps m).state.questionMsg =
        some (runPlugins g .query now g.queryPlugins w ps m).msg ∧
      (runPlugins g .query now g.queryPlugins w ps m).msg.subject = m.subject := by
  refine runPlugins_invariant
    (P := fun _ ps' m' => ps'.questionMsg = some m' ∧ m'.subject = m.subject) ?_ ?_ _ ?_ _ _ _
    ⟨hm, rfl⟩
  · intro _ _ _ _ h
    exact h
  · intro _ _ _ _ h
    exact h
  · intro plugin hp w' ps' m' h
    exact ⟨rfl, (hKeep.query plugin hp now w' ps' m' h.1).trans h.2⟩

theorem runResponseChain_subject {g : PluginsGlobals W} (hKeep : g.KeepQuestion) (now : Time)
    (w : W) (ps : PluginsState) (b : Bytes) (m : Msg) :
    (runResponseChain g now w ps b m).state.subject = ps.subject := by
  refine runPlugins_invariant (P := fun _ ps' _ => ps'.subject = ps.subject) ?_ ?_ _ ?_ _ _ _ rfl
  · intro _ _ _ _ h
    exact h
  · intro _ _ _ _ h
    exact h
  · intro plugin hp w' ps' m' h
    exact (hKeep.response plugin hp now w' ps' m').trans h

theorem padQuery_subject (lib : DnsLib) (m : Msg) (packet : Bytes) :
    (padQuery lib m packet).1.subject = m.subject := by
  unfold padQuery addEDNS0PaddingIfNoneFound
  dsimp only
  have hSized : (if m.udpSize = 0 then { m with udpSize := UInt16.ofNat MaxDNSPacketSize }
      else m).subject = m.subject := by
    split <;> rfl
  generalize (if m.udpSize = 0 then { m with udpSize := UInt16.ofNat MaxDNSPacketSize } else m) =
    sized at hSized ⊢
  split
  · exact hSized
  · split <;> exact hSized

theorem queryPass_stored (hKeep : p.globals.KeepQuestion) {first : Draws} {servers : ServersInfo}
    {client : ClientQuery} (hErr : (p.queryPass now first servers w client).err = none) :
    ∃ q, p.lib.unpack client.query = .ok q ∧
      (p.queryPass now first servers w client).state.subject = some q.subject := by
  obtain ⟨r, packet2, hChain, hState⟩ := queryPass_passed hErr
  obtain ⟨msg, -, qName, hUnpack, -, hRun, -⟩ := runQueryChain_passed hChain
  have hKept : r.state.questionMsg = some r.msg ∧ r.msg.subject = msg.subject := by
    rw [hRun]
    exact runPlugins_query_stored hKeep now w rfl
  obtain ⟨hStored, hSubject⟩ := hKept
  refine ⟨msg, hUnpack, ?_⟩
  rcases hState with hState | hState
  · rw [hState, PluginsState.subject, hStored, map_some, hSubject]
  · rw [hState, PluginsState.subject, map_some, padQuery_subject, hSubject]

end Stored

/-! ## What is handed over and written -/

/-- `b` is the packet of a response to the query of the client. -/
def AnswersClient (lib : DnsLib) (client : ClientQuery) (b : Bytes) : Prop :=
  ∃ q m, lib.unpack client.query = .ok q ∧ lib.unpack b = .ok m ∧ q.Answers m

/-- A message as it goes out to the client: with its size in front over TCP. -/
def onWire (clientProto : ClientProto) (b : Bytes) : Bytes :=
  match clientProto with
  | .tcp => putUint16 b.length ++ b
  | _ => b

/-- All that is handed to `sendResponse`, and all it writes, answers the client. -/
structure Finished.Sound {W : Type*} (lib : DnsLib) (client : ClientQuery) (f : Finished W) :
    Prop where
  handed : ∀ b ∈ f.handed, AnswersClient lib client b
  written : ∀ b ∈ f.written, ∃ r, AnswersClient lib client r ∧ b = onWire client.clientProto r

section Sending

variable {W : Type*} {p : Proxy W} {now : Time} {w : W} {ps : PluginsState} {client : ClientQuery}

/-- A message that answers the client still does so after packing. -/
theorem answersClient_of_pack {lib : DnsLib} (hLib : lib.RoundTrips) {q m : Msg} {b : Bytes}
    (hQuery : lib.unpack client.query = .ok q) (hAnswers : q.Answers m)
    (hPack : lib.pack m = .ok b) :
    AnswersClient lib client b := by
  obtain ⟨qq, rq, hqq, hrq, hMatches⟩ := hAnswers.question
  obtain ⟨m', hUnpack, hId, hResponse, hQuestion⟩ := hLib m rq b hrq hPack
  exact ⟨q, m', hQuery, hUnpack, hResponse.trans hAnswers.response, hId.trans hAnswers.id,
    qq, rq, hqq, hQuestion, hMatches⟩

/-- Local truncation keeps what the response has to match. -/
theorem AnswersClient.truncated {lib : DnsLib} (hLib : lib.RoundTrips) {b t : Bytes}
    (h : AnswersClient lib client b) (hTruncated : truncatedResponse lib b = .ok t) :
    AnswersClient lib client t := by
  obtain ⟨q, m, hQuery, hUnpack, hAnswers⟩ := h
  unfold truncatedResponse at hTruncated
  rw [hUnpack] at hTruncated
  refine answersClient_of_pack hLib hQuery ⟨?_, ?_, ?_⟩ hTruncated
  · exact emptyResponseFromMessage_response m
  · exact (emptyResponseFromMessage_id m).trans hAnswers.id
  · obtain ⟨qq, rq, hqq, hrq, hMatches⟩ := hAnswers.question
    exact ⟨qq, rq, hqq, (emptyResponseFromMessage_question m).trans hrq, hMatches⟩

theorem sound_unanswered (lib : DnsLib) (w : W) (ps : PluginsState) (err : Option GoError) :
    (Proxy.unanswered w ps err).Sound lib client := by
  constructor <;> simp [Proxy.unanswered]

/-- What `sendResponse` writes for a response that answers the client. -/
theorem sendResponse_written {lib : DnsLib} (hLib : lib.RoundTrips) {g : PluginsGlobals W}
    {growth : Growth} {h : Heap UInt8} {s : Slice} (hs : h.Valid s)
    (hAnswers : AnswersClient lib client (h.read s)) {b : Bytes}
    (hb : b ∈ (sendResponse lib g growth now client.clientProto client.clientPc w ps h s).written) :
    ∃ r, AnswersClient lib client r ∧ b = onWire client.clientProto r := by
  unfold sendResponse at hb
  dsimp only at hb
  split at hb
  · cases hb
  next hSize =>
  split at hb
  · -- UDP: the response as it is, or its truncated form
    next hProto =>
    split at hb
    · split at hb
      · cases hb
      · next hTruncated =>
        obtain rfl := mem_singleton.mp hb
        exact ⟨b, hAnswers.truncated hLib hTruncated, by rw [hProto]; rfl⟩
    · obtain rfl := mem_singleton.mp hb
      exact ⟨_, hAnswers, by rw [hProto]; rfl⟩
  · -- TCP: the response behind its size
    next hProto =>
    obtain ⟨h', framed, hFrame, hRead⟩ := prefixWithSize_read growth hs
      (len_le_of_validResponseSize hs hSize)
    rw [hFrame] at hb
    dsimp only at hb
    split at hb
    · obtain rfl := mem_singleton.mp hb
      refine ⟨_, hAnswers, ?_⟩
      rw [hProto, hRead, ← hs.length_read]
      rfl
    · cases hb
  · cases hb
  · cases hb

theorem respond_sound (hLib : p.lib.RoundTrips) (spare : Nat) {b : Bytes}
    (hAnswers : validResponseSize b = true → AnswersClient p.lib client b) :
    (p.respond now spare client w ps b).Sound p.lib client := by
  unfold Proxy.respond
  split
  · constructor <;> simp
  next hSize =>
  have hClient := hAnswers (by simpa using hSize)
  constructor
  · intro b' hb'
    obtain rfl := mem_singleton.mp hb'
    exact hClient
  · intro b' hb'
    refine sendResponse_written hLib (Heap.valid_alloc ..) ?_ hb'
    rw [Heap.read_alloc]
    exact hClient

end Sending

/-! ## The whole query -/

section Whole

variable {W : Type*} {p : Proxy W} {now : Time} {w : W} {client : ClientQuery}

/-- A response that comes out of the response plugins answers the client. -/
theorem processPlugins_answers (hLib : p.lib.RoundTrips) (hKeep : p.globals.KeepQuestion) {q : Msg}
    (hQuery : p.lib.unpack client.query = .ok q) {ps : PluginsState}
    (hStored : ps.subject = some q.subject) {b b' : Bytes}
    (h : (processPlugins p.lib p.globals now w ps b).result = .ok b') :
    AnswersClient p.lib client b' := by
  obtain ⟨m, -, -, -, hAnswers, packed, hPack, hData⟩ := processPlugins_ok_iff.mp h
  have hKept := (runResponseChain_subject hKeep now w ps b m).trans hStored
  -- the packed answer, or a synthesized response in its place
  split at hData
  · subst hData
    exact answersClient_of_pack hLib hQuery (hAnswers.of_subject hKept) hPack
  · exact answersClient_of_pack hLib hQuery (hData.1.of_subject hKept) hData.2

theorem completeQuery_sound (hLib : p.lib.RoundTrips) (hKeep : p.globals.KeepQuestion) {q : Msg}
    {x : Dispatched} (hQuery : p.lib.unpack x.client.query = .ok q)
    (hStored : x.state.subject = some q.subject) (up : Upstream) (spare : Nat) :
    (p.completeQuery now up spare w x).Sound p.lib x.client := by
  have hPath := handleDNSExchange_path p.lib p.globals now w x up
  unfold Proxy.completeQuery
  generalize handleDNSExchange p.lib p.globals now x.server up w x.state x.query
    x.client.serverProto = r at hPath ⊢
  generalize ((x.transcript up).outcome p.lib).filter validResponseSize = outcome at hPath
  cases hPath with
  | givenUp err => exact sound_unanswered ..
  | failed code err _ => exact sound_unanswered ..
  | answered b =>
    dsimp only
    split
    · exact sound_unanswered ..
    · next hPlugins =>
      -- the exchange leaves the stored question alone
      obtain ⟨e, hNoted, -⟩ := x.noted_eq up
      refine respond_sound hLib spare fun _ => processPlugins_answers hLib hKeep hQuery ?_ hPlugins
      rw [hNoted]
      exact hStored

theorem dispatch_sound (hLib : p.lib.RoundTrips) {second : Draws} {spare : Nat}
    {pass : QueryPass W Selection} {ps : PluginsState} {response : Bytes} {servers' : ServersInfo}
    {f : Finished W}
    (hAnswers : validResponseSize response = true → AnswersClient p.lib client response)
    (h : p.dispatch now second spare client pass ps response = .finished servers' f) :
    f.Sound p.lib client := by
  unfold Proxy.dispatch at h
  split at h
  · dsimp only at h
    split at h <;> cases h
    exact respond_sound hLib spare hAnswers
  · cases h
    exact respond_sound hLib spare hAnswers

theorem beginQuery_sound (hLib : p.lib.RoundTrips) (hKeep : p.globals.KeepQuestion)
    {first second : Draws} {spare : Nat} {servers servers' : ServersInfo} {f : Finished W}
    (h : p.beginQuery now first second spare servers w client = .finished servers' f) :
    f.Sound p.lib client := by
  have hPath := beginQuery_path p now first second spare servers w client
  rw [h] at hPath
  cases hPath with
  | invalid => exact sound_unanswered ..
  | dropped => exact sound_unanswered ..
  | unanswered => exact sound_unanswered ..
  | goesOn hErr hResponse hDispatch =>
    obtain ⟨q, hQuery, hSubject⟩ := queryPass_stored hKeep hErr
    refine dispatch_sound hLib (fun hSize => ?_) hDispatch.symm
    rcases hResponse with rfl | ⟨synth, hAnswers, hPack⟩
    · -- no response at all is of no valid size
      simp [validResponseSize, MinDNSPacketSize] at hSize
    · exact answersClient_of_pack hLib hQuery (hAnswers.of_subject hSubject) hPack

/-- Every message handed to `sendResponse` or written by it answers the query
of the client, whatever the upstream, the plugins and the caches return. -/
theorem response_integrity (hLib : p.lib.RoundTrips) (hKeep : p.globals.KeepQuestion)
    (env : Proxy.Environment W) (servers : ServersInfo) :
    (∀ b ∈ (p.processIncomingQuery env servers w client).2.handed, AnswersClient p.lib client b) ∧
      ∀ b ∈ (p.processIncomingQuery env servers w client).2.written,
        ∃ r, AnswersClient p.lib client r ∧ b = onWire client.clientProto r := by
  have hSound : (p.processIncomingQuery env servers w client).2.Sound p.lib client := by
    unfold Proxy.processIncomingQuery
    split
    · next hBegun => exact beginQuery_sound hLib hKeep hBegun
    · next x hBegun =>
      obtain ⟨hErr, hClient, relayName, hState⟩ := beginQuery_dispatched hBegun
      obtain ⟨q, hQuery, hSubject⟩ := queryPass_stored hKeep hErr
      subst hClient
      refine completeQuery_sound hLib hKeep hQuery ?_ env.upstream env.spare
      rw [hState]
      exact hSubject
  exact ⟨hSound.handed, hSound.written⟩

end Whole

/-- An exchange of 20 ms with an upstream that answers `rootQuery`. -/
def rootEnvironment : Proxy.Environment Unit :=
  { arrival := 0, completion := 20 * Millisecond, first := noExploration, second := noExploration
    upstream := rootUpstream, spare := 0, registry := id, meanwhile := id }

/-- The answer gets to a TCP client, framed. -/
theorem response_integrity_root :
    (bareProxy.processIncomingQuery rootEnvironment twoResolvers ()
        { rootClient false with clientProto := .tcp }).2.written =
      [putUint16 17 ++ rootAnswerPacket] ∧
    ∃ r, AnswersClient rootLib { rootClient false with clientProto := .tcp } r ∧
      putUint16 17 ++ rootAnswerPacket = onWire .tcp r := by
  have hWritten : (bareProxy.processIncomingQuery rootEnvironment twoResolvers ()
      { rootClient false with clientProto := .tcp }).2.written =
      [putUint16 17 ++ rootAnswerPacket] := by decide +kernel
  refine ⟨hWritten, (response_integrity rootLib_roundTrips ⟨?_, ?_⟩ rootEnvironment
    twoResolvers).2 _ (by rw [hWritten]; exact mem_singleton.mpr rfl)⟩
  · intro q hq
    cases hq
  · intro q hq
    cases hq

end DnscryptProxy
