import DnscryptProxy.Query.Run

/-!
# Dropped queries and dropped responses

What becomes of a query whose plugins drop it, fail, or end with an action
other than `continue`. The plugins are of any type and may do anything to the
session and the message.

A query that is dropped gets no answer, and neither does one whose response
plugins fail. Two things get through. `processPlugins` logs a response that is
dropped and then returns it. And of the actions of the query phase
`processIncomingQuery` looks at `drop` only: any other goes on to the exchange
unless a synthesized response has left some bytes.

* `dispatch_of_final_iff` — when an exchange is dispatched for a query whose
  plugins have decided otherwise;
* `completeQuery_silent_iff` — when a dropped response reaches the client;
* `dropMeansNoAnswer_iff` — when neither happens.
-/

namespace DnscryptProxy

open Base Proxy Option

universe u

/-! ## What the plugins decide -/

/-- The chain ended in a drop or with an error. -/
def EvalResult.Dropped {W : Type*} (r : EvalResult W) : Prop :=
  r.err ≠ none ∨ r.state.action = .drop

/-- Nothing is written to the client, and no bytes are returned. -/
def Finished.Silent {W : Type*} (f : Finished W) : Prop := f.written = [] ∧ f.response = []

section Outcomes

variable {W Plug : Type u} [PluginEval W Plug]

/-- How the query plugins leave an arriving query; none if they do not get to run. -/
def Proxy.queryOutcome (p : Proxy W Plug) (now : Time) (w : W) (client : ClientQuery) :
    Option (EvalResult W) :=
  if validateQuery client.query = false then none
  else
    match p.lib.unpack client.query with
    | .error _ => none
    | .ok msg =>
      match msg.question with
      | [question] =>
        match normalizeQName question.name.bytes with
        | .error _ => none
        | .ok qName =>
          let ps := p.newState client
          some (runPlugins p.globals .query now p.globals.queryPlugins w
            { ps with qName := qName, questionMsg := some msg } msg)
      | _ => none

/-- How the response plugins leave a packet; none if they do not get to run. -/
def packetOutcome (lib : DnsLib) (g : PluginsGlobals W Plug) (now : Time) (w : W)
    (ps : PluginsState) (packet : Bytes) : Option (EvalResult W) :=
  match lib.unpack packet with
  | .error _ => none
  | .ok msg =>
    match validateResponseForQuery ps.questionMsg (some msg) with
    | some _ => none
    | none => some (runResponseChain g now w ps packet msg)

/-- How the response plugins leave the answer of an exchange. -/
def Proxy.answerOutcome (p : Proxy W Plug) (now : Time) (up : Upstream) (w : W)
    (x : Dispatched) : Option (EvalResult W) :=
  let r := handleDNSExchange p.lib p.globals now x.server up w x.state x.query x.client.serverProto
  match r.result with
  | .error _ => none
  | .ok response => packetOutcome p.lib p.globals now r.world r.state response

/-- How the response plugins leave the answer to an arriving query. -/
def Proxy.responseOutcome (p : Proxy W Plug) (env : Proxy.Environment W) (servers : ServersInfo)
    (w : W) (client : ClientQuery) : Option (EvalResult W) :=
  match p.beginQuery env.arrival env.first env.second env.spare servers w client with
  | .finished _ _ => none
  | .dispatched _ w x => p.answerOutcome env.completion env.upstream (env.meanwhile w) x

/-- Drop means no answer, and only `continue` means an exchange. -/
structure Proxy.DropMeansNoAnswer (p : Proxy W Plug) (env : Proxy.Environment W)
    (servers : ServersInfo) (w : W) (client : ClientQuery) : Prop where
  query : ∀ r, p.queryOutcome env.arrival w client = some r → r.Dropped →
    (p.processIncomingQuery env servers w client).2.Silent
  response : ∀ r, p.responseOutcome env servers w client = some r → r.Dropped →
    (p.processIncomingQuery env servers w client).2.Silent
  exchange : ∀ r, p.queryOutcome env.arrival w client = some r → r.state.action ≠ .continue →
    (p.beginQuery env.arrival env.first env.second env.spare servers w client).exchange = none

/-- What takes a query on to an exchange against the decision of its plugins:
an action that is neither `continue` nor `drop`, and no bytes to answer with. -/
structure Proxy.GoesOn (p : Proxy W Plug) (servers : ServersInfo) (client : ClientQuery)
    (r : EvalResult W) : Prop where
  err : r.err = none
  notContinue : r.state.action ≠ .continue
  notDrop : r.state.action ≠ .drop
  packet : ∃ packet2, p.lib.pack r.msg = .ok packet2 ∧ validateQuery packet2 = true
  noBytes : ∀ synth, r.state.synthResponse = some synth →
    r.state.AnsweredBy synth ∧ p.lib.pack synth = .ok []
  notOnlyCached : client.onlyCached = false
  anyServer : servers.inner ≠ []

/-- What takes a dropped response to the client: it answers the question, and
packs to at least one byte. -/
structure GoesOut (lib : DnsLib) (r : EvalResult W) : Prop where
  err : r.err = none
  drop : r.state.action = .drop
  answers : r.state.AnsweredBy r.msg
  bytes : ∃ b, b ≠ [] ∧ lib.pack r.msg = .ok b

end Outcomes

/-! ## The query phase -/

section Query

variable {W Plug : Type u} [PluginEval W Plug] {p : Proxy W Plug} {now : Time}
  {first second : Draws} {spare : Nat} {servers : ServersInfo} {w : W} {client : ClientQuery}
  {r : EvalResult W}

/-- Where the plugins run, they are what `ApplyQueryPlugins` runs. -/
theorem runQueryChain_of_outcome (h : p.queryOutcome now w client = some r) :
    validateQuery client.query = true ∧
      runQueryChain p.lib p.globals now w (p.newState client) client.query =
      match r.err with
      | some err => .failed r.world r.state err
      | none =>
        match p.lib.pack r.msg with
        | .error err => .failed r.world r.state err
        | .ok packet2 => .passed r packet2 := by
  unfold queryOutcome at h
  -- the checks before the plugins, in their order
  split at h
  · cases h
  next hQuery =>
  split at h
  · cases h
  next msg hUnpack =>
  split at h
  · next question hQuestion =>
    split at h
    · cases h
    next qName hName =>
    obtain rfl := some.inj h
    refine ⟨by simpa using hQuery, ?_⟩
    unfold runQueryChain
    rw [hUnpack]
    dsimp only
    rw [hQuestion]
    dsimp only
    rewrite [hName]
    rfl
  · cases h

/-- A chain that fails, or leaves a message that cannot be packed, fails the pass. -/
theorem queryPass_fails (h : p.queryOutcome now w client = some r)
    (hFail : r.err ≠ none ∨ ∃ err, p.lib.pack r.msg = .error err) :
    (p.queryPass now first servers w client).err.isSome = true := by
  unfold queryPass applyQueryPlugins
  rw [(runQueryChain_of_outcome h).2]
  cases hErr : r.err with
  | some err => rfl
  | none =>
    obtain ⟨err, hPack⟩ := hFail.resolve_left fun hNe => hNe hErr
    rw [hPack]
    rfl

/-- With any other action than `continue` no server is selected and nothing is padded. -/
theorem queryPass_of_final (h : p.queryOutcome now w client = some r) (hErr : r.err = none)
    {packet2 : Bytes} (hPack : p.lib.pack r.msg = .ok packet2)
    (hFinal : r.state.action ≠ .continue) :
    p.queryPass now first servers w client =
      { world := r.world, sel := .unselected servers, state := r.state, packet := packet2
        err := none } := by
  unfold queryPass applyQueryPlugins
  rw [(runQueryChain_of_outcome h).2, hErr, hPack]
  exact if_neg hFinal

/-- A server is selected at dispatch if there is one. -/
theorem Selection.select_ne_none (now : Time) (servers : ServersInfo) (d : Draws) :
    (Selection.select now d (.unselected servers)).serverInfo ≠ none ↔ servers.inner ≠ [] := by
  rw [← ServersInfo.getOne_ne_none servers now d.draw d.pickDraw]
  unfold Selection.select
  dsimp only
  split
  · next hNone => simp [hNone]
  · next hSome => simp [hSome]

theorem dispatch_exchange_ne_none {pass : QueryPass W Selection} {ps : PluginsState}
    {response : Bytes} (hSel : pass.sel = .unselected servers) :
    (p.dispatch now second spare client pass ps response).exchange ≠ none ↔
      response = [] ∧ servers.inner ≠ [] := by
  rw [← Selection.select_ne_none now servers second, ← hSel]
  unfold dispatch
  by_cases hEmpty : response = []
  · subst hEmpty
    dsimp only [List.length_nil]
    cases (pass.sel.select now second).serverInfo with
    | none => simp [Begun.exchange]
    | some server => simp [Begun.exchange]
  · rw [if_neg (by simpa using hEmpty)]
    simp [Begun.exchange, hEmpty]

section

variable (h : p.queryOutcome now w client = some r)
include h

/-- A query whose plugins drop it or fail ends there, and gets no answer. -/
theorem beginQuery_of_dropped (hDropped : r.Dropped) :
    ∃ servers' f, p.beginQuery now first second spare servers w client = .finished servers' f ∧
      f.Silent := by
  have hQuery := (runQueryChain_of_outcome h).1
  unfold beginQuery
  rw [if_neg (by simp [hQuery])]
  dsimp only
  split
  · exact ⟨_, _, rfl, rfl, rfl⟩
  next hPass =>
  -- the chain passed, so it is the action that says drop
  have hErr : r.err = none := by
    by_contra hErr
    exact hPass (queryPass_fails h (.inl hErr))
  have hDrop := hDropped.resolve_left fun hNe => hNe hErr
  cases hPack : p.lib.pack r.msg with
  | error err => exact absurd (queryPass_fails h (.inr ⟨err, hPack⟩)) hPass
  | ok packet2 =>
    rw [queryPass_of_final h hErr hPack (by simp [hDrop])]
    split
    · exact ⟨_, _, rfl, rfl, rfl⟩
    · exact ⟨_, _, rfl, rfl, rfl⟩

/-- The checks that an exchange has behind it. -/
theorem outcome_of_exchange (hFinal : r.state.action ≠ .continue)
    (hExchange : (p.beginQuery now first second spare servers w client).exchange ≠ none) :
    r.err = none ∧ r.state.action ≠ .drop ∧
      ∃ packet2, p.lib.pack r.msg = .ok packet2 ∧ validateQuery packet2 = true := by
  have hKept : ¬ r.Dropped := by
    intro hDropped
    obtain ⟨servers', f, hEnd, -⟩ := beginQuery_of_dropped h hDropped
    rw [hEnd] at hExchange
    exact hExchange rfl
  obtain ⟨hErr, hDrop⟩ := not_or.mp hKept
  rw [not_not] at hErr
  refine ⟨hErr, hDrop, ?_⟩
  unfold beginQuery at hExchange
  rw [if_neg (by simp [(runQueryChain_of_outcome h).1])] at hExchange
  cases hPack : p.lib.pack r.msg with
  | error err =>
    rw [if_pos (queryPass_fails h (.inr ⟨err, hPack⟩))] at hExchange
    exact absurd rfl hExchange
  | ok packet2 =>
    refine ⟨packet2, rfl, ?_⟩
    by_contra hPacket
    rw [queryPass_of_final h hErr hPack hFinal] at hExchange
    dsimp only [isSome_none] at hExchange
    rw [if_neg Bool.false_ne_true, if_pos (by simpa using hPacket)] at hExchange
    exact hExchange rfl

/-- Past these checks only a synthesized response keeps a query from its exchange,
and only if it has bytes. -/
theorem exchange_of_outcome
    (hFinal : r.state.action ≠ .continue) (hErr : r.err = none) (hDrop : r.state.action ≠ .drop)
    {packet2 : Bytes} (hPack : p.lib.pack r.msg = .ok packet2)
    (hPacket : validateQuery packet2 = true) :
    (p.beginQuery now first second spare servers w client).exchange ≠ none ↔
      (∀ synth, r.state.synthResponse = some synth →
        r.state.AnsweredBy synth ∧ p.lib.pack synth = .ok []) ∧
      client.onlyCached = false ∧ servers.inner ≠ [] := by
  unfold beginQuery
  rw [if_neg (by simp [(runQueryChain_of_outcome h).1]), queryPass_of_final h hErr hPack hFinal]
  dsimp only [isSome_none]
  rw [if_neg Bool.false_ne_true, if_neg (by simp [hPacket]), if_neg hDrop]
  cases hSynth : r.state.synthResponse with
  | none =>
    -- nothing was synthesized: only `onlyCached` or the lack of a server can end it here
    dsimp only [map_none]
    by_cases hCached : client.onlyCached = true
    · rw [if_pos hCached]
      simp [Begun.exchange, hCached]
    · rw [if_neg hCached, dispatch_exchange_ne_none rfl]
      simp [hCached]
  | some synth =>
    dsimp only [map_some]
    cases hHandled : handleSynthesizedResponse p.lib r.state synth with
    | mk ps result =>
    cases result with
    | error err =>
      -- a response that does not answer the question, or cannot be packed, ends the query
      refine iff_of_false (fun hNone => hNone rfl) fun hGoes => ?_
      have hOk := handleSynthesizedResponse_ok_iff.mpr ⟨rfl, hGoes.1 synth rfl⟩
      rw [hHandled] at hOk
      cases hOk
    | ok response =>
      obtain ⟨rfl, hAnswers, hPacked⟩ := handleSynthesizedResponse_ok_iff.mp hHandled
      have hBytes : (∀ m, some synth = some m → r.state.AnsweredBy m ∧ p.lib.pack m = .ok []) ↔
          response = [] := by
        simp [hAnswers, hPacked]
      rw [hBytes]
      dsimp only
      by_cases hCached : client.onlyCached = true ∧ response.length = 0
      · rw [if_pos hCached]
        simp [Begun.exchange, hCached.1]
      · rw [if_neg hCached, dispatch_exchange_ne_none rfl]
        refine and_congr_right fun hEmpty => ?_
        have hAny : client.onlyCached = false := by simpa [hEmpty] using hCached
        simp [hAny]

theorem dispatch_of_final_iff (hFinal : r.state.action ≠ .continue) :
    (p.beginQuery now first second spare servers w client).exchange ≠ none ↔
      p.GoesOn servers client r := by
  constructor
  · intro hExchange
    -- what the exchange has behind it, and then what was left to stop it
    obtain ⟨hErr, hDrop, packet2, hPack, hPacket⟩ := outcome_of_exchange h hFinal hExchange
    obtain ⟨hBytes, hCached, hAny⟩ :=
      (exchange_of_outcome h hFinal hErr hDrop hPack hPacket).mp hExchange
    exact ⟨hErr, hFinal, hDrop, ⟨packet2, hPack, hPacket⟩, hBytes, hCached, hAny⟩
  · intro hGoes
    obtain ⟨packet2, hPack, hPacket⟩ := hGoes.packet
    exact (exchange_of_outcome h hFinal hGoes.err hGoes.notDrop hPack hPacket).mpr
      ⟨hGoes.noBytes, hGoes.notOnlyCached, hGoes.anyServer⟩

end

end Query

/-! ## The response phase -/

section Response

variable {W Plug : Type u} [PluginEval W Plug] {p : Proxy W Plug} {now : Time} {w : W}
  {r : EvalResult W}

/-- A response that is dropped is handed on like any other. -/
theorem processPlugins_of_dropped {lib : DnsLib} {g : PluginsGlobals W Plug} {ps : PluginsState}
    {packet b : Bytes} (h : packetOutcome lib g now w ps packet = some r) (hDropped : r.Dropped) :
    (processPlugins lib g now w ps packet).result = .ok b ↔
      r.err = none ∧ r.state.AnsweredBy r.msg ∧ lib.pack r.msg = .ok b := by
  unfold packetOutcome at h
  split at h
  · cases h
  next msg hUnpack =>
  split at h
  · cases h
  next hAnswers =>
  obtain rfl := some.inj h
  have hAnswered : ps.AnsweredBy msg := validateResponseForQuery_eq_none.mp hAnswers
  rw [processPlugins_ok_iff]
  simp only [hUnpack, Except.ok.injEq, exists_eq_left', hAnswered, true_and]
  refine and_congr_right fun hErr => and_congr_right fun _ => ?_
  rw [if_pos (hDropped.resolve_left fun hNe => hNe hErr)]
  simp

/-- Only the empty response is not seen by anybody. -/
theorem respond_silent_iff (now : Time) (spare : Nat) (client : ClientQuery) (w : W)
    (ps : PluginsState) (b : Bytes) :
    (p.respond now spare client w ps b).Silent ↔ b = [] := by
  by_cases hSize : validResponseSize b = false
  · unfold Finished.Silent respond
    rw [if_pos hSize]
    simp
  · have hLen := sendResponse_length_read p.lib p.globals p.growth now client.clientProto
      client.clientPc w ps (Heap.valid_alloc (Heap.mk []) b spare)
    have hSent : b ≠ [] := by
      rintro rfl
      exact hSize rfl
    refine iff_of_false (fun hSilent => hSent ?_) hSent
    have hSeen := hSilent.2
    unfold respond at hSeen
    rw [if_neg hSize] at hSeen
    -- the bytes returned are as many as were passed to `sendResponse`
    have hNone : b.length = 0 := hLen.symm.trans (congrArg List.length hSeen)
    exact List.length_eq_zero_iff.mp hNone

theorem completeQuery_silent_iff {up : Upstream} {spare : Nat} {x : Dispatched}
    (h : p.answerOutcome now up w x = some r) (hDropped : r.Dropped) :
    (p.completeQuery now up spare w x).Silent ↔ ¬ GoesOut p.lib r := by
  unfold answerOutcome at h
  unfold completeQuery
  generalize handleDNSExchange p.lib p.globals now x.server up w x.state x.query
    x.client.serverProto = ex at h ⊢
  obtain ⟨w', ps', result⟩ := ex
  cases result with
  | error err => cases h
  | ok response =>
  dsimp only at h ⊢
  have hResult := fun b => processPlugins_of_dropped (b := b) h hDropped
  split
  · next err hErr =>
    refine iff_of_true ⟨rfl, rfl⟩ fun hOut => ?_
    obtain ⟨b, -, hPack⟩ := hOut.bytes
    have hOk := (hResult b).mpr ⟨hOut.err, hOut.answers, hPack⟩
    rw [hErr] at hOk
    cases hOk
  · next b hOk =>
    obtain ⟨hErr, hAnswers, hPack⟩ := (hResult b).mp hOk
    rw [respond_silent_iff, iff_not_comm]
    constructor
    · intro hOut
      obtain ⟨b', hBytes, hPack'⟩ := hOut.bytes
      rw [hPack] at hPack'
      obtain rfl := Except.ok.inj hPack'
      exact hBytes
    · intro hBytes
      exact ⟨hErr, hDropped.resolve_left fun hNe => hNe hErr, hAnswers, b, hBytes, hPack⟩

end Response

/-! ## The whole query -/

section Whole

variable {W Plug : Type u} [PluginEval W Plug]

/-- Drop means no answer and only `continue` an exchange, exactly where the query
plugins do not end with another action and no bytes to answer with, and the
response plugins do not drop a response that can be sent. -/
theorem dropMeansNoAnswer_iff (p : Proxy W Plug) (env : Proxy.Environment W)
    (servers : ServersInfo) (w : W) (client : ClientQuery) :
    p.DropMeansNoAnswer env servers w client ↔
      (∀ r, p.queryOutcome env.arrival w client = some r → ¬ p.GoesOn servers client r) ∧
      ∀ r, p.responseOutcome env servers w client = some r → ¬ GoesOut p.lib r := by
  have hResponse : ∀ r, p.responseOutcome env servers w client = some r → r.Dropped →
      ((p.processIncomingQuery env servers w client).2.Silent ↔ ¬ GoesOut p.lib r) := by
    intro r h hDropped
    unfold responseOutcome at h
    unfold processIncomingQuery
    generalize p.beginQuery env.arrival env.first env.second env.spare servers w client = begun
      at h ⊢
    cases begun with
    | finished servers' f => cases h
    | dispatched servers' w' x => exact completeQuery_silent_iff h hDropped
  -- a drop in the query phase is silent in any case, and takes no condition
  constructor
  · intro hMeans
    constructor
    · intro r h hGoes
      exact (dispatch_of_final_iff h hGoes.notContinue).mpr hGoes
        (hMeans.exchange r h hGoes.notContinue)
    · intro r h hOut
      have hDropped : r.Dropped := .inr hOut.drop
      exact (hResponse r h hDropped).mp (hMeans.response r h hDropped) hOut
  · rintro ⟨hQuery, hOut⟩
    refine ⟨?_, ?_, ?_⟩
    · intro r h hDropped
      obtain ⟨servers', f, hEnd, hSilent⟩ := beginQuery_of_dropped h hDropped
      unfold processIncomingQuery
      rw [hEnd]
      exact hSilent
    · intro r h hDropped
      exact (hResponse r h hDropped).mpr (hOut r h)
    · intro r h hFinal
      by_contra hExchange
      exact hQuery r h ((dispatch_of_final_iff h hFinal).mp hExchange)

end Whole

/-! ### A response that is dropped and sent, and a query that is not continued -/

/-- A plugin that sets the action, and does nothing else. -/
def settingAction (action : PluginsAction) : Plugin Unit where
  eval _ w ps m := { world := w, state := { ps with action := action }, msg := m, err := none }
  exchange_eq _ _ _ _ := rfl
  exchangeStart_eq _ _ _ _ := rfl
  limits_eq _ _ _ _ := rfl
  named _ _ _ _ h := h

/-- `bareProxy` with a response plugin that drops every response. -/
def droppingProxy : Proxy Unit :=
  { bareProxy with globals := { noPlugins Unit with responsePlugins := [settingAction .drop] } }

/-- `bareProxy` with a query plugin that ends every query without an action. -/
def idlingProxy : Proxy Unit :=
  { bareProxy with globals := { noPlugins Unit with queryPlugins := [settingAction .none] } }

/-- Nothing else happens, and the upstream delivers `rootAnswer`. -/
def quietEnvironment : Proxy.Environment Unit :=
  { arrival := 0, completion := 0, first := noExploration, second := noExploration
    upstream := rootUpstream, spare := 0, registry := id, meanwhile := id }

/-- The response that `droppingProxy` drops is written and returned, and a query
that `idlingProxy` does not continue goes to the upstream. -/
theorem dropped_response_sent :
    ((droppingProxy.responseOutcome quietEnvironment twoResolvers () (rootClient false)).map
        (·.state.action) = some .drop ∧
      (droppingProxy.processIncomingQuery quietEnvironment twoResolvers ()
        (rootClient false)).2.written = [rootAnswerPacket] ∧
      (droppingProxy.processIncomingQuery quietEnvironment twoResolvers ()
        (rootClient false)).2.response = rootAnswerPacket) ∧
      ((idlingProxy.queryOutcome 0 () (rootClient false)).map (·.state.action) = some .none ∧
        (idlingProxy.beginQuery 0 noExploration noExploration 0 twoResolvers ()
          (rootClient false)).exchange.isSome = true) ∧
      ¬ droppingProxy.DropMeansNoAnswer quietEnvironment twoResolvers () (rootClient false) ∧
      ¬ idlingProxy.DropMeansNoAnswer quietEnvironment twoResolvers () (rootClient false) := by
  have hDrop : (droppingProxy.responseOutcome quietEnvironment twoResolvers ()
      (rootClient false)).map (·.state.action) = some .drop := by decide +kernel
  have hNone : (idlingProxy.queryOutcome 0 () (rootClient false)).map (·.state.action) =
      some .none := by decide +kernel
  refine ⟨⟨hDrop, by decide +kernel⟩, ⟨hNone, by decide +kernel⟩, fun hMeans => ?_,
    fun hMeans => ?_⟩
  · obtain ⟨r, hOutcome, hDrop⟩ := map_eq_some_iff.mp hDrop
    exact absurd (hMeans.response r hOutcome (.inr hDrop)).1 (by decide +kernel)
  · obtain ⟨r, hOutcome, hNone⟩ := map_eq_some_iff.mp hNone
    exact absurd (hMeans.exchange r hOutcome (by rw [hNone]; decide))
      (isSome_iff_ne_none.mp (by decide +kernel))

end DnscryptProxy
