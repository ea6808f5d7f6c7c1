import DnscryptProxy.Query.Transcript

/-!
# What a session keeps during an exchange

From dispatch to the deferred feedback a session passes through the exchange,
the response plugins, the log and `sendResponse`. None of these moves the
anchor of the exchange or raises its failure flags; the server name is as
stable as the plugins leave it.

* `processPlugins_keeps`, `ExchangePath.keeps` — the rules for properties of the
  world and the session;
* `completeQuery_core` — the one for properties of the world and the core of a
  session;
* `completeQuery_kept` — its instance for the feedback theorems;
* `beginQuery_path` — how an arrival goes, up to its exchange;
* `beginQuery_dispatched` — the session of an exchange that was dispatched.
-/

namespace DnscryptProxy

open Option

universe u

/-! ## The core of a session -/

/-- The part of a session that only plugins and the dispatch of an exchange
write; everything else of the session is rewritten in many places. -/
structure SessionCore where
  exchangeStart : Option Time
  timeout : Bool
  error : Bool
  serverName : String
  limits : CacheLimits

def PluginsState.core (ps : PluginsState) : SessionCore :=
  { exchangeStart := ps.exchangeStart, timeout := ps.exchange.timeout, error := ps.exchange.error
    serverName := ps.serverName, limits := ps.limits }

section Passes

variable {W : Type*} {lib : DnsLib} {g : PluginsGlobals W} {now : Time} {w : W} {ps : PluginsState}

/-- A plugin may rewrite the server name, and nothing else of the core. -/
theorem Plugin.core_eq (p : Plugin W) (m : Msg) :
    (p.eval now w ps m).state.core =
      { ps.core with serverName := (p.eval now w ps m).state.serverName } := by
  simp only [PluginsState.core, p.exchange_eq, p.exchangeStart_eq, p.limits_eq]

/-- The passes keep the property `P` of the world and the session: the logging
plugins do, and it is not about what the passes themselves write. -/
structure PluginsGlobals.PassesKeep (g : PluginsGlobals W) (P : W → PluginsState → Prop) :
    Prop where
  requestEnd : ∀ w ps t, P w ps → P w { ps with requestEnd := t }
  returnCode : ∀ w ps code, P w ps → P w { ps with returnCode := code }
  log : ∀ p ∈ g.loggingPlugins, ∀ now w ps m, P w ps → P (p.eval now w ps m).world
    { (p.eval now w ps m).state with questionMsg := some (p.eval now w ps m).msg }

/-- The logging plugins keep the property `P` of the world and the core. -/
def PluginsGlobals.LogKeeps (g : PluginsGlobals W) (P : W → SessionCore → Prop) : Prop :=
  ∀ p ∈ g.loggingPlugins, ∀ now w ps m,
    P w ps.core → P (p.eval now w ps m).world (p.eval now w ps m).state.core

theorem PluginsGlobals.LogKeeps.passes {P : W → SessionCore → Prop} (h : g.LogKeeps P) :
    g.PassesKeep fun w ps => P w ps.core :=
  ⟨fun _ _ _ hP => hP, fun _ _ _ hP => hP, h⟩

theorem handleSynthesizedResponse_state (lib : DnsLib) (ps : PluginsState) (synth : Msg) :
    ∃ code, (handleSynthesizedResponse lib ps synth).1 = { ps with returnCode := code } := by
  unfold handleSynthesizedResponse
  split
  · exact ⟨_, rfl⟩
  · split
    · exact ⟨_, rfl⟩
    · exact ⟨ps.returnCode, rfl⟩

section Rules

variable {P : W → PluginsState → Prop}

theorem applyLoggingPlugins_keeps (hKeep : g.PassesKeep P) (h : P w ps) :
    P (applyLoggingPlugins g now w ps).1 (applyLoggingPlugins g now w ps).2 :=
  applyLoggingPlugins_invariant hKeep.requestEnd (fun p hp w ps m _ => hKeep.log p hp now w ps m) h

theorem processPlugins_keeps (hKeep : g.PassesKeep P) {response : Bytes} (h : P w ps)
    (hChain : ∀ m, lib.unpack response = .ok m → P (runResponseChain g now w ps response m).world
        (runResponseChain g now w ps response m).state) :
    P (processPlugins lib g now w ps response).world
      (processPlugins lib g now w ps response).state := by
  have hPass : P (applyResponsePlugins lib g now w ps response).world
      (applyResponsePlugins lib g now w ps response).state := by
    unfold applyResponsePlugins
    split
    · exact h
    · next m hUnpack =>
      have hRun := hChain m hUnpack
      split
      · exact h
      · dsimp only
        split
        · exact hRun
        · split <;> exact hRun
  unfold processPlugins
  dsimp only
  -- a rejected response, a drop, no synthesized response, or one that is checked
  split
  · exact applyLoggingPlugins_keeps hKeep (hKeep.returnCode _ _ _ hPass)
  · split
    · exact applyLoggingPlugins_keeps hKeep (hKeep.returnCode _ _ _ hPass)
    · split
      · exact hPass
      · next synth _ =>
        obtain ⟨code, hState⟩ := handleSynthesizedResponse_state lib
          (applyResponsePlugins lib g now w ps response).state synth
        have hSynth := hKeep.returnCode _ _ code hPass
        rw [← hState] at hSynth
        split
        · next hEq =>
          rw [hEq] at hSynth
          exact applyLoggingPlugins_keeps hKeep hSynth
        · next hEq =>
          rw [hEq] at hSynth
          exact hSynth

theorem ExchangePath.keeps (hKeep : g.PassesKeep P) {outcome : Option Bytes} {r : Exchanged W}
    (hPath : ExchangePath g now w ps outcome r) (h : P w ps) : P r.world r.state := by
  induction hPath with
  | answered response => exact h
  | givenUp err => exact h
  | failed code err _ ih => exact applyLoggingPlugins_keeps hKeep (hKeep.returnCode _ _ _ ih)

end Rules

theorem Dispatched.noted_core (x : Dispatched) (up : Upstream) :
    (x.transcript up).noted.core = x.state.core := by
  obtain ⟨e, hNoted, hTimeout, hError⟩ := x.noted_eq up
  rw [hNoted]
  simp only [PluginsState.core, hTimeout, hError]
  rfl

variable {P : W → SessionCore → Prop}

/-! ## Sending -/

theorem sendResponse_core (hLog : g.LogKeeps P) (h : P w ps.core) (growth : Base.Growth)
    (proto : ClientProto) (clientPc : Bool) (heap : Base.Heap UInt8) (s : Base.Slice) :
    P (sendResponse lib g growth now proto clientPc w ps heap s).world
      (sendResponse lib g growth now proto clientPc w ps heap s).state.core := by
  have hRefuse : ∀ heap' code, P (refuseToSend g now w ps heap' code).world
      (refuseToSend g now w ps heap' code).state.core :=
    fun _ _ => applyLoggingPlugins_keeps hLog.passes h
  unfold sendResponse
  dsimp only
  split
  · exact hRefuse _ _
  · split
    · split
      · split
        · exact hRefuse _ _
        · exact h
      · exact h
    · split
      · exact hRefuse _ _
      · exact h
    · exact h
    · exact h

theorem respond_core {p : Proxy W} (hLog : p.globals.LogKeeps P) (h : P w ps.core) (spare : Nat)
    (client : ClientQuery) (response : Bytes) :
    P (p.respond now spare client w ps response).world
      (p.respond now spare client w ps response).state.core := by
  unfold Proxy.respond
  split
  · exact applyLoggingPlugins_keeps hLog.passes h
  · exact applyLoggingPlugins_keeps hLog.passes (sendResponse_core hLog h ..)

theorem completeQuery_core {p : Proxy W} (hLog : p.globals.LogKeeps P) {up : Upstream} {spare : Nat}
    {x : Dispatched} (h : P w x.state.core)
    (hChain : ∀ b m, ((x.transcript up).outcome p.lib).filter validResponseSize = some b →
      p.lib.unpack b = .ok m → P w (x.transcript up).noted.core →
      P (runResponseChain p.globals now w (x.transcript up).noted b m).world
        (runResponseChain p.globals now w (x.transcript up).noted b m).state.core) :
    P (p.completeQuery now up spare w x).world (p.completeQuery now up spare w x).state.core := by
  rw [← x.noted_core up] at h
  have hPath := handleDNSExchange_path p.lib p.globals now w x up
  have hKept := hPath.keeps hLog.passes h
  unfold Proxy.completeQuery
  generalize handleDNSExchange p.lib p.globals now x.server up w x.state x.query
    x.client.serverProto = r at hPath hKept ⊢
  generalize hOut : ((x.transcript up).outcome p.lib).filter validResponseSize = outcome at hPath
  cases hPath with
  | givenUp err => exact hKept
  | failed code err _ => exact hKept
  | answered b =>
    have hPlugins := processPlugins_keeps hLog.passes h
      fun m hUnpack => hChain b m hOut hUnpack h
    dsimp only
    split
    · exact hPlugins
    · exact respond_core hLog hPlugins ..

end Passes

/-! ## What a session keeps -/

/-- What stays between two points of a session. `N` is a property of the
server name. -/
structure Kept (N : String → Prop) (c c' : SessionCore) : Prop where
  exchangeStart : c'.exchangeStart = c.exchangeStart
  timeout : c'.timeout = c.timeout
  error : c'.error = c.error
  serverName : N c.serverName → N c'.serverName

/-- The plugins that run at this completion leave the session with the server name it had. -/
def Proxy.KeepsName {W : Type*} (p : Proxy W) (now : Time) (up : Upstream) (spare : Nat) (w : W)
    (x : Dispatched) : Prop :=
  (p.completeQuery now up spare w x).state.serverName = x.state.serverName

/-- The plugins that run after dispatch keep the property `N` of the server name. -/
def PluginsGlobals.KeepName {W : Type*} (g : PluginsGlobals W) (N : String → Prop) : Prop :=
  ∀ p ∈ g.responsePlugins ++ g.loggingPlugins, ∀ now w ps m,
    N ps.serverName → N (p.eval now w ps m).state.serverName

theorem PluginsGlobals.keepName_ne_empty {W : Type*} (g : PluginsGlobals W) :
    g.KeepName (· ≠ "") := fun p _ => p.named

section Keeping

variable {W : Type*} {N : String → Prop} {now : Time} {w : W}

theorem Plugin.kept (p : Plugin W) {c : SessionCore} {ps : PluginsState} (m : Msg)
    (hN : N ps.serverName → N (p.eval now w ps m).state.serverName) (h : Kept N c ps.core) :
    Kept N c (p.eval now w ps m).state.core := by
  rw [p.core_eq]
  exact ⟨h.exchangeStart, h.timeout, h.error, fun hName => hN (h.serverName hName)⟩

theorem completeQuery_kept {p : Proxy W} (hN : p.globals.KeepName N) (now : Time) (up : Upstream)
    (spare : Nat) (w : W) (x : Dispatched) :
    Kept N x.state.core (p.completeQuery now up spare w x).state.core := by
  refine completeQuery_core (P := fun _ c => Kept N x.state.core c) ?_ ⟨rfl, rfl, rfl, id⟩ ?_
  · intro q hq now w ps m h
    exact q.kept m (hN q (List.mem_append_right _ hq) now w ps m) h
  · intro b m _ _ h
    refine runPlugins_invariant (P := fun _ ps _ => Kept N x.state.core ps.core) ?_ ?_ _ ?_ _ _ _ h
    · intro _ _ _ _ h
      exact h
    · intro _ _ _ _ h
      exact h
    · intro q hq w ps m h
      exact q.kept m (hN q (List.mem_append_left _ hq) now w ps m) h

end Keeping

/-! ## What a pass lets through -/

section Accepted

variable {W Plug : Type u} [PluginEval W Plug] {lib : DnsLib} {g : PluginsGlobals W Plug}
  {now : Time} {w : W} {ps ps' : PluginsState}

theorem handleSynthesizedResponse_ok_iff {synth : Msg} {data : Bytes} :
    handleSynthesizedResponse lib ps synth = (ps', .ok data) ↔
      ps' = ps ∧ ps.AnsweredBy synth ∧ lib.pack synth = .ok data := by
  rw [PluginsState.AnsweredBy, ← validateResponseForQuery_eq_none]
  unfold handleSynthesizedResponse
  cases validateResponseForQuery ps.questionMsg (some synth) with
  | some err => simp
  | none =>
    cases lib.pack synth with
    | error err => simp
    | ok data' => simp [eq_comm]

theorem applyResponsePlugins_ok_iff {b packed : Bytes} :
    (applyResponsePlugins lib g now w ps b).result = .ok packed ↔
      ∃ m, lib.unpack b = .ok m ∧ ps.AnsweredBy m ∧ (runResponseChain g now w ps b m).err = none ∧
        (runResponseChain g now w ps b m).state.AnsweredBy (runResponseChain g now w ps b m).msg ∧
        lib.pack (runResponseChain g now w ps b m).msg = .ok packed := by
  -- each condition is one check of the function, in its order
  simp only [PluginsState.AnsweredBy, ← validateResponseForQuery_eq_none]
  unfold applyResponsePlugins
  cases lib.unpack b with
  | error err => simp
  | ok m =>
    simp only [Except.ok.injEq, exists_eq_left']
    cases validateResponseForQuery ps.questionMsg (some m) with
    | some err => simp
    | none =>
      generalize runResponseChain g now w ps b m = r
      cases r.err with
      | some err => simp
      | none =>
        cases validateResponseForQuery r.state.questionMsg (some r.msg) with
        | some err => simp
        | none => simp

/-- The session that goes on with an accepted response. -/
theorem applyResponsePlugins_state {b packed : Bytes} {m : Msg} (hUnpack : lib.unpack b = .ok m)
    (h : (applyResponsePlugins lib g now w ps b).result = .ok packed) :
    (applyResponsePlugins lib g now w ps b).state = (runResponseChain g now w ps b m).state := by
  unfold applyResponsePlugins at h ⊢
  rw [hUnpack] at h ⊢
  dsimp only at h ⊢
  split at h
  · cases h
  · split at h
    · cases h
    · split at h
      · cases h
      · rfl

/-- What a response has to pass to be handed on, and what takes its place. -/
theorem processPlugins_ok_iff {b data : Bytes} :
    (processPlugins lib g now w ps b).result = .ok data ↔
      ∃ m, lib.unpack b = .ok m ∧ ps.AnsweredBy m ∧ (runResponseChain g now w ps b m).err = none ∧
        (runResponseChain g now w ps b m).state.AnsweredBy (runResponseChain g now w ps b m).msg ∧
        ∃ packed, lib.pack (runResponseChain g now w ps b m).msg = .ok packed ∧
          match (if (runResponseChain g now w ps b m).state.action = .drop then none
            else (runResponseChain g now w ps b m).state.synthResponse) with
          | none => data = packed
          | some synth =>
            (runResponseChain g now w ps b m).state.AnsweredBy synth ∧
              lib.pack synth = .ok data := by
  unfold processPlugins
  dsimp only
  cases hApplied : (applyResponsePlugins lib g now w ps b).result with
  | error err =>
    simp only [reduceCtorEq, false_iff]
    rintro ⟨m, hUnpack, hAnswers, hErr, hKept, packed, hPack, -⟩
    have hOk := applyResponsePlugins_ok_iff.mpr ⟨m, hUnpack, hAnswers, hErr, hKept, hPack⟩
    rw [hApplied] at hOk
    cases hOk
  | ok packed =>
    obtain ⟨m, hUnpack, hAnswers, hErr, hKept, hPack⟩ := applyResponsePlugins_ok_iff.mp hApplied
    rw [applyResponsePlugins_state hUnpack hApplied]
    simp only [hUnpack, Except.ok.injEq, exists_eq_left', hAnswers, hErr, hKept, hPack, true_and]
    -- a drop, no synthesized response, or one that replaces the answer
    generalize runResponseChain g now w ps b m = r
    by_cases hDrop : r.state.action = .drop
    · simp [hDrop, eq_comm]
    · simp only [hDrop, if_false]
      cases r.state.synthResponse with
      | none => simp [eq_comm]
      | some synth =>
        dsimp only
        split
        · next hSynth =>
          simp only [reduceCtorEq, false_iff]
          rintro ⟨hAnswers', hPack'⟩
          have hOk := handleSynthesizedResponse_ok_iff.mpr ⟨rfl, hAnswers', hPack'⟩
          rw [hSynth] at hOk
          cases hOk
        · next hSynth =>
          obtain ⟨-, hAnswers', hPack'⟩ := handleSynthesizedResponse_ok_iff.mp hSynth
          simp [hAnswers', hPack']

end Accepted

/-! ## From arrival to dispatch -/

section Arrival

variable {W Plug : Type u} [PluginEval W Plug] {p : Proxy W Plug} {now : Time}
  {first second : Draws} {spare : Nat}
  {servers servers' : ServersInfo} {w w' : W} {client : ClientQuery}

theorem Selection.select_serverName {sel : Selection} {d : Draws} {server : ServerInfo}
    (hSel : ∀ s, sel.serverInfo = some s → sel.serverName = s.name)
    (h : (sel.select now d).serverInfo = some server) :
    (sel.select now d).serverName = server.name := by
  unfold Selection.select at h ⊢
  split at h
  · exact hSel _ h
  · next hNone =>
    split at h
    · rw [hNone] at h
      cases h
    · obtain rfl : _ = server := some.inj h
      rfl

/-- The pass of the query plugins selects a server once, or not at all. -/
theorem queryPass_sel :
    (p.queryPass now first servers w client).sel = .unselected servers ∨
      (p.queryPass now first servers w client).sel =
        Selection.select now first (.unselected servers) := by
  unfold Proxy.queryPass applyQueryPlugins
  split
  · exact .inl rfl
  · split
    · right
      dsimp only
      split <;> rfl
    · exact .inl rfl

theorem queryPass_serverName {server : ServerInfo}
    (h : (p.queryPass now first servers w client).sel.serverInfo = some server) :
    (p.queryPass now first servers w client).sel.serverName = server.name := by
  have hSel : (p.queryPass now first servers w client).sel = _ ∨ _ := queryPass_sel
  rcases hSel with hIdle | hSelected
  · rw [hIdle] at h
    cases h
  · rw [hSelected] at h ⊢
    exact Selection.select_serverName (fun s hs => by cases hs) h

/-- A query that passes its plugins parses, has one question, and comes out of
the chain as a message that packs. -/
theorem runQueryChain_passed {lib : DnsLib} {g : PluginsGlobals W Plug} {ps : PluginsState}
    {packet packet2 : Bytes} {r : EvalResult W}
    (h : runQueryChain lib g now w ps packet = .passed r packet2) :
    ∃ msg question qName, lib.unpack packet = .ok msg ∧ msg.question = [question] ∧
      r = runPlugins g .query now g.queryPlugins w
        { ps with qName := qName, questionMsg := some msg } msg ∧
      lib.pack r.msg = .ok packet2 := by
  unfold runQueryChain at h
  split at h
  · cases h
  next msg hUnpack =>
  split at h
  · next question hQuestion =>
    split at h
    · cases h
    next qName _ =>
    dsimp only at h
    split at h
    · cases h
    split at h
    · cases h
    next hPack =>
    cases h
    exact ⟨msg, question, qName, hUnpack, hQuestion, rfl, hPack⟩
  · cases h

/-- Padding may rewrite the stored question of a query that passed, nothing else. -/
theorem queryPass_passed (h : (p.queryPass now first servers w client).err = none) :
    ∃ r packet2,
      runQueryChain p.lib p.globals now w (p.newState client) client.query = .passed r packet2 ∧
      ((p.queryPass now first servers w client).state = r.state ∨
        (p.queryPass now first servers w client).state =
          { r.state with questionMsg := some (padQuery p.lib r.msg packet2).1 }) := by
  unfold Proxy.queryPass applyQueryPlugins at h ⊢
  generalize runQueryChain p.lib p.globals now w (p.newState client) client.query = chain at h ⊢
  cases chain with
  | failed w' ps' err => cases h
  | passed r packet2 =>
    refine ⟨r, packet2, rfl, ?_⟩
    dsimp only
    split
    · split
      · exact .inr rfl
      · exact .inl rfl
    · exact .inl rfl

theorem dispatch_dispatched {pass : QueryPass W Selection} {ps : PluginsState} {response : Bytes}
    {x : Dispatched} (hName : ∀ s, pass.sel.serverInfo = some s → pass.sel.serverName = s.name)
    (h : p.dispatch now second spare client pass ps response = .dispatched servers' w' x) :
    x.client = client ∧ ∃ relayName, x.state = { ps with
        serverName := x.server.name, relayName := relayName, exchangeStart := some now } := by
  unfold Proxy.dispatch at h
  split at h
  · dsimp only at h
    split at h <;> cases h
    next server hServer =>
      rw [Selection.select_serverName hName hServer]
      exact ⟨rfl, _, rfl⟩
  · cases h

/-- How an arrival goes: a return without an answer, or on to `dispatch`. -/
inductive BeginPath (p : Proxy W Plug) (now : Time) (second : Draws) (spare : Nat)
    (servers : ServersInfo) (w : W) (client : ClientQuery) (pass : QueryPass W Selection) :
    Begun W → Prop where
  /-- not even a query -/
  | invalid : BeginPath p now second spare servers w client pass (.finished servers
      (Proxy.unanswered w (p.newState client) none))
  | dropped : BeginPath p now second spare servers w client pass
      (.finished pass.sel.servers (p.dropQuery now pass.world pass.state))
  /-- too long by now, a response that cannot be used, or nothing cached -/
  | unanswered {ps : PluginsState} : ps.core = pass.state.core →
      BeginPath p now second spare servers w client pass
        (.finished pass.sel.servers (Proxy.unanswered pass.world ps none))
  /-- with the synthesized response, or without any -/
  | goesOn {response : Bytes} {b : Begun W} : pass.err = none →
      (response = [] ∨ ∃ synth, pass.state.AnsweredBy synth ∧ p.lib.pack synth = .ok response) →
      b = p.dispatch now second spare client pass pass.state response →
      BeginPath p now second spare servers w client pass b

theorem beginQuery_path (p : Proxy W Plug) (now : Time) (first second : Draws) (spare : Nat)
    (servers : ServersInfo) (w : W) (client : ClientQuery) :
    BeginPath p now second spare servers w client (p.queryPass now first servers w client)
      (p.beginQuery now first second spare servers w client) := by
  unfold Proxy.beginQuery
  dsimp only
  generalize p.queryPass now first servers w client = pass
  split
  · exact .invalid
  split
  · exact .dropped
  next hErr =>
  rw [not_isSome_iff_eq_none] at hErr
  split
  · exact .unanswered rfl
  split
  · exact .dropped
  split
  · next ps err hSynth =>
    obtain ⟨synth, -, hHandled⟩ := map_eq_some_iff.mp hSynth
    obtain ⟨code, hState⟩ := handleSynthesizedResponse_state p.lib pass.state synth
    rw [hHandled] at hState
    obtain rfl : ps = _ := hState
    exact .unanswered rfl
  · next ps response hSynth =>
    obtain ⟨synth, -, hHandled⟩ := map_eq_some_iff.mp hSynth
    obtain ⟨rfl, hAnswered, hPack⟩ := handleSynthesizedResponse_ok_iff.mp hHandled
    split
    · exact .unanswered rfl
    · exact .goesOn hErr (.inr ⟨synth, hAnswered, hPack⟩) rfl
  · split
    · exact .unanswered rfl
    · exact .goesOn hErr (.inl rfl) rfl

theorem beginQuery_dispatched {x : Dispatched}
    (h : p.beginQuery now first second spare servers w client = .dispatched servers' w' x) :
    (p.queryPass now first servers w client).err = none ∧ x.client = client ∧
      ∃ relayName, x.state = { (p.queryPass now first servers w client).state with
        serverName := x.server.name, relayName := relayName, exchangeStart := some now } := by
  have hPath := beginQuery_path p now first second spare servers w client
  rw [h] at hPath
  cases hPath with
  | goesOn hErr _ hDispatch =>
    exact ⟨hErr, dispatch_dispatched (fun _ => queryPass_serverName) hDispatch.symm⟩

end Arrival

/-! ### The rule for an arrival -/

section Keeps

variable {W : Type*} {p : Proxy W} {now : Time} {first second : Draws} {spare : Nat}
  {servers : ServersInfo} {w : W} {client : ClientQuery}

/-- The query plugins keep the property `P` of the world and the core. -/
def PluginsGlobals.QueryKeeps (g : PluginsGlobals W) (P : W → SessionCore → Prop) : Prop :=
  ∀ p ∈ g.queryPlugins, ∀ now w ps m,
    P w ps.core → P (p.eval now w ps m).world (p.eval now w ps m).state.core

/-- `P` holds of the world and the session in which a query ends or waits. -/
def Begun.Holds (P : W → SessionCore → Prop) : Begun W → Prop
  | .finished _ f => P f.world f.state.core
  | .dispatched _ w x => P w x.state.core

variable {P : W → SessionCore → Prop}

theorem queryPass_core (now : Time) (first : Draws) (servers : ServersInfo)
    (hQuery : p.globals.QueryKeeps P) (h : P w (p.newState client).core) :
    P (p.queryPass now first servers w client).world
      (p.queryPass now first servers w client).state.core := by
  have hRun : ∀ ps m, P w ps.core →
      P (runPlugins p.globals .query now p.globals.queryPlugins w ps m).world
        (runPlugins p.globals .query now p.globals.queryPlugins w ps m).state.core := by
    intro ps m hps
    refine runPlugins_invariant (P := fun w ps _ => P w ps.core) ?_ ?_ _ ?_ _ _ _ hps
    · intro _ _ _ _ h
      exact h
    · intro _ _ _ _ h
      exact h
    · intro q hq w ps m h
      exact hQuery q hq now w ps m h
  unfold Proxy.queryPass applyQueryPlugins
  generalize hChain : runQueryChain p.lib p.globals now w (p.newState client) client.query = chain
  cases chain with
  | passed r packet2 =>
    obtain ⟨msg, -, qName, -, -, rfl, -⟩ := runQueryChain_passed hChain
    dsimp only
    split
    · split <;> exact hRun _ _ h
    · exact hRun _ _ h
  | failed w' ps' err =>
    -- it failed before the plugins ran, which changed nothing, or after
    unfold runQueryChain at hChain
    split at hChain
    · cases hChain
      exact h
    split at hChain
    · split at hChain
      · cases hChain
        exact h
      dsimp only at hChain
      split at hChain
      · cases hChain
        exact hRun _ _ h
      split at hChain <;> cases hChain
      exact hRun _ _ h
    · cases hChain
      exact h

theorem dispatch_core (hLog : p.globals.LogKeeps P)
    (hDispatch : ∀ w c name start, P w c →
      P w { c with serverName := name, exchangeStart := start })
    {pass : QueryPass W Selection} {ps : PluginsState} {response : Bytes}
    (h : P pass.world ps.core) :
    (p.dispatch now second spare client pass ps response).Holds P := by
  unfold Proxy.dispatch
  split
  · dsimp only
    split
    · exact respond_core hLog h ..
    · exact hDispatch _ _ _ _ h
  · exact respond_core hLog h ..

/-- A property of the world and the core that the query and logging plugins
keep, and that does not depend on the server, is kept until a query ends or
waits. -/
theorem beginQuery_core (hLog : p.globals.LogKeeps P) (hQuery : p.globals.QueryKeeps P)
    (hDispatch : ∀ w c name start, P w c →
      P w { c with serverName := name, exchangeStart := start })
    (h : P w (p.newState client).core) :
    (p.beginQuery now first second spare servers w client).Holds P := by
  have hPass := queryPass_core now first servers hQuery h
  have hPath := beginQuery_path p now first second spare servers w client
  generalize p.beginQuery now first second spare servers w client = b at hPath ⊢
  cases hPath with
  | invalid => exact h
  | dropped => exact applyLoggingPlugins_keeps hLog.passes hPass
  | unanswered hCore =>
    rw [← hCore] at hPass
    exact hPass
  | goesOn _ _ hEq =>
    rw [hEq]
    exact dispatch_core hLog hDispatch hPass

end Keeps

end DnscryptProxy
