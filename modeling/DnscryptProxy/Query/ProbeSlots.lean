import DnscryptProxy.Query.Run

/-!
# Probe slots

`selectCandidateLocked` marks a breaker as probing when it picks its resolver
for a half-open probe, inside the query pass of the plugins. Only the feedback
of a dispatched exchange clears the mark, and a query can still end between
the two.

* `cached_only_query_leaks_probe` — a query that may only be answered from the
  cache selects a server, marks its probe and returns;
* `probing_has_exchange` — in runs in which a query that may be a probe goes
  out, and a probe is completed under the server name it went out with, every
  mark belongs to an exchange in flight.
-/

namespace DnscryptProxy

open Base LBStrategyMDS Option List Bool

namespace Proxy

variable {W : Type*} (p : Proxy W)

/-- Nothing between selection and dispatch ends a query that the plugins let
through: it is not restricted to the cache, no plugin left a response, and the
packet is of valid size with and without padding. -/
def GoesOut (now : Time) (w : W) (client : ClientQuery) : Prop :=
  ∀ r packet2,
    runQueryChain p.lib p.globals now w (p.newState client) client.query = .passed r packet2 →
    r.state.action = .continue → client.onlyCached = false ∧ r.state.synthResponse = none ∧
        validateQuery packet2 = true ∧ validateQuery (padQuery p.lib r.msg packet2).2 = true

end Proxy

/-! ## One arrival -/

/-- The breakers after a selection on the registry `servers`. -/
structure Selection.From (now : Time) (servers : ServersInfo) (sel : Selection) : Prop where
  picked : ServersInfo.Picked now servers sel.servers sel.serverInfo
  serverName : ∀ server, sel.serverInfo = some server → sel.serverName = server.name

section Arrival

variable {now : Time} {d : Draws} {servers : ServersInfo}

theorem Selection.select_from (name : String) :
    Selection.From now servers
      (Selection.select now d { servers := servers, serverInfo := none, serverName := name }) := by
  unfold Selection.select
  dsimp only
  split
  · next hOne => exact ⟨ServersInfo.getOne_picked hOne, by simp⟩
  · next hOne => exact ⟨ServersInfo.getOne_picked hOne, by simp⟩

/-- Selecting again keeps the server; where there was none, nothing has
changed and the selection starts over. -/
theorem Selection.From.select {sel : Selection} (h : Selection.From now servers sel) :
    Selection.From now servers (sel.select now d) := by
  obtain ⟨servers', picked, name⟩ := sel
  cases picked with
  | some server => exact h
  | none =>
    cases h.picked with
    | idle hSame =>
      subst hSame
      exact Selection.select_from name

variable {W : Type*} {p : Proxy W} {first second : Draws} {spare : Nat} {w : W}
  {client : ClientQuery}

/-- The breakers are as before, or the probe of `name` has been marked. -/
def Marked (now : Time) (servers servers' : ServersInfo) (name : String) : Prop :=
  servers'.mds.circuits = servers.mds.circuits ∨
    (servers.ProbeDue now name ∧ servers'.mds = servers.mds.markProbing name)

theorem Selection.From.marked {sel : Selection} {server : ServerInfo}
    (h : Selection.From now servers sel) (hServer : sel.serverInfo = some server) :
    Marked now servers sel.servers sel.serverName := by
  rw [h.serverName server hServer]
  have hPicked := h.picked
  rw [hServer] at hPicked
  cases hPicked with
  | probe hDue hMark => exact .inr ⟨hDue, hMark⟩
  | other _ hCirc _ => exact .inl hCirc

/-- A query that ends marks no breaker; one that goes out may mark its own. -/
def Begun.Accounted (now : Time) (servers : ServersInfo) : Begun W → Prop
  | .finished servers' _ => servers'.mds.circuits = servers.mds.circuits
  | .dispatched servers' _ x =>
    x.state.exchangeStart = some now ∧ Marked now servers servers' x.state.serverName

/-- The last stretch before the exchange: a query that has marked a breaker
goes out. -/
theorem dispatch_accounted {pass : QueryPass W Selection} {ps : PluginsState} {response : Bytes}
    (hFrom : Selection.From now servers pass.sel)
    (hOut : response.length = 0 ∨ pass.sel.servers.mds.circuits = servers.mds.circuits) :
    (p.dispatch now second spare client pass ps response).Accounted now servers := by
  have hAgain := hFrom.select (d := second)
  unfold Proxy.dispatch
  by_cases hLen : response.length = 0
  · rw [if_pos hLen]
    dsimp only
    cases hServer : (pass.sel.select now second).serverInfo with
    | some server => exact ⟨rfl, hAgain.marked hServer⟩
    | none =>
      have hPicked := hAgain.picked
      rw [hServer] at hPicked
      cases hPicked with
      | idle hSame => exact hSame ▸ rfl
  · rw [if_neg hLen]
    exact hOut.resolve_left hLen

/-- `ApplyQueryPlugins` selects at most one server, and only for a query that
goes on. -/
theorem queryPass_from :
    Selection.From now servers (p.queryPass now first servers w client).sel := by
  have hNone : Selection.From now servers (.unselected servers) := ⟨.idle rfl, by simp⟩
  have hSel : (p.queryPass now first servers w client).sel = _ ∨ _ := queryPass_sel
  rcases hSel with hIdle | hSelected
  · rw [hIdle]
    exact hNone
  · rw [hSelected]
    exact Selection.select_from "-"

/-- A query that selected a server passed its plugins, and nothing but padding
has touched it since. -/
theorem queryPass_selected
    (hSel : (p.queryPass now first servers w client).sel ≠ .unselected servers) :
    ∃ r packet2,
      runQueryChain p.lib p.globals now w (p.newState client) client.query = .passed r packet2 ∧
      r.state.action = .continue ∧
      (p.queryPass now first servers w client).err = none ∧
      (p.queryPass now first servers w client).state.action = .continue ∧
      (p.queryPass now first servers w client).state.synthResponse = r.state.synthResponse ∧
      ((p.queryPass now first servers w client).packet = packet2 ∨
        (p.queryPass now first servers w client).packet = (padQuery p.lib r.msg packet2).2) := by
  unfold Proxy.queryPass applyQueryPlugins at hSel ⊢
  cases hChain : runQueryChain p.lib p.globals now w (p.newState client) client.query with
  | failed w' ps' err => simp [hChain] at hSel
  | passed r packet2 =>
    simp only [hChain] at hSel ⊢
    -- only a query whose action is still to continue asks for a server
    by_cases hAction : r.state.action = .continue
    · rw [if_pos hAction]
      refine ⟨r, packet2, rfl, hAction, ?_⟩
      split
      · exact ⟨rfl, hAction, rfl, .inr rfl⟩
      · exact ⟨rfl, hAction, rfl, .inl rfl⟩
    · rw [if_neg hAction] at hSel
      exact absurd rfl hSel

/-- A query for which a server was marked is dispatched. -/
theorem beginQuery_marked (hOut : ∀ name, servers.ProbeDue now name → p.GoesOut now w client)
    (hMarked : (p.queryPass now first servers w client).sel.servers.mds.circuits ≠
      servers.mds.circuits) (hQuery : validateQuery client.query = true) :
    p.beginQuery now first second spare servers w client =
      p.dispatch now second spare client (p.queryPass now first servers w client)
        (p.queryPass now first servers w client).state [] := by
  have hFrom : Selection.From now servers (p.queryPass now first servers w client).sel :=
    queryPass_from
  have hSelected : (p.queryPass now first servers w client).sel ≠ _ → _ := queryPass_selected
  unfold Proxy.beginQuery
  dsimp only
  generalize p.queryPass now first servers w client = pass at hMarked hFrom hSelected ⊢
  have hSel : pass.sel ≠ .unselected servers := by
    rintro hEq
    exact hMarked (by rw [hEq])
  obtain ⟨r, packet2, hChain, hAction, hErr, hState, hSynth, hPacket⟩ := hSelected hSel
  -- the selection was a probe, so one was due
  have hDue : ∃ name, servers.ProbeDue now name := by
    cases hPicked : pass.sel.serverInfo with
    | none =>
      have h := hFrom.picked
      rw [hPicked] at h
      cases h with
      | idle hSame => exact absurd (by rw [hSame]) hMarked
    | some server => exact ⟨_, ((hFrom.marked hPicked).resolve_left hMarked).1⟩
  obtain ⟨name, hDue⟩ := hDue
  obtain ⟨hCached, hNoSynth, hPlain, hPadded⟩ := hOut name hDue r packet2 hChain hAction
  have hValid : validateQuery pass.packet = true := by
    rcases hPacket with h | h
    · rw [h, hPlain]
    · rw [h, hPadded]
  rw [hQuery, hErr, hValid, hState, hSynth, hNoSynth, hCached]
  simp only [isSome_none, false_eq_true, true_eq_false, reduceCtorEq, if_false, map_none]

/-- Every mark made on arrival belongs to an exchange that goes out. -/
theorem beginQuery_accounted (hOut : ∀ name, servers.ProbeDue now name → p.GoesOut now w client) :
    (p.beginQuery now first second spare servers w client).Accounted now servers := by
  have hFrom : Selection.From now servers (p.queryPass now first servers w client).sel :=
    queryPass_from
  by_cases hMarked : (p.queryPass now first servers w client).sel.servers.mds.circuits =
      servers.mds.circuits
  · -- no mark so far: any early end is fine
    have hPath := beginQuery_path p now first second spare servers w client
    generalize p.beginQuery now first second spare servers w client = b at hPath ⊢
    cases hPath with
    | invalid => rfl
    | dropped => exact hMarked
    | unanswered => exact hMarked
    | goesOn _ _ hEq =>
      rw [hEq]
      exact dispatch_accounted hFrom (.inr hMarked)
  · cases hQuery : validateQuery client.query with
    | true =>
      rw [beginQuery_marked hOut hMarked hQuery]
      exact dispatch_accounted hFrom (.inl rfl)
    | false =>
      unfold Proxy.beginQuery
      rw [if_pos hQuery]
      rfl

end Arrival

/-! ## Whole runs -/

/-- A step that leaks no probe slot: an arrival at which a probe is due goes
out if its plugins let it through, and the exchange with a resolver that is
being probed keeps its server name to the end. -/
def SlotSafe {W : Type*} (p : Proxy W) (s : ProxyState W) : ProxyLabel W → Prop
  | .arrive client now _ _ _ =>
    ∀ name, s.servers.ProbeDue now name → name ≠ "" ∧ p.GoesOut now s.world client
  | .complete id now up spare =>
    ∀ x, (id, x) ∈ s.inFlight → s.servers.mds.isProbing x.state.serverName = true →
      p.KeepsName now up spare s.world x
  | _ => True

structure SlotsHeld {W : Type*} (s : ProxyState W) : Prop where
  probesOpen : s.servers.mds.ProbesOpen
  named : ∀ name, s.servers.mds.isProbing name = true → name ≠ ""
  held : ∀ name, s.servers.mds.isProbing name = true →
    ∃ id x, (id, x) ∈ s.inFlight ∧ x.state.serverName = name
  anchored : ∀ id x, (id, x) ∈ s.inFlight → x.state.exchangeStart.isSome = true
  fresh : ∀ id x, (id, x) ∈ s.inFlight → id < s.nextId
  unique : ∀ id x y, (id, x) ∈ s.inFlight → (id, y) ∈ s.inFlight → x = y

namespace SlotsHeld

variable {W : Type*} {p : Proxy W} {s : ProxyState W}

variable {x : Dispatched} {now : Time} {spare : Nat}

section

variable (h : SlotsHeld s)
include h

/-- The breakers are all that the registry contributes. -/
theorem congr_servers {servers : ServersInfo} {w : W}
    (hCirc : servers.mds.circuits = s.servers.mds.circuits) :
    SlotsHeld { s with servers := servers, world := w } := by
  have hProbing : ∀ m, servers.mds.isProbing m = s.servers.mds.isProbing m := by
    intro m
    rw [isProbing, isProbing, hCirc]
  exact ⟨fun m cb hCb hP => h.probesOpen m cb (hCirc ▸ hCb) hP,
    fun m hP => h.named m (hProbing m ▸ hP), fun m hP => h.held m (hProbing m ▸ hP),
    h.anchored, h.fresh, h.unique⟩

theorem push (hStart : x.state.exchangeStart.isSome = true) :
    SlotsHeld { s with inFlight := s.inFlight ++ [(s.nextId, x)], nextId := s.nextId + 1 } := by
  have hMem : ∀ id y, (id, y) ∈ s.inFlight ++ [(s.nextId, x)] →
      (id, y) ∈ s.inFlight ∨ (id = s.nextId ∧ y = x) := by
    intro id y hy
    rcases mem_append.mp hy with hy | hy
    · exact .inl hy
    · exact .inr (Prod.mk.inj (mem_singleton.mp hy))
  refine ⟨h.probesOpen, h.named, ?_, ?_, ?_, ?_⟩
  · intro name hP
    obtain ⟨id, y, hy, hName⟩ := h.held name hP
    exact ⟨id, y, mem_append_left _ hy, hName⟩
  · intro id y hy
    rcases hMem id y hy with hy | ⟨-, rfl⟩
    · exact h.anchored id y hy
    · exact hStart
  · intro id y hy
    rcases hMem id y hy with hy | ⟨rfl, -⟩
    · exact Nat.lt_succ_of_lt (h.fresh id y hy)
    · exact Nat.lt_succ_self _
  · -- the new number is above all others, so it is not taken
    intro id y z hy hz
    rcases hMem id y hy with hOldY | ⟨hIdY, hY⟩
    · rcases hMem id z hz with hOldZ | ⟨hIdZ, -⟩
      · exact h.unique id y z hOldY hOldZ
      · exact absurd (h.fresh id y hOldY) (by omega)
    · rcases hMem id z hz with hOldZ | ⟨-, hZ⟩
      · exact absurd (h.fresh id z hOldZ) (by omega)
      · rw [hY, hZ]

/-- Marking the probe of a resolver that has an exchange in flight. -/
theorem mark {servers : ServersInfo} {id : Nat}
    (hx : (id, x) ∈ s.inFlight) (hName : x.state.serverName ≠ "")
    (hReady : s.servers.mds.ProbeReady now x.state.serverName)
    (hMark : servers.mds = s.servers.mds.markProbing x.state.serverName) :
    SlotsHeld { s with servers := servers } := by
  have hProbing : ∀ m, servers.mds.isProbing m = true ↔
      m = x.state.serverName ∨ s.servers.mds.isProbing m = true := by
    intro m
    rw [hMark]
    exact isProbing_markProbing hReady m
  refine ⟨hMark ▸ h.probesOpen.markProbing hReady, ?_, ?_, h.anchored, h.fresh, h.unique⟩
  · intro m hP
    rcases (hProbing m).mp hP with rfl | hP
    · exact hName
    · exact h.named m hP
  · intro m hP
    rcases (hProbing m).mp hP with rfl | hP
    · exact ⟨id, x, hx, rfl⟩
    · exact h.held m hP

theorem arrive {client : ClientQuery} {first second : Draws}
    (hOk : SlotSafe p s (.arrive client now first second spare)) :
    SlotsHeld (s.arrive p client now first second spare) := by
  have hAcc : (p.beginQuery now first second spare s.servers s.world client).Accounted now
      s.servers := beginQuery_accounted fun name hDue => (hOk name hDue).2
  unfold ProxyState.arrive
  cases hBegun : p.beginQuery now first second spare s.servers s.world client with
  | finished servers f =>
    rw [hBegun] at hAcc
    exact h.congr_servers hAcc
  | dispatched servers w x =>
    rw [hBegun] at hAcc
    obtain ⟨hStart, hMarked⟩ := hAcc
    have hPushed := h.push (x := x) (by rw [hStart]; rfl)
    rcases hMarked with hCirc | ⟨hDue, hMark⟩
    · exact hPushed.congr_servers hCirc
    · have hx : (s.nextId, x) ∈ s.inFlight ++ [(s.nextId, x)] := by simp
      exact (hPushed.mark hx (hOk _ hDue).1 hDue.2.2 hMark).congr_servers rfl

/-- The outcome of an exchange that keeps its server name ends the probe of
that name, and no outcome starts one. -/
theorem feedback_isProbing {id : Nat} (hx : (id, x) ∈ s.inFlight) {up : Upstream} {name : String}
    (hP : (p.feedback now s.servers (p.completeQuery now up spare s.world x)).mds.isProbing name =
      true) :
    s.servers.mds.isProbing name = true ∧
      (p.KeepsName now up spare s.world x → name ≠ x.state.serverName) := by
  obtain ⟨start, hStart⟩ := isSome_iff_exists.mp (h.anchored id x hx)
  have hAnchor : (p.completeQuery now up spare s.world x).state.exchangeStart = some start :=
    (completeQuery_kept p.globals.keepName_ne_empty now up spare s.world x).exchangeStart.trans
      hStart
  unfold Proxy.feedback observeOutcome at hP
  rw [hAnchor] at hP
  dsimp only at hP
  split at hP
  · next hEmpty =>
    refine ⟨hP, fun hKeep => ?_⟩
    -- a kept name is empty only if it was: then it is not the name of a probe
    rw [← hKeep, hEmpty]
    exact h.named name hP
  · obtain ⟨total, hMds⟩ := s.servers.recordOutcome_mds now p.params.timeout (now - start)
      (decide ((p.completeQuery now up spare s.world x).state.action = .drop))
      (p.completeQuery now up spare s.world x).state.serverName
      (exchangeOutcome p.lib p.params.timeout (now - start)
        (p.completeQuery now up spare s.world x).state
        (p.completeQuery now up spare s.world x).response
        (p.completeQuery now up spare s.world x).queryErr)
    rw [hMds, isProbing_observeFeedbackLocked h.probesOpen] at hP
    refine ⟨hP.2, fun hKeep => ?_⟩
    rw [← hKeep]
    exact hP.1

theorem feedback_probesOpen (now : Time) (f : Finished W) :
    (p.feedback now s.servers f).mds.ProbesOpen := by
  unfold Proxy.feedback observeOutcome
  split
  · exact h.probesOpen
  · split
    · exact h.probesOpen
    · exact h.probesOpen.observeFeedbackLocked _ _

theorem complete {id : Nat} (hx : (id, x) ∈ s.inFlight)
    {up : Upstream} (hOk : SlotSafe p s (.complete id now up spare)) :
    SlotsHeld (s.complete p id x now up spare) := by
  have hSub : ∀ id' y, (id', y) ∈ s.inFlight.filter (fun y => decide (y.1 ≠ id)) →
      (id', y) ∈ s.inFlight := fun _ _ hy => (mem_filter.mp hy).1
  refine ⟨h.feedback_probesOpen now _, ?_, ?_, fun id' y hy => h.anchored id' y (hSub id' y hy),
    fun id' y hy => h.fresh id' y (hSub id' y hy),
    fun id' y z hy hz => h.unique id' y z (hSub id' y hy) (hSub id' z hz)⟩
  · intro name hP
    exact h.named name (h.feedback_isProbing hx hP).1
  · intro name hP
    obtain ⟨hBefore, hNe⟩ := h.feedback_isProbing hx hP
    obtain ⟨id', y, hy, hName⟩ := h.held name hBefore
    refine ⟨id', y, mem_filter.mpr ⟨hy, decide_eq_true ?_⟩, hName⟩
    -- were this the exchange that ends, its outcome would have cleared the mark
    rintro rfl
    obtain rfl := h.unique id' x y hx hy
    exact hNe (hOk x hx (hName ▸ hBefore)) hName.symm

end

theorem of_reach (hs : (proxyMachine p).Reach (SlotSafe p) s) : SlotsHeld s := by
  refine hs.invariant ?_ ?_
  · rintro s ⟨hCirc, hNone, -⟩
    have hQuiet : ∀ name, s.servers.mds.isProbing name = false := by
      intro name
      rw [isProbing, hCirc]
      rfl
    refine ⟨fun n cb hCb => by simp [hCirc] at hCb, ?_, ?_, ?_, ?_, ?_⟩ <;> simp [hNone, hQuiet]
  · intro s l s' h hOk hNext
    obtain ⟨client, now, first, second, spare, rfl, rfl⟩ | ⟨id, x, now, up, spare, rfl, hx, rfl⟩ |
      ⟨server, rfl, rfl⟩ | ⟨ref, now, rfl, rfl⟩ | ⟨world, rfl, rfl⟩ := proxyMachine_step hNext
    · exact h.arrive hOk
    · exact h.complete hx hOk
    · exact h.congr_servers rfl
    · exact h.congr_servers rfl
    · exact h.congr_servers rfl

end SlotsHeld

/-- In a slot-safe run a breaker marked as probing has an exchange in flight to
its resolver, and the completion of that exchange clears the mark. -/
theorem probing_has_exchange {W : Type*} {p : Proxy W} {s : ProxyState W}
    (hs : (proxyMachine p).Reach (SlotSafe p) s) {name : String} {cb : MdsCircuit}
    (hCb : s.servers.mds.circuits name = some cb) (hProbing : cb.probing = true) :
    ∃ id x, (id, x) ∈ s.inFlight ∧ x.state.serverName = name ∧ x.state.exchangeStart.isSome = true ∧
      ∀ now up spare, SlotSafe p s (.complete id now up spare) →
        (s.complete p id x now up spare).servers.mds.isProbing name = false := by
  have h := SlotsHeld.of_reach hs
  have hP := isProbing_iff.mpr ⟨cb, hCb, hProbing⟩
  obtain ⟨id, x, hx, hName⟩ := h.held name hP
  refine ⟨id, x, hx, hName, h.anchored id x hx, ?_⟩
  intro now up spare hOk
  by_contra hAfter
  rw [not_eq_false] at hAfter
  exact (h.feedback_isProbing hx hAfter).2 (hOk x hx (hName ▸ hP)) hName.symm

/-! ### A run that keeps its probe slot, and one that leaks it -/

/-- A query goes to `a`. -/
def firstArrival : ProxyLabel Unit := .arrive (rootClient false) 0 noExploration noExploration 0

/-- It times out, which opens the breaker of `a`. -/
def firstTimeout : ProxyLabel Unit := .complete 0 (5 * Second) deadUpstream 0

/-- 20 s later the next query arrives. -/
def nextArrival (onlyCached : Bool) : ProxyLabel Unit :=
  .arrive (rootClient onlyCached) (25 * Second) noExploration noExploration 0

def firstDispatched : ProxyState Unit :=
  idleProxy.arrive bareProxy (rootClient false) 0 noExploration noExploration 0

theorem firstTimeout_isSome :
    ((proxyMachine bareProxy).step firstDispatched firstTimeout).isSome = true := by
  decide +kernel

def breakerOpened : ProxyState Unit :=
  ((proxyMachine bareProxy).step firstDispatched firstTimeout).get firstTimeout_isSome

/-- The query of `rootClient` goes out whenever it arrives. -/
theorem rootClient_goesOut (now : Time) : bareProxy.GoesOut now () (rootClient false) := by
  intro r packet2 hChain _
  have hEq : runQueryChain bareProxy.lib bareProxy.globals now ()
      (newPluginsState bareProxy.params .udp .udp 0) rootQueryPacket =
        .passed { world := (), msg := rootQuery, err := none
                  state := { newPluginsState bareProxy.params .udp .udp 0 with
                    qName := [dot], questionMsg := some rootQuery } } rootQueryPacket := rfl
  obtain ⟨rfl, rfl⟩ := ChainPass.passed.inj (hEq.symm.trans hChain)
  exact ⟨rfl, rfl, by decide, by decide⟩

theorem breakerOpened_reach :
    (proxyMachine bareProxy).Reach (SlotSafe bareProxy) breakerOpened := by
  have hFirst : (proxyMachine bareProxy).Reach (SlotSafe bareProxy) firstDispatched := by
    refine .step (l := firstArrival) (.init idleProxy_init) ?_ rfl
    rintro name ⟨-, -, cb, hCb, -⟩
    cases hCb
  refine .step (l := firstTimeout) hFirst ?_ (some_get firstTimeout_isSome).symm
  exact fun x _ _ => bareProxy_keepsName _ _ _ _ x

/-- The probe of `a` is in flight, and its completion clears the mark. -/
theorem probing_has_exchange_reopened :
    ∃ s, (proxyMachine bareProxy).Reach (SlotSafe bareProxy) s ∧
      s.servers.mds.isProbing "a" = true ∧
      ∃ id x, (id, x) ∈ s.inFlight ∧ x.state.serverName = "a" ∧
        (s.complete bareProxy id x (26 * Second) deadUpstream 0).servers.mds.isProbing "a" =
          false := by
  have hNames : "" ∉ breakerOpened.servers.inner.map (·.name) := by decide +kernel
  let s := breakerOpened.arrive bareProxy (rootClient false) (25 * Second) noExploration
    noExploration 0
  have hReach : (proxyMachine bareProxy).Reach (SlotSafe bareProxy) s := by
    refine .step (l := nextArrival false) breakerOpened_reach ?_ rfl
    rintro name ⟨-, hMem, -⟩
    exact ⟨fun hEmpty => hNames (hEmpty ▸ hMem), rootClient_goesOut _⟩
  have hProbing : s.servers.mds.isProbing "a" = true := by decide +kernel
  obtain ⟨cb, hCb, hP⟩ := isProbing_iff.mp hProbing
  obtain ⟨id, x, hx, hName, -, hClears⟩ := probing_has_exchange hReach hCb hP
  exact ⟨_, hReach, hProbing, id, x, hx, hName,
    hClears _ _ _ fun y _ _ => bareProxy_keepsName _ _ _ _ y⟩

theorem leak_isSome :
    ((proxyMachine bareProxy).exec idleProxy
      [firstArrival, firstTimeout, nextArrival true]).isSome = true := by
  decide +kernel

/-- A query that may only be answered from the cache marks the probe of `a`
and ends: nothing is in flight, and the mark stays. -/
theorem cached_only_query_leaks_probe :
    ∃ s, (proxyMachine bareProxy).Reach Machine.anyStep s ∧
      s.servers.mds.isProbing "a" = true ∧ s.inFlight.length = 0 := by
  refine ⟨_, Machine.Reach.exec_get (.init idleProxy_init) leak_isSome, ?_, ?_⟩
  · decide +kernel
  · decide +kernel

end DnscryptProxy
