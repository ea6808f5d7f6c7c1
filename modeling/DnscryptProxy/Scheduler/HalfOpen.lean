import DnscryptProxy.Base.Run
import DnscryptProxy.Scheduler.Servers

/-!
# Who decides a half-open breaker

Runs of the scheduler alone: queries select a resolver, exchanges stay in
flight for as long as they like, and their outcomes come back in any order.
The feedback of `observeOutcome` carries only the name of the resolver, so
the scheduler cannot tell the outcome of a probe from the late outcome of an
exchange that was dispatched before the breaker opened.

* `late_success_closes_half_open` — such a late outcome does close the
  breaker while its probe is still in flight;
* `probe_alone_decides` — if exchanges drain before a probe goes out, and
  traffic never falls back on open breakers while one is out, then each
  breaker has at most one probe in flight and nothing else decides it.
-/

namespace DnscryptProxy

open Base List LBStrategyMDS Option

/-! ## The machine -/

/-- An exchange in flight. `probe` records that the selection made it the
half-open probe of its resolver. -/
structure InFlight where
  id : Nat
  name : String
  probe : Bool
deriving Repr, DecidableEq

structure SchedulerState where
  servers : ServersInfo
  inFlight : List InFlight
  nextId : Nat

inductive SchedulerLabel where
  /-- one query selects a resolver -/
  | select (now : Time) (draw : ℚ) (pickDraw : Nat)
  /-- the outcome of exchange `id` reaches `observeOutcome` -/
  | feedback (id : Nat) (now : Time) (timeout elapsed : Duration) (dropped : Bool)
      (o : ExchangeOutcome)
  /-- `refreshServer` publishes a server -/
  | publish (server : ServerInfo)

namespace SchedulerState

/-- The state after a selection; without servers nothing is dispatched. -/
def select (s : SchedulerState) (now : Time) (draw : ℚ) (pickDraw : Nat) : SchedulerState :=
  match s.servers.getOne now draw pickDraw with
  | (servers, none) => { s with servers := servers }
  | (servers, some server) =>
    { servers := servers
      inFlight := s.inFlight ++ [{
        id := s.nextId
        name := server.name
        probe := servers.mds.isProbing server.name && !s.servers.mds.isProbing server.name }]
      nextId := s.nextId + 1 }

/-- The state after the outcome of `x`; `observeOutcome` ignores an empty name. -/
def feedback (s : SchedulerState) (x : InFlight) (now : Time) (timeout elapsed : Duration)
    (dropped : Bool) (o : ExchangeOutcome) : SchedulerState :=
  { s with
    servers :=
      if x.name = "" then s.servers
      else s.servers.recordOutcome now timeout elapsed dropped x.name o
    inFlight := s.inFlight.filter fun y => decide (y.id ≠ x.id) }

/-- The probes of `name` in flight. -/
def probesTo (s : SchedulerState) (name : String) : List InFlight :=
  s.inFlight.filter fun x => x.probe && decide (x.name = name)

/-- Between `s` and `s'` the open breaker of `name` is closed or re-armed. -/
def Decides (s s' : SchedulerState) (name : String) : Prop :=
  ∃ cb cb', s.servers.mds.circuits name = some cb ∧ cb.open = true ∧
    s'.servers.mds.circuits name = some cb' ∧
    (cb'.open = false ∨ cb'.nextProbeAt ≠ cb.nextProbeAt)

end SchedulerState

def schedulerMachine : Machine SchedulerState SchedulerLabel where
  init s := s.servers.mds.circuits = (fun _ => none) ∧ s.inFlight = []
  step s
    | .select now draw pickDraw => some (s.select now draw pickDraw)
    | .feedback id now timeout elapsed dropped o =>
      (s.inFlight.find? fun x => decide (x.id = id)).map fun x =>
        s.feedback x now timeout elapsed dropped o
    | .publish server => some { s with servers := s.servers.publish server }

/-! ## Drained runs -/

/-- A selection is drained when no exchange is in flight to a resolver whose
probe is due, and, while some probe is out, a live breaker is closed. -/
def Drained (s : SchedulerState) : SchedulerLabel → Prop
  | .select now _ _ =>
    (∀ name, s.servers.ProbeDue now name → ∀ x ∈ s.inFlight, x.name ≠ name) ∧
      ((∃ name, s.servers.mds.isProbing name = true) →
        ∃ name ∈ s.servers.inner.map (·.name), s.servers.mds.isOpen name = false)
  | _ => True

/-- What holds throughout a drained run. -/
structure ProbeDiscipline (s : SchedulerState) : Prop where
  probesOpen : s.servers.mds.ProbesOpen
  /-- a probe in flight is marked -/
  marked : ∀ x ∈ s.inFlight, x.probe = true → s.servers.mds.isProbing x.name = true
  /-- to a resolver being probed, only the probe is in flight -/
  alone : ∀ x ∈ s.inFlight, s.servers.mds.isProbing x.name = true →
    x.probe = true ∧ ∀ y ∈ s.inFlight, y.name = x.name → y.id = x.id
  fresh : ∀ x ∈ s.inFlight, x.id < s.nextId
  nodup : (s.inFlight.map (·.id)).Nodup

namespace ProbeDiscipline

variable {s : SchedulerState}

variable {x : InFlight} {now : Time}

section

variable (h : ProbeDiscipline s)
include h

theorem ids_append (hId : x.id = s.nextId) :
    (∀ y ∈ s.inFlight ++ [x], y.id < s.nextId + 1) ∧
      ((s.inFlight ++ [x]).map InFlight.id).Nodup := by
  constructor
  · intro y hy
    rcases mem_append.mp hy with hy | hy
    · exact Nat.lt_succ_of_lt (h.fresh y hy)
    · rw [mem_singleton.mp hy, hId]
      exact Nat.lt_succ_self _
  · rw [map_append, nodup_append]
    refine ⟨h.nodup, by simp, ?_⟩
    rintro a ha b hb rfl
    obtain ⟨y, hy, rfl⟩ := mem_map.mp ha
    have hEq : y.id = s.nextId := by simpa [hId] using hb
    exact absurd (h.fresh y hy) (by omega)

/-- Dispatching an exchange. If its resolver is being probed then, it is the probe,
and was alone. -/
theorem dispatch {servers : ServersInfo} (hId : x.id = s.nextId) (hOpen : servers.mds.ProbesOpen)
    (hProbing : ∀ m, servers.mds.isProbing m = true ↔
      (x.probe = true ∧ m = x.name) ∨ s.servers.mds.isProbing m = true)
    (hIdle : servers.mds.isProbing x.name = true →
      x.probe = true ∧ ∀ y ∈ s.inFlight, y.name ≠ x.name) :
    ProbeDiscipline { servers, inFlight := s.inFlight ++ [x], nextId := s.nextId + 1 } := by
  refine ⟨hOpen, ?_, ?_, (h.ids_append hId).1, (h.ids_append hId).2⟩
  · intro y hy hP
    rw [hProbing]
    rcases mem_append.mp hy with hy | hy
    · exact .inr (h.marked y hy hP)
    · obtain rfl := mem_singleton.mp hy
      exact .inl ⟨hP, rfl⟩
  · intro y hy hP
    rcases mem_append.mp hy with hy | hy
    · -- an old exchange is to another resolver
      have hNe : y.name ≠ x.name := fun hName => (hIdle (hName ▸ hP)).2 y hy hName
      obtain ⟨hProbe, hOnly⟩ :=
        h.alone y hy (((hProbing _).mp hP).resolve_left fun hx => hNe hx.2)
      refine ⟨hProbe, fun z hz hName => ?_⟩
      rcases mem_append.mp hz with hz | hz
      · exact hOnly z hz hName
      · rw [mem_singleton.mp hz] at hName
        exact absurd hName.symm hNe
    · obtain rfl := mem_singleton.mp hy
      obtain ⟨hProbe, hNone⟩ := hIdle hP
      refine ⟨hProbe, fun z hz hName => ?_⟩
      rcases mem_append.mp hz with hz | hz
      · exact absurd hName (hNone z hz)
      · rw [mem_singleton.mp hz]

theorem select {draw : ℚ} {pickDraw : Nat} (hOk : Drained s (.select now draw pickDraw)) :
    ProbeDiscipline (s.select now draw pickDraw) := by
  obtain ⟨hDrained, hClosed⟩ := hOk
  unfold SchedulerState.select
  generalize hOne : s.servers.getOne now draw pickDraw = one
  obtain ⟨servers, picked⟩ := one
  cases ServersInfo.getOne_picked hOne with
  | idle hSame =>
    subst hSame
    exact h
  | @probe server hDue hMark =>
    have hProbing := isProbing_markProbing hDue.2.2
    have hProbe : (servers.mds.isProbing server.name &&
        !s.servers.mds.isProbing server.name) = true := by
      rw [hMark, not_isProbing_of_ready hDue.2.2]
      simp [hProbing]
    refine h.dispatch rfl (hMark ▸ h.probesOpen.markProbing hDue.2.2) (fun m => ?_)
      fun _ => ⟨hProbe, hDrained server.name hDue⟩
    rw [hProbe, hMark, hProbing]
    simp
  | @other server hLive hCirc hOpen =>
    have hSame : ∀ m, servers.mds.isProbing m = s.servers.mds.isProbing m := fun m => by
      rw [isProbing, isProbing, hCirc]
    refine h.dispatch rfl (fun m cb hCb => h.probesOpen m cb (hCirc ▸ hCb))
      (fun m => by simp [hSame]) fun hP => ?_
    -- a resolver being probed is open, and the selection had a closed one left
    rw [hSame] at hP
    have hServer := h.probesOpen.isOpen hP
    obtain ⟨n, hn, hnClosed⟩ := hClosed ⟨_, hP⟩
    rcases hOpen hServer with hOne | hAll
    · obtain ⟨t, ht⟩ := length_eq_one_iff.mp (by simpa using hOne :
        (s.servers.inner.map (·.name)).length = 1)
      rw [ht, mem_singleton] at hn hLive
      rw [hn, ← hLive, hServer] at hnClosed
      cases hnClosed
    · rw [hAll n hn] at hnClosed
      cases hnClosed

theorem feedback (hx : x ∈ s.inFlight)
    {timeout elapsed : Duration} {dropped : Bool} {o : ExchangeOutcome} :
    ProbeDiscipline (s.feedback x now timeout elapsed dropped o) := by
  have hSub : ∀ y ∈ s.inFlight.filter fun y => decide (y.id ≠ x.id),
      y ∈ s.inFlight ∧ y.id ≠ x.id := by
    intro y hy
    obtain ⟨hy, hNe⟩ := mem_filter.mp hy
    exact ⟨hy, of_decide_eq_true hNe⟩
  have hNodup : ((s.inFlight.filter fun y => decide (y.id ≠ x.id)).map (·.id)).Nodup :=
    h.nodup.sublist (filter_sublist.map _)
  unfold SchedulerState.feedback
  by_cases hEmpty : x.name = ""
  · rw [if_pos hEmpty]
    exact ⟨h.probesOpen, fun y hy => h.marked y (hSub y hy).1,
      fun y hy hP => ⟨(h.alone y (hSub y hy).1 hP).1,
        fun z hz => (h.alone y (hSub y hy).1 hP).2 z (hSub z hz).1⟩,
      fun y hy => h.fresh y (hSub y hy).1, hNodup⟩
  · rw [if_neg hEmpty]
    obtain ⟨total, hMds⟩ := s.servers.recordOutcome_mds now timeout elapsed dropped x.name o
    have hProbing : ∀ m,
        (s.servers.recordOutcome now timeout elapsed dropped x.name o).mds.isProbing m = true ↔
          m ≠ x.name ∧ s.servers.mds.isProbing m = true := by
      intro m
      rw [hMds]
      exact isProbing_observeFeedbackLocked h.probesOpen o total m
    refine ⟨hMds ▸ h.probesOpen.observeFeedbackLocked o total, ?_, ?_,
      fun y hy => h.fresh y (hSub y hy).1, hNodup⟩
    · -- a probe that is still out is to another resolver: `x` would be a second exchange
      intro y hy hP
      obtain ⟨hy, hNe⟩ := hSub y hy
      have hMarked := h.marked y hy hP
      refine (hProbing _).mpr ⟨fun hName => ?_, hMarked⟩
      exact hNe ((h.alone y hy hMarked).2 x hx hName.symm).symm
    · intro y hy hP
      obtain ⟨hProbe, hOnly⟩ := h.alone y (hSub y hy).1 ((hProbing _).mp hP).2
      exact ⟨hProbe, fun z hz => hOnly z (hSub z hz).1⟩

theorem publish (server : ServerInfo) :
    ProbeDiscipline { s with servers := s.servers.publish server } :=
  ⟨h.probesOpen, h.marked, h.alone, h.fresh, h.nodup⟩

end

/-- Every state of a drained run keeps the discipline. -/
theorem of_reach (hs : schedulerMachine.Reach Drained s) : ProbeDiscipline s := by
  refine hs.invariant ?_ ?_
  · rintro s ⟨hCirc, hNone⟩
    refine ⟨fun n cb hCb => by simp [hCirc] at hCb, ?_, ?_, ?_, ?_⟩ <;> simp [hNone]
  · intro s l s' h hOk hNext
    cases l with
    | select now draw pickDraw =>
      obtain rfl : s.select now draw pickDraw = s' := by simpa [schedulerMachine] using hNext
      exact h.select hOk
    | feedback id now timeout elapsed dropped o =>
      simp only [schedulerMachine, map_eq_some_iff] at hNext
      obtain ⟨x, hFind, rfl⟩ := hNext
      exact h.feedback (mem_of_find?_eq_some hFind)
    | publish server =>
      obtain rfl : { s with servers := s.servers.publish server } = s' := by
        simpa [schedulerMachine] using hNext
      exact h.publish server

theorem length_probesTo_le_one (h : ProbeDiscipline s) (name : String) :
    (s.probesTo name).length ≤ 1 := by
  have hNodup : ((s.probesTo name).map (·.id)).Nodup :=
    h.nodup.sublist (filter_sublist.map _)
  have hEq : ∀ x ∈ s.probesTo name, ∀ y ∈ s.probesTo name, y.id = x.id := by
    intro x hx y hy
    simp only [SchedulerState.probesTo, mem_filter, Bool.and_eq_true, decide_eq_true_eq] at hx hy
    obtain ⟨hx, hP, hName⟩ := hx
    exact (h.alone x hx (h.marked x hx hP)).2 y hy.1 (hy.2.2.trans hName.symm)
  generalize s.probesTo name = probes at hNodup hEq
  match probes with
  | [] => simp
  | [_] => simp
  | x :: y :: rest =>
    have := hEq x (by simp) y (by simp)
    simp [this] at hNodup

/-- An outcome that closes or re-arms an open breaker is the probe's own. -/
theorem decided_by_probe (h : ProbeDiscipline s) (hx : x ∈ s.inFlight)
    {timeout elapsed : Duration} {dropped : Bool} {o : ExchangeOutcome} {name : String}
    (hDecided : s.Decides (s.feedback x now timeout elapsed dropped o) name) :
    x.name = name ∧ x.probe = true := by
  obtain ⟨cb, cb', hCb, hOpen, hCb', hChange⟩ := hDecided
  have hSame : s.servers.mds.circuits name ≠
      (s.feedback x now timeout elapsed dropped o).servers.mds.circuits name := by
    intro hEq
    rw [hCb, hCb', some.injEq] at hEq
    rcases hChange with hClosed | hArmed
    · rw [← hEq, hOpen] at hClosed
      cases hClosed
    · exact hArmed (hEq ▸ rfl)
  have hName : x.name = name := by
    by_contra hNe
    refine hSame ?_
    simp only [SchedulerState.feedback]
    split
    · rfl
    · obtain ⟨total, hMds⟩ := s.servers.recordOutcome_mds now timeout elapsed dropped x.name o
      rw [hMds, circuits_observeFeedbackLocked_of_ne (Ne.symm hNe)]
  subst hName
  refine ⟨rfl, ?_⟩
  by_cases hEmpty : x.name = ""
  · exact absurd (by simp [SchedulerState.feedback, hEmpty]) hSame
  · by_cases hP : cb.probing = true
    · exact (h.alone x hx (isProbing_iff.mpr ⟨cb, hCb, hP⟩)).1
    · -- outside a probe the breaker stays as it is
      rw [Bool.not_eq_true] at hP
      obtain ⟨total, hMds⟩ := s.servers.recordOutcome_mds now timeout elapsed dropped x.name o
      simp only [SchedulerState.feedback, if_neg hEmpty, hMds,
        circuits_observeFeedbackLocked_self, circuitFor, hCb,
        getD_some, some.injEq] at hCb'
      obtain ⟨hStays, hTime⟩ := MdsCircuit.observe_of_not_probing s.servers.mds.params now
        o.hardFailure total hP hOpen
      rw [hCb'] at hStays hTime
      rcases hChange with hClosed | hArmed
      · rw [hStays] at hClosed
        cases hClosed
      · exact absurd hTime hArmed

end ProbeDiscipline

/-! ## Results -/

/-- In a drained run each resolver has at most one probe in flight, and the
outcome that closes or re-arms an open breaker is that of its probe. -/
theorem probe_alone_decides {s : SchedulerState} (hs : schedulerMachine.Reach Drained s) :
    (∀ name, (s.probesTo name).length ≤ 1) ∧ ∀ id now timeout elapsed dropped o s',
        schedulerMachine.step s (.feedback id now timeout elapsed dropped o) = some s' →
        ∀ name, s.Decides s' name →
          ∃ x ∈ s.inFlight, x.id = id ∧ x.name = name ∧ x.probe = true := by
  have h := ProbeDiscipline.of_reach hs
  refine ⟨h.length_probesTo_le_one, ?_⟩
  intro id now timeout elapsed dropped o s' hNext name hDecided
  simp only [schedulerMachine, map_eq_some_iff] at hNext
  obtain ⟨x, hFind, rfl⟩ := hNext
  have hx := mem_of_find?_eq_some hFind
  obtain ⟨hName, hProbe⟩ := h.decided_by_probe hx hDecided
  exact ⟨x, hx, by simpa using find?_some hFind, hName, hProbe⟩

/-! ### A run that decides a breaker with a late outcome -/

def idleScheduler : SchedulerState := { servers := twoResolvers, inFlight := [], nextId := 0 }

theorem idleScheduler_init : schedulerMachine.init idleScheduler := ⟨rfl, rfl⟩

/-- The one query to `a` times out and opens the breaker. -/
def openedScheduler : SchedulerState :=
  (idleScheduler.select 0 1 0).feedback ⟨0, "a", false⟩ (5 * Second) (5 * Second) (5 * Second)
    false { ExchangeOutcome.zero with timeout := true }

theorem openedScheduler_reach : schedulerMachine.Reach Drained openedScheduler := by
  have hFirst : schedulerMachine.Reach Drained (idleScheduler.select 0 1 0) :=
    .step (l := .select 0 1 0) (.init idleScheduler_init)
      ⟨fun _ _ _ => nofun, fun _ => ⟨"b", by decide, rfl⟩⟩ rfl
  refine .step (l := .feedback 0 (5 * Second) (5 * Second) (5 * Second) false
    { ExchangeOutcome.zero with timeout := true }) hFirst trivial ?_
  have hFind : ((idleScheduler.select 0 1 0).inFlight.find? fun x => decide (x.id = 0)) =
      some ⟨0, "a", false⟩ := by decide +kernel
  simp only [schedulerMachine, hFind]
  rfl

/-- The probe of `a` goes out 20 s later, with nothing else in flight: its
outcome alone can decide the breaker. -/
theorem probe_alone_decides_reopened :
    ∃ s, schedulerMachine.Reach Drained s ∧ s.inFlight = [⟨1, "a", true⟩] ∧
      (s.probesTo "a").length ≤ 1 ∧
      ∀ id now timeout elapsed dropped o s',
        schedulerMachine.step s (.feedback id now timeout elapsed dropped o) = some s' →
        s.Decides s' "a" → id = 1 := by
  have hIdle : openedScheduler.inFlight = [] := by decide +kernel
  have hReach : schedulerMachine.Reach Drained (openedScheduler.select (25 * Second) 1 0) :=
    .step (l := .select (25 * Second) 1 0) openedScheduler_reach
      ⟨by simp [hIdle], fun _ => ⟨"b", by decide +kernel, by decide +kernel⟩⟩ rfl
  have hFlight : (openedScheduler.select (25 * Second) 1 0).inFlight = [⟨1, "a", true⟩] := by
    decide +kernel
  obtain ⟨hOne, hDecides⟩ := probe_alone_decides hReach
  refine ⟨_, hReach, hFlight, hOne "a", ?_⟩
  intro id now timeout elapsed dropped o s' hNext hDec
  obtain ⟨x, hx, rfl, -⟩ := hDecides id now timeout elapsed dropped o s' hNext "a" hDec
  rw [hFlight, mem_singleton] at hx
  rw [hx]

/-- Two queries go to `a`; the first times out and opens the breaker; 20 s
later a third query becomes the probe. The second is still in flight. -/
def lateRun : List SchedulerLabel :=
  [.select 0 1 0, .select 0 1 0, .feedback 0 (5 * Second) (5 * Second) (5 * Second) false
      { ExchangeOutcome.zero with timeout := true },
    .select (25 * Second) 1 0]

/-- The second exchange answers at last. -/
def lateSuccess : SchedulerLabel :=
  .feedback 1 (26 * Second) (5 * Second) (26 * Second) false .zero

theorem lateRun_isSome : (schedulerMachine.exec idleScheduler lateRun).isSome = true := by
  decide +kernel

/-- The state in which the late outcome arrives. -/
def beforeLateSuccess : SchedulerState :=
  (schedulerMachine.exec idleScheduler lateRun).get lateRun_isSome

/-- The late success of an exchange dispatched before the breaker opened
closes it, with the probe still in flight. -/
theorem late_success_closes_half_open :
    ∃ s s', schedulerMachine.Reach Machine.anyStep s ∧
      schedulerMachine.step s lateSuccess = some s' ∧
      s.inFlight = [⟨1, "a", false⟩, ⟨2, "a", true⟩] ∧
      s.servers.mds.isOpen "a" = true ∧ s'.servers.mds.isOpen "a" = false ∧
      s'.inFlight = [⟨2, "a", true⟩] := by
  refine ⟨beforeLateSuccess, _, Machine.Reach.exec_get (.init idleScheduler_init) lateRun_isSome,
    (some_get (by decide +kernel)).symm, ?_, ?_, ?_, ?_⟩
  · decide +kernel
  · decide +kernel
  · decide +kernel
  · decide +kernel

end DnscryptProxy
