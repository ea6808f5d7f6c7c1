import DnscryptProxy.Base.Maps
import DnscryptProxy.Base.Run
import DnscryptProxy.Common
import Mathlib.Tactic.Linarith

/-!
# The gate before ODoH key refreshes

`beginODoHRefresh`, `endODoHRefresh` and `cancelODoHRefresh` of `serversInfo.go`:
at most one refresh per server at a time, and none for a while after a failed one.
Each runs under `odohRefreshMu`, but `beginODoHRefresh` reads the clock before it
takes the lock, so a call takes two steps. Any number of callers use the gate, each
at most one claim at a time; only the holder of a claim ends or cancels it.

* `GateInv` — who holds a claim is in flight, nobody else does, and the cooldown
  state is that of the calls so far;
* `exec_filter` — a run without the calls for all other names gives the same
  answers for the one that is left;
* `refresh_gate` — the guarantees of the gate, over all interleavings.
-/

namespace DnscryptProxy

open Base List Function Option Machine

/-! ## The gate -/

/-- `odohRefreshInFlight` and `odohLastFailureAt`. -/
structure OdohGate where
  inFlight : String → Bool
  lastFailureAt : String → Option Time

namespace OdohGate

/-- Both maps are nil. -/
def new : OdohGate := { inFlight := fun _ => false, lastFailureAt := fun _ => none }

variable (g : OdohGate) (name : String)

/-- The previous attempt failed less than `failureCooldown` before `now`. -/
def coolingDown (failureCooldown : Duration) (now : Time) : Bool :=
  (g.lastFailureAt name).any fun last => decide (now - last < failureCooldown)

/-- `beginODoHRefresh`, which has read the clock at `now`. -/
def beginODoHRefresh (failureCooldown : Duration) (now : Time) : OdohGate × Bool :=
  if g.inFlight name then (g, false)
  else if g.coolingDown name failureCooldown now then (g, false)
  else ({ g with inFlight := update g.inFlight name true }, true)

/-- `endODoHRefresh`; it reads the clock under the lock. -/
def endODoHRefresh (success : Bool) (now : Time) : OdohGate :=
  { inFlight := update g.inFlight name false
    lastFailureAt := update g.lastFailureAt name (if success then none else some now) }

def cancelODoHRefresh : OdohGate :=
  { g with inFlight := update g.inFlight name false }

end OdohGate

/-! ## The machine -/

/-- What became of a call. -/
inductive GateAnswer where
  | granted (failureCooldown : Duration)
  | refused (failureCooldown : Duration)
  | failed
  | succeeded
  | canceled
deriving Repr, DecidableEq

structure GateEvent where
  name : String
  answer : GateAnswer
  /-- when the critical section ran -/
  time : Time
deriving Repr, DecidableEq

inductive GateCaller where
  | idle
  /-- in `beginODoHRefresh`, before the lock -/
  | calling (name : String) (failureCooldown : Duration) (now : Time)
  /-- the claim was granted, with this failure on record -/
  | holding (name : String) (lastFailure : Option Time)
deriving Repr, DecidableEq

structure GateState where
  gate : OdohGate
  clock : Time
  callers : Nat → GateCaller
  /-- the calls so far, the most recent one first -/
  log : List GateEvent

/-- Time passes, or caller `c` does something about `name`. -/
inductive GateOp where
  | tick (now : Time)
  /-- call `beginODoHRefresh` and read the clock -/
  | call (c : Nat) (name : String) (failureCooldown : Duration)
  /-- the critical section of `beginODoHRefresh` -/
  | enter (c : Nat) (name : String)
  /-- `endODoHRefresh` -/
  | finish (c : Nat) (name : String) (success : Bool)
  /-- `cancelODoHRefresh` -/
  | cancel (c : Nat) (name : String)
deriving Repr, DecidableEq

namespace GateState

variable (s : GateState)

/-- Caller `c` goes on to `a`, having been answered. -/
def answer (c : Nat) (a : GateCaller) (gate : OdohGate) (name : String) (answer : GateAnswer) :
    GateState :=
  { gate := gate
    clock := s.clock
    callers := update s.callers c a
    log := { name, answer, time := s.clock } :: s.log }

def step : GateOp → Option GateState
  | .tick now => if s.clock ≤ now then some { s with clock := now } else none
  | .call c name failureCooldown =>
    if s.callers c = .idle then
      some { s with callers := update s.callers c (.calling name failureCooldown s.clock) }
    else none
  | .enter c name =>
    match s.callers c with
    | .calling name' failureCooldown now =>
      if name' = name then
        match s.gate.beginODoHRefresh name failureCooldown now with
        | (gate, true) =>
          some (s.answer c (.holding name (s.gate.lastFailureAt name)) gate name
            (.granted failureCooldown))
        | (gate, false) => some (s.answer c .idle gate name (.refused failureCooldown))
      else none
    | _ => none
  | .finish c name success =>
    match s.callers c with
    | .holding name' _ =>
      if name' = name then
        some (s.answer c .idle (s.gate.endODoHRefresh name success s.clock) name
          (if success then .succeeded else .failed))
      else none
    | _ => none
  | .cancel c name =>
    match s.callers c with
    | .holding name' _ =>
      if name' = name then
        some (s.answer c .idle (s.gate.cancelODoHRefresh name) name .canceled)
      else none
    | _ => none

end GateState

/-- The gate from `NewServersInfo` on. -/
def gateMachine : Machine GateState GateOp where
  init s := s.gate = .new ∧ (∀ c, s.callers c = .idle) ∧ s.log = []
  step := GateState.step

/-- The steps, branch by branch. -/
inductive GateStep (s : GateState) : GateOp → GateState → Prop where
  | tick {now : Time} : s.clock ≤ now → GateStep s (.tick now) { s with clock := now }
  | call {c : Nat} {name : String} {cooldown : Duration} : s.callers c = .idle →
      GateStep s (.call c name cooldown)
        { s with callers := update s.callers c (.calling name cooldown s.clock) }
  | grant {c : Nat} {name : String} {cooldown : Duration} {now : Time} :
      s.callers c = .calling name cooldown now → s.gate.inFlight name = false →
      (∀ last, s.gate.lastFailureAt name = some last → cooldown ≤ now - last) →
      GateStep s (.enter c name)
        (s.answer c (.holding name (s.gate.lastFailureAt name))
          { s.gate with inFlight := update s.gate.inFlight name true } name
          (.granted cooldown))
  | refuse {c : Nat} {name : String} {cooldown : Duration} {now : Time} :
      s.callers c = .calling name cooldown now →
      (s.gate.inFlight name = true ∨ s.gate.coolingDown name cooldown now = true) →
      GateStep s (.enter c name) (s.answer c .idle s.gate name (.refused cooldown))
  | finish {c : Nat} {name : String} {last : Option Time} {success : Bool} :
      s.callers c = .holding name last →
      GateStep s (.finish c name success)
        (s.answer c .idle (s.gate.endODoHRefresh name success s.clock) name
          (if success then .succeeded else .failed))
  | cancel {c : Nat} {name : String} {last : Option Time} : s.callers c = .holding name last →
      GateStep s (.cancel c name)
        (s.answer c .idle (s.gate.cancelODoHRefresh name) name .canceled)

theorem gateStep_of_step {s s' : GateState} {op : GateOp}
    (h : gateMachine.step s op = some s') : GateStep s op s' := by
  change s.step op = some s' at h
  cases op with
  | tick now =>
    simp only [GateState.step, ite_none_right_eq_some, some.injEq] at h
    obtain ⟨hLe, rfl⟩ := h
    exact .tick hLe
  | call c name cooldown =>
    simp only [GateState.step, ite_none_right_eq_some, some.injEq] at h
    obtain ⟨hIdle, rfl⟩ := h
    exact .call hIdle
  | enter c name =>
    simp only [GateState.step] at h
    split at h
    · next name' cooldown now hCalling =>
      obtain ⟨rfl, h⟩ := ite_none_right_eq_some.mp h
      unfold OdohGate.beginODoHRefresh at h
      by_cases hFlight : s.gate.inFlight name' = true
      · rw [if_pos hFlight] at h
        cases h
        exact .refuse hCalling (.inl hFlight)
      · rw [if_neg hFlight] at h
        by_cases hCool : s.gate.coolingDown name' cooldown now = true
        · rw [if_pos hCool] at h
          cases h
          exact .refuse hCalling (.inr hCool)
        · rw [if_neg hCool] at h
          cases h
          refine .grant hCalling (by simpa using hFlight) ?_
          intro last hLast
          simpa [OdohGate.coolingDown, hLast] using hCool
    · cases h
  | finish c name success =>
    simp only [GateState.step] at h
    split at h
    · next name' last hHold =>
      obtain ⟨rfl, ⟨⟩⟩ := ite_none_right_eq_some.mp h
      exact .finish hHold
    · cases h
  | cancel c name =>
    simp only [GateState.step] at h
    split at h
    · next name' last hHold =>
      obtain ⟨rfl, ⟨⟩⟩ := ite_none_right_eq_some.mp h
      exact .cancel hHold
    · cases h

theorem step_of_gateStep {s s' : GateState} {op : GateOp} (h : GateStep s op s') :
    gateMachine.step s op = some s' := by
  change s.step op = some s'
  cases h with
  | tick hLe => exact if_pos hLe
  | call hIdle => exact if_pos hIdle
  | @grant c name cooldown now hCalling hFree hCool =>
    have hCool' : ¬s.gate.coolingDown name cooldown now = true := by
      intro h
      obtain ⟨last, hLast, hLt⟩ := any_eq_true _ _ |>.mp h
      exact absurd (of_decide_eq_true hLt) (not_lt.mpr (hCool last hLast))
    simp only [GateState.step, hCalling, if_true, OdohGate.beginODoHRefresh, hFree,
      Bool.false_eq_true, if_false, if_neg hCool']
  | @refuse c name cooldown now hCalling hWhy =>
    have hBegin : s.gate.beginODoHRefresh name cooldown now = (s.gate, false) := by
      unfold OdohGate.beginODoHRefresh
      rcases hWhy with h | h
      · rw [if_pos h]
      · rw [if_pos h, ite_self]
    simp only [GateState.step, hCalling, if_true, hBegin]
  | finish hHold => simp only [GateState.step, hHold, if_true]
  | cancel hHold => simp only [GateState.step, hHold, if_true]

/-! ## The calls so far -/

/-- The last failure for `name` that no success has cleared. -/
def lastFailureOf (name : String) : List GateEvent → Option Time
  | [] => none
  | e :: earlier =>
    if e.name = name then
      match e.answer with
      | .failed => some e.time
      | .succeeded => none
      | _ => lastFailureOf name earlier
    else lastFailureOf name earlier

/-- A refresh of `name` failed at `t`, and none has succeeded since. -/
def Uncleared (name : String) (t : Time) (log : List GateEvent) : Prop :=
  ∃ since earlier, log = since ++ { name, answer := .failed, time := t } :: earlier ∧
    ∀ e ∈ since, e.name = name → e.answer ≠ .succeeded

/-- The most recent event comes first. -/
def Chronological (log : List GateEvent) : Prop := log.Pairwise fun e e' => e'.time ≤ e.time

/-- A failure that is not cleared is no later than the one on record. -/
theorem exists_lastFailureOf {name : String} {t : Time} {log : List GateEvent}
    (hOrder : Chronological log) (h : Uncleared name t log) :
    ∃ last, lastFailureOf name log = some last ∧ t ≤ last := by
  obtain ⟨since, earlier, rfl, hNone⟩ := h
  induction since with
  | nil => exact ⟨t, by simp [lastFailureOf], le_rfl⟩
  | cons e since ih =>
    have hTail := ih (fun e' he' => hNone e' (mem_cons_of_mem e he'))
      (pairwise_cons.mp hOrder).2
    simp only [cons_append, lastFailureOf]
    split
    · next hName =>
      cases hAnswer : e.answer with
      | failed =>
        refine ⟨e.time, rfl, ?_⟩
        exact (pairwise_cons.mp hOrder).1 { name, answer := .failed, time := t } (by simp)
      | succeeded => exact absurd hAnswer (hNone e mem_cons_self hName)
      | _ => exact hTail
    · exact hTail

/-- Every claim was granted at least its cooldown after each failure not cleared by then. -/
def Throttled (log : List GateEvent) : Prop :=
  ∀ later e earlier cooldown, log = later ++ e :: earlier → e.answer = .granted cooldown →
    ∀ t, Uncleared e.name t earlier → t + cooldown ≤ e.time

theorem Throttled.cons {e : GateEvent} {log : List GateEvent} (h : Throttled log)
    (hNew : ∀ cooldown, e.answer = .granted cooldown → ∀ t, Uncleared e.name t log →
      t + cooldown ≤ e.time) : Throttled (e :: log) := by
  intro later e' earlier cooldown hLog hAnswer t hUncleared
  cases later with
  | nil =>
    obtain ⟨rfl, rfl⟩ := cons.inj hLog
    exact hNew cooldown hAnswer t hUncleared
  | cons e'' later =>
    exact h later e' earlier cooldown (cons.inj hLog).2 hAnswer t hUncleared

/-! ## The invariant -/

structure GateInv (s : GateState) : Prop where
  holder : ∀ c name last, s.callers c = .holding name last →
    s.gate.inFlight name = true ∧ s.gate.lastFailureAt name = last
  unique : ∀ c c' name last last', s.callers c = .holding name last →
    s.callers c' = .holding name last' → c = c'
  /-- the clock was read in the past -/
  sampled : ∀ c name cooldown now, s.callers c = .calling name cooldown now → now ≤ s.clock
  record : ∀ name, s.gate.lastFailureAt name = lastFailureOf name s.log
  past : ∀ e ∈ s.log, e.time ≤ s.clock
  order : Chronological s.log
  throttled : Throttled s.log

namespace GateInv

variable {s s' : GateState}

variable {a : GateCaller} {name : String}

theorem init (h : gateMachine.init s) : GateInv s := by
  obtain ⟨hGate, hIdle, hLog⟩ := h
  constructor
  · intro c name last hHold
    rw [hIdle c] at hHold
    cases hHold
  · intro c c' name last last' hHold
    rw [hIdle c] at hHold
    cases hHold
  · intro c name cooldown now hCalling
    rw [hIdle c] at hCalling
    cases hCalling
  · intro name
    rw [hGate, hLog]
    rfl
  · rw [hLog]
    intro e he
    cases he
  · rw [hLog]
    exact List.Pairwise.nil
  · rw [hLog]
    intro later e earlier cooldown hSplit
    simp at hSplit

/-- What an answer does to the log, given what it says about the failure on record. -/
theorem answered (h : GateInv s) {c : Nat} {gate : OdohGate}
    {ans : GateAnswer} (hCaller : ∀ name cooldown now, a ≠ .calling name cooldown now)
    (hHolder : ∀ c' n last, update s.callers c a c' = .holding n last →
      gate.inFlight n = true ∧ gate.lastFailureAt n = last)
    (hUnique : ∀ c₁ c₂ n last₁ last₂, update s.callers c a c₁ = .holding n last₁ →
      update s.callers c a c₂ = .holding n last₂ → c₁ = c₂)
    (hRecord : ∀ n, gate.lastFailureAt n =
      lastFailureOf n ({ name, answer := ans, time := s.clock } :: s.log))
    (hGrant : ∀ cooldown, ans = .granted cooldown → ∀ t, Uncleared name t s.log →
      t + cooldown ≤ s.clock) :
    GateInv (s.answer c a gate name ans) where
  holder := hHolder
  unique := hUnique
  sampled c' n cooldown now hCalling := by
    rcases update_eq_iff.mp hCalling with ⟨-, hEq⟩ | ⟨-, hOld⟩
    · exact absurd hEq (hCaller n cooldown now)
    · exact h.sampled c' n cooldown now hOld
  record := hRecord
  past e he := by
    rcases mem_cons.mp he with rfl | he
    · exact le_rfl
    · exact h.past e he
  order := pairwise_cons.mpr ⟨h.past, h.order⟩
  throttled := h.throttled.cons hGrant

/-- After a caller has let go of `name`, the claims that are left are those of the others. -/
theorem released (h : GateInv s) {c : Nat} {last : Option Time}
    (hHold : s.callers c = .holding name last) {gate : OdohGate}
    (hFlight : ∀ n, n ≠ name → gate.inFlight n = s.gate.inFlight n)
    (hLast : ∀ n, n ≠ name → gate.lastFailureAt n = s.gate.lastFailureAt n) :
    ∀ c' n last', update s.callers c .idle c' = .holding n last' →
      gate.inFlight n = true ∧ gate.lastFailureAt n = last' := by
  intro c' n last' hHold'
  rcases update_eq_iff.mp hHold' with ⟨-, hEq⟩ | ⟨hNe, hOld⟩
  · cases hEq
  · have hName : n ≠ name := by
      rintro rfl
      exact hNe (h.unique c' c n last' last hOld hHold)
    rw [hFlight n hName, hLast n hName]
    exact h.holder c' n last' hOld

/-- A caller that holds nothing after its step leaves the claims as they are. -/
theorem holder_update (h : GateInv s) (c : Nat) (hNot : ∀ n last, a ≠ .holding n last) :
    ∀ c' n last, update s.callers c a c' = .holding n last →
      s.gate.inFlight n = true ∧ s.gate.lastFailureAt n = last := by
  intro c' n last hHold
  rcases update_eq_iff.mp hHold with ⟨-, hEq⟩ | ⟨-, hOld⟩
  · exact absurd hEq (hNot n last)
  · exact h.holder c' n last hOld

theorem unique_update (h : GateInv s) (c : Nat) (hNot : ∀ n last, a ≠ .holding n last) :
    ∀ c₁ c₂ n last₁ last₂, update s.callers c a c₁ = .holding n last₁ →
      update s.callers c a c₂ = .holding n last₂ → c₁ = c₂ := by
  intro c₁ c₂ n last₁ last₂ h₁ h₂
  rcases update_eq_iff.mp h₁ with ⟨-, hEq⟩ | ⟨-, h₁⟩
  · exact absurd hEq (hNot n last₁)
  · rcases update_eq_iff.mp h₂ with ⟨-, hEq⟩ | ⟨-, h₂⟩
    · exact absurd hEq (hNot n last₂)
    · exact h.unique c₁ c₂ n last₁ last₂ h₁ h₂

/-- A claim is granted that nobody holds, and not within its cooldown. -/
theorem granted (h : GateInv s) {c : Nat} {cooldown : Duration} {now : Time}
    (hCalling : s.callers c = .calling name cooldown now) (hFree : s.gate.inFlight name = false)
    (hCool : ∀ last, s.gate.lastFailureAt name = some last → cooldown ≤ now - last) :
    GateInv (s.answer c (.holding name (s.gate.lastFailureAt name))
      { s.gate with inFlight := update s.gate.inFlight name true } name
      (.granted cooldown)) := by
  -- nobody holds a claim that is not in flight
  have hNobody : ∀ c' last, s.callers c' ≠ .holding name last := by
    intro c' last hHold
    rw [(h.holder c' name last hHold).1] at hFree
    cases hFree
  refine h.answered (by simp) ?_ ?_ ?_ ?_
  · intro c' n last hHold
    rcases update_eq_iff.mp hHold with ⟨-, hEq⟩ | ⟨-, hOld⟩
    · cases hEq
      exact ⟨update_self .., rfl⟩
    · have hName : n ≠ name := by
        rintro rfl
        exact hNobody c' last hOld
      show update s.gate.inFlight name true n = true ∧ s.gate.lastFailureAt n = last
      rw [update_of_ne hName]
      exact h.holder c' n last hOld
  · intro c₁ c₂ n last₁ last₂ h₁ h₂
    rcases update_eq_iff.mp h₁ with ⟨rfl, hEq₁⟩ | ⟨-, h₁⟩
    · cases hEq₁
      rcases update_eq_iff.mp h₂ with ⟨rfl, -⟩ | ⟨-, h₂⟩
      · rfl
      · exact absurd h₂ (hNobody c₂ last₂)
    · rcases update_eq_iff.mp h₂ with ⟨-, hEq₂⟩ | ⟨-, h₂⟩
      · cases hEq₂
        exact absurd h₁ (hNobody c₁ last₁)
      · exact h.unique c₁ c₂ n last₁ last₂ h₁ h₂
  · intro n
    rw [h.record n]
    simp [lastFailureOf]
  · rintro cooldown' ⟨⟩ t hUncleared
    obtain ⟨last, hLast, hLe⟩ := exists_lastFailureOf h.order hUncleared
    have hElapsed := hCool last ((h.record name).trans hLast)
    have hPast := h.sampled c name cooldown now hCalling
    linarith

theorem step {op : GateOp} (h : GateInv s) (hStep : GateStep s op s') : GateInv s' := by
  cases hStep with
  | tick hLe =>
    exact { h with
      sampled := fun c name cooldown now hCalling =>
        (h.sampled c name cooldown now hCalling).trans hLe
      past := fun e he => (h.past e he).trans hLe }
  | @call c name cooldown hIdle =>
    refine { h with
      holder := h.holder_update c (by simp)
      unique := h.unique_update c (by simp)
      sampled := ?_ }
    intro c' n cooldown' now hCalling
    rcases update_eq_iff.mp hCalling with ⟨-, hEq⟩ | ⟨-, hOld⟩
    · cases hEq
      exact le_rfl
    · exact h.sampled c' n cooldown' now hOld
  | @grant c name cooldown now hCalling hFree hCool => exact h.granted hCalling hFree hCool
  | @refuse c name cooldown now hCalling hWhy =>
    refine h.answered (by simp) (h.holder_update c (by simp)) (h.unique_update c (by simp)) ?_
      (by simp)
    intro n
    rw [h.record n]
    simp [lastFailureOf]
  | @finish c name last success hHold =>
    refine h.answered (by simp) ?_ (h.unique_update c (by simp)) ?_ (by cases success <;> simp)
    · exact h.released hHold (fun n hn => update_of_ne hn _ _)
        (fun n hn => update_of_ne hn _ _)
    · intro n
      show update s.gate.lastFailureAt name _ n = _
      by_cases hn : n = name
      · subst hn
        cases success <;> simp [lastFailureOf]
      · have hn' : ¬name = n := fun hEq => hn hEq.symm
        rw [update_of_ne hn, h.record n]
        simp [lastFailureOf, hn']
  | @cancel c name last hHold =>
    refine h.answered (by simp) ?_ (h.unique_update c (by simp)) ?_ (by simp)
    · exact h.released hHold (fun n hn => update_of_ne hn _ _) (fun n _ => rfl)
    · intro n
      rw [show (s.gate.cancelODoHRefresh name).lastFailureAt n = s.gate.lastFailureAt n from rfl,
        h.record n]
      simp [lastFailureOf]

theorem of_reach {ok : GateState → GateOp → Prop} (hs : gateMachine.Reach ok s) : GateInv s :=
  hs.invariant (P := GateInv) (fun _ h => init h) fun _ _ _ ih _ hNext =>
    ih.step (gateStep_of_step hNext)

end GateInv

/-! ## One name at a time -/

/-- The name a caller is busy with. -/
def GateCaller.name : GateCaller → Option String
  | .idle => none
  | .calling name _ _ | .holding name _ => some name

/-- Time, and what is done about `name`. -/
def GateOp.concerns (name : String) : GateOp → Bool
  | .tick _ => true
  | .call _ name' _ | .enter _ name' | .finish _ name' _ | .cancel _ name' => decide (name' = name)

/-- The answers given for `name`. -/
def GateState.answers (s : GateState) (name : String) : List GateEvent :=
  s.log.filter fun e => decide (e.name = name)

/-- `t` is `s` without everything that is about other names than `name`. -/
structure Restricts (name : String) (s t : GateState) : Prop where
  clock : t.clock = s.clock
  inFlight : t.gate.inFlight name = s.gate.inFlight name
  lastFailureAt : t.gate.lastFailureAt name = s.gate.lastFailureAt name
  callers : ∀ c, t.callers c = if (s.callers c).name = some name then s.callers c else .idle
  answers : t.answers name = s.answers name

namespace Restricts

variable {name : String} {s s' t : GateState}

variable {a : GateCaller} {c : Nat}

section

variable (h : Restricts name s t)
include h

theorem callers_update (c : Nat) (ha : a.name = none ∨ a.name = some name) (c' : Nat) :
    update t.callers c a c' = if (update s.callers c a c').name = some name then
        update s.callers c a c'
      else .idle := by
  by_cases hEq : c' = c
  · subst hEq
    rw [update_self, update_self]
    rcases ha with ha | ha
    · cases a <;> simp_all [GateCaller.name]
    · rw [if_pos ha]
  · rw [update_of_ne hEq, update_of_ne hEq]
    exact h.callers c'

/-- The caller of a step about `name` is the same on both sides. -/
theorem caller (hName : (s.callers c).name = some name) :
    t.callers c = s.callers c := by
  rw [h.callers c, if_pos hName]

/-- A caller that is busy with another name, before and after, does not show. -/
theorem callers_other
    (hBefore : (s.callers c).name ≠ some name) (hAfter : a.name ≠ some name) (c' : Nat) :
    t.callers c' = if (update s.callers c a c').name = some name then
        update s.callers c a c'
      else .idle := by
  by_cases hEq : c' = c
  · subst hEq
    rw [update_self, if_neg hAfter, h.callers c', if_neg hBefore]
  · rw [update_of_ne hEq]
    exact h.callers c'

theorem answer_other {gate : OdohGate}
    {m : String} {ans : GateAnswer} (hm : m ≠ name) (hBefore : (s.callers c).name = some m)
    (hAfter : a.name = none ∨ a.name = some m)
    (hFlight : gate.inFlight name = s.gate.inFlight name)
    (hLast : gate.lastFailureAt name = s.gate.lastFailureAt name) :
    Restricts name (s.answer c a gate m ans) t where
  clock := h.clock
  inFlight := h.inFlight.trans hFlight.symm
  lastFailureAt := h.lastFailureAt.trans hLast.symm
  callers := by
    have hm' : ¬some m = some name := fun hEq => hm (some.inj hEq)
    refine h.callers_other (hBefore ▸ hm') ?_
    rcases hAfter with hAfter | hAfter
    · rw [hAfter]
      simp
    · rw [hAfter]
      exact hm'
  answers := by
    show t.answers name = (_ :: s.log).filter _
    rw [filter_cons_of_neg (by simpa using hm)]
    exact h.answers

/-- An answer about `name`, on both sides. -/
theorem answer_same {gate gate' : OdohGate}
    {ans : GateAnswer} (hAfter : a.name = none ∨ a.name = some name)
    (hFlight : gate'.inFlight name = gate.inFlight name)
    (hLast : gate'.lastFailureAt name = gate.lastFailureAt name) :
    Restricts name (s.answer c a gate name ans) (t.answer c a gate' name ans) where
  clock := h.clock
  inFlight := hFlight
  lastFailureAt := hLast
  callers := h.callers_update c hAfter
  answers := by
    show (_ :: t.log).filter _ = (_ :: s.log).filter _
    have hAnswers : t.log.filter _ = s.log.filter _ := h.answers
    rw [h.clock, filter_cons, filter_cons, hAnswers]

theorem skip {op : GateOp} (hStep : GateStep s op s')
    (hOther : op.concerns name = false) : Restricts name s' t := by
  cases hStep with
  | tick => cases hOther
  | @call c m cooldown hIdle =>
    have hm : m ≠ name := of_decide_eq_false hOther
    refine { h with callers := h.callers_other ?_ ?_ }
    · rw [hIdle]
      simp [GateCaller.name]
    · simpa [GateCaller.name] using hm
  | @grant c m cooldown now hCalling hFree hCool =>
    have hm : m ≠ name := of_decide_eq_false hOther
    exact h.answer_other hm (by rw [hCalling]; rfl) (.inr rfl)
      (update_of_ne hm.symm _ _) rfl
  | @refuse c m cooldown now hCalling hWhy =>
    exact h.answer_other (of_decide_eq_false hOther) (by rw [hCalling]; rfl) (.inl rfl) rfl rfl
  | @finish c m last success hHold =>
    have hm : m ≠ name := of_decide_eq_false hOther
    exact h.answer_other hm (by rw [hHold]; rfl) (.inl rfl) (update_of_ne hm.symm _ _)
      (update_of_ne hm.symm _ _)
  | @cancel c m last hHold =>
    have hm : m ≠ name := of_decide_eq_false hOther
    exact h.answer_other hm (by rw [hHold]; rfl) (.inl rfl) (update_of_ne hm.symm _ _)
      rfl

/-- A step about `name` can be taken on both sides. -/
theorem follow {op : GateOp} (hStep : GateStep s op s')
    (hSame : op.concerns name = true) : ∃ t', GateStep t op t' ∧ Restricts name s' t' := by
  have hMark : ∀ b, update t.gate.inFlight name b name = update s.gate.inFlight name b name := by
    simp
  cases hStep with
  | @tick now hLe =>
    exact ⟨_, .tick (h.clock.le.trans hLe), { h with clock := rfl }⟩
  | @call c m cooldown hIdle =>
    obtain rfl : m = name := of_decide_eq_true hSame
    have hIdle' : t.callers c = .idle := by
      rw [h.callers c, hIdle, if_neg (by simp [GateCaller.name])]
    refine ⟨_, .call hIdle', { h with callers := ?_ }⟩
    rw [h.clock]
    exact h.callers_update c (.inr rfl)
  | @grant c m cooldown now hCalling hFree hCool =>
    obtain rfl : m = name := of_decide_eq_true hSame
    have hCalling' := (h.caller (by rw [hCalling]; rfl)).trans hCalling
    refine ⟨_, .grant hCalling' (h.inFlight.trans hFree) ?_, ?_⟩
    · rw [h.lastFailureAt]
      exact hCool
    · rw [h.lastFailureAt]
      exact h.answer_same (.inr rfl) (hMark true) h.lastFailureAt
  | @refuse c m cooldown now hCalling hWhy =>
    obtain rfl : m = name := of_decide_eq_true hSame
    have hCalling' := (h.caller (by rw [hCalling]; rfl)).trans hCalling
    refine ⟨_, .refuse hCalling' ?_, h.answer_same (.inl rfl) h.inFlight h.lastFailureAt⟩
    unfold OdohGate.coolingDown at hWhy ⊢
    rw [h.inFlight, h.lastFailureAt]
    exact hWhy
  | @finish c m last success hHold =>
    obtain rfl : m = name := of_decide_eq_true hSame
    have hHold' := (h.caller (by rw [hHold]; rfl)).trans hHold
    refine ⟨_, .finish hHold', h.answer_same (.inl rfl) (hMark false) ?_⟩
    show update t.gate.lastFailureAt m _ m = update s.gate.lastFailureAt m _ m
    rw [update_self, update_self, h.clock]
  | @cancel c m last hHold =>
    obtain rfl : m = name := of_decide_eq_true hSame
    have hHold' := (h.caller (by rw [hHold]; rfl)).trans hHold
    exact ⟨_, .cancel hHold', h.answer_same (.inl rfl) (hMark false) h.lastFailureAt⟩

theorem exec_filter {ops : List GateOp} (hRun : gateMachine.exec s ops = some s') :
    ∃ t', gateMachine.exec t (ops.filter (·.concerns name)) = some t' ∧ Restricts name s' t' := by
  induction ops generalizing s t with
  | nil =>
    obtain rfl : s = s' := some.inj hRun
    exact ⟨t, rfl, h⟩
  | cons op ops ih =>
    rw [exec, bind_eq_some_iff] at hRun
    obtain ⟨s₁, hFirst, hRest⟩ := hRun
    have hStep := gateStep_of_step hFirst
    by_cases hOp : op.concerns name = true
    · obtain ⟨t₁, hStep', h₁⟩ := h.follow hStep hOp
      obtain ⟨t', hRun', h'⟩ := ih h₁ hRest
      refine ⟨t', ?_, h'⟩
      rw [filter_cons_of_pos hOp, exec, step_of_gateStep hStep']
      exact hRun'
    · rw [filter_cons_of_neg hOp]
      exact ih (h.skip hStep (by simpa using hOp)) hRest

end

end Restricts

/-- The guarantees of the gate, in every interleaving: at most one claim for a name is
out; a claim is granted only its cooldown after a failure that no success has cleared;
a claim that is canceled leaves the failure on record that it found; and the answers
for a name are those of the run without all other names. -/
theorem refresh_gate {s : GateState} (hs : gateMachine.Reach anyStep s) :
    (∀ c c' name last last', s.callers c = .holding name last →
      s.callers c' = .holding name last' → c = c') ∧
    Throttled s.log ∧
    (∀ c name s', gateMachine.step s (.enter c name) = some s' → ∀ last,
      s'.callers c = .holding name last → last = s.gate.lastFailureAt name) ∧
    (∀ c name last s', s.callers c = .holding name last →
      gateMachine.step s (.cancel c name) = some s' → s'.gate.lastFailureAt name = last) ∧
    (∀ s₀ ops, gateMachine.init s₀ → gateMachine.exec s₀ ops = some s → ∀ name,
      ∃ t, gateMachine.exec s₀ (ops.filter (·.concerns name)) = some t ∧
        t.answers name = s.answers name) := by
  have hInv := GateInv.of_reach hs
  refine ⟨hInv.unique, hInv.throttled, ?_, ?_, ?_⟩
  · intro c name s' hStep last hHold
    cases gateStep_of_step hStep with
    | grant =>
      rcases update_eq_iff.mp hHold with ⟨-, hEq⟩ | ⟨hNe, -⟩
      · cases hEq
        rfl
      · exact absurd rfl hNe
    | refuse =>
      rcases update_eq_iff.mp hHold with ⟨-, hEq⟩ | ⟨hNe, -⟩
      · cases hEq
      · exact absurd rfl hNe
  · intro c name last s' hHold hStep
    cases gateStep_of_step hStep with
    | cancel => exact (hInv.holder c name last hHold).2
  · rintro s₀ ops ⟨-, hIdle, -⟩ hRun name
    have hStart : Restricts name s₀ s₀ :=
      { clock := rfl, inFlight := rfl, lastFailureAt := rfl, answers := rfl
        callers := fun c => by rw [hIdle c, ite_self] }
    obtain ⟨t, hRun', h⟩ := hStart.exec_filter hRun
    exact ⟨t, hRun', h.answers⟩

/-- A refresh fails. A call that reads the clock too early is refused, however late it gets
the lock; the next one is granted. -/
def gateRun : List GateOp :=
  [.call 0 "odoh" (10 * Second), .enter 0 "odoh", .tick Second, .finish 0 "odoh" false,
    .call 1 "odoh" (10 * Second), .tick (20 * Second), .enter 1 "odoh",
    .call 1 "odoh" (10 * Second), .enter 1 "odoh"]

/-- The claim that is granted comes ten seconds after the failure, and is the only one. -/
theorem refresh_gate_after_failure :
    ∃ s : GateState, s.log.map (·.answer) =
        [.granted (10 * Second), .refused (10 * Second), .failed, .granted (10 * Second)] ∧
      s.callers 1 = .holding "odoh" (some Second) ∧ Throttled s.log ∧
      ∀ c last, s.callers c = .holding "odoh" last → c = 1 := by
  have hRun : (gateMachine.exec { gate := .new, clock := 0, callers := fun _ => .idle, log := [] }
      gateRun).map (fun s => (s.log.map (·.answer), s.callers 1)) =
      some ([.granted (10 * Second), .refused (10 * Second), .failed, .granted (10 * Second)],
        .holding "odoh" (some Second)) := by decide +kernel
  obtain ⟨s, hs, hEq⟩ := map_eq_some_iff.mp hRun
  obtain ⟨hLog, hHold⟩ := Prod.mk.inj hEq
  have hReach : gateMachine.Reach anyStep s :=
    Machine.Reach.exec (fun _ _ _ => trivial) (.init ⟨rfl, fun _ => rfl, rfl⟩) hs
  obtain ⟨hUnique, hThrottled, -⟩ := refresh_gate hReach
  exact ⟨s, hLog, hHold, hThrottled, fun c last hc => hUnique c 1 "odoh" _ _ hc hHold⟩

end DnscryptProxy
