import DnscryptProxy.Base.Maps
import DnscryptProxy.Base.Objects
import DnscryptProxy.Base.Run
import DnscryptProxy.Common

/-!
# Hot reloading through a staging area

The list plugins reload their rules in the same way: `PrepareReload` reads the
file twice, creates the structures of a new rule set in staging fields of the
plugin, and adds the rules line by line; `ApplyReload` makes the staged rule
set the active one. Only the last step takes a lock. The SIGHUP handler and the
file watcher call `Reload` from goroutines of their own, and the staging fields
are the same for both.

`RulePlugin` says what a plugin does differently: the structures of its rule
set, what a line adds, which steps run under the lock. A step of the machine is
one access to what the goroutines share.

* `reload_complete` — while no two calls overlap, the active rule set, and the
  one any query is being evaluated against, is the complete load of one version
  of the file;
* `reload_commit_only` — and only the commit of `ApplyReload` changes it.
-/

namespace DnscryptProxy

open Base Function Option List

/-- A plugin with reloadable rules. A rule set has a structure of type
`Part i` for every field `i`. -/
structure RulePlugin (ι : Type) (Part : ι → Type) (Line : Type) where
  /-- the fields, in the order `PrepareReload` creates the structures -/
  fields : List ι
  complete : ∀ i, i ∈ fields
  fresh : (i : ι) → Part i
  /-- the rules of a file -/
  lines : Bytes → List Line
  /-- the structure a rule goes to; a rule with an error is only logged -/
  target : Line → Option ι
  add : Line → (i : ι) → Part i → Part i
  /-- adding to the structure makes a new one, and leaves the old one alone -/
  persistent : ι → Bool
  /-- a rule for a structure that is nil is skipped, not a panic -/
  skipsNil : ι → Bool
  /-- `PrepareReload` fails when there is no active rule set -/
  needsActive : Bool
  /-- `Eval` holds the read lock until it is done -/
  evalHoldsLock : Bool
  /-- `ApplyReload` clears the staging fields before it releases the lock -/
  clearsUnderLock : Bool

namespace RulePlugin

variable {ι : Type} {Part : ι → Type} {Line : Type} [DecidableEq ι] (P : RulePlugin ι Part Line)

/-- What one rule does to the structure `i`. -/
def addTo (i : ι) (part : Part i) (line : Line) : Part i :=
  if P.target line = some i then P.add line i part else part

/-- The structure `i` after the rules `done`. -/
def partAfter (done : List Line) (i : ι) : Part i := done.foldl (P.addTo i) (P.fresh i)

/-- The complete load of one version of the file. -/
def load (content : Bytes) (i : ι) : Part i := P.partAfter (P.lines content) i

theorem partAfter_concat (done : List Line) (line : Line) (i : ι) :
    P.partAfter (done ++ [line]) i = P.addTo i (P.partAfter done i) line := by
  rw [partAfter, foldl_append]
  rfl

end RulePlugin

/-! ## The machine -/

/-- Where a `Reload` call is. -/
inductive ReloadPhase (ι Line : Type) where
  /-- before the first read of `SafeReadTextFile` -/
  | reading
  | rereading (content : Bytes)
  /-- the staging fields in `todo` are still to be set -/
  | creating (content : Bytes) (todo : List ι)
  /-- the loader works on the structures it was given -/
  | loading (content : Bytes) (args : ι → Option Nat) (rest : List Line)
  /-- before the test of `ApplyReload` -/
  | checking
  /-- waiting for the write lock -/
  | committing
  | clearing

structure ReloadState (ι : Type) (Part : ι → Type) (Line : Type) where
  objects : (i : ι) → List (Part i)
  staging : ι → Option Nat
  active : ι → Option Nat
  /-- the evaluations under way, with the rule set each of them uses -/
  evals : List (Nat × (ι → Option Nat))
  /-- the `Reload` calls under way -/
  calls : Nat → Option (ReloadPhase ι Line)
  /-- what `Init` and the calls have read from the file so far -/
  versions : List Bytes

inductive ReloadOp where
  | begin (call : Nat)
  /-- the two reads of `SafeReadTextFile` -/
  | read (call : Nat) (result : Except GoError Bytes)
  | reread (call : Nat) (result : Except GoError Bytes)
  /-- the next staging field is set to a new structure -/
  | create (call : Nat)
  /-- the staging fields become the arguments of the loader -/
  | take (call : Nat)
  | addLine (call : Nat)
  | finish (call : Nat)
  | check (call : Nat)
  | commit (call : Nat)
  | clear (call : Nat)
  | startEval (eval : Nat)
  | endEval (eval : Nat)

/-- The step of `ApplyReload` that publishes. -/
def ReloadOp.isCommit : ReloadOp → Bool
  | .commit _ => true
  | _ => false

namespace ReloadState

variable {ι : Type} {Part : ι → Type} {Line : Type} [DecidableEq ι]

variable (s : ReloadState ι Part Line)

def goto (call : Nat) (phase : ReloadPhase ι Line) : ReloadState ι Part Line :=
  { s with calls := update s.calls call (some phase) }

/-- The call returns. -/
def leave (call : Nat) : ReloadState ι Part Line :=
  { s with calls := update s.calls call none }

def cancelReload : ReloadState ι Part Line :=
  { s with staging := fun _ => none }

/-- A new structure, behind the staging field `i`. -/
def createStaged (i : ι) (part : Part i) : ReloadState ι Part Line :=
  { s with
    objects := update s.objects i (s.objects i ++ [part])
    staging := update s.staging i (some (s.objects i).length) }

variable (P : RulePlugin ι Part Line) (s : ReloadState ι Part Line)

/-- The next rule. -/
def addRule (call : Nat) (content : Bytes) (args : ι → Option Nat) (line : Line)
    (rest : List Line) : Option (ReloadState ι Part Line) :=
  match P.target line with
  | none => some (s.goto call (.loading content args rest))
  | some i =>
    match args i with
    | none => if P.skipsNil i then some (s.goto call (.loading content args rest)) else none
    | some p =>
      if P.persistent i then
        ((s.objects i)[p]?).map fun part =>
          { s with
            objects := update s.objects i (s.objects i ++ [P.add line i part]) }.goto call
            (.loading content (update args i (some (s.objects i).length)) rest)
      else
        some ({ s with
          objects := update s.objects i ((s.objects i).modify p (P.add line i)) }.goto call
            (.loading content args rest))

/-- `PrepareReload` after `SafeReadTextFile`. -/
def prepare (call : Nat) (content : Bytes) : ReloadState ι Part Line :=
  let s := { s with versions := content :: s.versions }
  if P.needsActive && P.fields.any fun i => (s.active i).isNone then (s.cancelReload).leave call
  else s.goto call (.creating content P.fields)

/-- `ApplyReload` under the write lock. -/
def publish (call : Nat) : ReloadState ι Part Line :=
  let s := { s with active := s.staging }
  if P.clearsUnderLock then (s.cancelReload).leave call else s.goto call .clearing

def step : ReloadOp → Option (ReloadState ι Part Line)
  | .begin call => if (s.calls call).isNone then some (s.goto call .reading) else none
  | .read call result =>
    match s.calls call with
    | some .reading =>
      match result with
      | .ok content => some (s.goto call (.rereading content))
      | .error _ => some (s.cancelReload.leave call)
    | _ => none
  | .reread call result =>
    match s.calls call with
    | some (.rereading content) =>
      match result with
      | .ok content' =>
        -- the file appears to be changing
        if content ≠ content' then some (s.cancelReload.leave call)
        else some (s.prepare P call content)
      | .error _ => some (s.cancelReload.leave call)
    | _ => none
  | .create call =>
    match s.calls call with
    | some (.creating content (i :: todo)) =>
      some ((s.createStaged i (P.fresh i)).goto call (.creating content todo))
    | _ => none
  | .take call =>
    match s.calls call with
    | some (.creating content []) =>
      some (s.goto call (.loading content s.staging (P.lines content)))
    | _ => none
  | .addLine call =>
    match s.calls call with
    | some (.loading content args (line :: rest)) => s.addRule P call content args line rest
    | _ => none
  | .finish call =>
    match s.calls call with
    | some (.loading _ args []) =>
      -- a persistent structure is stored back
      some ({ s with staging := fun i => if P.persistent i then args i else s.staging i }.goto call
        .checking)
    | _ => none
  | .check call =>
    match s.calls call with
    | some .checking =>
      if P.fields.all fun i => (s.staging i).isSome then some (s.goto call .committing)
      else some (s.leave call)
    | _ => none
  | .commit call =>
    match s.calls call with
    | some .committing =>
      if P.evalHoldsLock && !s.evals.isEmpty then none else some (s.publish P call)
    | _ => none
  | .clear call =>
    match s.calls call with
    | some .clearing => some (s.cancelReload.leave call)
    | _ => none
  | .startEval eval =>
    if s.evals.any fun e => decide (e.1 = eval) then none
    else some { s with evals := (eval, s.active) :: s.evals }
  | .endEval eval => some { s with evals := s.evals.filter fun e => decide (e.1 ≠ eval) }

/-- The rule set behind the pointers `view`. -/
def rules (view : ι → Option Nat) (i : ι) : Option (Part i) :=
  (view i).bind fun p => (s.objects i)[p]?

/-- A rule set in use: the active one, or that of an evaluation. -/
def InUse (view : ι → Option Nat) : Prop := view = s.active ∨ ∃ eval, (eval, view) ∈ s.evals

end ReloadState

section Machine

variable {ι : Type} {Part : ι → Type} {Line : Type} [DecidableEq ι]

/-- `Init` has loaded the file; no `Reload` has begun. -/
def reloadMachine (P : RulePlugin ι Part Line) :
    Machine (ReloadState ι Part Line) ReloadOp where
  init s := (∃ content ∈ s.versions, ∀ i, Reads (s.objects i) (s.active i) (P.load content i)) ∧
    s.evals = [] ∧ s.calls = fun _ => none
  step := ReloadState.step P

/-- No `Reload` begins while another one is under way. -/
def NoOverlap (s : ReloadState ι Part Line) : ReloadOp → Prop
  | .begin _ => ∀ call, s.calls call = none
  | _ => True

/-! ## Steps -/

variable {P : RulePlugin ι Part Line} {s s' : ReloadState ι Part Line} {op : ReloadOp}
  {call : Nat} {content : Bytes}

/-- What a step can do. A panic of the loader ends the process: there is no
step. -/
inductive ReloadStep (P : RulePlugin ι Part Line) (s : ReloadState ι Part Line) :
    ReloadOp → ReloadState ι Part Line → Prop where
  | begin {call : Nat} : ReloadStep P s (.begin call) (s.goto call .reading)
  | read {call : Nat} {content : Bytes} : s.calls call = some .reading →
      ReloadStep P s (.read call (.ok content)) (s.goto call (.rereading content))
  | fail {op : ReloadOp} {call : Nat} {phase : ReloadPhase ι Line} : op.isCommit = false →
      s.calls call = some phase → ReloadStep P s op (s.cancelReload.leave call)
  | prepare {call : Nat} {content : Bytes} {result : Except GoError Bytes} :
      s.calls call = some (.rereading content) →
      ReloadStep P s (.reread call result) (s.prepare P call content)
  | create {call : Nat} {content : Bytes} {i : ι} {todo : List ι} :
      s.calls call = some (.creating content (i :: todo)) →
      ReloadStep P s (.create call)
        ((s.createStaged i (P.fresh i)).goto call (.creating content todo))
  | take {call : Nat} {content : Bytes} : s.calls call = some (.creating content []) →
      ReloadStep P s (.take call) (s.goto call (.loading content s.staging (P.lines content)))
  | addLine {call : Nat} {content : Bytes} {args : ι → Option Nat} {line : Line}
      {rest : List Line} {s' : ReloadState ι Part Line} :
      s.calls call = some (.loading content args (line :: rest)) →
      s.addRule P call content args line rest = some s' →
      ReloadStep P s (.addLine call) s'
  | finish {call : Nat} {content : Bytes} {args : ι → Option Nat} :
      s.calls call = some (.loading content args []) →
      ReloadStep P s (.finish call)
        ({ s with staging := fun i => if P.persistent i then args i else s.staging i }.goto call
          .checking)
  | checked {call : Nat} : s.calls call = some .checking →
      ReloadStep P s (.check call) (s.goto call .committing)
  | nothingStaged {call : Nat} : s.calls call = some .checking →
      ReloadStep P s (.check call) (s.leave call)
  | commit {call : Nat} : s.calls call = some .committing →
      ReloadStep P s (.commit call) (s.publish P call)
  | startEval {eval : Nat} :
      ReloadStep P s (.startEval eval) { s with evals := (eval, s.active) :: s.evals }
  | endEval {eval : Nat} : ReloadStep P s (.endEval eval)
      { s with evals := s.evals.filter fun e => decide (e.1 ≠ eval) }

theorem reloadStep_of_step (h : s.step P op = some s') : ReloadStep P s op s' := by
  cases op <;> simp only [ReloadState.step] at h
  case begin call =>
    obtain ⟨-, ⟨⟩⟩ := ite_none_right_eq_some.mp h
    exact .begin
  case read call result =>
    split at h
    · next hCall =>
      split at h
      · cases h
        exact .read hCall
      · cases h
        exact .fail rfl hCall
    · cases h
  case reread call result =>
    split at h
    · next hCall =>
      split at h
      · split at h
        · cases h
          exact .fail rfl hCall
        · cases h
          exact .prepare hCall
      · cases h
        exact .fail rfl hCall
    · cases h
  case create call =>
    split at h <;> cases h
    next hCall => exact .create hCall
  case take call =>
    split at h <;> cases h
    next hCall => exact .take hCall
  case addLine call =>
    split at h
    · next hCall => exact .addLine hCall h
    · cases h
  case finish call =>
    split at h <;> cases h
    next hCall => exact .finish hCall
  case check call =>
    split at h
    · next hCall =>
      split at h
      · cases h
        exact .checked hCall
      · cases h
        exact .nothingStaged hCall
    · cases h
  case commit call =>
    split at h
    · next hCall =>
      simp only [ite_none_left_eq_some] at h
      obtain ⟨-, hEq⟩ := h
      cases hEq
      exact .commit hCall
    · cases h
  case clear call =>
    split at h <;> cases h
    next hCall => exact .fail rfl hCall
  case startEval eval =>
    obtain ⟨-, ⟨⟩⟩ := ite_none_left_eq_some.mp h
    exact .startEval
  case endEval eval =>
    cases h
    exact .endEval

/-! ## The invariant -/

namespace ReloadState

variable {args : ι → Option Nat}

/-- The structure `i` behind `ptr` is `part`, and no rule set in use has it. -/
def Private (s : ReloadState ι Part Line) (i : ι) (ptr : Option Nat) (part : Part i) : Prop :=
  Reads (s.objects i) ptr part ∧ ∀ view, s.InUse view → view i ≠ ptr

/-- What the single call under way has built so far. -/
def Built (P : RulePlugin ι Part Line) (s : ReloadState ι Part Line) : ReloadPhase ι Line → Prop
  | .reading => True
  | .rereading _ => True
  | .creating content todo =>
    content ∈ s.versions ∧ ∀ i, i ∉ todo → s.Private i (s.staging i) (P.fresh i)
  | .loading content args rest =>
    content ∈ s.versions ∧ ∃ done, P.lines content = done ++ rest ∧
      ∀ i, s.Private i (args i) (P.partAfter done i) ∧
        (P.persistent i = false → s.staging i = args i)
  | .checking =>
    ∃ content ∈ s.versions, ∀ i, Reads (s.objects i) (s.staging i) (P.load content i)
  | .committing =>
    ∃ content ∈ s.versions, ∀ i, Reads (s.objects i) (s.staging i) (P.load content i)
  | .clearing => True

structure Inv (P : RulePlugin ι Part Line) (s : ReloadState ι Part Line) : Prop where
  /-- every rule set in use is the complete load of one version -/
  inUse : ∀ view, s.InUse view →
    ∃ content ∈ s.versions, ∀ i, Reads (s.objects i) (view i) (P.load content i)
  /-- at most one call is under way -/
  single : ∀ call phase, s.calls call = some phase → ∀ call', call' ≠ call → s.calls call' = none
  built : ∀ call phase, s.calls call = some phase → s.Built P phase

/-! ### Structures under construction -/

/-- A new structure changes nothing behind the pointers there are. -/
theorem reads_create {objects : (i : ι) → List (Part i)} {i j : ι} {ptr : Option Nat}
    {part : Part j} (new : Part i) (h : Reads (objects j) ptr part) :
    Reads (update objects i (objects i ++ [new]) j) ptr part := by
  by_cases hEq : j = i
  · subst hEq
    rw [update_self]
    exact h.append new
  · rw [update_of_ne hEq]
    exact h

/-- Adding to one structure in place leaves the others alone. -/
theorem reads_modify {objects : (i : ι) → List (Part i)} {i j : ι} {ptr : Option Nat} {p : Nat}
    {part : Part j} (f : Part i → Part i) (h : Reads (objects j) ptr part)
    (hNe : j = i → ptr ≠ some p) :
    Reads (update objects i ((objects i).modify p f) j) ptr part := by
  by_cases hEq : j = i
  · subst hEq
    rw [update_self]
    exact h.modify_of_ne (hNe rfl)
  · rw [update_of_ne hEq]
    exact h

/-- A new structure is private: no rule set in use can have it. -/
theorem Inv.not_inUse_length (hInv : s.Inv P) (i : ι) :
    ∀ view, s.InUse view → view i ≠ some (s.objects i).length := by
  intro view hView
  obtain ⟨_, -, hReads⟩ := hInv.inUse view hView
  exact (hReads i).ne_length

/-! ### Every step keeps it -/

/-- What a step of the only call has to show. -/
theorem Inv.ofCall {next : Option (ReloadPhase ι Line)}
    (hOnly : ∀ call', call' ≠ call → s.calls call' = none)
    (hCalls : s'.calls = update s.calls call next)
    (hUse : ∀ view, s'.InUse view →
      ∃ content ∈ s'.versions, ∀ i, Reads (s'.objects i) (view i) (P.load content i))
    (hBuilt : ∀ phase, next = some phase → s'.Built P phase) : s'.Inv P := by
  have hOther : ∀ call', call' ≠ call → s'.calls call' = none := by
    intro call' hNe
    rw [hCalls, update_of_ne hNe]
    exact hOnly call' hNe
  have hCall : ∀ call' phase, s'.calls call' = some phase → call' = call := by
    intro call' phase h
    by_contra hNe
    rw [hOther call' hNe] at h
    cases h
  refine ⟨hUse, fun c phase h c' hNe => ?_, fun c phase h => ?_⟩
  · rw [hCall c phase h] at hNe
    exact hOther c' hNe
  · have hEq := hCall c phase h
    subst hEq
    rw [hCalls, update_self] at h
    exact hBuilt phase h

section

variable (hInv : s.Inv P)
include hInv

theorem Inv.prepare {phase : ReloadPhase ι Line}
    (hCall : s.calls call = some phase) (content : Bytes) :
    (s.prepare P call content).Inv P := by
  have hUse : ∀ view, s.InUse view → ∃ c ∈ content :: s.versions,
      ∀ i, Reads (s.objects i) (view i) (P.load c i) := by
    intro view hView
    obtain ⟨c, hc, hReads⟩ := hInv.inUse view hView
    exact ⟨c, mem_cons_of_mem _ hc, hReads⟩
  unfold ReloadState.prepare
  dsimp only
  split
  · exact .ofCall (hInv.single call phase hCall) rfl hUse nofun
  · refine .ofCall (hInv.single call phase hCall) rfl hUse ?_
    rintro _ ⟨⟩
    exact ⟨mem_cons_self, fun i hi => absurd (P.complete i) hi⟩

theorem Inv.create {i : ι} {todo : List ι}
    (hCall : s.calls call = some (.creating content (i :: todo))) :
    ((s.createStaged i (P.fresh i)).goto call (.creating content todo)).Inv P := by
  obtain ⟨hVersion, hDone⟩ := hInv.built call _ hCall
  refine .ofCall (hInv.single call _ hCall) rfl ?_ ?_
  · intro view hView
    obtain ⟨c, hc, hReads⟩ := hInv.inUse view hView
    exact ⟨c, hc, fun j => reads_create (P.fresh i) (hReads j)⟩
  · rintro _ ⟨⟩
    refine ⟨hVersion, fun j hj => ?_⟩
    by_cases hEq : j = i
    · -- the structure just created
      subst hEq
      show Reads (update s.objects j _ j) (update s.staging j _ j) _ ∧
        ∀ view, s.InUse view → view j ≠ update s.staging j _ j
      rw [update_self, update_self]
      exact ⟨Reads.last _ _, hInv.not_inUse_length j⟩
    · obtain ⟨hReads, hPrivate⟩ := hDone j (by simp [hEq, hj])
      show Reads _ (update s.staging i _ j) _ ∧
        ∀ view, s.InUse view → view j ≠ update s.staging i _ j
      rw [update_of_ne hEq]
      exact ⟨reads_create (P.fresh i) hReads, hPrivate⟩

/-- The next rule goes to the structures under construction, and what is in use stays as it
is. -/
theorem addRule_spec {line : Line} {rest : List Line}
    {part : (i : ι) → Part i} (hArgs : ∀ i, s.Private i (args i) (part i))
    (h : s.addRule P call content args line rest = some s') :
    ∃ objects args', s' = ({ s with objects } : ReloadState ι Part Line).goto call
        (.loading content args' rest) ∧
      (∀ view, s.InUse view → ∀ i (used : Part i), Reads (s.objects i) (view i) used →
        Reads (objects i) (view i) used) ∧
      ∀ i, Reads (objects i) (args' i) (P.addTo i (part i) line) ∧
        (∀ view, s.InUse view → view i ≠ args' i) ∧
        (P.persistent i = false → args' i = args i) := by
  unfold addRule at h
  split at h
  · -- a rule with an error adds nothing
    next hTarget =>
    cases h
    refine ⟨s.objects, args, rfl, fun _ _ _ _ hReads => hReads, fun i => ?_⟩
    rw [RulePlugin.addTo, hTarget, if_neg nofun]
    exact ⟨(hArgs i).1, (hArgs i).2, fun _ => rfl⟩
  · next i hTarget =>
    obtain ⟨⟨p, hp, hPart⟩, hPrivate⟩ := hArgs i
    have hSelf : P.addTo i (part i) line = P.add line i (part i) := by
      rw [RulePlugin.addTo, hTarget, if_pos rfl]
    have hOther : ∀ j, j ≠ i → P.addTo j (part j) line = part j := fun j hNe => by
      rw [RulePlugin.addTo, hTarget, if_neg fun hEq => hNe (some.inj hEq).symm]
    simp only [hp] at h
    split at h
    · -- a new version of a persistent structure
      next hPersistent =>
      rw [hPart] at h
      cases h
      refine ⟨_, _, rfl, fun _ _ _ _ hReads => reads_create _ hReads, fun j => ?_⟩
      by_cases hEq : j = i
      · subst hEq
        rw [hSelf, update_self, update_self]
        exact ⟨Reads.last _ _, hInv.not_inUse_length j,
          fun hNot => absurd (hPersistent.symm.trans hNot) nofun⟩
      · rw [hOther j hEq, update_of_ne (f := args) hEq]
        exact ⟨reads_create _ (hArgs j).1, (hArgs j).2, fun _ => rfl⟩
    · -- a structure changed in place, which nobody else can see
      cases h
      refine ⟨_, args, rfl, fun view hView j _ hReads => reads_modify _ hReads ?_, fun j => ?_⟩
      · rintro rfl
        exact hp ▸ hPrivate view hView
      · by_cases hEq : j = i
        · subst hEq
          rw [hSelf, update_self, hp]
          exact ⟨Reads.modify_self hPart, hp ▸ hPrivate, fun _ => rfl⟩
        · rw [hOther j hEq]
          exact ⟨reads_modify _ (hArgs j).1 fun h => absurd h hEq, (hArgs j).2, fun _ => rfl⟩

theorem Inv.addLine {line : Line} {rest : List Line}
    (hCall : s.calls call = some (.loading content args (line :: rest)))
    (h : s.addRule P call content args line rest = some s') : s'.Inv P := by
  obtain ⟨hVersion, done, hLines, hLoaded⟩ := hInv.built call _ hCall
  obtain ⟨objects, args', rfl, hUse, hAdded⟩ := addRule_spec hInv (fun i => (hLoaded i).1) h
  refine .ofCall (hInv.single call _ hCall) rfl ?_ ?_
  · intro view hView
    obtain ⟨c, hc, hReads⟩ := hInv.inUse view hView
    exact ⟨c, hc, fun i => hUse view hView i _ (hReads i)⟩
  · rintro _ ⟨⟩
    refine ⟨hVersion, done ++ [line], ?_, fun i => ?_⟩
    · rw [hLines, append_assoc]
      rfl
    · obtain ⟨hReads, hPrivate, hSame⟩ := hAdded i
      rw [P.partAfter_concat]
      exact ⟨⟨hReads, hPrivate⟩, fun hPers => ((hLoaded i).2 hPers).trans (hSame hPers).symm⟩

theorem Inv.finish (hCall : s.calls call = some (.loading content args [])) :
    ({ s with staging := fun i => if P.persistent i then args i else s.staging i }.goto call
      .checking).Inv P := by
  obtain ⟨hVersion, done, hLines, hLoaded⟩ := hInv.built call _ hCall
  refine .ofCall (hInv.single call _ hCall) rfl hInv.inUse ?_
  rintro _ ⟨⟩
  refine ⟨content, hVersion, fun i => ?_⟩
  have hStaged : (if P.persistent i then args i else s.staging i) = args i := by
    split
    · rfl
    · next hPers => exact (hLoaded i).2 (by simpa using hPers)
  show Reads (s.objects i) (if P.persistent i then args i else s.staging i) _
  rw [hStaged, RulePlugin.load, hLines, append_nil]
  exact (hLoaded i).1.1

theorem Inv.publish (hCall : s.calls call = some .committing) :
    (s.publish P call).Inv P := by
  obtain ⟨content, hVersion, hStaged⟩ := hInv.built call _ hCall
  have hUse : ∀ view, view = s.staging ∨ (∃ eval, (eval, view) ∈ s.evals) →
      ∃ c ∈ s.versions, ∀ i, Reads (s.objects i) (view i) (P.load c i) := by
    rintro view (rfl | hEval)
    · exact ⟨content, hVersion, hStaged⟩
    · exact hInv.inUse view (.inr hEval)
  unfold ReloadState.publish
  split
  · exact .ofCall (hInv.single call _ hCall) rfl hUse nofun
  · refine .ofCall (hInv.single call _ hCall) rfl hUse ?_
    rintro _ ⟨⟩
    trivial

/-- Fewer rule sets in use, and nothing else changed. -/
theorem Inv.ofEvals {evals : List (Nat × (ι → Option Nat))}
    (hUse : ∀ view, ({ s with evals } : ReloadState ι Part Line).InUse view → s.InUse view) :
    ({ s with evals } : ReloadState ι Part Line).Inv P := by
  refine ⟨fun view h => hInv.inUse view (hUse view h), hInv.single, fun c phase hCall => ?_⟩
  have hBuilt := hInv.built c phase hCall
  cases phase with
  | reading => trivial
  | rereading _ => trivial
  | creating content todo =>
    exact ⟨hBuilt.1, fun i hi =>
      ⟨(hBuilt.2 i hi).1, fun view h => (hBuilt.2 i hi).2 view (hUse view h)⟩⟩
  | loading content args rest =>
    obtain ⟨hVersion, done, hLines, hLoaded⟩ := hBuilt
    exact ⟨hVersion, done, hLines, fun i =>
      ⟨⟨(hLoaded i).1.1, fun view h => (hLoaded i).1.2 view (hUse view h)⟩, (hLoaded i).2⟩⟩
  | checking => exact hBuilt
  | committing => exact hBuilt
  | clearing => trivial

theorem Inv.step (hOk : NoOverlap s op) (h : ReloadStep P s op s') :
    s'.Inv P := by
  cases h with
  | begin =>
    refine .ofCall (fun c _ => hOk c) rfl hInv.inUse ?_
    rintro _ ⟨⟩
    trivial
  | read hCall =>
    refine .ofCall (hInv.single _ _ hCall) rfl hInv.inUse ?_
    rintro _ ⟨⟩
    trivial
  | fail _ hCall => exact .ofCall (hInv.single _ _ hCall) rfl hInv.inUse nofun
  | prepare hCall => exact hInv.prepare hCall _
  | create hCall => exact hInv.create hCall
  | take hCall =>
    obtain ⟨hVersion, hDone⟩ := hInv.built _ _ hCall
    refine .ofCall (hInv.single _ _ hCall) rfl hInv.inUse ?_
    rintro _ ⟨⟩
    exact ⟨hVersion, [], rfl, fun i => ⟨hDone i not_mem_nil, fun _ => rfl⟩⟩
  | addLine hCall hRule => exact hInv.addLine hCall hRule
  | finish hCall => exact hInv.finish hCall
  | checked hCall =>
    refine .ofCall (hInv.single _ _ hCall) rfl hInv.inUse ?_
    rintro _ ⟨⟩
    exact hInv.built _ _ hCall
  | nothingStaged hCall => exact .ofCall (hInv.single _ _ hCall) rfl hInv.inUse nofun
  | commit hCall => exact hInv.publish hCall
  | startEval =>
    refine hInv.ofEvals ?_
    rintro view (rfl | ⟨eval, hMem⟩)
    · exact .inl rfl
    · rcases mem_cons.mp hMem with hEq | hOld
      · exact .inl (Prod.mk.inj hEq).2
      · exact .inr ⟨eval, hOld⟩
  | endEval =>
    refine hInv.ofEvals ?_
    rintro view (rfl | ⟨eval, hMem⟩)
    · exact .inl rfl
    · exact .inr ⟨eval, (mem_filter.mp hMem).1⟩

end

theorem Inv.of_reach (hs : (reloadMachine P).Reach NoOverlap s) : s.Inv P := by
  refine hs.invariant (P := fun s => s.Inv P) ?_ ?_
  · rintro s ⟨hActive, hEvals, hCalls⟩
    refine ⟨?_, fun c phase h => ?_, fun c phase h => ?_⟩
    · rintro view (rfl | ⟨eval, hMem⟩)
      · exact hActive
      · rw [hEvals] at hMem
        cases hMem
    · rw [hCalls] at h
      cases h
    · rw [hCalls] at h
      cases h
  · intro s op s' hInv hOk hNext
    exact hInv.step hOk (reloadStep_of_step hNext)

/-- A step that is not the commit leaves the active rule set alone. -/
theorem Inv.keepsActive (hInv : s.Inv P) (h : ReloadStep P s op s') (hOp : op.isCommit = false) :
    s'.active = s.active ∧ ∀ i (part : Part i), Reads (s.objects i) (s.active i) part →
      Reads (s'.objects i) (s.active i) part := by
  cases h with
  | prepare _ =>
    unfold ReloadState.prepare
    dsimp only
    split
    · exact ⟨rfl, fun _ _ h => h⟩
    · exact ⟨rfl, fun _ _ h => h⟩
  | create _ => exact ⟨rfl, fun _ _ h => reads_create _ h⟩
  | addLine hCall hRule =>
    obtain ⟨-, done, -, hLoaded⟩ := hInv.built _ _ hCall
    obtain ⟨objects, args', rfl, hUse, -⟩ := addRule_spec hInv (fun i => (hLoaded i).1) hRule
    exact ⟨rfl, hUse s.active (.inl rfl)⟩
  | commit _ => cases hOp
  | _ => exact ⟨rfl, fun _ _ h => h⟩

theorem reload_complete (hs : (reloadMachine P).Reach NoOverlap s) {view : ι → Option Nat}
    (hView : s.InUse view) :
    ∃ content ∈ s.versions, ∀ i, s.rules view i = some (P.load content i) := by
  obtain ⟨content, hVersion, hReads⟩ := (Inv.of_reach hs).inUse view hView
  exact ⟨content, hVersion, fun i => (hReads i).bind_eq⟩

theorem reload_commit_only (hs : (reloadMachine P).Reach NoOverlap s)
    (hNext : (reloadMachine P).step s op = some s') (hOp : op.isCommit = false) :
    s'.rules s'.active = s.rules s.active := by
  have hInv := Inv.of_reach hs
  obtain ⟨content, -, hReads⟩ := hInv.inUse s.active (.inl rfl)
  obtain ⟨hActive, hKeeps⟩ := hInv.keepsActive (reloadStep_of_step hNext) hOp
  funext i
  have hBefore : s.rules s.active i = some (P.load content i) := (hReads i).bind_eq
  have hAfter : s'.rules s.active i = some (P.load content i) := (hKeeps i _ (hReads i)).bind_eq
  rw [hActive, hBefore, hAfter]

end ReloadState

end Machine

end DnscryptProxy
