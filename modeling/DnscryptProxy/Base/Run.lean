import Mathlib.Tactic.Common

/-!
# Runs of a labelled machine

A machine takes one labelled step at a time; all of its nondeterminism sits
in the label, so `step` is a function and a step that is not enabled is
`none`. Safety results about a program are stated over `Reach ok`: the
states of every run whose steps all meet the condition `ok`. With
`ok = Machine.anyStep` these are all the reachable states.

Main rules:

* `Reach.invariant` — holds initially and kept by every allowed step, so it
  holds in every state reached;
* `Reach.exec` — a concrete list of labels, evaluated, is a run;
* `Reach.of_startAt` — a run can be continued.
-/

namespace DnscryptProxy.Base

open Option

/-- A labelled machine: `step s l` is the state after label `l`, or `none`
when `l` is not enabled in `s`. -/
structure Machine (σ ι : Type*) where
  init : σ → Prop
  step : σ → ι → Option σ

namespace Machine

variable {σ ι : Type*}

/-- No restriction on the steps of a run. -/
def anyStep (_ : σ) (_ : ι) : Prop := True

/-- The states of every run whose steps all meet `ok`. -/
inductive Reach (M : Machine σ ι) (ok : σ → ι → Prop) : σ → Prop where
  | init {s : σ} : M.init s → Reach M ok s
  | step {s s' : σ} {l : ι} : Reach M ok s → ok s l → M.step s l = some s' → Reach M ok s'

section Rules

variable {M : Machine σ ι} {ok : σ → ι → Prop} {P : σ → Prop}

theorem Reach.invariant {s : σ} (hs : M.Reach ok s)
    (hInit : ∀ s, M.init s → P s)
    (hStep : ∀ s l s', P s → ok s l → M.step s l = some s' → P s') : P s := by
  induction hs with
  | init h => exact hInit _ h
  | step _ hOk hNext ih => exact hStep _ _ _ ih hOk hNext

end Rules

/-- The same machine, started in `s`. -/
def startAt (M : Machine σ ι) (s : σ) : Machine σ ι := { M with init := (· = s) }

@[simp] theorem startAt_step (M : Machine σ ι) (s : σ) : (M.startAt s).step = M.step := rfl

theorem Reach.of_startAt {M : Machine σ ι} {ok : σ → ι → Prop} {s s' : σ} (hs : M.Reach ok s)
    (h : (M.startAt s).Reach ok s') : M.Reach ok s' := by
  refine h.invariant (P := M.Reach ok) ?_ ?_
  · rintro t rfl
    exact hs
  · intro t l t' ih hOk hNext
    exact .step ih hOk hNext

/-- Evaluate a list of labels from `s`. -/
def exec (M : Machine σ ι) : σ → List ι → Option σ
  | s, [] => some s
  | s, l :: ls => (M.step s l).bind fun s' => M.exec s' ls

theorem Reach.exec {M : Machine σ ι} {ok : σ → ι → Prop} {ls : List ι}
    (hOk : ∀ l ∈ ls, ∀ s, ok s l) :
    ∀ {s s' : σ}, M.Reach ok s → M.exec s ls = some s' → M.Reach ok s' := by
  induction ls with
  | nil =>
    intro s s' hs h
    rw [Machine.exec, some.injEq] at h
    exact h ▸ hs
  | cons l ls ih =>
    intro s s' hs h
    rw [Machine.exec, bind_eq_some_iff] at h
    obtain ⟨t, hNext, hRest⟩ := h
    have hHead : ok s l := hOk l List.mem_cons_self s
    exact ih (fun l' hl' => hOk l' (List.mem_cons_of_mem l hl')) (.step hs hHead hNext) hRest

/-- The state a list of labels evaluates to is reached. -/
theorem Reach.exec_get {M : Machine σ ι} {ls : List ι} {s : σ} (hs : M.Reach anyStep s)
    (h : (M.exec s ls).isSome = true) : M.Reach anyStep ((M.exec s ls).get h) :=
  hs.exec (fun _ _ _ => trivial) (some_get h).symm

end Machine

end DnscryptProxy.Base
