import Mathlib.Tactic.Common

/-!
# Computations that leave a trace

A computation that may fail and that leaves events behind on its way, also
when it fails. `Meets P Q t` says that every event of `t` satisfies `P` and
that a result of `t` satisfies `Q`. There is one rule for each way to build a
computation; the one for sequences, `Meets.bind`, carries `Q` along.
-/

namespace DnscryptProxy.Base

/-- The events that were left, and a result or an error. -/
structure Traced (ω ε α : Type) where
  events : List ω
  result : Except ε α

namespace Traced

variable {ω ε α β : Type}

/-- Leave an event. -/
def emit (e : ω) : Traced ω ε Unit := { events := [e], result := .ok () }

/-- A result or an error, without an event. -/
def lift (r : Except ε α) : Traced ω ε α := { events := [], result := r }

/-- Fail if there is an error. -/
def check (err : Option ε) : Traced ω ε Unit :=
  match err with
  | none => lift (.ok ())
  | some e => lift (.error e)

/-- Look at the outcome instead of failing with it. -/
def outcome (t : Traced ω ε α) : Traced ω ε (Except ε α) :=
  { events := t.events, result := .ok t.result }

instance : Monad (Traced ω ε) where
  pure a := lift (.ok a)
  bind t f :=
    match t.result with
    | .error e => { events := t.events, result := .error e }
    | .ok a => { events := t.events ++ (f a).events, result := (f a).result }

/-- Every event satisfies `P`, and a result satisfies `Q`. -/
structure Meets (P : ω → Prop) (Q : α → Prop) (t : Traced ω ε α) : Prop where
  events : ∀ e ∈ t.events, P e
  result : ∀ a, t.result = .ok a → Q a

namespace Meets

variable {P : ω → Prop} {Q Q' : α → Prop} {R : β → Prop} {t : Traced ω ε α}

theorem emit {e : ω} (h : P e) : Meets P (fun _ => True) (Traced.emit e : Traced ω ε Unit) where
  events _ hMem := List.mem_singleton.mp hMem ▸ h
  result _ _ := trivial

theorem lift {r : Except ε α} (h : ∀ a, r = .ok a → Q a) : Meets P Q (Traced.lift r) where
  events _ hMem := absurd hMem List.not_mem_nil
  result := h

theorem pure {a : α} (h : Q a) : Meets P Q (Pure.pure a : Traced ω ε α) :=
  lift fun _ hEq => Except.ok.inj hEq ▸ h

theorem throw {e : ε} : Meets P Q (Traced.lift (.error e : Except ε α)) :=
  lift fun _ hEq => nomatch hEq

theorem check {err : Option ε} : Meets P (fun _ => True) (Traced.check err) := by
  cases err <;> exact lift fun _ _ => trivial

/-- The rule for sequences. -/
theorem bind {f : α → Traced ω ε β} (ht : Meets P Q t) (hf : ∀ a, Q a → Meets P R (f a)) :
    Meets P R (t >>= f) := by
  obtain ⟨events, result⟩ := t
  cases result with
  | error e => exact ⟨ht.events, fun _ hEq => nomatch hEq⟩
  | ok a =>
    have hRest : Meets P R (f a) := hf a (ht.result a rfl)
    refine ⟨fun e hMem => ?_, hRest.result⟩
    rcases List.mem_append.mp hMem with hFirst | hLater
    · exact ht.events e hFirst
    · exact hRest.events e hLater

/-- After the outcome of `t` was looked at, nothing but `Q` is known of it. -/
theorem outcome (ht : Meets P Q t) :
    Meets P (fun r => ∀ a, r = .ok a → Q a) t.outcome where
  events := ht.events
  result _ hEq := Except.ok.inj hEq ▸ ht.result

theorem weaken (ht : Meets P Q t) (hQ : ∀ a, Q a → Q' a) : Meets P Q' t :=
  ⟨ht.events, fun a ha => hQ a (ht.result a ha)⟩

end Meets

end Traced

end DnscryptProxy.Base
