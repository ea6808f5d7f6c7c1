import Mathlib.Data.List.Chain
import Mathlib.Data.List.Perm.Subperm
import Mathlib.Data.List.Nodup

/-!
# Following a chain with a list of the visited elements

`next` says where an element leads, if anywhere. `chase` follows it from an
element until the chain ends or comes back to an element that was visited. The
number bounds the steps; it is never reached if it is larger than the number of
elements that can occur (`chase_ne_runs`). If the chain ends, it visits no
element twice (`nodup_of_ends`).
-/

namespace DnscryptProxy.Base

open List

variable {α : Type*} [DecidableEq α]

/-- How a chain goes on. -/
inductive Chase (α : Type*) where
  | ends
  /-- the element leads back to a visited one -/
  | loops (last : α)
  /-- the steps are used up -/
  | runs
deriving Repr, DecidableEq

def chase (next : α → Option α) : Nat → List α → α → Chase α
  | 0, _, _ => .runs
  | n + 1, visited, a =>
    match next a with
    | none => .ends
    | some b => if b ∈ visited then .loops a else chase next n (b :: visited) b

variable {next : α → Option α}

theorem chase_ne_runs {nodes : List α} (hNodes : ∀ a b, next a = some b → b ∈ nodes) {n : Nat}
    {visited : List α} {a : α} (hNodup : visited.Nodup) (hSub : visited ⊆ nodes)
    (hSteps : nodes.length < n + visited.length) : chase next n visited a ≠ .runs := by
  induction n generalizing visited a with
  | zero =>
    -- there are not that many elements
    have := (subperm_of_subset hNodup hSub).length_le
    omega
  | succ n ih =>
    rw [chase]
    split
    · exact fun h => nomatch h
    · next b hb =>
      split
      · exact fun h => nomatch h
      · next hNew =>
        refine ih (nodup_cons.mpr ⟨hNew, hNodup⟩)
          (cons_subset.mpr ⟨hNodes a b hb, hSub⟩) ?_
        rw [length_cons]
        omega

/-- A chain that ends meets no element twice, and none of those visited before. -/
theorem nodup_of_ends {n : Nat} {visited : List α} {a : α} (h : chase next n visited a = .ends)
    {rest : List α} (hChain : List.IsChain (fun a b => next a = some b) (a :: rest)) :
    rest.Nodup ∧ ∀ b ∈ rest, b ∉ visited := by
  induction n generalizing visited a rest with
  | zero => cases h
  | succ n ih =>
    cases rest with
    | nil => exact ⟨nodup_nil, fun b hb => (not_mem_nil hb).elim⟩
    | cons b rest =>
      obtain ⟨hb, hRest⟩ := isChain_cons_cons.mp hChain
      rw [chase, hb] at h
      dsimp only at h
      split at h
      · cases h
      · next hNew =>
        obtain ⟨hNodup, hNot⟩ := ih h hRest
        refine ⟨nodup_cons.mpr ⟨fun hMem => hNot b hMem mem_cons_self, hNodup⟩, ?_⟩
        intro c hc
        rcases mem_cons.mp hc with rfl | hc
        · exact hNew
        · exact fun hMem => hNot c hc (mem_cons_of_mem _ hMem)

end DnscryptProxy.Base
