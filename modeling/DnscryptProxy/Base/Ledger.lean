import DnscryptProxy.Base.Maps
import Mathlib.Data.List.Nodup
import Mathlib.Data.List.Perm.Basic

/-!
# Who owns what

A ledger of resources, numbered in the order of their creation. A resource can be
with a holder, in the pool under some key, or closed; the books are in order if
every resource is in exactly one place, and pooled at most once and under the key
it was made for. `Move` lists the ways in which resources change places. A program
that pools resources keeps order if each of its steps is such a move.

* `WellOwned.relocate` — one resource goes to another place, all others stay;
* `WellOwned.move` — every move keeps the books in order.
-/

namespace DnscryptProxy.Base

open Function List

/-- The books: what each holder `κ` has, what is pooled under each key `α`, what is
closed, and the key each resource was made for. -/
structure Ledger (κ α : Type*) where
  held : κ → Option Nat
  pooled : α → List Nat
  closed : Nat → Bool
  home : Nat → α
  next : Nat

/-- Where a resource can be. -/
inductive Place (κ α : Type*) where
  | held (c : κ)
  | pooled (a : α)
  | closed
deriving DecidableEq

namespace Ledger

variable {κ α : Type*}

/-- Books without an entry. -/
def empty (home : Nat → α) : Ledger κ α :=
  { held := fun _ => none, pooled := fun _ => [], closed := fun _ => false, home, next := 0 }

/-- Resource `k` is at place `p`. -/
def At (l : Ledger κ α) (k : Nat) : Place κ α → Prop
  | .held c => l.held c = some k
  | .pooled a => k ∈ l.pooled a
  | .closed => l.closed k = true

/-- Resource `k` is at `p` and nowhere else. -/
def OnlyAt (l : Ledger κ α) (k : Nat) (p : Place κ α) : Prop := ∀ q, l.At k q ↔ q = p

/-- The books are in order. -/
structure WellOwned (l : Ledger κ α) : Prop where
  placed : ∀ k < l.next, ∃ p, l.OnlyAt k p
  fresh : ∀ k p, l.At k p → k < l.next
  home : ∀ a k, k ∈ l.pooled a → l.home k = a
  nodup : ∀ a, (l.pooled a).Nodup

namespace WellOwned

variable {l l' : Ledger κ α}

theorem empty (home : Nat → α) : (Ledger.empty home : Ledger κ α).WellOwned where
  placed k h := absurd h (Nat.not_lt_zero k)
  fresh k p h := by cases p <;> cases h
  home a k h := by cases h
  nodup a := nodup_nil

/-- A resource found at a place is nowhere else. -/
theorem onlyAt (h : l.WellOwned) {k : Nat} {p : Place κ α} (hp : l.At k p) : l.OnlyAt k p := by
  obtain ⟨q, hq⟩ := h.placed k (h.fresh k p hp)
  obtain rfl : p = q := (hq p).mp hp
  exact hq

theorem relocate (h : l.WellOwned) {k : Nat} {p : Place κ α}
    (hAt : ∀ m q, l'.At m q ↔ if m = k then q = p else l.At m q) (hNext : l.next ≤ l'.next)
    (hNew : k < l'.next ∧ ∀ m < l'.next, m ≠ k → m < l.next)
    (hHome : ∀ m, m ≠ k → l'.home m = l.home m)
    (hPooled : ∀ a, p = .pooled a → l'.home k = a) (hNodup : ∀ a, (l'.pooled a).Nodup) :
    l'.WellOwned where
  placed m hm := by
    by_cases hk : m = k
    · exact ⟨p, fun r => by rw [hAt, if_pos hk]⟩
    · obtain ⟨q, hq⟩ := h.placed m (hNew.2 m hm hk)
      exact ⟨q, fun r => by rw [hAt, if_neg hk, hq]⟩
  fresh m q hm := by
    by_cases hk : m = k
    · exact hk ▸ hNew.1
    · rw [hAt, if_neg hk] at hm
      exact Nat.lt_of_lt_of_le (h.fresh m q hm) hNext
  home a m hm := by
    rw [show m ∈ l'.pooled a ↔ _ from hAt m (.pooled a)] at hm
    by_cases hk : m = k
    · rw [if_pos hk] at hm
      exact hk ▸ hPooled a hm.symm
    · rw [if_neg hk] at hm
      exact (hHome m hk).trans (h.home a m hm)
  nodup := hNodup

/-- A place that `k` neither leaves nor comes to. -/
theorem at_iff_of_not {k : Nat} {p q : Place κ α} (hk : ¬l.At k q) (hNe : q ≠ p) {m : Nat} :
    l.At m q ↔ if m = k then q = p else l.At m q := by
  split
  · next hm => exact iff_of_false (hm ▸ hk) hNe
  · exact Iff.rfl

/-- Pooled resources are closed: those in `gone`. -/
theorem purge (h : l.WellOwned) {pooled' gone : α → List Nat} {closed' : Nat → Bool}
    (hSplit : ∀ a, (pooled' a ++ gone a).Perm (l.pooled a))
    (hClosed : ∀ k, closed' k = true ↔ l.closed k = true ∨ ∃ a, k ∈ gone a) :
    WellOwned { l with pooled := pooled', closed := closed' } := by
  have hMem : ∀ a k, k ∈ pooled' a ∨ k ∈ gone a ↔ l.At k (.pooled a) := by
    intro a k
    rw [← mem_append]
    exact (hSplit a).mem_iff
  have hNodup : ∀ a, (pooled' a ++ gone a).Nodup := fun a => (hSplit a).nodup_iff.mpr (h.nodup a)
  constructor
  · intro k hk
    obtain ⟨p, hp⟩ := h.placed k hk
    -- what is gone was pooled, and is closed now; what is not stays where it is
    by_cases hGone : ∃ a, k ∈ gone a
    · obtain ⟨a, ha⟩ := hGone
      obtain rfl : p = .pooled a := ((hp _).mp ((hMem a k).mp (.inr ha))).symm
      refine ⟨.closed, fun q => ?_⟩
      cases q with
      | held c' => exact iff_of_false (fun hk => by cases (hp (.held c')).mp hk) (by simp)
      | pooled b =>
        refine iff_of_false (fun hk => ?_) (by simp)
        obtain rfl : b = a := Place.pooled.inj ((hp (.pooled b)).mp ((hMem b k).mp (.inl hk)))
        exact disjoint_of_nodup_append (hNodup b) hk ha
      | closed => exact iff_of_true ((hClosed k).mpr (.inr ⟨a, ha⟩)) rfl
    · refine ⟨p, fun q => ?_⟩
      rw [← hp q]
      cases q with
      | held c' => exact Iff.rfl
      | pooled b =>
        rw [← hMem b k]
        exact (or_iff_left fun hk => hGone ⟨b, hk⟩).symm
      | closed =>
        show closed' k = true ↔ l.closed k = true
        rw [hClosed k]
        exact or_iff_left hGone
  · intro k p hk
    cases p with
    | held c' => exact h.fresh k (.held c') hk
    | pooled b => exact h.fresh k (.pooled b) ((hMem b k).mp (.inl hk))
    | closed =>
      rcases (hClosed k).mp hk with hk | ⟨a, ha⟩
      · exact h.fresh k .closed hk
      · exact h.fresh k (.pooled a) ((hMem a k).mp (.inr ha))
  · intro a k hk
    exact h.home a k ((hMem a k).mp (.inl hk))
  · intro a
    exact (hNodup a).of_append_left

end WellOwned

/-! ## Moves -/

variable [DecidableEq κ]

namespace WellOwned

variable {l l' : Ledger κ α} {c : κ} {k : Nat}

/-- A free holder gets what nobody has. -/
theorem held_iff_of_get (hc : l.held c = none) (hk : ∀ c', l.held c' ≠ some k) {m : Nat} {c' : κ} :
    update l.held c (some k) c' = some m ↔
      if m = k then Place.held (α := α) c' = .held c else l.held c' = some m := by
  rw [update_some_eq_some, Place.held.injEq]
  split
  · next hm =>
    subst hm
    simp [hk]
  · next hm =>
    refine ⟨fun h => (h.resolve_left fun h => hm h.2.symm).2, fun h => .inr ⟨?_, h⟩⟩
    rintro rfl
    exact absurd (hc.symm.trans h) nofun

/-- A holder gives away what it alone has. -/
theorem held_iff_of_give (h : l.WellOwned) (hc : l.held c = some k) {p : Place κ α} {m : Nat}
    {c' : κ} (hp : .held c' ≠ p) : update l.held c none c' = some m ↔
      if m = k then .held c' = p else l.held c' = some m := by
  rw [update_none_eq_some]
  split
  · next hm =>
    subst hm
    refine iff_of_false (fun h' => h'.1 ?_) hp
    exact Place.held.inj ((h.onlyAt (p := .held c) hc (.held c')).mp h'.2)
  · next hm =>
    refine and_iff_right_of_imp ?_
    rintro h' rfl
    exact hm (Option.some.inj (h'.symm.trans hc))

theorem create (h : l.WellOwned) (hc : l.held c = none) (a : α) :
    WellOwned { l with
      held := update l.held c (some l.next)
      home := update l.home l.next a
      next := l.next + 1 } := by
  -- a number not given out yet is nowhere
  have hFresh : ∀ p, ¬l.At l.next p := fun p hp => absurd (h.fresh _ p hp) (Nat.lt_irrefl _)
  refine h.relocate (k := l.next) (p := .held c) (fun m q => ?_) (Nat.le_succ _)
    ⟨Nat.lt_succ_self _, fun m hm hNe => Nat.lt_of_le_of_ne (Nat.le_of_lt_succ hm) hNe⟩
    (fun m hNe => update_of_ne hNe _ _) nofun h.nodup
  cases q with
  | held c' => exact held_iff_of_get hc fun d => hFresh (.held d)
  | pooled b => exact at_iff_of_not (hFresh (.pooled b)) (by simp)
  | closed => exact at_iff_of_not (hFresh .closed) (by simp)

theorem close (h : l.WellOwned) (hc : l.held c = some k) :
    WellOwned { l with
      held := update l.held c none
      closed := update l.closed k true } := by
  have hOnly : l.OnlyAt k (.held c) := h.onlyAt (p := .held c) hc
  refine h.relocate (k := k) (p := .closed) (fun m q => ?_) (Nat.le_refl _)
    ⟨h.fresh k (.held c) hc, fun m hm _ => hm⟩ (fun _ _ => rfl) nofun h.nodup
  cases q with
  | held c' => exact h.held_iff_of_give hc (by simp)
  | pooled b => exact at_iff_of_not (mt (hOnly (.pooled b)).mp (by simp)) (by simp)
  | closed =>
    show update l.closed k true m = true ↔ if m = k then _ else l.closed m = true
    by_cases hm : m = k
    · simp [hm]
    · simp [hm]

end WellOwned

variable [DecidableEq α]

/-- The ways in which resources change places. -/
inductive Move (l : Ledger κ α) : Ledger κ α → Prop where
  | stay : Move l l
  /-- a holder creates a resource for key `a` -/
  | create (c : κ) (a : α) : l.held c = none → Move l { l with
        held := update l.held c (some l.next)
        home := update l.home l.next a
        next := l.next + 1 }
  /-- a holder takes the last resource under a key -/
  | take (c : κ) (a : α) (rest : List Nat) (k : Nat) : l.held c = none → l.pooled a = rest ++ [k] →
      Move l { l with
        held := update l.held c (some k)
        pooled := update l.pooled a rest }
  /-- a holder puts its resource back -/
  | store (c : κ) (k : Nat) : l.held c = some k → Move l { l with
        held := update l.held c none
        pooled := update l.pooled (l.home k) (l.pooled (l.home k) ++ [k]) }
  /-- a holder closes its resource -/
  | close (c : κ) (k : Nat) : l.held c = some k → Move l { l with
        held := update l.held c none
        closed := update l.closed k true }
  /-- pooled resources are closed: those in `gone` -/
  | purge (pooled' gone : α → List Nat) (closed' : Nat → Bool) :
      (∀ a, (pooled' a ++ gone a).Perm (l.pooled a)) →
      (∀ k, closed' k = true ↔ l.closed k = true ∨ ∃ a, k ∈ gone a) →
      Move l { l with pooled := pooled', closed := closed' }

namespace WellOwned

variable {l l' : Ledger κ α} {c : κ} {k : Nat}

theorem take (h : l.WellOwned) (hc : l.held c = none) {a : α} {rest : List Nat}
    (hPooled : l.pooled a = rest ++ [k]) :
    WellOwned { l with
      held := update l.held c (some k)
      pooled := update l.pooled a rest } := by
  have hMem : l.At k (.pooled a) := by
    show k ∈ l.pooled a
    rw [hPooled]
    exact mem_append_right rest mem_cons_self
  have hOnly := h.onlyAt hMem
  have hNodup : (rest ++ [k]).Nodup := hPooled ▸ h.nodup a
  have hOut : k ∉ rest := fun hk =>
    disjoint_of_nodup_append hNodup hk mem_cons_self
  refine h.relocate (k := k) (p := .held c) (fun m q => ?_) (Nat.le_refl _)
    ⟨h.fresh k _ hMem, fun m hm _ => hm⟩ (fun _ _ => rfl) nofun ?_
  · cases q with
    | held c' => exact held_iff_of_get hc fun d hd => nomatch (hOnly (.held d)).mp hd
    | pooled b =>
      show m ∈ update l.pooled a rest b ↔ if m = k then Place.pooled b = .held c else m ∈ l.pooled b
      by_cases hb : b = a
      · subst hb
        rw [update_self, hPooled]
        split <;> simp_all
      · rw [update_of_ne hb]
        exact at_iff_of_not (mt (hOnly (.pooled b)).mp (by simpa using hb)) (by simp)
    | closed => exact at_iff_of_not (mt (hOnly .closed).mp (by simp)) (by simp)
  · exact (forall_update_iff l.pooled fun _ ks => ks.Nodup).mpr
      ⟨hNodup.of_append_left, fun b _ => h.nodup b⟩

theorem store (h : l.WellOwned) (hc : l.held c = some k) :
    WellOwned { l with
      held := update l.held c none
      pooled := update l.pooled (l.home k) (l.pooled (l.home k) ++ [k]) } := by
  have hOnly : l.OnlyAt k (.held c) := h.onlyAt (p := .held c) hc
  have hOut : ∀ b, k ∉ l.pooled b := fun b hk => nomatch (hOnly (.pooled b)).mp hk
  refine h.relocate (k := k) (p := .pooled (l.home k)) (fun m q => ?_) (Nat.le_refl _)
    ⟨h.fresh k (.held c) hc, fun m hm _ => hm⟩ (fun _ _ => rfl) (fun _ => Place.pooled.inj) ?_
  · cases q with
    | held c' => exact h.held_iff_of_give hc (by simp)
    | pooled b =>
      by_cases hb : b = l.home k
      · subst hb
        show m ∈ update l.pooled (l.home k) (l.pooled (l.home k) ++ [k]) (l.home k) ↔
          if m = k then _ else m ∈ l.pooled (l.home k)
        rw [update_self]
        split <;> simp_all
      · show m ∈ update l.pooled (l.home k) _ b ↔ _
        rw [update_of_ne hb]
        exact at_iff_of_not (q := .pooled b) (hOut b) (by simpa using hb)
    | closed => exact at_iff_of_not (mt (hOnly .closed).mp (by simp)) (by simp)
  · have hNodup : (l.pooled (l.home k) ++ [k]).Nodup :=
      (h.nodup _).append (nodup_singleton k) (by simpa using hOut _)
    exact (forall_update_iff l.pooled fun _ ks => ks.Nodup).mpr
      ⟨hNodup, fun b _ => h.nodup b⟩

theorem move (h : l.WellOwned) (hMove : l.Move l') : l'.WellOwned := by
  cases hMove with
  | stay => exact h
  | create c a hc => exact h.create hc a
  | take c a rest k hc hPooled => exact h.take hc hPooled
  | store c k hc => exact h.store hc
  | close c k hc => exact h.close hc
  | purge pooled' gone closed' hSplit hClosed => exact h.purge hSplit hClosed

end WellOwned

end Ledger

end DnscryptProxy.Base
