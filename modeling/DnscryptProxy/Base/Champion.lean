import Mathlib.Tactic.Linarith

/-!
# The champion of a list

A left fold that keeps one element and replaces it whenever a later one is
better. `better` need not be transitive, so the champion need not be better than
anything but the elements it was compared with.

A banded comparison is such a case: scores decide unless they are within a band
of each other, and inside the band something else does. A champion may then lie
far below the best score, one step inside the band at a time.

* `champion_append_singleton` — an element that beats all earlier ones is the champion;
* `exists_drift` — a champion more than the band below the best score got there
  by a step inside the band, from an element that was not too far below the best
  to one that is.
-/

namespace DnscryptProxy.Base

open List

section Champion

variable {α : Type*} (better : α → α → Bool)

/-- The champion of the elements, against the one that holds the title so far. -/
def champion : Option α → List α → Option α
  | best, [] => best
  | none, s :: rest => champion (some s) rest
  | some b, s :: rest => if better s b then champion (some s) rest else champion (some b) rest

variable {better}

theorem champion_some_cons (b s : α) (rest : List α) :
    champion better (some b) (s :: rest) =
      if better s b then champion better (some s) rest else champion better (some b) rest := rfl

/-- The champion is one of the elements, or held the title before. -/
theorem champion_some_mem {b w : α} {l : List α} (h : champion better (some b) l = some w) :
    w ∈ b :: l := by
  induction l generalizing b with
  | nil =>
    obtain rfl : b = w := Option.some.inj h
    exact mem_cons_self
  | cons s rest ih =>
    rw [champion_some_cons] at h
    split at h
    · exact mem_cons_of_mem b (ih h)
    · rcases mem_cons.mp (ih h) with rfl | h
      · exact mem_cons_self
      · exact mem_cons_of_mem b (mem_cons_of_mem s h)

theorem champion_none_mem {w : α} {l : List α} (h : champion better none l = some w) : w ∈ l := by
  cases l with
  | nil => cases h
  | cons s rest => exact champion_some_mem h

theorem champion_append (best : Option α) (l l' : List α) :
    champion better best (l ++ l') = champion better (champion better best l) l' := by
  induction l generalizing best with
  | nil => rfl
  | cons s rest ih =>
    cases best with
    | none => exact ih (some s)
    | some b =>
      rw [cons_append, champion_some_cons, champion_some_cons]
      split
      · exact ih (some s)
      · exact ih (some b)

theorem champion_append_singleton {l : List α} {s : α} (h : ∀ b ∈ l, better s b = true) :
    champion better none (l ++ [s]) = some s := by
  rw [champion_append]
  cases hBest : champion better none l with
  | none => rfl
  | some b =>
    have hBeats : better s b = true := h b (champion_none_mem hBest)
    rw [champion_some_cons, if_pos hBeats]
    rfl

end Champion

/-! ## Banded comparison -/

section Banded

variable {α K : Type*} [CommRing K] [LinearOrder K] [IsStrictOrderedRing K]

/-- Outside the band the score decides, inside it `prefers` does. -/
def bandBetter (band : K) (score : α → K) (prefers : α → α → Bool) (a b : α) : Bool :=
  if band < |score a - score b| then decide (score b < score a) else prefers a b

variable {band : K} {score : α → K} {prefers : α → α → Bool}

/-- A step down is a step inside the band. -/
theorem sub_le_of_bandBetter {a b : α} (h : bandBetter band score prefers a b = true)
    (hDown : score a < score b) : score b - score a ≤ band := by
  unfold bandBetter at h
  split at h
  · exact absurd (of_decide_eq_true h) (not_lt.mpr hDown.le)
  · next hIn =>
    rw [abs_sub_comm, abs_of_pos (sub_pos.mpr hDown)] at hIn
    exact not_lt.mp hIn

theorem bandBetter_of_lt {a b : α} (hBand : 0 ≤ band) (h : band < score a - score b) :
    bandBetter band score prefers a b = true := by
  unfold bandBetter
  rw [if_pos (h.trans_le (le_abs_self _))]
  exact decide_eq_true (sub_pos.mp (hBand.trans_lt h))

/-- A preferred element wins, unless it is too far below. -/
theorem bandBetter_of_prefers {a b : α} (hBand : 0 ≤ band) (hNear : score b - score a ≤ band)
    (h : prefers a b = true) : bandBetter band score prefers a b = true := by
  by_cases hUp : band < score a - score b
  · exact bandBetter_of_lt hBand hUp
  · have hIn : |score a - score b| ≤ band := by
      rw [abs_le]
      constructor <;> linarith
    unfold bandBetter
    rw [if_neg (not_lt.mpr hIn)]
    exact h

/-- From above `bound` to below it there is a step inside the band. -/
theorem exists_step_below {b w : α} {l : List α} {bound : K} (hb : bound ≤ score b)
    (h : champion (bandBetter band score prefers) (some b) l = some w) (hw : score w < bound) :
    ∃ inside ∈ b :: l, ∃ below ∈ b :: l, bound ≤ score inside ∧ score below < bound ∧
      score inside - score below ≤ band := by
  induction l generalizing b with
  | nil =>
    obtain rfl : b = w := Option.some.inj h
    exact absurd hb (not_le.mpr hw)
  | cons s rest ih =>
    rw [champion_some_cons] at h
    split at h
    · next hBetter =>
      by_cases hs : bound ≤ score s
      · obtain ⟨inside, hIn, below, hBelow, hFacts⟩ := ih hs h
        exact ⟨inside, mem_cons_of_mem b hIn, below, mem_cons_of_mem b hBelow, hFacts⟩
      · have hs : score s < bound := not_le.mp hs
        exact ⟨b, mem_cons_self, s, mem_cons_of_mem b mem_cons_self, hb, hs,
          sub_le_of_bandBetter hBetter (hs.trans_le hb)⟩
    · obtain ⟨inside, hIn, below, hBelow, hFacts⟩ := ih hb h
      have hSub : b :: rest ⊆ b :: s :: rest :=
        cons_subset_cons b (subset_cons_self s rest)
      exact ⟨inside, hSub hIn, below, hSub hBelow, hFacts⟩

theorem exists_drift {best w : α} {l : List α} (hBand : 0 ≤ band) (hBest : best ∈ l)
    (h : champion (bandBetter band score prefers) none l = some w)
    (hw : score w < score best - band) :
    ∃ inside ∈ l, ∃ below ∈ l, score best - band ≤ score inside ∧
      score below < score best - band ∧ score inside - score below ≤ band := by
  -- when `best` is reached, either the title is held from above the bound, or `best` takes it
  obtain ⟨before, after, rfl⟩ := append_of_mem hBest
  have hTitle : ∃ b ∈ before ++ best :: after, score best - band ≤ score b ∧
      champion (bandBetter band score prefers) (some b) after = some w := by
    rw [champion_append] at h
    cases hChampion : champion (bandBetter band score prefers) none before with
    | none =>
      rw [hChampion] at h
      exact ⟨best, mem_append_right _ mem_cons_self, by linarith, h⟩
    | some b =>
      rw [hChampion, champion_some_cons] at h
      split at h
      · exact ⟨best, mem_append_right _ mem_cons_self, by linarith, h⟩
      · next hNot =>
        refine ⟨b, mem_append_left _ (champion_none_mem hChampion), ?_, h⟩
        by_contra hLow
        exact hNot (bandBetter_of_lt hBand (by linarith))
  obtain ⟨b, hb, hAbove, hRest⟩ := hTitle
  obtain ⟨inside, hIn, below, hBelow, hFacts⟩ := exists_step_below hAbove hRest hw
  have hSub : ∀ x ∈ b :: after, x ∈ before ++ best :: after := by
    intro x hx
    rcases mem_cons.mp hx with rfl | hx
    · exact hb
    · exact mem_append_right before (mem_cons_of_mem best hx)
  exact ⟨inside, hSub _ hIn, below, hSub _ hBelow, hFacts⟩

end Banded

end DnscryptProxy.Base
