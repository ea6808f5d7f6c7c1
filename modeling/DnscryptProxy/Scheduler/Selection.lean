import DnscryptProxy.Scheduler.Mds

/-!
# What one scheduler operation can do

The inversion lemmas of `LBStrategyMDS`. Everything proved about runs of the
scheduler goes through them; no later module unfolds scoring or the breaker.

* `selectCandidateLocked_path` — a selection among two candidates or more takes one
  of six paths; each says why it was taken and what it does to the scheduler;
* `selectCandidateLocked_cases` — a selection either marks the half-open
  probe of the resolver it returns, or leaves every breaker alone; it returns
  a resolver with an open breaker without probing it only if nothing else is
  left;
* `MdsCircuit.observe_probing`, `MdsCircuit.observe_of_not_probing` — an
  outcome ends the probe of a half-open breaker, and otherwise leaves the
  probe bookkeeping of an open one alone;
* `isProbing_markProbing`, `isProbing_observeFeedbackLocked` — which probes
  are in flight after a selection and after an outcome.
-/

namespace DnscryptProxy

open List Option

namespace LBStrategyMDS

variable {mds mds' : LBStrategyMDS} {now : Time}

variable {cs : List ResolverCandidate} {exclude : Option Nat}

/-- The breaker of `name` is open and waits for a probe that is due. -/
def ProbeReady (mds : LBStrategyMDS) (now : Time) (name : String) : Prop :=
  ∃ cb, mds.circuits name = some cb ∧ cb.open = true ∧ cb.probing = false ∧ cb.nextProbeAt ≤ now

theorem isOpen_iff {name : String} :
    mds.isOpen name = true ↔ ∃ cb, mds.circuits name = some cb ∧ cb.open = true := by
  simp [isOpen, Option.any_eq_true]

theorem probeReady_of {name : String} (hOpen : mds.isOpen name = true)
    (hDue : mds.probeDue now name = true) : mds.ProbeReady now name := by
  obtain ⟨cb, hCb, hO⟩ := isOpen_iff.mp hOpen
  refine ⟨cb, hCb, hO, ?_⟩
  simpa [probeDue, hCb] using hDue

/-! ## Scores keep names and breakers -/

theorem scoreAll_getElem? (mds : LBStrategyMDS) (now : Time) (cs : List ResolverCandidate)
    (i : Nat) :
    ∃ best worst, (mds.scoreAll now cs)[i]? =
      cs[i]?.map fun c => normalize best worst (mds.scoreOne now c) := by
  refine ⟨bestTail ((cs.map (mds.scoreOne now)).map (·.tailMs)),
    worstTail ((cs.map (mds.scoreOne now)).map (·.tailMs)), ?_⟩
  simp only [scoreAll, getElem?_map, Option.map_map]
  rfl

/-- A scored entry belongs to the candidate at its index. -/
theorem scoreAll_some {i : Nat} {s : MdsScored} (h : (mds.scoreAll now cs)[i]? = some s) :
    ∃ c, cs[i]? = some c ∧ s.name = c.server.name ∧ s.open = mds.isOpen c.server.name := by
  obtain ⟨best, worst, hEq⟩ := scoreAll_getElem? mds now cs i
  rw [hEq, map_eq_some_iff] at h
  obtain ⟨c, hc, rfl⟩ := h
  exact ⟨c, hc, rfl, rfl⟩

theorem exists_scored_at (mds : LBStrategyMDS) (now : Time) {c : ResolverCandidate}
    {k : Nat} (hc : cs[k]? = some c) :
    ∃ s, (mds.scoreAll now cs)[k]? = some s ∧ s.name = c.server.name ∧
      s.open = mds.isOpen c.server.name := by
  obtain ⟨best, worst, hEq⟩ := scoreAll_getElem? mds now cs k
  rw [hc] at hEq
  exact ⟨_, hEq, rfl, rfl⟩

theorem exists_scored (mds : LBStrategyMDS) (now : Time) {c : ResolverCandidate} (hc : c ∈ cs) :
    ∃ s ∈ mds.scoreAll now cs, s.name = c.server.name ∧ s.open = mds.isOpen c.server.name := by
  obtain ⟨k, hk⟩ := getElem?_of_mem hc
  obtain ⟨s, hs, hEntry⟩ := exists_scored_at mds now hk
  exact ⟨s, mem_of_getElem? hs, hEntry⟩

theorem length_scoreAll (now : Time) (cs : List ResolverCandidate) :
    (mds.scoreAll now cs).length = cs.length := by
  simp [scoreAll]

/-! ## The loops of the selection -/

theorem pickHalfOpenProbeFrom_spec {P : Nat → Time → Prop} :
    ∀ (scored : List MdsScored) (i : Nat) (pick : Option (Nat × Time)),
      (∀ j t, pick = some (j, t) → P j t) →
      (∀ k s, scored[k]? = some s → s.open = true → mds.probeDue now s.name = true →
        P (i + k) ((mds.circuits s.name).getD .zero).openedAt) →
      ∀ j t, mds.pickHalfOpenProbeFrom now i pick scored = some (j, t) → P j t
  | [], _, pick, hPick, _, j, t, h => hPick j t h
  | s :: rest, i, pick, hPick, hAll, j, t, h => by
    -- `P` holds of the pick so far, and each place that may replace it has `P`
    have hRest : ∀ k s', rest[k]? = some s' → s'.open = true → mds.probeDue now s'.name = true →
        P (i + 1 + k) ((mds.circuits s'.name).getD .zero).openedAt := by
      intro k s' hk hO hD
      have := hAll (k + 1) s' (by simpa using hk) hO hD
      rwa [add_assoc, add_comm 1 k]
    rw [pickHalfOpenProbeFrom] at h
    split at h
    · next hDue =>
      rw [Bool.and_eq_true] at hDue
      have hHere := hAll 0 s (by simp) hDue.1 hDue.2
      have hNew : ∀ j' t', some (i, ((mds.circuits s.name).getD .zero).openedAt) = some (j', t') →
          P j' t' := by
        rintro j' t' ⟨⟩
        exact hHere
      split at h
      · exact pickHalfOpenProbeFrom_spec rest _ _ hNew hRest j t h
      · dsimp only at h
        split at h
        · exact pickHalfOpenProbeFrom_spec rest _ _ hNew hRest j t h
        · exact pickHalfOpenProbeFrom_spec rest _ _ hPick hRest j t h
    · exact pickHalfOpenProbeFrom_spec rest _ _ hPick hRest j t h

/-- The resolver picked for a probe has an open breaker and is due. -/
theorem pickHalfOpenProbe_some {scored : List MdsScored} {i : Nat}
    (h : mds.pickHalfOpenProbe now scored = some i) :
    ∃ s, scored[i]? = some s ∧ s.open = true ∧ mds.probeDue now s.name = true := by
  rw [pickHalfOpenProbe, map_eq_some_iff] at h
  obtain ⟨⟨j, t⟩, hPick, rfl⟩ := h
  refine pickHalfOpenProbeFrom_spec (P := fun j _ => ∃ s, scored[j]? = some s ∧ s.open = true ∧
    mds.probeDue now s.name = true) scored 0 none (by simp) ?_ j t hPick
  intro k s hk hO hD
  exact ⟨s, by simpa using hk, hO, hD⟩

theorem bestHealthyFrom_spec {P : Nat → MdsScored → Prop} :
    ∀ (scored : List MdsScored) (i : Nat) (best : Option (Nat × MdsScored)),
      (∀ j s, best = some (j, s) → P j s) →
      (∀ k s, scored[k]? = some s → s.open = false → P (i + k) s) →
      ∀ j s, mds.bestHealthyFrom exclude i best scored = some (j, s) → P j s
  | [], _, _, hBest, _, j, s, h => hBest j s h
  | x :: rest, i, best, hBest, hAll, j, s, h => by
    have hRest : ∀ k s', rest[k]? = some s' → s'.open = false → P (i + 1 + k) s' := by
      intro k s' hk hO
      have := hAll (k + 1) s' (by simpa using hk) hO
      rwa [add_assoc, add_comm 1 k]
    unfold bestHealthyFrom at h
    split at h
    · exact bestHealthyFrom_spec rest _ _ hBest hRest j s h
    · next hIn =>
      rw [not_or, Bool.not_eq_true] at hIn
      have hNew : ∀ j' s', some (i, x) = some (j', s') → P j' s' := by
        rintro j' s' ⟨⟩
        exact hAll 0 x (by simp) hIn.2
      split at h
      · exact bestHealthyFrom_spec rest _ _ hNew hRest j s h
      · split at h
        · exact bestHealthyFrom_spec rest _ _ hNew hRest j s h
        · exact bestHealthyFrom_spec rest _ _ hBest hRest j s h

theorem bestHealthy_some {scored : List MdsScored} {i : Nat} {s : MdsScored}
    (h : mds.bestHealthy scored exclude = some (i, s)) :
    scored[i]? = some s ∧ s.open = false := by
  refine bestHealthyFrom_spec (P := fun j s => scored[j]? = some s ∧ s.open = false)
    scored 0 none (by simp) ?_ i s h
  intro k s hk hO
  exact ⟨by simpa using hk, hO⟩

theorem bestHealthyFrom_ne_none :
    ∀ (scored : List MdsScored) (i : Nat) (b : Nat × MdsScored),
      mds.bestHealthyFrom exclude i (some b) scored ≠ none
  | [], _, _ => by simp [bestHealthyFrom]
  | x :: rest, i, (j, b) => by
    unfold bestHealthyFrom
    split
    · exact bestHealthyFrom_ne_none rest _ _
    · show (if mds.better x b then _ else _) ≠ none
      split
      · exact bestHealthyFrom_ne_none rest _ _
      · exact bestHealthyFrom_ne_none rest _ _

/-- Without a healthy candidate every breaker is open. -/
theorem bestHealthyFrom_none :
    ∀ (scored : List MdsScored) (i : Nat), mds.bestHealthyFrom none i none scored = none →
      ∀ s ∈ scored, s.open = true
  | [], _, _, s, hs => by cases hs
  | x :: rest, i, h, s, hs => by
    unfold bestHealthyFrom at h
    split at h
    · next hOut =>
      have hx : x.open = true := by simpa using hOut
      rcases mem_cons.mp hs with rfl | hs
      · exact hx
      · exact bestHealthyFrom_none rest _ h s hs
    · exact absurd h (bestHealthyFrom_ne_none rest _ _)

theorem bestOfAllFrom_spec (mds : LBStrategyMDS) {P : Nat → MdsScored → Prop} :
    ∀ (scored : List MdsScored) (i : Nat) (best : Nat × MdsScored), P best.1 best.2 →
      (∀ k s, scored[k]? = some s → P (i + k) s) →
      P (mds.bestOfAllFrom i best scored).1 (mds.bestOfAllFrom i best scored).2
  | [], _, _, hBest, _ => hBest
  | x :: rest, i, best, hBest, hAll => by
    have hRest : ∀ k s', rest[k]? = some s' → P (i + 1 + k) s' := by
      intro k s' hk
      have := hAll (k + 1) s' (by simpa using hk)
      rwa [add_assoc, add_comm 1 k]
    rw [bestOfAllFrom]
    split
    · exact bestOfAllFrom_spec mds rest _ _ (hAll 0 x (by simp)) hRest
    · exact bestOfAllFrom_spec mds rest _ _ hBest hRest

/-! ## Transitions of the primary -/

@[simp] theorem becomePrimary_circuits (mds : LBStrategyMDS) (now : Time) (name : String) :
    (mds.becomePrimary now name).circuits = mds.circuits := by
  unfold becomePrimary
  split <;> rfl

@[simp] theorem becomePrimary_params (mds : LBStrategyMDS) (now : Time) (name : String) :
    (mds.becomePrimary now name).params = mds.params := by
  unfold becomePrimary
  split <;> rfl

variable {draw : ℚ} {pickDraw : Nat} {cs : List ResolverCandidate} {i : Nat}

theorem mem_exploreIdxs {scored : List MdsScored} {primary : Option Nat} {k : Nat} :
    k ∈ exploreIdxs scored primary ↔
      ∃ s, scored[k]? = some s ∧ some k ≠ primary ∧ s.open = false := by
  unfold exploreIdxs
  rw [mem_filter, mem_range]
  constructor
  · rintro ⟨hLt, hOk⟩
    rw [getElem?_eq_getElem hLt] at hOk
    refine ⟨scored[k], getElem?_eq_getElem hLt, ?_⟩
    simpa using hOk
  · rintro ⟨s, hs, hNe, hOpen⟩
    refine ⟨(List.getElem?_eq_some_iff.mp hs).1, ?_⟩
    simp [hs, hNe, hOpen]

/-- Exploration picks among its indices, and a warming resolver if one is there. -/
theorem pickExploreTarget_spec {scored : List MdsScored} {primary : Option Nat}
    (h : pickExploreTarget scored primary pickDraw = some i) :
    i ∈ exploreIdxs scored primary ∧
      ((∃ k ∈ exploreIdxs scored primary, scored[k]?.any (·.warming) = true) →
        scored[i]?.any (·.warming) = true) := by
  unfold pickExploreTarget at h
  dsimp only at h
  generalize hWarm : (exploreIdxs scored primary).filter
    (fun k => scored[k]?.any (·.warming)) = warming at h
  have hMem : ∀ k, k ∈ warming ↔
      k ∈ exploreIdxs scored primary ∧ scored[k]?.any (·.warming) = true := by
    intro k
    rw [← hWarm, mem_filter]
  by_cases hSome : warming.length > 0
  · rw [if_pos hSome, if_neg (by omega)] at h
    have hIn := (hMem i).mp (mem_of_getElem? h)
    exact ⟨hIn.1, fun _ => hIn.2⟩
  · rw [if_neg hSome] at h
    split at h
    · cases h
    · refine ⟨mem_of_getElem? h, ?_⟩
      -- nobody is warming, so there is nothing to prefer
      rintro ⟨k, hk, hWarming⟩
      have hIn : k ∈ warming := (hMem k).mpr ⟨hk, hWarming⟩
      exact absurd (length_pos_of_mem hIn) hSome

/-! ## The paths -/

/-- Where the primary stands among the candidates, if it is one. -/
def primaryIdx (mds : LBStrategyMDS) (scored : List MdsScored) : Option Nat :=
  scored.findIdx? fun s => decide (s.name = mds.primaryName)

theorem primaryIdx_some {scored : List MdsScored} {p : Nat} {s : MdsScored}
    (h : mds.primaryIdx scored = some p)
    (hs : scored[p]? = some s) : s.name = mds.primaryName := by
  obtain ⟨hLt, hName, -⟩ := findIdx?_eq_some_iff_getElem.mp h
  rw [getElem?_eq_getElem hLt, some.injEq] at hs
  rw [← hs]
  exact of_decide_eq_true hName

/-- No primary to stick to: it is no candidate, or its breaker is open. -/
def NoPrimary (mds : LBStrategyMDS) (scored : List MdsScored) : Prop :=
  ∀ p s, mds.primaryIdx scored = some p → scored[p]? = some s → s.open = true

/-- The paths of `selectCandidateLocked`, with the state and the index that
each returns. -/
inductive SelectionPath (mds : LBStrategyMDS) (now : Time) (draw : ℚ) (pickDraw : Nat)
    (scored : List MdsScored) : LBStrategyMDS × Nat → Prop where
  /-- a half-open probe -/
  | probe {i : Nat} {s : MdsScored} : mds.pickHalfOpenProbe now scored = some i →
      scored[i]? = some s → s.open = true → mds.probeDue now s.name = true →
      SelectionPath mds now draw pickDraw scored (mds.markProbing s.name, i)
  /-- exploration -/
  | explore {i : Nat} : mds.pickHalfOpenProbe now scored = none → draw < mds.params.exploreProb →
      pickExploreTarget scored (mds.primaryIdx scored) pickDraw = some i →
      SelectionPath mds now draw pickDraw scored (mds, i)
  /-- the primary stays -/
  | stay {p : Nat} {s : MdsScored} : mds.pickHalfOpenProbe now scored = none →
      mds.primaryIdx scored = some p → scored[p]? = some s → s.open = false →
      SelectionPath mds now draw pickDraw scored (mds, p)
  /-- a challenger takes over from a healthy primary -/
  | switch {p j : Nat} {primary other : MdsScored} : mds.pickHalfOpenProbe now scored = none →
      mds.primaryIdx scored = some p → scored[p]? = some primary → primary.open = false →
      mds.bestHealthy scored (some p) = some (j, other) →
      mds.params.dwell ≤ now - mds.primarySince →
      mds.params.switchMargin ≤ other.base - primary.base →
      SelectionPath mds now draw pickDraw scored (mds.becomePrimary now other.name, j)
  /-- no primary: the best healthy resolver -/
  | best {j : Nat} {s : MdsScored} : mds.pickHalfOpenProbe now scored = none →
      mds.NoPrimary scored → mds.bestHealthy scored none = some (j, s) →
      SelectionPath mds now draw pickDraw scored (mds.becomePrimary now s.name, j)
  /-- every breaker is open: the best of all -/
  | lastResort {j : Nat} {s : MdsScored} : mds.pickHalfOpenProbe now scored = none →
      mds.NoPrimary scored → (∀ s' ∈ scored, s'.open = true) → scored[j]? = some s →
      SelectionPath mds now draw pickDraw scored (mds.becomePrimary now s.name, j)

theorem selectBest_path {scored : List MdsScored} (hNe : scored ≠ [])
    (hProbe : mds.pickHalfOpenProbe now scored = none) (hNone : mds.NoPrimary scored) :
    SelectionPath mds now draw pickDraw scored (mds.selectBest now scored) := by
  unfold selectBest
  cases hBest : mds.bestHealthy scored none with
  | some best => exact .best hProbe hNone hBest
  | none =>
    have hAll := bestHealthyFrom_none scored 0 hBest
    cases scored with
    | nil => exact absurd rfl hNe
    | cons first rest =>
      have hGet := bestOfAllFrom_spec mds
        (P := fun j s => (first :: rest)[j]? = some s) rest 1 (0, first) (by simp)
        (fun k s hk => by simpa [add_comm 1 k] using hk)
      exact .lastResort hProbe hNone hAll hGet

theorem selectPrimary_path {scored : List MdsScored} (hNe : scored ≠ [])
    (hProbe : mds.pickHalfOpenProbe now scored = none) :
    SelectionPath mds now draw pickDraw scored
      (mds.selectPrimary now scored (mds.primaryIdx scored)) := by
  unfold selectPrimary
  cases hIdx : mds.primaryIdx scored with
  | none =>
    refine selectBest_path hNe hProbe ?_
    intro p s hP
    rw [hIdx] at hP
    cases hP
  | some p =>
    have hLt : p < scored.length := by
      obtain ⟨hLt, -⟩ := findIdx?_eq_some_iff_getElem.mp hIdx
      exact hLt
    have hGet : scored[p]? = some scored[p] := getElem?_eq_getElem hLt
    simp only [bind_some, hGet, map_some]
    by_cases hOpen : scored[p].open = true
    · rw [if_pos hOpen]
      refine selectBest_path hNe hProbe ?_
      intro q s hQ hs
      obtain rfl : p = q := by rwa [hIdx, some.injEq] at hQ
      rw [hGet, some.injEq] at hs
      exact hs ▸ hOpen
    · rw [if_neg hOpen]
      rw [Bool.not_eq_true] at hOpen
      have hStay : SelectionPath mds now draw pickDraw scored (mds, p) :=
        .stay hProbe hIdx hGet hOpen
      -- a healthy primary is challenged by the best of the others
      cases hOther : mds.bestHealthy scored (some p) with
      | none => exact hStay
      | some best =>
        obtain ⟨j, other⟩ := best
        dsimp only
        by_cases hDwell : now - mds.primarySince < mds.params.dwell
        · rw [if_pos hDwell]
          exact hStay
        · rw [if_neg hDwell]
          split
          · next hMargin =>
            exact .switch hProbe hIdx hGet hOpen hOther (not_lt.mp hDwell) hMargin.1
          · exact hStay

/-- A list of two or more gets past the early returns. -/
theorem selectCandidateLocked_of_two_le (hLen : 2 ≤ cs.length) :
    mds.selectCandidateLocked now draw pickDraw cs = let scored := mds.scoreAll now cs
      match mds.pickHalfOpenProbe now scored with
      | some probeIdx => (mds.markProbing ((scored[probeIdx]?.map (·.name)).getD ""), probeIdx)
      | none =>
        match if draw < mds.params.exploreProb then
          pickExploreTarget scored (mds.primaryIdx scored) pickDraw else none with
        | some exploreIdx => (mds, exploreIdx)
        | none => mds.selectPrimary now scored (mds.primaryIdx scored) := by
  match cs, hLen with
  | _ :: _ :: _, _ => rfl

theorem selectCandidateLocked_path (hLen : 2 ≤ cs.length) :
    SelectionPath mds now draw pickDraw (mds.scoreAll now cs)
      (mds.selectCandidateLocked now draw pickDraw cs) := by
  have hNe : mds.scoreAll now cs ≠ [] := by
    rw [← length_pos_iff, length_scoreAll]
    omega
  rw [selectCandidateLocked_of_two_le hLen]
  dsimp only
  cases hProbe : mds.pickHalfOpenProbe now (mds.scoreAll now cs) with
  | some probeIdx =>
    obtain ⟨s, hs, hOpen, hDue⟩ := pickHalfOpenProbe_some hProbe
    simp only [hs, map_some, getD_some]
    exact .probe hProbe hs hOpen hDue
  | none =>
    dsimp only
    split
    · next exploreIdx hExplore =>
      split at hExplore
      · next hDraw => exact .explore hProbe hDraw hExplore
      · cases hExplore
    · exact selectPrimary_path hNe hProbe

theorem pickHalfOpenProbeFrom_ne_none (scored : List MdsScored) :
    ∀ (i : Nat) (pick : Nat × Time), mds.pickHalfOpenProbeFrom now i (some pick) scored ≠ none := by
  induction scored with
  | nil =>
    intro i pick h
    cases h
  | cons s rest ih =>
    intro i pick h
    unfold pickHalfOpenProbeFrom at h
    split at h
    · dsimp only at h
      split at h
      · exact ih _ _ h
      · exact ih _ _ h
    · exact ih _ _ h

theorem pickHalfOpenProbeFrom_none (scored : List MdsScored) :
    ∀ i : Nat, mds.pickHalfOpenProbeFrom now i none scored = none →
      ∀ s ∈ scored, s.open = true → mds.probeDue now s.name = false := by
  induction scored with
  | nil =>
    intro i _ s hs
    cases hs
  | cons x rest ih =>
    intro i h s hs hOpen
    unfold pickHalfOpenProbeFrom at h
    split at h
    · exact absurd h (pickHalfOpenProbeFrom_ne_none rest _ _)
    · next hNot =>
      rcases mem_cons.mp hs with rfl | hRest
      · simpa [hOpen] using hNot
      · exact ih _ h s hRest hOpen

theorem not_probeReady_of_none (h : mds.pickHalfOpenProbe now (mds.scoreAll now cs) = none)
    {c : ResolverCandidate} (hc : c ∈ cs) : ¬mds.ProbeReady now c.server.name := by
  rintro ⟨cb, hCb, hOpen, hProbing, hNext⟩
  rw [pickHalfOpenProbe, map_eq_none_iff] at h
  obtain ⟨s, hs, hName, hScored⟩ := exists_scored mds now hc
  have hIsOpen : mds.isOpen c.server.name = true := isOpen_iff.mpr ⟨cb, hCb, hOpen⟩
  have hNotDue := pickHalfOpenProbeFrom_none _ 0 h s hs (hScored.trans hIsOpen)
  have hDue : mds.probeDue now c.server.name = true := by
    simp [probeDue, hCb, hProbing, hNext]
  rw [hName, hDue] at hNotDue
  cases hNotDue

/-! ## One selection -/

theorem SelectionPath.scored {scored : List MdsScored} {r : LBStrategyMDS × Nat}
    (h : SelectionPath mds now draw pickDraw scored r) :
    ∃ s, scored[r.2]? = some s ∧
      ((s.open = true ∧ mds.probeDue now s.name = true ∧ r.1 = mds.markProbing s.name) ∨
        (r.1.circuits = mds.circuits ∧ r.1.params = mds.params ∧
          (s.open = true → mds.pickHalfOpenProbe now scored = none ∧
            ∀ s' ∈ scored, s'.open = true))) := by
  -- on all paths but the first and the last the resolver has no open breaker
  cases h with
  | probe _ hs hOpen hDue => exact ⟨_, hs, .inl ⟨hOpen, hDue, rfl⟩⟩
  | explore _ _ hExplore =>
    obtain ⟨s, hs, -, hClosed⟩ := mem_exploreIdxs.mp (pickExploreTarget_spec hExplore).1
    exact ⟨s, hs, .inr ⟨rfl, rfl, by simp [hClosed]⟩⟩
  | stay _ _ hs hClosed => exact ⟨_, hs, .inr ⟨rfl, rfl, by simp [hClosed]⟩⟩
  | switch _ _ _ _ hOther =>
    obtain ⟨hs, hClosed⟩ := bestHealthy_some hOther
    exact ⟨_, hs, .inr ⟨by simp, by simp, by simp [hClosed]⟩⟩
  | best _ _ hBest =>
    obtain ⟨hs, hClosed⟩ := bestHealthy_some hBest
    exact ⟨_, hs, .inr ⟨by simp, by simp, by simp [hClosed]⟩⟩
  | lastResort hPick _ hAll hs =>
    exact ⟨_, hs, .inr ⟨by simp, by simp, fun _ => ⟨hPick, hAll⟩⟩⟩

/-- What a path leads to, in terms of the candidates. -/
theorem SelectionPath.candidate {r : LBStrategyMDS × Nat}
    (h : SelectionPath mds now draw pickDraw (mds.scoreAll now cs) r) :
    ∃ c, cs[r.2]? = some c ∧
      ((mds.ProbeReady now c.server.name ∧ r.1 = mds.markProbing c.server.name) ∨
        (r.1.circuits = mds.circuits ∧ r.1.params = mds.params ∧
          (mds.isOpen c.server.name = true → ∀ c' ∈ cs,
            mds.isOpen c'.server.name = true ∧ ¬mds.ProbeReady now c'.server.name))) := by
  obtain ⟨s, hs, hPath⟩ := h.scored
  obtain ⟨c, hc, hName, hOpen⟩ := scoreAll_some hs
  rw [hName, hOpen] at hPath
  refine ⟨c, hc, hPath.imp (fun ⟨hO, hDue, hMark⟩ => ⟨probeReady_of hO hDue, hMark⟩) ?_⟩
  rintro ⟨hCirc, hParams, hAll⟩
  refine ⟨hCirc, hParams, fun hC c' hc' => ?_⟩
  obtain ⟨hPick, hAll⟩ := hAll hC
  obtain ⟨s', hs', -, hOpen'⟩ := exists_scored mds now hc'
  exact ⟨hOpen' ▸ hAll s' hs', not_probeReady_of_none hPick hc'⟩

theorem selectCandidateLocked_cases (hNe : cs ≠ [])
    (h : mds.selectCandidateLocked now draw pickDraw cs = (mds', i)) :
    ∃ c, cs[i]? = some c ∧ ((2 ≤ cs.length ∧ mds.ProbeReady now c.server.name ∧
          mds' = mds.markProbing c.server.name) ∨
        (mds'.circuits = mds.circuits ∧ mds'.params = mds.params ∧
          (mds.isOpen c.server.name = true →
            cs.length = 1 ∨ ∀ c' ∈ cs, mds.isOpen c'.server.name = true))) := by
  match cs, hNe, h with
  | [], hNe, _ => exact absurd rfl hNe
  | [c], _, h =>
    obtain ⟨rfl, rfl⟩ := Prod.mk.inj h
    exact ⟨c, rfl, .inr ⟨by simp, by simp, fun _ => .inl rfl⟩⟩
  | c₁ :: c₂ :: rest, _, h =>
    have hPath : SelectionPath mds now draw pickDraw (mds.scoreAll now (c₁ :: c₂ :: rest))
        (mds', i) := h ▸ selectCandidateLocked_path (by simp)
    obtain ⟨c, hc, ⟨hReady, hMark⟩ | ⟨hCirc, hParams, hAll⟩⟩ := hPath.candidate
    · exact ⟨c, hc, .inl ⟨by simp, hReady, hMark⟩⟩
    · exact ⟨c, hc, .inr ⟨hCirc, hParams, fun hC => .inr fun c' hc' => (hAll hC c' hc').1⟩⟩

end LBStrategyMDS

/-! ## One outcome -/

namespace MdsCircuit

variable (params : MDSParams) (now : Time) {cb : MdsCircuit} (hard : Bool) (total : Nat)

theorem observe_of_not_probing (hProbing : cb.probing = false) (hOpen : cb.open = true) :
    (cb.observe params now hard total).open = true ∧
      (cb.observe params now hard total).nextProbeAt = cb.nextProbeAt := by
  unfold observe
  cases hard with
  | false => simp [hProbing, hOpen]
  | true =>
    simp only [hProbing, hOpen, Bool.and_false, Bool.false_eq_true, if_false, if_true,
      Bool.not_true, Bool.false_and]
    split
    · simp
    · split <;> simp

theorem observe_probing (hWf : cb.probing = true → cb.open = true) :
    (cb.observe params now hard total).probing = false := by
  unfold observe
  cases hP : cb.probing with
  | true =>
    have hO := hWf hP
    cases hard <;> simp [hO]
  | false =>
    cases hard with
    | false => simp
    | true =>
      simp only [Bool.and_false, Bool.false_eq_true, if_false, if_true]
      split
      · rfl
      · split
        · rfl
        · split <;> rfl

end MdsCircuit

/-! ## Probes of the whole scheduler -/

namespace LBStrategyMDS

variable {mds : LBStrategyMDS} {now : Time} {name : String}

/-- A probe of `name` is marked as in flight. -/
def isProbing (mds : LBStrategyMDS) (name : String) : Bool := (mds.circuits name).any (·.probing)

/-- Only open breakers are probed. -/
def ProbesOpen (mds : LBStrategyMDS) : Prop :=
  ∀ name cb, mds.circuits name = some cb → cb.probing = true → cb.open = true

theorem isProbing_iff :
    mds.isProbing name = true ↔ ∃ cb, mds.circuits name = some cb ∧ cb.probing = true := by
  simp [isProbing, Option.any_eq_true]

theorem ProbesOpen.isOpen (hWf : mds.ProbesOpen) (h : mds.isProbing name = true) :
    mds.isOpen name = true := by
  obtain ⟨cb, hCb, hP⟩ := isProbing_iff.mp h
  exact isOpen_iff.mpr ⟨cb, hCb, hWf name cb hCb hP⟩

theorem ProbesOpen.circuitFor (hWf : mds.ProbesOpen) (name : String) :
    (mds.circuitFor name).probing = true → (mds.circuitFor name).open = true := by
  unfold LBStrategyMDS.circuitFor
  cases hCb : mds.circuits name with
  | none => simp [MdsCircuit.zero]
  | some cb => simpa using hWf name cb hCb

theorem not_isProbing_of_ready (h : mds.ProbeReady now name) : mds.isProbing name = false := by
  obtain ⟨cb, hCb, -, hP, -⟩ := h
  simp [isProbing, hCb, hP]

theorem isProbing_markProbing (h : mds.ProbeReady now name) (m : String) :
    (mds.markProbing name).isProbing m = true ↔ m = name ∨ mds.isProbing m = true := by
  obtain ⟨cb, hCb, -⟩ := h
  by_cases hm : m = name
  · subst hm
    simp [isProbing, markProbing, hCb]
  · simp [isProbing, markProbing, hm]

theorem ProbesOpen.markProbing (hWf : mds.ProbesOpen) (h : mds.ProbeReady now name) :
    (mds.markProbing name).ProbesOpen := by
  obtain ⟨cb, hCb, hO, -⟩ := h
  intro m cb' hCb' hP
  by_cases hm : m = name
  · subst hm
    simp only [LBStrategyMDS.markProbing, Function.update_self, hCb, map_some, some.injEq] at hCb'
    rw [← hCb']
    exact hO
  · simp only [LBStrategyMDS.markProbing, Function.update_of_ne hm] at hCb'
    exact hWf m cb' hCb' hP

theorem circuits_observeFeedbackLocked_self (o : ExchangeOutcome) (total : Nat) :
    (mds.observeFeedbackLocked now name o total).circuits name =
      some ((mds.circuitFor name).observe mds.params now o.hardFailure total) := by
  simp [observeFeedbackLocked]

/-- An outcome is digested by the breaker of its resolver alone. -/
theorem circuits_observeFeedbackLocked_of_ne {m : String} (hm : m ≠ name) (o : ExchangeOutcome)
    (total : Nat) :
    (mds.observeFeedbackLocked now name o total).circuits m = mds.circuits m := by
  simp [observeFeedbackLocked, hm]

theorem isProbing_observeFeedbackLocked (hWf : mds.ProbesOpen) (o : ExchangeOutcome)
    (total : Nat) (m : String) :
    (mds.observeFeedbackLocked now name o total).isProbing m = true ↔
      m ≠ name ∧ mds.isProbing m = true := by
  by_cases hm : m = name
  · subst hm
    have hDone := MdsCircuit.observe_probing mds.params now o.hardFailure total (hWf.circuitFor m)
    simp [isProbing, circuits_observeFeedbackLocked_self, hDone]
  · simp [isProbing, circuits_observeFeedbackLocked_of_ne hm, hm]

theorem ProbesOpen.observeFeedbackLocked (hWf : mds.ProbesOpen) (o : ExchangeOutcome)
    (total : Nat) : (mds.observeFeedbackLocked now name o total).ProbesOpen := by
  intro m cb hCb hP
  by_cases hm : m = name
  · subst hm
    rw [circuits_observeFeedbackLocked_self, some.injEq] at hCb
    rw [← hCb, MdsCircuit.observe_probing _ _ _ _ (hWf.circuitFor m)] at hP
    cases hP
  · rw [circuits_observeFeedbackLocked_of_ne hm] at hCb
    exact hWf m cb hCb hP

end LBStrategyMDS

end DnscryptProxy
