import DnscryptProxy.Scheduler.Registry

/-!
# Dormant servers and the legacy counters

`recoverDormantServers` compares the servers with the smallest positive RTT. The
loop that looks for it starts with the RTT of the first server, whatever that
is. A server that gets a new chance also loses its counters, which
`observeOutcome` keeps and the WP2 strategy scores.

* `recovers_dormant_iff` — which servers get a new chance: those behind the
  smallest positive RTT, if the first RTT is positive, and otherwise none;
* `legacy_counters_sound` — the counters of every run, and the scores.
-/

namespace DnscryptProxy

open Base List Machine

namespace ServersInfo

/-! ## The smallest positive RTT -/

/-- The smallest positive RTT of the registry. -/
def leastPositiveRtt (inner : List ServerInfo) : Option ℚ :=
  ((inner.map (·.rtt.current)).filter fun rtt => decide (0 < rtt)).min?

theorem leastPositiveRtt_eq_some {inner : List ServerInfo} {best : ℚ} :
    leastPositiveRtt inner = some best ↔ (0 < best ∧ ∃ s ∈ inner, s.rtt.current = best) ∧
        ∀ s ∈ inner, 0 < s.rtt.current → best ≤ s.rtt.current := by
  rw [leastPositiveRtt, min?_eq_some_iff]
  simp only [mem_filter, mem_map, decide_eq_true_eq]
  constructor
  · rintro ⟨⟨hMem, hPos⟩, hLeast⟩
    exact ⟨⟨hPos, hMem⟩, fun s hs hs' => hLeast _ ⟨⟨s, hs, rfl⟩, hs'⟩⟩
  · rintro ⟨⟨hPos, hMem⟩, hLeast⟩
    refine ⟨⟨hMem, hPos⟩, ?_⟩
    rintro _ ⟨⟨s, hs, rfl⟩, hs'⟩
    exact hLeast s hs hs'

theorem leastPositiveRtt_perm {inner inner' : List ServerInfo} (h : inner'.Perm inner) :
    leastPositiveRtt inner' = leastPositiveRtt inner := by
  refine Option.ext fun best => ?_
  rw [leastPositiveRtt_eq_some, leastPositiveRtt_eq_some]
  simp only [h.mem_iff]

/-- The loop, from a positive RTT on. -/
theorem foldl_best (l : List ServerInfo) : ∀ seed : ℚ, 0 < seed → ∃ best,
    l.foldl (fun best s => if 0 < s.rtt.current ∧ s.rtt.current < best then s.rtt.current else best)
        seed = best ∧
      0 < best ∧ best ≤ seed ∧ (best = seed ∨ ∃ s ∈ l, s.rtt.current = best) ∧
      ∀ s ∈ l, 0 < s.rtt.current → best ≤ s.rtt.current := by
  induction l with
  | nil => exact fun seed hSeed => ⟨seed, rfl, hSeed, le_refl _, .inl rfl, by simp⟩
  | cons s l ih =>
    intro seed hSeed
    rw [foldl_cons]
    split
    · next hLess =>
      obtain ⟨best, hFold, hPos, hLe, hMem, hLeast⟩ := ih _ hLess.1
      refine ⟨best, hFold, hPos, hLe.trans hLess.2.le, .inr ?_, ?_⟩
      · rcases hMem with h | ⟨t, ht, h⟩
        · exact ⟨s, mem_cons_self, h.symm⟩
        · exact ⟨t, mem_cons_of_mem _ ht, h⟩
      · exact forall_mem_cons.mpr ⟨fun _ => hLe, hLeast⟩
    · next hNot =>
      obtain ⟨best, hFold, hPos, hLe, hMem, hLeast⟩ := ih seed hSeed
      refine ⟨best, hFold, hPos, hLe, hMem.imp_right ?_, ?_⟩
      · exact fun ⟨t, ht, h⟩ => ⟨t, mem_cons_of_mem _ ht, h⟩
      · refine forall_mem_cons.mpr ⟨fun hs => hLe.trans ?_, hLeast⟩
        exact not_lt.mp fun hLess => hNot ⟨hs, hLess⟩

section Compared

variable {first : ServerInfo} {rest : List ServerInfo}

theorem comparedRtt_of_pos (hTwo : 2 ≤ (first :: rest).length) (hFirst : 0 < first.rtt.current) :
    comparedRtt (first :: rest) = leastPositiveRtt (first :: rest) := by
  obtain ⟨best, hFold, hPos, -, hMem, hLeast⟩ := foldl_best (first :: rest) _ hFirst
  have hBest : bestRtt (first :: rest) = best := hFold
  rw [comparedRtt, hBest, if_neg (not_or.mpr ⟨not_le.mpr hTwo, not_le.mpr hPos⟩), eq_comm,
    leastPositiveRtt_eq_some]
  refine ⟨⟨hPos, ?_⟩, hLeast⟩
  rcases hMem with h | h
  · exact ⟨first, mem_cons_self, h.symm⟩
  · exact h

/-- No RTT is positive and less than one that is not. -/
theorem comparedRtt_of_nonpos (hFirst : first.rtt.current ≤ 0) :
    comparedRtt (first :: rest) = none := by
  have hBest : bestRtt (first :: rest) = first.rtt.current := by
    refine foldlRecOn (motive := (· = first.rtt.current)) _ _ rfl fun best hEq s _ => ?_
    rw [hEq, if_neg fun h => (h.1.trans h.2).not_ge hFirst]
  rw [comparedRtt, hBest, if_pos (.inr hFirst)]

end Compared

/-! ## Who gets a new chance -/

/-- A new chance is not given twice in a row. -/
theorem lastDecayTS_of_dormant {now : Time} {best : ℚ} {s : ServerInfo}
    (h : dormant now best s = true) : s.lastDecayTS ≠ some now := by
  intro hNow
  simp [dormant, hNow, elapsedMoreThan, Second] at h

theorem dormant_of_givenChance_ne {now : Time} {best : ℚ} {s : ServerInfo}
    (h : givenChance now (some best) s ≠ s) : dormant now best s = true := by
  by_contra hNot
  exact h (if_neg hNot)

/-- One server more that has just been given a chance is a difference. -/
theorem map_givenChance_perm_iff {now : Time} {best : Option ℚ} {inner : List ServerInfo} :
    (inner.map (givenChance now best)).Perm inner ↔ ∀ s ∈ inner, givenChance now best s = s := by
  constructor
  · intro hPerm s hs
    cases best with
    | none => rfl
    | some best =>
      by_contra hNe
      have hDormant := dormant_of_givenChance_ne hNe
      -- the servers which have not been given one just now become fewer
      let waiting (t : ServerInfo) : Bool := decide (t.lastDecayTS ≠ some now)
      have hCount := hPerm.countP_eq waiting
      rw [countP_map] at hCount
      have hSub : (inner.filter (waiting ∘ givenChance now (some best))).Sublist
          (inner.filter waiting) := by
        refine monotone_filter_right _ fun t ht => ?_
        by_cases hChance : dormant now best t = true
        · exact decide_eq_true (lastDecayTS_of_dormant hChance)
        · rwa [Function.comp_apply, givenChance, if_neg hChance] at ht
      have hEq := hSub.eq_of_length
        (by rw [← countP_eq_length_filter, ← countP_eq_length_filter, hCount])
      have hMem : s ∈ inner.filter waiting :=
        mem_filter.mpr ⟨hs, decide_eq_true (lastDecayTS_of_dormant hDormant)⟩
      rw [← hEq, mem_filter, Function.comp_apply, givenChance, if_pos hDormant] at hMem
      exact absurd rfl (of_decide_eq_true hMem.2)
  · intro h
    rw [map_congr_left h, map_id']

section Order

variable {inner inner' : List ServerInfo} (hPerm : inner'.Perm inner) (now : Time)

include hPerm

theorem recovers_of_pos (hTwo : 2 ≤ inner.length)
    (hFirst : ∀ first ∈ inner'.head?, 0 < first.rtt.current) :
    (recoverDormantServers now inner').Perm
      (inner.map (givenChance now (leastPositiveRtt inner))) := by
  rw [← hPerm.length_eq] at hTwo
  refine (recoverDormantServers_perm_map now inner').trans ?_
  cases inner' with
  | nil => simp at hTwo
  | cons first rest =>
    rw [comparedRtt_of_pos hTwo (hFirst first rfl), leastPositiveRtt_perm hPerm]
    exact hPerm.map _

theorem recovers_of_nonpos {first : ServerInfo} (hHead : first ∈ inner'.head?)
    (hFirst : first.rtt.current ≤ 0) : (recoverDormantServers now inner').Perm inner := by
  refine (recoverDormantServers_perm_map now inner').trans ?_
  cases inner' with
  | nil => cases hHead
  | cons first' rest =>
    cases hHead
    rw [comparedRtt_of_nonpos hFirst, map_givenChance_none]
    exact hPerm

/-- Whoever comes first decides. -/
theorem recovers_perm_iff (hTwo : 2 ≤ inner.length) :
    (recoverDormantServers now inner').Perm
        (inner.map (givenChance now (leastPositiveRtt inner))) ↔
      (∀ first ∈ inner'.head?, 0 < first.rtt.current) ∨
        ∀ s ∈ inner, givenChance now (leastPositiveRtt inner) s = s := by
  by_cases hFirst : ∀ first ∈ inner'.head?, 0 < first.rtt.current
  · exact iff_of_true (recovers_of_pos hPerm now hTwo hFirst) (.inl hFirst)
  · rw [or_iff_right hFirst, ← map_givenChance_perm_iff]
    push Not at hFirst
    obtain ⟨first, hHead, hNot⟩ := hFirst
    have hSame := recovers_of_nonpos hPerm now hHead hNot
    exact ⟨fun h => h.symm.trans hSame, fun h => hSame.trans h.symm⟩

end Order

/-- The servers behind the smallest positive RTT get a new chance, exactly if the
first RTT is positive or there are none; and the order makes no difference, exactly
if every RTT is positive or there are none. -/
theorem recovers_dormant_iff (now : Time) (inner : List ServerInfo) (hTwo : 2 ≤ inner.length) :
    ((recoverDormantServers now inner).Perm
          (inner.map (givenChance now (leastPositiveRtt inner))) ↔
        (∀ first ∈ inner.head?, 0 < first.rtt.current) ∨
          ∀ s ∈ inner, givenChance now (leastPositiveRtt inner) s = s) ∧
      ((∀ inner', inner'.Perm inner →
          (recoverDormantServers now inner').Perm (recoverDormantServers now inner)) ↔
        (∀ s ∈ inner, 0 < s.rtt.current) ∨
          ∀ s ∈ inner, givenChance now (leastPositiveRtt inner) s = s) := by
  refine ⟨recovers_perm_iff (.refl _) now hTwo, ?_, ?_⟩
  · intro hOrder
    by_contra hNot
    push Not at hNot
    obtain ⟨⟨s, hs, hZero⟩, c, hc, hChance⟩ := hNot
    have hPos : 0 < c.rtt.current := by
      cases hLeast : leastPositiveRtt inner with
      | none => exact absurd (by rw [hLeast]; rfl) hChance
      | some best =>
        rw [hLeast] at hChance
        have hDormant := dormant_of_givenChance_ne hChance
        obtain ⟨⟨hBest, -⟩, -⟩ := leastPositiveRtt_eq_some.mp hLeast
        simp only [dormant, Bool.and_eq_true, decide_eq_true_eq] at hDormant
        linarith
    -- the one that gets its chance may come first, and so may the one without an RTT
    have hc' := (perm_cons_erase hc).symm
    have hs' := (perm_cons_erase hs).symm
    have hSpec := (recovers_perm_iff hc' now hTwo).mpr (.inl (by rintro _ ⟨⟩; exact hPos))
    have hSame := (hOrder _ hs').trans (hOrder _ hc').symm
    rcases (recovers_perm_iff hs' now hTwo).mp (hSame.trans hSpec) with hFirst | hNone
    · exact (hFirst s rfl).not_ge hZero
    · exact hChance (hNone c hc)
  · intro hEither inner' hPerm
    have hSpec : ∀ l : List ServerInfo, l.Perm inner → (recoverDormantServers now l).Perm
        (inner.map (givenChance now (leastPositiveRtt inner))) := fun l hl =>
      (recovers_perm_iff hl now hTwo).mpr (hEither.imp_left fun hAll first hHead =>
        hAll first (hl.mem_iff.mp (mem_of_mem_head? hHead)))
    exact (hSpec _ hPerm).trans (hSpec _ (.refl _)).symm

/-- A server of the examples: nothing was asked of it for two minutes. -/
def idleServer (name : String) (rtt : ℚ) : ServerInfo :=
  { ref := 0, name, proto := .dnsCrypt, initialRtt := 50, noFilter := true, dnssec := true
    relayName := none, odohTargetConfigs := 0, rtt := .startingAt rtt, lastActionTS := some 0
    lastDecayTS := some 0, lastUpdateTime := none, totalQueries := 0, failedQueries := 0 }

/-- Three servers in order: 10 ms and 900 ms differ by more than four times, and the
slow one gets its chance. -/
theorem recovers_dormant_iff_ordered :
    (recoverDormantServers (120 * Second)
        [idleServer "a" 10, idleServer "b" 0, idleServer "c" 900]).Perm
      ([idleServer "a" 10, idleServer "b" 0, idleServer "c" 900].map
        (givenChance (120 * Second) (some 10))) :=
  (recovers_dormant_iff (120 * Second) [idleServer "a" 10, idleServer "b" 0, idleServer "c" 900]
    (by decide)).1.mpr (.inl (by decide +kernel))

/-- With the server that answers in no time in front, it gets none. -/
theorem zero_rtt_hides_dormant :
    leastPositiveRtt [idleServer "b" 0, idleServer "a" 10, idleServer "c" 900] = some 10 ∧
      dormant (120 * Second) 10 (idleServer "c" 900) = true ∧
      recoverDormantServers (120 * Second)
          [idleServer "b" 0, idleServer "a" 10, idleServer "c" 900] =
        [idleServer "b" 0, idleServer "a" 10, idleServer "c" 900] ∧
      ∃ s ∈ recoverDormantServers (120 * Second)
          [idleServer "a" 10, idleServer "b" 0, idleServer "c" 900],
        s.name = "c" ∧ s.lastDecayTS = some (120 * Second) := by
  decide +kernel

end ServersInfo

/-! ## The counters -/

namespace ServerInfo.Counted

variable {s : ServerInfo} (h : s.Counted)

include h

/-- The subtraction of `calculateServerScore` is on unsigned numbers. -/
theorem toNat_sub :
    (UInt64.ofNat s.totalQueries - UInt64.ofNat s.failedQueries).toNat =
      s.totalQueries - s.failedQueries := by
  have hTotal := h.total_le
  have hFailed := h.failed_le
  have hLt : s.totalQueries < 2 ^ 64 := by omega
  rw [UInt64.toNat_sub_of_le, UInt64.toNat_ofNat_of_lt' hLt,
    UInt64.toNat_ofNat_of_lt' (by omega : s.failedQueries < 2 ^ 64)]
  rw [UInt64.le_iff_toNat_le, UInt64.toNat_ofNat_of_lt' hLt,
    UInt64.toNat_ofNat_of_lt' (by omega : s.failedQueries < 2 ^ 64)]
  exact hFailed

theorem score : 0 ≤ calculateServerScore s ∧ calculateServerScore s ≤ 1 := by
  have hRtt : ∀ rtt : ℚ, 0 < rtt → ∀ x, (if 1 - rtt / 1000 < 0 then 0 else 1 - rtt / 1000) = x →
      0 ≤ x ∧ x ≤ 1 := by
    rintro rtt hPos x rfl
    split
    · norm_num
    · constructor
      · linarith
      · linarith [div_pos hPos (by norm_num : (0 : ℚ) < 1000)]
  have hRate : ∀ x : ℚ, (if 0 < s.totalQueries then
      ((UInt64.ofNat s.totalQueries - UInt64.ofNat s.failedQueries).toNat : ℚ) / s.totalQueries
      else 1) = x → 0 ≤ x ∧ x ≤ 1 := by
    rintro x rfl
    rw [h.toNat_sub]
    split
    · exact ⟨by positivity, div_le_one_of_le₀ (by exact_mod_cast Nat.sub_le _ _) (by positivity)⟩
    · norm_num
  have hPos : 0 < if s.rtt.current ≤ 0 then 1000 else s.rtt.current := by
    split
    · norm_num
    · next hNot => exact not_le.mp hNot
  unfold calculateServerScore
  obtain ⟨hRtt0, hRtt1⟩ := hRtt _ hPos _ rfl
  obtain ⟨hRate0, hRate1⟩ := hRate _ rfl
  constructor
  · linarith
  · linarith

end ServerInfo.Counted

theorem forall_replaceOrAppend {P : ServerInfo → Prop} {inner : List ServerInfo} {new : ServerInfo}
    (hAll : ∀ s ∈ inner, P s) (hNew : P new) :
    ∀ s ∈ ServersInfo.replaceOrAppend new inner, P s := by
  induction inner with
  | nil => exact forall_mem_singleton.mpr hNew
  | cons t rest ih =>
    obtain ⟨ht, hRest⟩ := forall_mem_cons.mp hAll
    rw [ServersInfo.replaceOrAppend]
    split
    · exact forall_mem_cons.mpr ⟨hNew, hRest⟩
    · exact forall_mem_cons.mpr ⟨ht, ih hRest⟩

/-- In every run the counters of every live server are consistent, so its score is
between 0 and 1, whatever its RTT is. -/
theorem legacy_counters_sound {s : RegistryState}
    (hs : registryMachine.Reach anyStep s) :
    ∀ server ∈ s.registry.inner,
      (server.failedQueries ≤ server.totalQueries ∧ server.totalQueries ≤ 10000) ∧
        (UInt64.ofNat server.totalQueries - UInt64.ofNat server.failedQueries).toNat =
          server.totalQueries - server.failedQueries ∧
        ∀ rtt, 0 ≤ calculateServerScore { server with rtt := rtt } ∧
          calculateServerScore { server with rtt := rtt } ≤ 1 := by
  have hAll : ∀ server ∈ s.registry.inner, server.Counted := by
    refine hs.invariant (P := fun s => ∀ server ∈ s.registry.inner, server.Counted) ?_ ?_
    · rintro s ⟨hInner, -, -⟩
      simp [hInner]
    · intro s op s' hAll _ hNext
      cases registryStep_of_step hNext with
      | keep _ hKeeps => exact hKeeps.counted hAll
      | publish hPublish =>
        rw [hPublish]
        exact forall_replaceOrAppend hAll ⟨Nat.zero_le _, Nat.zero_le _⟩
  intro server hServer
  have hCounted := hAll server hServer
  refine ⟨⟨hCounted.failed_le, hCounted.total_le⟩, hCounted.toNat_sub, fun rtt => ?_⟩
  exact ServerInfo.Counted.score ⟨hCounted.failed_le, hCounted.total_le⟩

/-- A success and a timeout. -/
theorem legacy_counters_sound_failure : ∃ s : RegistryState,
    registryMachine.Reach anyStep s ∧
      s.registry.inner.map (fun server => (server.failedQueries, server.totalQueries)) = [(1, 2)] ∧
      ∀ server ∈ s.registry.inner, ∀ rtt, calculateServerScore { server with rtt := rtt } ≤ 1 := by
  let start : RegistryState :=
    { registry := { inner := [], metrics := .empty, metricsWindow := metricsWindow,
                    lbStrategy := .wp2, lbEstimator := true }
      fetching := fun _ => none }
  let ops : List RegistryOp :=
    [.beginRefresh 1 "a", .publish 1 (ServersInfo.idleServer "a" 10),
      .observeOutcome Second (5 * Second) Millisecond false "a" .zero,
      .observeOutcome (2 * Second) (5 * Second) (5 * Second) false "a"
        { ExchangeOutcome.zero with timeout := true }]
  have hRun : (registryMachine.exec start ops).map (fun s => s.registry.inner.map
      fun server => (server.failedQueries, server.totalQueries)) = some [(1, 2)] := by
    decide +kernel
  obtain ⟨s, hExec, hCounters⟩ := Option.map_eq_some_iff.mp hRun
  have hs : registryMachine.Reach anyStep s :=
    .exec (fun _ _ _ => trivial) (.init ⟨rfl, rfl, rfl⟩) hExec
  exact ⟨s, hs, hCounters, fun server h rtt => ((legacy_counters_sound hs server h).2.2 rtt).2⟩

end DnscryptProxy
