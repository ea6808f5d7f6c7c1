import DnscryptProxy.Sources.Signed
import Mathlib.Data.List.Induction
import Mathlib.Tactic.Linarith

/-!
# When sources are fetched again

A pass of `PrefetchSources` fetches every source that is due, and returns how long to
wait before the next pass. `fetchWithCache` gives each source its own deadline, and one
whose download failed gets a deadline after `MinimumPrefetchInterval`. The interval is
the shortest refresh delay of the sources that were downloaded, though; no other deadline
is looked at. So a source that failed waits as long as the others that did not.

* `tryURLs_err_iff` — a download succeeds if some URL delivers a valid pair;
* `waits_iff` — what each source needs to have no deadline within some time after the pass;
* `passInterval_spec` — the interval: the shortest delay of a downloaded source;
* `prefetch_interval_iff` — when no deadline is missed by it.
-/

namespace DnscryptProxy

open Base List FetchCall Option Prod

variable {K : Type*} {lib : SourceLib K}

/-! ## Downloads -/

/-- A URL that delivers a valid pair ends the loop, if none before it has. -/
theorem Source.tryURLs_of_delivers {env : SourceEnv} (source : Source K) {urls : List Url} :
    ∀ {i j : Nat} {a : Attempt} {srcURL : Url} {bin sig : Bytes}, urls[j]? = some srcURL →
      env.get (i + j) srcURL = (bin, none) → env.get (i + j) srcURL.minisig = (sig, none) →
      source.checkSignature lib bin sig = none →
      (source.tryURLs lib env i urls a).err = none := by
  induction urls with
  | nil =>
    intro i j a srcURL bin sig hUrl
    cases hUrl
  | cons url rest ih =>
    intro i j a srcURL bin sig hUrl hBin hSig hCheck
    cases j with
    | zero =>
      obtain rfl := some.inj hUrl
      rw [add_zero] at hBin hSig
      unfold tryURLs
      simp only [hBin, hSig, hCheck, isSome_none, Bool.false_eq_true, if_false]
    | succ j =>
      have hIndex : i + (j + 1) = i + 1 + j := by omega
      rw [hIndex] at hBin hSig
      -- this attempt ends the loop without an error, or the loop goes on
      rcases source.tryURLs_cons lib env i url rest a with ⟨_, _, -, hEnd⟩ | ⟨a', -, hNext⟩
      · rw [hEnd]
      · rw [hNext]
        exact ih hUrl hBin hSig hCheck

theorem Source.tryURLs_err_iff (lib : SourceLib K) (env : SourceEnv) (source : Source K)
    (a : Attempt) (hUrls : source.urls ≠ []) :
    (source.tryURLs lib env 0 source.urls a).err = none ↔ ∃ bin, source.Delivers lib env bin := by
  constructor
  · intro hErr
    obtain ⟨j, srcURL, hUrl, hBin, hSig, hCheck⟩ := source.tryURLs_verified hUrls hErr
    rw [zero_add] at hBin hSig
    exact ⟨_, j, srcURL, _, hUrl, hBin, hSig, hCheck⟩
  · rintro ⟨bin, j, srcURL, sig, hUrl, hBin, hSig, hCheck⟩
    rw [← zero_add j] at hBin hSig
    exact source.tryURLs_of_delivers hUrl hBin hSig hCheck

/-- What the URLs deliver decides about the deadline and the delay. -/
theorem Source.fetchFromURLs_spec (lib : SourceLib K) (env : SourceEnv) (source : Source K)
    (disk : Disk) (err : Option GoError) (hUrls : source.urls ≠ []) :
    ((∃ bin, source.Delivers lib env bin) ∧ (source.fetchFromURLs lib env disk err).source.refresh =
        some (env.now + source.prefetchDelay) ∧
      (source.fetchFromURLs lib env disk err).result = .ok source.prefetchDelay) ∨
    ((∀ bin, ¬ source.Delivers lib env bin) ∧
      (source.fetchFromURLs lib env disk err).source.refresh =
        some (env.now + MinimumPrefetchInterval) ∧
      ∃ err', (source.fetchFromURLs lib env disk err).result = .error err') := by
  -- the loop runs on the source with its deadline for a failure
  let waiting : Source K := { source with refresh := some (env.now + MinimumPrefetchInterval) }
  have hIff := waiting.tryURLs_err_iff lib env { bin := [], sig := [], err := err } hUrls
  unfold fetchFromURLs
  dsimp only
  split
  · next err' hErr =>
    refine .inr ⟨fun bin hBin => ?_, rfl, err', rfl⟩
    have hNone := hIff.mpr ⟨bin, hBin.congr rfl rfl⟩
    rw [hErr] at hNone
    cases hNone
  · next hErr =>
    obtain ⟨bin, hBin⟩ := hIff.mp hErr
    exact .inl ⟨⟨bin, hBin.congr rfl rfl⟩, rfl, rfl⟩

theorem nextInterval_zero (interval : Duration) : nextInterval interval (.ok 0) = interval := by
  rw [nextInterval, if_neg]
  exact fun h => absurd h.1 (by decide)

/-! ## The calls of a pass -/

namespace FetchCall

variable (lib) (now : Time) (call : FetchCall K)

/-- The deadline of the source has come. -/
def Due : Prop := ∃ t, call.source.refresh = some t ∧ t ≤ now

/-- The cache is too old, or cannot be used. -/
def Stale : Prop := (call.cached lib).ttl ≤ 0

/-- The source is due, its cache is too old, and a URL delivers a new list. -/
structure Downloads : Prop where
  due : call.Due now
  urls : call.source.urls ≠ []
  stale : call.Stale lib
  delivers : ∃ bin, call.source.Delivers lib call.env bin

/-- The source can wait for `d` from the start of the pass. -/
structure Waits (d : Duration) : Prop where
  /-- it is not fetched, or there is nothing to fetch it from: it keeps its deadline -/
  kept : ¬ call.Due now ∨ call.source.urls = [] → ∀ t, call.source.refresh = some t → now + d ≤ t
  /-- its cache is fresh for a while -/
  fresh : call.Due now → call.source.urls ≠ [] → ¬ call.Stale lib →
    now + d ≤ call.env.now + (call.cached lib).ttl
  /-- it cannot be downloaded, and is due again soon -/
  failed : call.Due now → call.source.urls ≠ [] → call.Stale lib →
    (∀ bin, ¬ call.source.Delivers lib call.env bin) →
    now + d ≤ call.env.now + MinimumPrefetchInterval
  downloaded : call.Downloads lib now → now + d ≤ call.env.now + call.source.prefetchDelay

theorem due_iff : call.Due now ↔ call.source.refresh.any (decide <| · ≤ now) = true := by
  rw [Option.any_eq_true, Due]
  simp only [decide_eq_true_eq]

instance : Decidable (call.Due now) := decidable_of_iff' _ (call.due_iff now)

/-- The source after its turn in a pass. -/
def afterPass : Source K := if call.Due now then (call.fetched lib).source else call.source

/-- The interval after its turn. -/
def passInterval (interval : Duration) : Duration :=
  if call.Due now then nextInterval interval (call.fetched lib).result else interval

end FetchCall

section Turn

variable {now : Time} {call : FetchCall K}

/-- `fetchFromCache` leaves the deadline, the delay and the URLs alone. -/
theorem Source.fetchFromCache_fixed (lib : SourceLib K) (env : SourceEnv) (source : Source K)
    (disk : Disk) :
    (source.fetchFromCache lib env disk).source.refresh = source.refresh ∧
      (source.fetchFromCache lib env disk).source.prefetchDelay = source.prefetchDelay ∧
      (source.fetchFromCache lib env disk).source.urls = source.urls ∧
      (source.fetchFromCache lib env disk).source.minisignKey = source.minisignKey := by
  rcases source.fetchFromCache_kept lib env disk with h | ⟨bin, -, h⟩ <;>
    rw [h] <;> exact ⟨rfl, rfl, rfl, rfl⟩

theorem FetchCall.fetched_of_noUrls (hUrls : call.source.urls = []) :
    (call.fetched lib).source.refresh = call.source.refresh ∧
      ∀ interval, nextInterval interval (call.fetched lib).result = interval := by
  obtain ⟨hRefresh, -, hSame, -⟩ :=
    call.source.fetchFromCache_fixed lib call.env call.disk
  unfold fetched Source.fetchWithCache
  rw [if_pos (by rw [hSame, hUrls]; rfl)]
  refine ⟨hRefresh, fun interval => ?_⟩
  cases (call.cached lib).result with
  | error err => rfl
  | ok delay => exact nextInterval_zero interval

theorem FetchCall.fetched_of_fresh (hUrls : call.source.urls ≠ []) (hFresh : ¬ call.Stale lib) :
    (call.fetched lib).source.refresh = some (call.env.now + (call.cached lib).ttl) ∧
      (call.fetched lib).result = .ok 0 := by
  obtain ⟨-, -, hSame, -⟩ := call.source.fetchFromCache_fixed lib call.env call.disk
  unfold fetched Source.fetchWithCache
  rw [if_neg (by rw [hSame]; exact fun h => hUrls (length_eq_zero_iff.mp h)),
    if_pos (not_le.mp hFresh)]
  exact ⟨rfl, rfl⟩

theorem FetchCall.fetched_of_stale (hUrls : call.source.urls ≠ []) (hStale : call.Stale lib) :
    ((∃ bin, call.source.Delivers lib call.env bin) ∧
      (call.fetched lib).source.refresh = some (call.env.now + call.source.prefetchDelay) ∧
      (call.fetched lib).result = .ok call.source.prefetchDelay) ∨
    ((∀ bin, ¬ call.source.Delivers lib call.env bin) ∧
      (call.fetched lib).source.refresh = some (call.env.now + MinimumPrefetchInterval) ∧
      ∃ err, (call.fetched lib).result = .error err) := by
  obtain ⟨-, hDelay, hSame, hKey⟩ := call.source.fetchFromCache_fixed lib call.env call.disk
  unfold fetched Source.fetchWithCache
  rw [if_neg (by rw [hSame]; exact fun h => hUrls (length_eq_zero_iff.mp h)),
    if_neg (not_lt.mpr hStale)]
  have hSpec := Source.fetchFromURLs_spec lib call.env
    (call.cached lib).source
    (call.cached lib).disk
    (call.cached lib).err (by rwa [hSame])
  rw [hDelay] at hSpec
  rcases hSpec with ⟨⟨bin, hBin⟩, hRefresh, hResult⟩ | ⟨hNone, hRefresh, hResult⟩
  · exact .inl ⟨⟨bin, hBin.congr hKey hSame⟩, hRefresh, hResult⟩
  · exact .inr ⟨fun bin hBin => hNone bin (hBin.congr hKey.symm hSame.symm), hRefresh, hResult⟩

theorem FetchCall.Downloads.fetched (h : call.Downloads lib now) :
    (call.fetched lib).source.refresh = some (call.env.now + call.source.prefetchDelay) ∧
      (call.fetched lib).result = .ok call.source.prefetchDelay := by
  rcases fetched_of_stale h.urls h.stale with ⟨-, hFetched⟩ | ⟨hNone, -⟩
  · exact hFetched
  · exact absurd h.delivers (not_exists.mpr hNone)

theorem FetchCall.Downloads.waits (h : call.Downloads lib now) {d : Duration}
    (hDelay : now + d ≤ call.env.now + call.source.prefetchDelay) : call.Waits lib now d where
  kept hKept := absurd hKept (not_or.mpr ⟨not_not.mpr h.due, h.urls⟩)
  fresh _ _ hFresh := absurd h.stale hFresh
  failed _ _ _ hNone := absurd h.delivers (not_exists.mpr hNone)
  downloaded _ := hDelay

/-- No deadline that the pass leaves to the source is nearer than `d`. -/
theorem FetchCall.waits_iff {d : Duration} :
    call.Waits lib now d ↔ ∀ t, (call.afterPass lib now).refresh = some t → now + d ≤ t := by
  unfold afterPass
  by_cases hDue : call.Due now
  · rw [if_pos hDue]
    by_cases hUrls : call.source.urls = []
    · rw [(fetched_of_noUrls hUrls).1]
      refine ⟨fun h => h.kept (.inr hUrls), fun h => ⟨fun _ => h, ?_, ?_, ?_⟩⟩
      · exact fun _ hNe => absurd hUrls hNe
      · exact fun _ hNe => absurd hUrls hNe
      · exact fun hLoads => absurd hUrls hLoads.urls
    have hFetched : ¬ (¬ call.Due now ∨ call.source.urls = []) :=
      not_or.mpr ⟨not_not.mpr hDue, hUrls⟩
    by_cases hStale : call.Stale lib
    · rcases fetched_of_stale hUrls hStale with ⟨hSome, hRefresh, -⟩ | ⟨hNone, hRefresh, -⟩
      · have hLoads : call.Downloads lib now := ⟨hDue, hUrls, hStale, hSome⟩
        simp only [hRefresh, some.injEq, forall_eq']
        exact ⟨fun h => h.downloaded hLoads, hLoads.waits⟩
      · simp only [hRefresh, some.injEq, forall_eq']
        refine ⟨fun h => h.failed hDue hUrls hStale hNone, fun h => ⟨?_, ?_, fun _ _ _ _ => h, ?_⟩⟩
        · exact fun hKept => absurd hKept hFetched
        · exact fun _ _ hFresh => absurd hStale hFresh
        · exact fun hLoads => absurd hLoads.delivers (not_exists.mpr hNone)
    · simp only [(fetched_of_fresh hUrls hStale).1, some.injEq, forall_eq']
      refine ⟨fun h => h.fresh hDue hUrls hStale, fun h => ⟨?_, fun _ _ _ => h, ?_, ?_⟩⟩
      · exact fun hKept => absurd hKept hFetched
      · exact fun _ _ hStale' => absurd hStale' hStale
      · exact fun hLoads => absurd hLoads.stale hStale
  · rw [if_neg hDue]
    refine ⟨fun h => h.kept (.inl hDue), fun h => ⟨fun _ => h, ?_, ?_, ?_⟩⟩
    · exact fun hDue' => absurd hDue' hDue
    · exact fun hDue' => absurd hDue' hDue
    · exact fun hLoads => absurd hLoads.due hDue

/-- A download counts for the interval. -/
theorem FetchCall.Downloads.passInterval (h : call.Downloads lib now)
    (hDelay : MinimumPrefetchInterval < call.source.prefetchDelay) (interval : Duration) :
    call.passInterval lib now interval =
      if interval = MinimumPrefetchInterval ∨ call.source.prefetchDelay < interval then
        call.source.prefetchDelay else interval := by
  rw [FetchCall.passInterval, if_pos h.due, h.fetched.2, nextInterval]
  simp only [le_of_lt hDelay, true_and]

/-- Nothing else does. -/
theorem FetchCall.passInterval_of_not_downloads (h : ¬ call.Downloads lib now)
    (interval : Duration) :
    call.passInterval lib now interval = interval := by
  unfold passInterval
  split
  · next hDue =>
    by_cases hUrls : call.source.urls = []
    · exact (fetched_of_noUrls hUrls).2 interval
    by_cases hStale : call.Stale lib
    · rcases fetched_of_stale hUrls hStale with ⟨hSome, -, -⟩ | ⟨-, -, err, hResult⟩
      · exact absurd ⟨hDue, hUrls, hStale, hSome⟩ h
      · rw [hResult, nextInterval]
    · rw [(fetched_of_fresh hUrls hStale).2, nextInterval_zero]
  · rfl

end Turn

/-! ## The delays of sources -/

/-- What `NewSource` makes of the configured delays. -/
def LongDelays (sources : List (Source K)) : Prop :=
  ∀ source ∈ sources, DefaultPrefetchDelay ≤ source.prefetchDelay

theorem Source.prefetchDelay_fetchWithCache (lib : SourceLib K) (env : SourceEnv)
    (source : Source K) (disk : Disk) :
    (source.fetchWithCache lib env disk).source.prefetchDelay = source.prefetchDelay := by
  obtain ⟨-, hDelay, -, -⟩ := source.fetchFromCache_fixed lib env disk
  unfold fetchWithCache
  dsimp only
  split
  · exact hDelay
  · split
    · exact hDelay
    · unfold fetchFromURLs
      dsimp only
      split <;> exact hDelay

/-- Every source that the proxy has. -/
theorem longDelays_reach {s : SourcesState K} (hs : (sourcesMachine lib).Reach Machine.anyStep s) :
    LongDelays s.sources := by
  refine (sources_of_reach (fun _ _ hDelay => hDelay) (fun call h => ?_) hs).1
  rw [fetched, Source.prefetchDelay_fetchWithCache]
  exact h

/-! ## A whole pass -/

/-- The calls of a pass, one for each source; one that is not due leaves the disk alone. -/
def passCalls (lib : SourceLib K) (now : Time) :
    List (Source K × SourceEnv) → Disk → List (FetchCall K)
  | [], _ => []
  | (source, env) :: rest, disk =>
    let call : FetchCall K := { source, disk, env }
    call :: passCalls lib now rest (if call.Due now then (call.fetched lib).disk else disk)

theorem map_source_passCalls (lib : SourceLib K) (now : Time)
    (entries : List (Source K × SourceEnv)) :
    ∀ disk, (passCalls lib now entries disk).map (·.source) = entries.map fst := by
  induction entries with
  | nil => exact fun _ => rfl
  | cons entry rest ih =>
    intro disk
    rw [passCalls, map_cons, ih, map_cons]

/-- `PrefetchSources` on all sources, in order. -/
def prefetchAll (lib : SourceLib K) (now : Time) (entries : List (Source K × SourceEnv))
    (disk : Disk) : Prefetched K :=
  prefetchSources lib now ((range entries.length).zip (entries.map snd))
    (entries.map fst) disk

variable (lib) in
/-- The turn of one source: it is fetched if it is due, and takes its place again. -/
theorem prefetchLoop_turn (now : Time) (front rest : List (Source K)) (call : FetchCall K)
    (which : List (Nat × SourceEnv)) (interval : Duration) :
    ∃ calls, prefetchLoop lib now ((front.length, call.env) :: which) (front ++ call.source :: rest)
        call.disk interval =
      { prefetchLoop lib now which (front ++ call.afterPass lib now :: rest)
          (if call.Due now then (call.fetched lib).disk else call.disk)
          (call.passInterval lib now interval) with calls := calls } := by
  have hAt : (front ++ call.source :: rest)[front.length]? = some call.source := by
    rw [getElem?_append_right (Nat.le_refl _), Nat.sub_self, getElem?_cons_zero]
  have hSet : ∀ fetched, (front ++ call.source :: rest).set front.length fetched =
      front ++ fetched :: rest := by
    intro fetched
    rw [set_append_right _ _ (Nat.le_refl _), Nat.sub_self, set_cons_zero]
  have hDue := call.due_iff now
  rw [prefetchLoop, hAt]
  unfold afterPass passInterval
  by_cases h : call.Due now
  · simp only [filter_some, hDue.mp h, h, if_true, hSet]
    exact ⟨_, rfl⟩
  · simp only [filter_some, hDue.not.mp h, h, if_false, Bool.false_eq_true]
    exact ⟨_, rfl⟩

/-- A pass from a source on: each source takes its turn once. -/
theorem prefetchLoop_spec (now : Time) (entries : List (Source K × SourceEnv)) :
    ∀ (front : List (Source K)) (disk : Disk) (interval : Duration), (prefetchLoop lib now
          ((range' front.length entries.length).zip (entries.map snd))
          (front ++ entries.map fst) disk interval).sources =
        front ++ (passCalls lib now entries disk).map (·.afterPass lib now) ∧
      (prefetchLoop lib now
          ((range' front.length entries.length).zip (entries.map snd))
          (front ++ entries.map fst) disk interval).interval =
        (passCalls lib now entries disk).foldl
          (fun interval call => call.passInterval lib now interval) interval := by
  induction entries with
  | nil =>
    intro front disk interval
    exact ⟨rfl, rfl⟩
  | cons entry rest ih =>
    obtain ⟨source, env⟩ := entry
    intro front disk interval
    rw [length_cons, range'_succ, map_cons, map_cons, zip_cons_cons,
      passCalls, map_cons, foldl_cons]
    -- `call` is the turn of the first source
    obtain ⟨call, rfl, rfl, rfl⟩ : ∃ call : FetchCall K,
        source = call.source ∧ disk = call.disk ∧ env = call.env :=
      ⟨{ source, disk, env }, rfl, rfl, rfl⟩
    obtain ⟨calls, hTurn⟩ := prefetchLoop_turn lib now front (rest.map fst) call
      ((range' (front.length + 1) rest.length).zip (rest.map snd)) interval
    have hRest := ih (front ++ [call.afterPass lib now])
      (if call.Due now then (call.fetched lib).disk else call.disk)
      (call.passInterval lib now interval)
    rw [length_append, length_singleton, append_assoc, append_assoc] at hRest
    rw [hTurn]
    exact hRest

theorem prefetchAll_spec (lib : SourceLib K) (now : Time) (entries : List (Source K × SourceEnv))
    (disk : Disk) :
    (prefetchAll lib now entries disk).sources =
        (passCalls lib now entries disk).map (·.afterPass lib now) ∧
      (prefetchAll lib now entries disk).interval = (passCalls lib now entries disk).foldl
          (fun interval call => call.passInterval lib now interval) MinimumPrefetchInterval := by
  rw [prefetchAll, prefetchSources, range_eq_range']
  exact prefetchLoop_spec now entries [] disk MinimumPrefetchInterval

/-- The shortest delay of the calls that download, or the minimum if there is none. -/
inductive Shortest (lib : SourceLib K) (now : Time) (calls : List (FetchCall K)) :
    Duration → Prop where
  | none : (∀ call ∈ calls, ¬ call.Downloads lib now) →
      Shortest lib now calls MinimumPrefetchInterval
  | some {call : FetchCall K} : call ∈ calls → call.Downloads lib now →
      (∀ other ∈ calls, other.Downloads lib now →
        call.source.prefetchDelay ≤ other.source.prefetchDelay) →
      Shortest lib now calls call.source.prefetchDelay

theorem Shortest.append {now : Time} {calls : List (FetchCall K)} {interval : Duration}
    (h : Shortest lib now calls interval) {next : FetchCall K}
    (hDelay : ∀ call ∈ calls ++ [next], MinimumPrefetchInterval < call.source.prefetchDelay) :
    Shortest lib now (calls ++ [next]) (next.passInterval lib now interval) := by
  have hNext := hDelay next (mem_append_right _ mem_cons_self)
  have hOld : ∀ {call}, call ∈ calls → call ∈ calls ++ [next] := fun h => mem_append_left _ h
  have hMem : next ∈ calls ++ [next] := mem_append_right _ mem_cons_self
  by_cases hLoads : next.Downloads lib now
  · rw [hLoads.passInterval hNext]
    cases h with
    | none hNone =>
      refine .some hMem hLoads fun other hOther hOtherLoads => ?_
      rcases mem_append.mp hOther with hOther | hOther
      · exact absurd hOtherLoads (hNone other hOther)
      · rw [mem_singleton.mp hOther]
    | @some call hCall hCallLoads hLeast =>
      have hNot : call.source.prefetchDelay ≠ MinimumPrefetchInterval :=
        ne_of_gt (hDelay call (hOld hCall))
      split
      · next hLess =>
        have hLess := hLess.resolve_left hNot
        refine .some hMem hLoads fun other hOther hOtherLoads => ?_
        rcases mem_append.mp hOther with hOther | hOther
        · exact le_trans (le_of_lt hLess) (hLeast other hOther hOtherLoads)
        · rw [mem_singleton.mp hOther]
      · next hMore =>
        have hMore := not_lt.mp fun hLess => hMore (.inr hLess)
        refine .some (hOld hCall) hCallLoads fun other hOther hOtherLoads => ?_
        rcases mem_append.mp hOther with hOther | hOther
        · exact hLeast other hOther hOtherLoads
        · rw [mem_singleton.mp hOther]
          exact hMore
  · rw [passInterval_of_not_downloads hLoads]
    have hOther : ∀ other ∈ calls ++ [next], other.Downloads lib now → other ∈ calls := by
      intro other hOther hOtherLoads
      rcases mem_append.mp hOther with hOther | hOther
      · exact hOther
      · exact absurd (mem_singleton.mp hOther ▸ hOtherLoads) hLoads
    cases h with
    | none hNone => exact .none fun other h hLoads => hNone other (hOther other h hLoads) hLoads
    | some hCall hCallLoads hLeast =>
      exact .some (hOld hCall) hCallLoads fun other h hLoads =>
        hLeast other (hOther other h hLoads) hLoads

theorem passInterval_spec (lib : SourceLib K) (now : Time) {calls : List (FetchCall K)}
    (hDelay : ∀ call ∈ calls, MinimumPrefetchInterval < call.source.prefetchDelay) :
    Shortest lib now calls (calls.foldl
      (fun interval call => call.passInterval lib now interval) MinimumPrefetchInterval) := by
  induction calls using reverseRecOn with
  | nil => exact .none fun call h => absurd h not_mem_nil
  | append_singleton calls next ih =>
    rw [foldl_append, foldl_cons, foldl_nil]
    exact (ih fun call h => hDelay call (mem_append_left _ h)).append hDelay

/-- The pass downloads nothing, or it downloads a source for whose delay all others can
wait. -/
def InTime (lib : SourceLib K) (now : Time) (calls : List (FetchCall K)) : Prop :=
  (∀ call ∈ calls, ¬ call.Downloads lib now) ∨ ∃ call ∈ calls, call.Downloads lib now ∧
      ∀ other ∈ calls, other.Waits lib now call.source.prefetchDelay

/-- The interval of a pass is at most the time until each deadline, or the minimum, exactly
if the pass downloads nothing or a source for whose delay all others can wait. -/
theorem prefetch_interval_iff (lib : SourceLib K) (now : Time)
    (entries : List (Source K × SourceEnv)) (disk : Disk)
    (hDelay : LongDelays (entries.map fst)) :
    (∀ source ∈ (prefetchAll lib now entries disk).sources, ∀ t, source.refresh = some t →
      (prefetchAll lib now entries disk).interval ≤ max MinimumPrefetchInterval (t - now)) ↔
    InTime lib now (passCalls lib now entries disk) := by
  obtain ⟨hSources, hInterval⟩ := prefetchAll_spec lib now entries disk
  have hLong : ∀ call ∈ passCalls lib now entries disk,
      MinimumPrefetchInterval < call.source.prefetchDelay := by
    intro call hCall
    have hMem : call.source ∈ entries.map fst := by
      rw [← map_source_passCalls lib now entries disk]
      exact mem_map_of_mem hCall
    exact lt_of_lt_of_le (by decide) (hDelay _ hMem)
  have hShortest := passInterval_spec lib now hLong
  rw [← hInterval] at hShortest
  rw [hSources]
  generalize (prefetchAll lib now entries disk).interval = interval at hShortest
  constructor
  · intro hBound
    cases hShortest with
    | none hNone => exact .inl hNone
    | @some call hCall hLoads _ =>
      refine .inr ⟨call, hCall, hLoads, fun other hOther => waits_iff.mpr fun t hRefresh => ?_⟩
      have hMax := hBound _ (mem_map_of_mem hOther) t hRefresh
      -- a delay is longer than the minimum, so the minimum does not help
      have hLe := (le_max_iff.mp hMax).resolve_left (not_le.mpr (hLong call hCall))
      exact le_sub_iff_add_le'.mp hLe
  · intro hInTime source hSource t hRefresh
    cases hShortest with
    | none => exact le_max_left _ _
    | @some call hCall hLoads hLeast =>
      obtain ⟨other, hOther, rfl⟩ := mem_map.mp hSource
      rcases hInTime with hNone | ⟨first, hFirst, hFirstLoads, hAll⟩
      · exact absurd hLoads (hNone call hCall)
      · have hLater := le_sub_iff_add_le'.mpr (waits_iff.mp (hAll other hOther) t hRefresh)
        exact le_max_of_le_right (le_trans (hLeast first hFirst hFirstLoads) hLater)

/-! ### Two lists -/

/-- A list that is due, from one URL. -/
def dueSource (name path : String) : Source Unit :=
  { name := name, urls := [{ host := "", path := path }], format := .v2, bin := []
    minisignKey := some (), cacheFile := name, cacheTTL := DefaultPrefetchDelay
    prefetchDelay := DefaultPrefetchDelay, refresh := some 0, namePrefix := "" }

/-- Everything is delivered, except what is at `/down`. -/
def oneDown : SourceEnv where
  now := 0
  cacheNow := 0
  updateNow := 0
  writeNow := 0
  fault _ := none
  before _ disk := disk
  get _ url := if url.path = "/down" then ([], some (.plain "404")) else ([1, 2, 3], none)

def bothUp : List (Source Unit × SourceEnv) :=
  [(dueSource "public-resolvers.md" "/resolvers", oneDown),
    (dueSource "relays.md" "/relays", oneDown)]

def secondDown : List (Source Unit × SourceEnv) :=
  [(dueSource "public-resolvers.md" "/resolvers", oneDown),
    (dueSource "relays.md" "/down", oneDown)]

def emptyDisk : Disk := fun _ => none

theorem bothUp_downloads : ∀ call ∈ passCalls echoLib 0 bothUp emptyDisk,
    call.Downloads echoLib 0 ∧ call.env.now = 0 ∧
      call.source.prefetchDelay = DefaultPrefetchDelay := by
  refine forall_mem_cons.mpr ⟨?_, forall_mem_cons.mpr ⟨?_, fun _ h => absurd h not_mem_nil⟩⟩
  all_goals
    refine ⟨⟨⟨0, rfl, le_refl _⟩, cons_ne_nil _ _, ?_, ?_⟩, rfl, rfl⟩
    · unfold Stale
      decide +kernel
    · exact ⟨[1, 2, 3], 0, _, [1, 2, 3], rfl, rfl, rfl, rfl⟩

/-- Both are downloaded, and can wait for a day. -/
theorem prefetch_interval_both :
    InTime echoLib 0 (passCalls echoLib 0 bothUp emptyDisk) ∧
      ∀ source ∈ (prefetchAll echoLib 0 bothUp emptyDisk).sources, ∀ t, source.refresh = some t →
        (prefetchAll echoLib 0 bothUp emptyDisk).interval ≤
          max MinimumPrefetchInterval (t - 0) := by
  have hDelays : LongDelays (bothUp.map fst) := by
    unfold LongDelays
    decide
  have hInTime : InTime echoLib 0 (passCalls echoLib 0 bothUp emptyDisk) := by
    refine .inr ⟨_, mem_cons_self, (bothUp_downloads _ mem_cons_self).1, fun other hOther => ?_⟩
    obtain ⟨hLoads, hNow, hDelay⟩ := bothUp_downloads other hOther
    refine hLoads.waits ?_
    rw [hNow, hDelay]
    exact le_refl _
  exact ⟨hInTime, (prefetch_interval_iff echoLib 0 bothUp emptyDisk hDelays).mpr hInTime⟩

/-- The second one cannot be downloaded and is due again after ten minutes; the next pass is
after a day. -/
theorem failed_source_waits_a_day :
    (prefetchAll echoLib 0 secondDown emptyDisk).sources.map (·.refresh) =
        [some DefaultPrefetchDelay, some MinimumPrefetchInterval] ∧
      (prefetchAll echoLib 0 secondDown emptyDisk).interval = DefaultPrefetchDelay ∧
      ¬ (prefetchAll echoLib 0 secondDown emptyDisk).interval ≤
        max MinimumPrefetchInterval (MinimumPrefetchInterval - 0) := by
  decide +kernel

end DnscryptProxy
