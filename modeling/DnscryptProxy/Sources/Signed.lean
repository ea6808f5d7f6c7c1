import DnscryptProxy.Base.Run
import DnscryptProxy.Sources.Source

/-!
# Only signed lists

The content of a source is written at two places: by `fetchFromCache`, from a file that
anybody can have written, and by `updateCache`, with what a loop over URLs leaves in its
variables. Both only let through what verifies under the key of the source.

* `tryURLs_verified` — if the loop leaves no error, what it leaves verifies;
* `fetchWithCache_kept` — one call: what it puts in place of the list;
* `signed_sources_only` — over every sequence of calls.
-/

namespace DnscryptProxy

open Base List Option Machine

variable {K : Type*} {lib : SourceLib K}

/-! ## What a source may hold -/

/-- The list `bin` has a signature under the key of the source. -/
def Source.Verifies (lib : SourceLib K) (source : Source K) (bin : Bytes) : Prop :=
  ∃ sig, source.checkSignature lib bin sig = none

/-- Nothing, or a list that verifies. -/
def Source.MayHold (lib : SourceLib K) (source : Source K) (bin : Bytes) : Prop :=
  bin = [] ∨ source.Verifies lib bin

theorem Source.checkSignature_congr {source source' : Source K}
    (h : source'.minisignKey = source.minisignKey) (bin sig : Bytes) :
    source'.checkSignature lib bin sig = source.checkSignature lib bin sig := by
  unfold checkSignature
  rw [h]

theorem Source.MayHold.congr {source source' : Source K} {bin : Bytes}
    (h : source'.minisignKey = source.minisignKey) (hHold : source.MayHold lib bin) :
    source'.MayHold lib bin := by
  refine hHold.imp_right ?_
  rintro ⟨sig, hSig⟩
  exact ⟨sig, (checkSignature_congr h bin sig).trans hSig⟩

/-! ## One call -/

section Call

variable {env : SourceEnv}

/-- The cache file holds `bin`, with a valid signature next to it. -/
def Source.CacheHolds (lib : SourceLib K) (env : SourceEnv) (source : Source K) (disk : Disk)
    (bin : Bytes) : Prop :=
  ∃ sig, env.readFile .readBin (env.before .readBin disk) source.cacheFile = .ok bin ∧
    env.readFile .readSig (env.before .readSig (env.before .readBin disk))
      (source.cacheFile ++ ".minisig") = .ok sig ∧
    source.checkSignature lib bin sig = none

/-- `fetchFromCache` changes nothing but the list, and that only to the content of the
cache file. -/
theorem Source.fetchFromCache_kept (lib : SourceLib K) (env : SourceEnv) (source : Source K)
    (disk : Disk) :
    (source.fetchFromCache lib env disk).source = source ∨
      ∃ bin, source.CacheHolds lib env disk bin ∧
        (source.fetchFromCache lib env disk).source = { source with bin := bin } := by
  unfold fetchFromCache
  dsimp only
  cases hBin : env.readFile .readBin (env.before .readBin disk) source.cacheFile with
  | error err => exact .inl rfl
  | ok bin =>
    cases hSig : env.readFile .readSig (env.before .readSig (env.before .readBin disk))
        (source.cacheFile ++ ".minisig") with
    | error err => exact .inl rfl
    | ok sig =>
      dsimp only
      -- the list is installed right after the check, before the age of the file is known
      cases hCheck : source.checkSignature lib bin sig with
      | some err => exact .inl rfl
      | none =>
        refine .inr ⟨bin, ⟨sig, hBin, hSig, hCheck⟩, ?_⟩
        dsimp only
        split <;> rfl

/-- Some URL delivers a list and its valid signature. -/
def Source.Delivers (lib : SourceLib K) (env : SourceEnv) (source : Source K) (bin : Bytes) :
    Prop :=
  ∃ i srcURL sig, source.urls[i]? = some srcURL ∧ env.get i srcURL = (bin, none) ∧
    env.get i srcURL.minisig = (sig, none) ∧ source.checkSignature lib bin sig = none

/-- Attempt `i` gets a list and its valid signature from the URL. -/
structure Source.PairAt (lib : SourceLib K) (env : SourceEnv) (source : Source K) (i : Nat)
    (srcURL : Url) (bin sig : Bytes) : Prop where
  list : env.get i srcURL = (bin, none)
  signature : env.get i srcURL.minisig = (sig, none)
  check : source.checkSignature lib bin sig = none

/-- One attempt ends the loop with a valid pair, or leaves its error to the next one. -/
theorem Source.tryURLs_cons (lib : SourceLib K) (env : SourceEnv) (source : Source K) (i : Nat)
    (srcURL : Url) (rest : List Url) (a : Attempt) :
    (∃ bin sig, source.PairAt lib env i srcURL bin sig ∧
        source.tryURLs lib env i (srcURL :: rest) a = { bin, sig, err := none }) ∨
      ∃ a' : Attempt, a'.err ≠ none ∧
        source.tryURLs lib env i (srcURL :: rest) a = source.tryURLs lib env (i + 1) rest a' := by
  rw [tryURLs]
  cases hBin : env.get i srcURL with
  | mk bin err =>
  cases err with
  | some err => exact .inr ⟨_, some_ne_none err, rfl⟩
  | none =>
  cases hSig : env.get i srcURL.minisig with
  | mk sig err =>
  cases err with
  | some err => exact .inr ⟨_, some_ne_none err, rfl⟩
  | none =>
  dsimp only
  cases hCheck : source.checkSignature lib bin sig with
  | some err => exact .inr ⟨_, some_ne_none err, rfl⟩
  | none => exact .inl ⟨bin, sig, ⟨hBin, hSig, hCheck⟩, rfl⟩

theorem Source.tryURLs_verified (source : Source K) {urls : List Url} :
    ∀ {i : Nat} {a : Attempt}, urls ≠ [] → (source.tryURLs lib env i urls a).err = none →
      ∃ j srcURL, urls[j]? = some srcURL ∧ source.PairAt lib env (i + j) srcURL
        (source.tryURLs lib env i urls a).bin (source.tryURLs lib env i urls a).sig := by
  induction urls with
  | nil =>
    intro i a hNe
    exact absurd rfl hNe
  | cons srcURL rest ih =>
    intro i a _ hErr
    rcases source.tryURLs_cons lib env i srcURL rest a with
      ⟨bin, sig, hPair, hEnd⟩ | ⟨a', hFailed, hNext⟩
    · rw [hEnd]
      exact ⟨0, srcURL, rfl, hPair⟩
    · -- an attempt that failed is followed by another, or its error is left
      rw [hNext] at hErr ⊢
      have hRest : rest ≠ [] := by
        rintro rfl
        exact hFailed hErr
      obtain ⟨j, url, hUrl, hPair⟩ := ih hRest hErr
      refine ⟨j + 1, url, hUrl, ?_⟩
      rwa [Nat.add_assoc, Nat.add_comm 1 j] at hPair

theorem Source.fetchFromURLs_kept (lib : SourceLib K) (env : SourceEnv) (source : Source K)
    (disk : Disk) (err : Option GoError) (hUrls : source.urls ≠ []) :
    (source.fetchFromURLs lib env disk err).source.minisignKey = source.minisignKey ∧
      ((source.fetchFromURLs lib env disk err).source.bin = source.bin ∨
        source.Delivers lib env (source.fetchFromURLs lib env disk err).source.bin) := by
  unfold fetchFromURLs
  dsimp only
  split
  · exact ⟨rfl, .inl rfl⟩
  · next hErr =>
    -- no error is left, so what is installed is the pair of the attempt that verified
    obtain ⟨j, srcURL, hUrl, hBin, hSig, hCheck⟩ := tryURLs_verified _ hUrls hErr
    rw [Nat.zero_add] at hBin hSig
    exact ⟨rfl, .inr ⟨j, srcURL, _, hUrl, hBin, hSig, hCheck⟩⟩

theorem Source.Delivers.congr {source source' : Source K} {bin : Bytes}
    (hKey : source'.minisignKey = source.minisignKey) (hUrls : source'.urls = source.urls)
    (h : source'.Delivers lib env bin) : source.Delivers lib env bin := by
  obtain ⟨i, srcURL, sig, hUrl, hBin, hSig, hCheck⟩ := h
  rw [hUrls] at hUrl
  rw [checkSignature_congr hKey] at hCheck
  exact ⟨i, srcURL, sig, hUrl, hBin, hSig, hCheck⟩

theorem Source.fetchWithCache_kept (lib : SourceLib K) (env : SourceEnv) (source : Source K)
    (disk : Disk) :
    (source.fetchWithCache lib env disk).source.minisignKey = source.minisignKey ∧
      ((source.fetchWithCache lib env disk).source.bin =
          (source.fetchFromCache lib env disk).source.bin ∨
        source.Delivers lib env (source.fetchWithCache lib env disk).source.bin) := by
  have hCached := source.fetchFromCache_kept lib env disk
  have hKey : (source.fetchFromCache lib env disk).source.minisignKey = source.minisignKey := by
    rcases hCached with h | ⟨bin, -, h⟩ <;> rw [h]
  have hUrls : (source.fetchFromCache lib env disk).source.urls = source.urls := by
    rcases hCached with h | ⟨bin, -, h⟩ <;> rw [h]
  -- from here on only the source that the cache left matters
  unfold fetchWithCache
  generalize source.fetchFromCache lib env disk = cached at hKey hUrls
  dsimp only
  split
  · exact ⟨hKey, .inl rfl⟩
  · next hSome =>
    split
    · exact ⟨hKey, .inl rfl⟩
    · have hNe : cached.source.urls ≠ [] := fun h => hSome (by rw [h]; rfl)
      have hKept := cached.source.fetchFromURLs_kept lib env cached.disk cached.err hNe
      exact ⟨hKept.1.trans hKey, hKept.2.imp_right (·.congr hKey hUrls)⟩

end Call

/-! ## Sequences of calls -/

namespace FetchCall

/-- The lists that the source holds during the call: before it, after the cache was read,
and at its end. -/
def bins (lib : SourceLib K) (call : FetchCall K) : List Bytes :=
  [call.source.bin, (call.cached lib).source.bin, (call.fetched lib).source.bin]

/-- What is required of a call. Where no URL delivers a valid pair, the list stays or
becomes that of the cache file. -/
structure Sound (lib : SourceLib K) (call : FetchCall K) : Prop where
  bins : ∀ bin ∈ call.bins lib, call.source.MayHold lib bin
  refused : (∀ bin, ¬call.source.Delivers lib call.env bin) →
    (call.fetched lib).source.bin = call.source.bin ∨
      call.source.CacheHolds lib call.env call.disk (call.fetched lib).source.bin

/-- A call for a source that holds what it may. -/
theorem sound (call : FetchCall K) (h : call.source.MayHold lib call.source.bin) :
    call.Sound lib := by
  have hCached : (call.cached lib).source.bin = call.source.bin ∨
      call.source.CacheHolds lib call.env call.disk
        (call.cached lib).source.bin := by
    rcases call.source.fetchFromCache_kept lib call.env call.disk with
      hSame | ⟨bin, hHolds, hBin⟩
    · exact .inl (by rw [hSame])
    · exact .inr (by rw [hBin]; exact hHolds)
  have hCachedMay : call.source.MayHold lib
      (call.cached lib).source.bin := by
    rcases hCached with hSame | ⟨sig, -, -, hCheck⟩
    · rw [hSame]
      exact h
    · exact .inr ⟨sig, hCheck⟩
  have hFetched := (call.source.fetchWithCache_kept lib call.env call.disk).2
  constructor
  · intro bin hBin
    simp only [FetchCall.bins, mem_cons, not_mem_nil, or_false] at hBin
    rcases hBin with rfl | rfl | rfl
    · exact h
    · exact hCachedMay
    · rcases hFetched with hSame | ⟨-, -, sig, -, -, -, hCheck⟩
      · show call.source.MayHold lib (call.source.fetchWithCache lib call.env call.disk).source.bin
        rw [hSame]
        exact hCachedMay
      · exact .inr ⟨sig, hCheck⟩
  · intro hNone
    rcases hFetched with hSame | hDelivers
    · show (call.source.fetchWithCache lib call.env call.disk).source.bin = _ ∨
        call.source.CacheHolds lib call.env call.disk
          (call.source.fetchWithCache lib call.env call.disk).source.bin
      rw [hSame]
      exact hCached
    · exact absurd hDelivers (hNone _)

theorem Sound.fetched {call : FetchCall K} (h : call.Sound lib) :
    (call.fetched lib).source.MayHold lib (call.fetched lib).source.bin :=
  .congr (call.source.fetchWithCache_kept lib call.env call.disk).1
    (h.bins _ (by simp [FetchCall.bins]))

end FetchCall

/-- The sources made so far, the disk, and every call of `fetchWithCache`. -/
structure SourcesState (K : Type*) where
  sources : List (Source K)
  disk : Disk
  calls : List (FetchCall K)

inductive SourcesLabel where
  | newSource (cfg : SourceConfig) (env : SourceEnv)
  /-- `fetchWithCache` on the source of that number -/
  | fetch (i : Nat) (env : SourceEnv)
  | prefetch (now : Time) (which : List (Nat × SourceEnv))
  /-- others write to the disk -/
  | outside (disk : Disk)

def sourcesMachine (lib : SourceLib K) : Machine (SourcesState K) SourcesLabel where
  init s := s.sources = [] ∧ s.calls = []
  step s
    | .newSource cfg env =>
      let made := DnscryptProxy.newSource lib env cfg s.disk
      some { sources := s.sources ++ [made.source], disk := made.disk
             calls := s.calls ++ made.call.toList }
    | .fetch i env =>
      s.sources[i]?.map fun source =>
        let call : FetchCall K := { source, disk := s.disk, env }
        { sources := s.sources.set i (call.fetched lib).source, disk := (call.fetched lib).disk
          calls := s.calls ++ [call] }
    | .prefetch now which =>
      let pass := prefetchSources lib now which s.sources s.disk
      some { sources := pass.sources, disk := pass.disk, calls := s.calls ++ pass.calls }
    | .outside disk => some { s with disk := disk }

/-! ### The rule for all sources -/

section Rule

variable {Q : Source K → Prop}
  (hNew : ∀ source, source.bin = [] → DefaultPrefetchDelay ≤ source.prefetchDelay → Q source)
  (hCall : ∀ call : FetchCall K, Q call.source → Q (call.fetched lib).source)

theorem forall_mem_set {sources : List (Source K)} {source : Source K} (h : ∀ s ∈ sources, Q s)
    (i : Nat) (hSource : Q source) : ∀ s ∈ sources.set i source, Q s := by
  intro other hOther
  rcases mem_or_eq_of_mem_set hOther with hOld | rfl
  · exact h other hOld
  · exact hSource

include hCall

/-- A pass over some sources, by induction on them. -/
theorem prefetchLoop_keeps (now : Time) (which : List (Nat × SourceEnv)) :
    ∀ (sources : List (Source K)) (disk : Disk) (interval : Duration), (∀ s ∈ sources, Q s) →
      (∀ s ∈ (prefetchLoop lib now which sources disk interval).sources, Q s) ∧
        ∀ call ∈ (prefetchLoop lib now which sources disk interval).calls, Q call.source := by
  induction which with
  | nil =>
    intro sources disk interval h
    exact ⟨h, fun _ hMem => (nomatch hMem)⟩
  | cons next rest ih =>
    obtain ⟨i, env⟩ := next
    intro sources disk interval h
    unfold prefetchLoop
    split
    · exact ih sources disk interval h
    · next source hDue =>
      have hSource := h source (mem_of_getElem? (filter_eq_some_iff.mp hDue).1)
      -- the loop goes on with the fetched source in its place
      obtain ⟨hSources, hCalls⟩ := ih (sources.set i _) _ _
        (forall_mem_set h i (hCall { source := source, disk := disk, env := env } hSource))
      exact ⟨hSources, forall_mem_cons.mpr ⟨hSource, hCalls⟩⟩

include hNew

theorem newSource_keeps (env : SourceEnv) (cfg : SourceConfig) (disk : Disk) :
    Q (newSource lib env cfg disk).source ∧
      ∀ call ∈ (newSource lib env cfg disk).call, Q call.source := by
  unfold newSource
  split
  · exact ⟨hNew _ rfl (Int.le_max_left _ _), fun _ h => (nomatch h)⟩
  · split
    · exact ⟨hNew _ rfl (Int.le_max_left _ _), fun _ h => (nomatch h)⟩
    · refine ⟨hCall _ (hNew _ rfl (Int.le_max_left _ _)), fun call hMem => ?_⟩
      obtain rfl := some.inj hMem
      exact hNew _ rfl (Int.le_max_left _ _)

/-- What a new source has and every call keeps, all sources have, and had in every call. -/
theorem sources_of_reach {s : SourcesState K} (hs : (sourcesMachine lib).Reach anyStep s) :
    (∀ source ∈ s.sources, Q source) ∧ ∀ call ∈ s.calls, Q call.source := by
  refine hs.invariant (P := fun s => (∀ source ∈ s.sources, Q source) ∧
    ∀ call ∈ s.calls, Q call.source) ?_ ?_
  · rintro s ⟨hSources, hCalls⟩
    rw [hSources, hCalls]
    exact ⟨fun _ h => (nomatch h), fun _ h => (nomatch h)⟩
  rintro s l s' ⟨h, hCalls⟩ _ hStep
  cases l with
  | newSource cfg env =>
    obtain rfl := some.inj hStep
    obtain ⟨hSource, hMade⟩ := newSource_keeps hNew hCall env cfg s.disk
    exact ⟨forall_mem_append.mpr ⟨h, forall_mem_singleton.mpr hSource⟩,
      forall_mem_append.mpr ⟨hCalls, fun call hMem => hMade call (mem_toList.mp hMem)⟩⟩
  | fetch i env =>
    obtain ⟨source, hMem, rfl⟩ := map_eq_some_iff.mp hStep
    have hSource := h source (mem_of_getElem? hMem)
    exact ⟨forall_mem_set h i (hCall { source := source, disk := s.disk, env := env } hSource),
      forall_mem_append.mpr ⟨hCalls, forall_mem_singleton.mpr hSource⟩⟩
  | prefetch now which =>
    obtain rfl := some.inj hStep
    obtain ⟨hSources, hPass⟩ := prefetchLoop_keeps hCall now which s.sources s.disk
      MinimumPrefetchInterval h
    exact ⟨hSources, forall_mem_append.mpr ⟨hCalls, hPass⟩⟩
  | outside disk =>
    obtain rfl := some.inj hStep
    exact ⟨h, hCalls⟩

end Rule

/-- After any sequence of `NewSource`, `fetchWithCache` and `PrefetchSources`, whatever is in
the cache files and whatever the URLs deliver: a source holds nothing or a list that verifies
under its key, now and at every moment of every call. A call in which no URL delivers a
valid pair leaves the list alone or replaces it by the verified content of the cache file. -/
theorem signed_sources_only {s : SourcesState K}
    (hs : (sourcesMachine lib).Reach anyStep s) :
    (∀ source ∈ s.sources, source.MayHold lib source.bin) ∧
      ∀ call ∈ s.calls, (∀ bin ∈ call.bins lib, call.source.MayHold lib bin) ∧
        ((∀ bin, ¬call.source.Delivers lib call.env bin) →
          (call.fetched lib).source.bin = call.source.bin ∨
            call.source.CacheHolds lib call.env call.disk (call.fetched lib).source.bin) := by
  obtain ⟨hSources, hCalls⟩ := sources_of_reach
    (Q := fun source => source.MayHold lib source.bin) (fun _ hEmpty _ => .inl hEmpty)
    (fun call h => (call.sound h).fetched) hs
  exact ⟨hSources, fun call hCall =>
    ⟨(call.sound (hCalls call hCall)).bins, (call.sound (hCalls call hCall)).refused⟩⟩

/-! ### A mirror that lies -/

/-- Signatures that repeat the list, and URLs that are paths. -/
def echoLib : SourceLib Unit where
  newPublicKey _ := .ok ()
  verify _ bin sig := if sig = bin then none else some (.plain "invalid signature")
  parseURL path := some { host := "", path := path }

/-- The first of two mirrors delivers a list that is not the one that was signed. -/
def lyingMirror : SourceEnv where
  now := 0
  cacheNow := 0
  updateNow := 0
  writeNow := 0
  fault _ := none
  before _ disk := disk
  get _ url := if url.path = "/first" then ([6, 6, 6], none) else ([1, 2, 3], none)

def mirrored : SourceConfig :=
  { name := "public-resolvers", urls := ["/first", "/second"], minisignKeyStr := ""
    cacheFile := "public-resolvers.md", formatStr := "v2", refreshDelay := 0, cacheTTL := 0
    namePrefix := "" }

/-- Somebody has written to the cache file. -/
def tamperedDisk : Disk := fun name =>
  if name = "public-resolvers.md" then some { content := [6, 6, 6], modTime := 0 } else none

def mirroredRun : List SourcesLabel := [.outside tamperedDisk, .newSource mirrored lyingMirror]

def noSources : SourcesState Unit := { sources := [], disk := fun _ => none, calls := [] }

theorem signed_sources_only_mirrored :
    ∃ s, (sourcesMachine echoLib).exec noSources mirroredRun = some s ∧
      s.sources.map (·.bin) = [[1, 2, 3]] ∧
      ∀ source ∈ s.sources, source.MayHold echoLib source.bin := by
  have hBins : ((sourcesMachine echoLib).exec noSources mirroredRun).map
      (fun s => s.sources.map (·.bin)) = some [[1, 2, 3]] := by
    decide +kernel
  obtain ⟨s, hs, hBin⟩ := map_eq_some_iff.mp hBins
  have hReach : (sourcesMachine echoLib).Reach anyStep s :=
    Machine.Reach.exec (fun _ _ _ => trivial) (.init ⟨rfl, rfl⟩) hs
  exact ⟨s, hs, hBin, (signed_sources_only hReach).1⟩

end DnscryptProxy
