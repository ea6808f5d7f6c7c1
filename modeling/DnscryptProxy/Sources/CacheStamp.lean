import DnscryptProxy.Sources.Prefetch

/-!
# The age of a cache file

`fetchFromCache` tells the age of a list from the modification time of the cache file.
`updateCache` writes a downloaded list only if it is not the one in memory, and sets the
modification time whether or not something was written. So a file that could not be written, or
that nobody looked at because the list in memory was the same, is stamped with what it
has in it.

* `stamped_unwritten`, `stamped_written` — what is left of the cache file and its time;
* `stamped_right_iff` — when a file that gets a new time holds the downloaded list.
-/

namespace DnscryptProxy

open Base Function Option List

variable {K : Type*} {lib : SourceLib K}

/-! ## What a download leaves -/

/-- Where the signature of the cache file is. -/
def Source.sigFile (source : Source K) : String := source.cacheFile ++ ".minisig"

theorem Source.sigFile_ne (source : Source K) : source.cacheFile ≠ source.sigFile := by
  intro h
  have hLen := congrArg String.length h
  rw [sigFile, String.length_append] at hLen
  have : ".minisig".length = 8 := by decide
  omega

/-- The cache file and its signature verify, and hold exactly `b`. -/
def Source.CacheIs (lib : SourceLib K) (source : Source K) (disk : Disk) (b : Bytes) : Prop :=
  ∃ f g, disk source.cacheFile = some f ∧ disk source.sigFile = some g ∧ f.content = b ∧
    source.checkSignature lib b g.content = none

/-- The file is there, and later than it was. -/
def Advanced (before after : Option DiskFile) : Prop :=
  ∃ f', after = some f' ∧ ∀ f, before = some f → f.modTime < f'.modTime

/-- Nobody else touches the disk. -/
def SourceEnv.Alone (env : SourceEnv) : Prop := env.before = fun _ disk => disk

/-- The list is written and renamed. -/
def SourceEnv.CommitsList (env : SourceEnv) : Prop :=
  ∀ op ∈ [DiskOp.createBin, .createSig, .writeBin, .writeSig, .commitBin], env.fault op = none

/-- The list in memory when a download is compared with it: that of the cache file, if it
can be read and verifies, otherwise the one before. -/
def FetchCall.InMemory (lib : SourceLib K) (call : FetchCall K) (b : Bytes) : Prop :=
  call.source.CacheHolds lib call.env call.disk b ∨
    (∀ bin, ¬ call.source.CacheHolds lib call.env call.disk bin) ∧ call.source.bin = b

/-- `fetchWithCache` has downloaded and verified `b`. -/
structure FetchCall.DownloadsList (lib : SourceLib K) (call : FetchCall K) (b : Bytes) : Prop where
  urls : call.source.urls ≠ []
  stale : call.Stale lib
  err : (call.fetched lib).err = none
  bin : (call.fetched lib).source.bin = b

/-- The signature on the disk is one of `b`. -/
def FetchCall.SigFits (lib : SourceLib K) (call : FetchCall K) (b : Bytes) : Prop :=
  ∃ g, call.disk call.source.sigFile = some g ∧ call.source.checkSignature lib b g.content = none

/-- The time of a file that was written: `Chtimes` sets it, or that of the write stays. -/
def SourceEnv.stamp (env : SourceEnv) : Time :=
  if env.fault .chtimes = none then env.updateNow else env.writeNow

/-- The file on the disk is not older than that. -/
def FetchCall.NotOlder (call : FetchCall K) : Prop :=
  ∃ f, call.disk call.source.cacheFile = some f ∧ call.env.stamp ≤ f.modTime

/-- When the stamp is right. The list is written, with its signature or next to one that fits;
or nothing is written and the files hold the list already; or no time is advanced. -/
def FetchCall.StampsRight (lib : SourceLib K) (call : FetchCall K) (b : Bytes) : Prop :=
  (¬ call.InMemory lib b ∧ call.env.CommitsList) ∧
      (call.env.fault .commitSig = none ∨ call.SigFits lib b ∨ call.NotOlder) ∨
    (call.InMemory lib b ∨ ¬ call.env.CommitsList) ∧
      (call.source.CacheIs lib call.disk b ∨ call.disk call.source.cacheFile = none ∨
        call.env.fault .chtimes ≠ none ∨ call.NotOlder)

/-! ## Reading the cache -/

section Read

variable {call : FetchCall K} {b : Bytes}

theorem Source.CacheHolds.unique {env : SourceEnv} {source : Source K} {disk : Disk}
    {bin bin' : Bytes} (h : source.CacheHolds lib env disk bin)
    (h' : source.CacheHolds lib env disk bin') : bin = bin' := by
  obtain ⟨sig, hBin, -⟩ := h
  obtain ⟨sig', hBin', -⟩ := h'
  exact Except.ok.inj (hBin.symm.trans hBin')

theorem Source.fetchFromCache_of_holds {env : SourceEnv} {source : Source K} {disk : Disk}
    {bin : Bytes} (h : source.CacheHolds lib env disk bin) :
    (source.fetchFromCache lib env disk).source.bin = bin := by
  obtain ⟨sig, hBin, hSig, hCheck⟩ := h
  unfold fetchFromCache
  dsimp only
  rw [hBin]
  rw [hSig]
  dsimp only
  rw [hCheck]
  dsimp only
  split <;> rfl

theorem FetchCall.inMemory_iff :
    (call.cached lib).source.bin = b ↔ call.InMemory lib b := by
  by_cases hHolds : ∃ bin, call.source.CacheHolds lib call.env call.disk bin
  · obtain ⟨bin, hHolds⟩ := hHolds
    rw [Source.fetchFromCache_of_holds hHolds]
    constructor
    · rintro rfl
      exact .inl hHolds
    · rintro (h | ⟨hNone, -⟩)
      · exact hHolds.unique h
      · exact absurd hHolds (hNone bin)
  · have hNone := not_exists.mp hHolds
    have hSame : (call.cached lib).source = call.source := by
      rcases call.source.fetchFromCache_kept lib call.env call.disk with h | ⟨bin, h, -⟩
      · exact h
      · exact absurd h (hNone bin)
    rw [hSame]
    constructor
    · exact fun h => .inr ⟨hNone, h⟩
    · rintro (h | ⟨-, h⟩)
      · exact absurd h (hNone b)
      · exact h

theorem Source.fetchFromCache_disk {env : SourceEnv} (hAlone : env.Alone) (source : Source K)
    (disk : Disk) : (source.fetchFromCache lib env disk).disk = disk := by
  rw [SourceEnv.Alone] at hAlone
  unfold fetchFromCache
  simp only [hAlone]
  split
  · rfl
  · split
    · rfl
    · split
      · rfl
      · split <;> rfl

theorem Source.fetchFromCache_cacheFile (lib : SourceLib K) (env : SourceEnv) (source : Source K)
    (disk : Disk) : (source.fetchFromCache lib env disk).source.cacheFile = source.cacheFile := by
  rcases source.fetchFromCache_kept lib env disk with h | ⟨bin, -, h⟩ <;> rw [h]

end Read

/-! ## Writing the cache -/

section Write

variable {env : SourceEnv} {disk : Disk} {name name' : String}

theorem SourceEnv.chtimes_of_ne (h : name' ≠ name) :
    env.chtimes disk name name' = disk name' := by
  unfold chtimes
  cases env.fault .chtimes with
  | some err => rfl
  | none =>
    cases disk name with
    | none => rfl
    | some f => exact update_of_ne h _ _

theorem SourceEnv.chtimes_self :
    env.chtimes disk name name = if env.fault .chtimes = none then
        (disk name).map fun f => { f with modTime := env.updateNow }
      else disk name := by
  unfold chtimes
  cases env.fault .chtimes with
  | some err => rfl
  | none =>
    cases hFile : disk name with
    | none => exact hFile
    | some f => exact update_self _ _ _

/-- A list that is not renamed leaves nothing behind. -/
theorem SourceEnv.writeSource_of_fault (hAlone : env.Alone) (h : ¬ env.CommitsList)
    (bin sig : Bytes) : (env.writeSource disk name bin sig).1 = disk := by
  rw [Alone] at hAlone
  unfold writeSource
  simp only [hAlone]
  split
  · rfl
  · next hNone =>
    split
    · rfl
    · next hCommit =>
      refine absurd (fun op hOp => ?_) h
      rw [findSome?_eq_none_iff] at hNone
      simp only [mem_cons, not_mem_nil, or_false] at hOp hNone
      rcases hOp with rfl | rfl | rfl | rfl | rfl
      · exact hNone _ (by simp)
      · exact hNone _ (by simp)
      · exact hNone _ (by simp)
      · exact hNone _ (by simp)
      · exact hCommit

/-- A list that is renamed, and a signature that is renamed behind it or not. -/
theorem SourceEnv.writeSource_of_commits (hAlone : env.Alone) (h : env.CommitsList) (disk : Disk)
    (hName : name ≠ name ++ ".minisig") (bin sig : Bytes) :
    (env.writeSource disk name bin sig).1 name = some { content := bin, modTime := env.writeNow } ∧
      (env.writeSource disk name bin sig).1 (name ++ ".minisig") =
        if env.fault .commitSig = none then some { content := sig, modTime := env.writeNow }
        else disk (name ++ ".minisig") := by
  have hNone : [DiskOp.createBin, .createSig, .writeBin, .writeSig].findSome? env.fault = none := by
    rw [findSome?_eq_none_iff]
    intro op hOp
    refine h op ?_
    simp only [mem_cons, not_mem_nil, or_false] at hOp ⊢
    tauto
  have hCommit : env.fault .commitBin = none := h _ (by simp)
  rw [Alone] at hAlone
  unfold writeSource
  simp only [hAlone, hNone, hCommit]
  cases env.fault .commitSig with
  | none =>
    refine ⟨?_, update_self _ _ _⟩
    exact (update_of_ne hName _ _).trans (update_self _ _ _)
  | some err => exact ⟨update_self _ _ _, update_of_ne hName.symm _ _⟩

end Write

/-- A download ends in `updateCache`, with a pair that verifies. -/
theorem Source.fetchFromURLs_disk {env : SourceEnv} {source : Source K} {disk : Disk}
    {err : Option GoError} (hUrls : source.urls ≠ [])
    (hErr : (source.fetchFromURLs lib env disk err).err = none) :
    ∃ sig, source.checkSignature lib (source.fetchFromURLs lib env disk err).source.bin sig = none ∧
      (source.fetchFromURLs lib env disk err).disk =
        (source.updateCache env disk (source.fetchFromURLs lib env disk err).source.bin sig).2 := by
  unfold fetchFromURLs at hErr ⊢
  dsimp only at hErr ⊢
  split at hErr
  · cases hErr
  · next hNone =>
    obtain ⟨j, srcURL, -, -, -, hCheck⟩ := tryURLs_verified _ hUrls hNone
    exact ⟨_, hCheck, rfl⟩

theorem FetchCall.DownloadsList.disk_eq {call : FetchCall K} {b : Bytes} (hAlone : call.env.Alone)
    (h : call.DownloadsList lib b) :
    ∃ sig, call.source.checkSignature lib b sig = none ∧ (call.InMemory lib b →
        (call.fetched lib).disk = call.env.chtimes call.disk call.source.cacheFile) ∧
      (¬ call.InMemory lib b → (call.fetched lib).disk = call.env.chtimes
          (call.env.writeSource call.disk call.source.cacheFile b sig).1
          call.source.cacheFile) := by
  obtain ⟨hUrls, hStale, hErr, hBin⟩ := h
  obtain ⟨-, -, hSame, hKey⟩ := call.source.fetchFromCache_fixed lib call.env call.disk
  have hFile := call.source.fetchFromCache_cacheFile lib call.env call.disk
  have hDisk : (call.cached lib).disk = call.disk :=
    call.source.fetchFromCache_disk hAlone call.disk
  have hSome : (call.cached lib).source.urls.length ≠ 0 := by
    rw [hSame]
    exact fun h => hUrls (length_eq_zero_iff.mp h)
  rw [← FetchCall.inMemory_iff]
  unfold FetchCall.fetched Source.fetchWithCache at hErr hBin ⊢
  rw [if_neg hSome, if_neg (not_lt.mpr hStale), hDisk] at hErr hBin ⊢
  obtain ⟨sig, hCheck, hUpdate⟩ := Source.fetchFromURLs_disk (by rwa [hSame]) hErr
  rw [hBin, Source.checkSignature_congr hKey] at hCheck
  rw [hBin, Source.updateCache, hFile] at hUpdate
  rw [hAlone] at hUpdate
  refine ⟨sig, hCheck, fun hMemory => ?_, fun hMemory => ?_⟩
  · rw [hUpdate, if_neg (not_not.mpr hMemory)]
  · rw [hUpdate, if_pos hMemory]

/-! ## The stamp -/

section Advance

variable {file : Option DiskFile}

theorem not_advanced_self : ¬ Advanced file file := by
  rintro ⟨f, hFile, hLater⟩
  exact lt_irrefl _ (hLater f hFile)

theorem advanced_some_iff {f' : DiskFile} :
    Advanced file (some f') ↔ ∀ f, file = some f → f.modTime < f'.modTime := by
  constructor
  · rintro ⟨f, hSame, hLater⟩
    cases hSame
    exact hLater
  · exact fun h => ⟨f', rfl, h⟩

end Advance

section Stamp

variable {call : FetchCall K} {b : Bytes}

theorem FetchCall.notOlder_of_some {f : DiskFile} (h : call.disk call.source.cacheFile = some f) :
    call.NotOlder ↔ call.env.stamp ≤ f.modTime := by
  constructor
  · rintro ⟨f', hSome, hLe⟩
    obtain rfl := some.inj (h.symm.trans hSome)
    exact hLe
  · exact fun hLe => ⟨f, h, hLe⟩

/-- Nothing is written: the file keeps its content, and gets a new time if that is possible. -/
theorem FetchCall.stamped_unwritten
    (h : (call.fetched lib).disk = call.env.chtimes call.disk call.source.cacheFile) :
    (call.source.CacheIs lib (call.fetched lib).disk b ∨
      ¬ Advanced (call.disk call.source.cacheFile)
        ((call.fetched lib).disk call.source.cacheFile)) ↔
    (call.source.CacheIs lib call.disk b ∨ call.disk call.source.cacheFile = none ∨
      call.env.fault .chtimes ≠ none ∨ call.NotOlder) := by
  have hSig : (call.fetched lib).disk call.source.sigFile = call.disk call.source.sigFile := by
    rw [h, SourceEnv.chtimes_of_ne call.source.sigFile_ne.symm]
  have hFile : (call.fetched lib).disk call.source.cacheFile = _ :=
    h ▸ SourceEnv.chtimes_self
  by_cases hFault : call.env.fault .chtimes = none
  · rw [if_pos hFault] at hFile
    cases hOld : call.disk call.source.cacheFile with
    | none =>
      rw [hOld, map_none] at hFile
      rw [hFile]
      exact ⟨fun _ => .inr (.inl rfl), fun _ => .inr not_advanced_self⟩
    | some f =>
      rw [hOld, map_some] at hFile
      have hIs : call.source.CacheIs lib (call.fetched lib).disk b ↔
          call.source.CacheIs lib call.disk b := by
        unfold Source.CacheIs
        rw [hSig, hFile, hOld]
        simp only [some.injEq, exists_and_left, exists_eq_left']
      have hTime : ¬ Advanced (some f) ((call.fetched lib).disk call.source.cacheFile) ↔
          call.NotOlder := by
        rw [hFile, advanced_some_iff, call.notOlder_of_some hOld, SourceEnv.stamp, if_pos hFault]
        simp only [some.injEq, forall_eq', not_lt]
      rw [hIs, hTime]
      simp [hFault]
  · rw [if_neg hFault] at hFile
    rw [hFile]
    exact ⟨fun _ => .inr (.inr (.inl hFault)), fun _ => .inr not_advanced_self⟩

/-- The list is written: its time is that of the stamp. -/
theorem FetchCall.stamped_written {sig : Bytes} (hAlone : call.env.Alone)
    (hCommits : call.env.CommitsList) (hCheck : call.source.checkSignature lib b sig = none)
    (h : (call.fetched lib).disk = call.env.chtimes
      (call.env.writeSource call.disk call.source.cacheFile b sig).1 call.source.cacheFile) :
    (call.source.CacheIs lib (call.fetched lib).disk b ∨
      ¬ Advanced (call.disk call.source.cacheFile)
        ((call.fetched lib).disk call.source.cacheFile)) ↔
    (call.env.fault .commitSig = none ∨ call.SigFits lib b ∨ call.NotOlder) := by
  obtain ⟨hList, hMinisig⟩ := SourceEnv.writeSource_of_commits hAlone hCommits call.disk
    call.source.sigFile_ne b sig
  have hFile : (call.fetched lib).disk call.source.cacheFile =
      some { content := b, modTime := call.env.stamp } := by
    rw [h, SourceEnv.chtimes_self, hList, map_some, SourceEnv.stamp]
    split <;> rfl
  have hSig : (call.fetched lib).disk call.source.sigFile = _ :=
    h ▸ (SourceEnv.chtimes_of_ne call.source.sigFile_ne.symm).trans hMinisig
  by_cases hFault : call.env.fault .commitSig = none
  · rw [if_pos hFault] at hSig
    exact ⟨fun _ => .inl hFault, fun _ => .inl ⟨_, _, hFile, hSig, rfl, hCheck⟩⟩
  · rw [if_neg hFault] at hSig
    have hIs : call.source.CacheIs lib (call.fetched lib).disk b ↔ call.SigFits lib b := by
      unfold Source.CacheIs FetchCall.SigFits
      rw [hSig, hFile]
      simp only [some.injEq, exists_and_left, exists_eq_left', true_and]
      rfl
    have hTime : ¬ Advanced (call.disk call.source.cacheFile)
        ((call.fetched lib).disk call.source.cacheFile) ↔ call.NotOlder := by
      rw [hFile, advanced_some_iff]
      unfold FetchCall.NotOlder
      simp only [not_forall, not_lt, exists_prop]
    rw [hIs, hTime]
    exact ⟨.inr, fun hRight => hRight.resolve_left hFault⟩

/-- After a download of `b`, with any of the disk operations failing: the cache holds `b` or its
time is not advanced exactly if `StampsRight`. -/
theorem stamped_right_iff (lib : SourceLib K) (call : FetchCall K) (b : Bytes)
    (hAlone : call.env.Alone) (hLoad : call.DownloadsList lib b) :
    (call.source.CacheIs lib (call.fetched lib).disk b ∨
      ¬ Advanced (call.disk call.source.cacheFile)
        ((call.fetched lib).disk call.source.cacheFile)) ↔
    call.StampsRight lib b := by
  obtain ⟨sig, hCheck, hSame, hNew⟩ := hLoad.disk_eq hAlone
  by_cases hWrites : ¬ call.InMemory lib b ∧ call.env.CommitsList
  · -- the list reaches the disk
    rw [FetchCall.stamped_written hAlone hWrites.2 hCheck (hNew hWrites.1)]
    refine ⟨fun h => .inl ⟨hWrites, h⟩, fun h => ?_⟩
    rcases h with ⟨-, h⟩ | ⟨hNot, -⟩
    · exact h
    · exact absurd hNot (not_or.mpr ⟨hWrites.1, not_not.mpr hWrites.2⟩)
  · have hNot : call.InMemory lib b ∨ ¬ call.env.CommitsList := by
      rwa [not_and_or, not_not] at hWrites
    have hDisk : (call.fetched lib).disk = call.env.chtimes call.disk call.source.cacheFile := by
      by_cases hMemory : call.InMemory lib b
      · exact hSame hMemory
      · rw [hNew hMemory, SourceEnv.writeSource_of_fault hAlone (hNot.resolve_left hMemory)]
    rw [FetchCall.stamped_unwritten hDisk]
    exact ⟨fun h => .inr ⟨hNot, h⟩, fun h => (h.resolve_left fun h => hWrites h.1).2⟩

end Stamp

/-! ### A cache file that was damaged -/

/-- Every URL delivers one list, at time 100. -/
def oneList : SourceEnv where
  now := 100
  cacheNow := 100
  updateNow := 100
  writeNow := 100
  fault _ := none
  before _ disk := disk
  get _ _ := ([1, 2, 3], none)

/-- A first start. -/
def firstCall : FetchCall Unit :=
  { source := dueSource "public-resolvers.md" "/resolvers", disk := emptyDisk, env := oneList }

/-- The proxy runs with the list, and the cache file has been damaged since. -/
def damagedCall : FetchCall Unit where
  source := { dueSource "public-resolvers.md" "/resolvers" with bin := [1, 2, 3] }
  disk := tamperedDisk
  env := oneList

/-- The list is written, with its signature. -/
theorem stamped_right_first : firstCall.source.CacheIs echoLib (firstCall.fetched echoLib).disk
      [1, 2, 3] ∨
    ¬ Advanced (firstCall.disk firstCall.source.cacheFile)
      ((firstCall.fetched echoLib).disk firstCall.source.cacheFile) := by
  have hLoad : firstCall.DownloadsList echoLib [1, 2, 3] :=
    ⟨cons_ne_nil _ _, by unfold FetchCall.Stale; decide +kernel, by decide +kernel,
      by decide +kernel⟩
  refine (stamped_right_iff echoLib firstCall [1, 2, 3] rfl hLoad).mpr ?_
  refine .inl ⟨⟨?_, fun _ _ => rfl⟩, .inl rfl⟩
  rintro (⟨sig, hBin, -⟩ | ⟨-, hBin⟩)
  · cases hBin
  · cases hBin

/-- The damaged file is not written again, and looks new. -/
theorem damaged_file_stamped :
    damagedCall.DownloadsList echoLib [1, 2, 3] ∧
      (damagedCall.fetched echoLib).disk "public-resolvers.md" =
        some { content := [6, 6, 6], modTime := 100 } ∧
      ¬ damagedCall.source.CacheIs echoLib (damagedCall.fetched echoLib).disk [1, 2, 3] ∧
      Advanced (damagedCall.disk "public-resolvers.md")
        ((damagedCall.fetched echoLib).disk "public-resolvers.md") := by
  have hFile : (damagedCall.fetched echoLib).disk "public-resolvers.md" =
      some { content := [6, 6, 6], modTime := 100 } := by
    decide +kernel
  refine ⟨⟨cons_ne_nil _ _, by unfold FetchCall.Stale; decide +kernel, by decide +kernel,
    by decide +kernel⟩, hFile, ?_, ?_⟩
  · rintro ⟨f, g, hSome, -, hContent, -⟩
    obtain rfl := some.inj (hFile.symm.trans hSome)
    cases hContent
  · rw [hFile, advanced_some_iff]
    rintro f hOld
    obtain rfl : (⟨[6, 6, 6], 0⟩ : DiskFile) = f := some.inj hOld
    decide

end DnscryptProxy
