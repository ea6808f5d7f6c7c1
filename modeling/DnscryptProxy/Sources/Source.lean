import DnscryptProxy.Common

/-!
# Sources of resolver lists

`sources.go`: a list is downloaded with its minisign signature from one of several
URLs, and kept in a cache file next to its signature. Each operation on the disk can
fail, and finds the disk as others have left it by then.

The minisign and URL libraries are parameters.
-/

namespace DnscryptProxy

open Function

def Minute : Duration := 60 * Second
def Hour : Duration := 60 * Minute

def DefaultPrefetchDelay : Duration := 24 * Hour
def MinimumPrefetchInterval : Duration := 10 * Minute

/-! ## Sources -/

/-- The parts of a URL that matter here. -/
structure Url where
  host : String
  path : String
deriving Repr, DecidableEq

/-- Where the signature is. -/
def Url.minisig (u : Url) : Url := { u with path := u.path ++ ".minisig" }

inductive SourceFormat where
  | v2
deriving Repr, DecidableEq

structure Source (K : Type*) where
  name : String
  urls : List Url
  format : SourceFormat
  bin : Bytes
  /-- `nil` until the key has been decoded -/
  minisignKey : Option K
  cacheFile : String
  cacheTTL : Duration
  prefetchDelay : Duration
  /-- the zero time is `none` -/
  refresh : Option Time
  /-- `prefix` -/
  namePrefix : String
deriving Repr, DecidableEq

/-- The libraries: keys and signatures of minisign, and `url.Parse`. -/
structure SourceLib (K : Type*) where
  newPublicKey : String → Except GoError K
  /-- `DecodeSignature` of the second argument, and `Verify` -/
  verify : K → Bytes → Bytes → Option GoError
  parseURL : String → Option Url

/-! ## The disk -/

structure DiskFile where
  content : Bytes
  modTime : Time
deriving Repr, DecidableEq

abbrev Disk := String → Option DiskFile

/-- The operations on the cache file and on its signature. -/
inductive DiskOp where
  | readBin
  | readSig
  | stat
  | createBin
  | createSig
  | writeBin
  | writeSig
  | commitBin
  | commitSig
  | chtimes
deriving Repr, DecidableEq

/-- What one call of `fetchWithCache` meets: the clock of the call itself, of
`fetchFromCache`, of `updateCache` and of the writes, the disk and the network. -/
structure SourceEnv where
  now : Time
  cacheNow : Time
  updateNow : Time
  writeNow : Time
  /-- an operation that fails -/
  fault : DiskOp → Option GoError
  /-- what others have done to the disk by the time of an operation -/
  before : DiskOp → Disk → Disk
  /-- `fetchFromURL` during the attempt of that number: the bytes are there even with an
  error -/
  get : Nat → Url → Bytes × Option GoError

namespace SourceEnv

variable (env : SourceEnv)

/-- `os.ReadFile`. -/
def readFile (op : DiskOp) (disk : Disk) (name : String) : Except GoError Bytes :=
  match env.fault op, disk name with
  | some err, _ => .error err
  | none, none => .error (.plain ("open " ++ name ++ ": no such file or directory"))
  | none, some f => .ok f.content

/-- The modification time, from `os.Stat`. -/
def statModTime (disk : Disk) (name : String) : Except GoError Time :=
  match env.fault .stat, disk name with
  | some err, _ => .error err
  | none, none => .error (.plain ("stat " ++ name ++ ": no such file or directory"))
  | none, some f => .ok f.modTime

/-- `os.Chtimes`, with the clock of `updateCache`. -/
def chtimes (disk : Disk) (name : String) : Disk :=
  match env.fault .chtimes, disk name with
  | none, some f => update disk name (some { f with modTime := env.updateNow })
  | _, _ => disk

/-- `writeSource`: both files are written under temporary names first, and nothing is
seen of them before the renaming by `Commit`. -/
def writeSource (disk : Disk) (f : String) (bin sig : Bytes) : Disk × Option GoError :=
  match [DiskOp.createBin, .createSig, .writeBin, .writeSig].findSome? env.fault with
  | some err => (disk, some err)
  | none =>
    let disk := env.before .commitBin disk
    match env.fault .commitBin with
    | some err => (disk, some err)
    | none =>
      let disk := update disk f (some { content := bin, modTime := env.writeNow })
      let disk := env.before .commitSig disk
      match env.fault .commitSig with
      | some err => (disk, some err)
      | none =>
        (update disk (f ++ ".minisig")
          (some { content := sig, modTime := env.writeNow }), none)

end SourceEnv

/-! ## Fetching -/

/-- What a fetch leaves: the source, the disk, and a delay or an error. -/
structure Fetched (K : Type*) where
  source : Source K
  disk : Disk
  result : Except GoError Duration

/-- The two return values of a fetch, in Go. -/
def Fetched.ttl {K : Type*} (fetched : Fetched K) : Duration :=
  match fetched.result with
  | .ok ttl => ttl
  | .error _ => 0

def Fetched.err {K : Type*} (fetched : Fetched K) : Option GoError :=
  match fetched.result with
  | .ok _ => none
  | .error err => some err

/-- The variables `bin`, `sig` and `err` of the loop over the URLs. -/
structure Attempt where
  bin : Bytes
  sig : Bytes
  err : Option GoError
deriving Repr, DecidableEq

namespace Source

variable {K : Type*} (lib : SourceLib K) (env : SourceEnv) (source : Source K)

/-- `checkSignature`; `none` is success. Without a key there is nothing that passes. -/
def checkSignature (bin sig : Bytes) : Option GoError :=
  match source.minisignKey with
  | none => some (.plain "nil pointer dereference")
  | some key => lib.verify key bin sig

def fetchFromCache (disk : Disk) : Fetched K :=
  let disk := env.before .readBin disk
  match env.readFile .readBin disk source.cacheFile with
  | .error err => { source, disk, result := .error err }
  | .ok bin =>
    let disk := env.before .readSig disk
    match env.readFile .readSig disk (source.cacheFile ++ ".minisig") with
    | .error err => { source, disk, result := .error err }
    | .ok sig =>
      match source.checkSignature lib bin sig with
      | some err => { source, disk, result := .error err }
      | none =>
        let source := { source with bin := bin }
        let disk := env.before .stat disk
        -- the list stays, even if the age of the file cannot be told
        match env.statModTime disk source.cacheFile with
        | .error err => { source, disk, result := .error err }
        | .ok modTime =>
          let elapsed := env.cacheNow - modTime
          let delay := if elapsed < source.cacheTTL then source.prefetchDelay - elapsed else 0
          { source, disk, result := .ok delay }

/-- `updateCache`. Errors are only logged. -/
def updateCache (disk : Disk) (bin sig : Bytes) : Source K × Disk :=
  let disk := if source.bin ≠ bin then (env.writeSource disk source.cacheFile bin sig).1 else disk
  let disk := env.chtimes (env.before .chtimes disk) source.cacheFile
  ({ source with bin := bin }, disk)

/-- The loop over the URLs, from attempt `i` on. The variables keep the values of the
attempts before. -/
def tryURLs : Nat → List Url → Attempt → Attempt
  | _, [], a => a
  | i, srcURL :: rest, a =>
    let (bin, err) := env.get i srcURL
    if err.isSome then tryURLs (i + 1) rest { a with bin := bin, err := err }
    else
      let (sig, err) := env.get i srcURL.minisig
      if err.isSome then tryURLs (i + 1) rest { bin := bin, sig := sig, err := err }
      else
        match source.checkSignature lib bin sig with
        | some err => tryURLs (i + 1) rest { bin := bin, sig := sig, err := some err }
        -- a valid signature ends the loop
        | none => { bin := bin, sig := sig, err := none }

/-- The second half of `fetchWithCache`, for a list that is not fresh; `err` is what
`fetchFromCache` has left. -/
def fetchFromURLs (disk : Disk) (err : Option GoError) : Fetched K :=
  let source := { source with refresh := some (env.now + MinimumPrefetchInterval) }
  let a := source.tryURLs lib env 0 source.urls { bin := [], sig := [], err := err }
  match a.err with
  | some err => { source, disk, result := .error err }
  | none =>
    let (source, disk) := source.updateCache env disk a.bin a.sig
    { source := { source with refresh := some (env.now + source.prefetchDelay) }, disk
      result := .ok source.prefetchDelay }

def fetchWithCache (disk : Disk) : Fetched K :=
  let cached := source.fetchFromCache lib env disk
  let source := cached.source
  let disk := cached.disk
  if source.urls.length = 0 then { source, disk, result := cached.result.map fun _ => 0 }
  else if 0 < cached.ttl then
    { source := { source with refresh := some (env.now + cached.ttl) }, disk, result := .ok 0 }
  else source.fetchFromURLs lib env disk cached.err

end Source

/-! ## Calls -/

/-- A call of `fetchWithCache`. -/
structure FetchCall (K : Type*) where
  source : Source K
  disk : Disk
  env : SourceEnv

def FetchCall.fetched {K : Type*} (lib : SourceLib K) (call : FetchCall K) : Fetched K :=
  call.source.fetchWithCache lib call.env call.disk

abbrev FetchCall.cached {K : Type*} (lib : SourceLib K) (call : FetchCall K) :=
  call.source.fetchFromCache lib call.env call.disk

/-- The arguments of `NewSource`. -/
structure SourceConfig where
  name : String
  urls : List String
  minisignKeyStr : String
  cacheFile : String
  formatStr : String
  refreshDelay : Duration
  cacheTTL : Duration
  namePrefix : String

/-- What `NewSource` returns, and its call of `fetchWithCache`, if it gets there. -/
structure NewSource (K : Type*) where
  source : Source K
  disk : Disk
  err : Option GoError
  call : Option (FetchCall K)

def newSource {K : Type*} (lib : SourceLib K) (env : SourceEnv) (cfg : SourceConfig) (disk : Disk) :
    NewSource K :=
  let refreshDelay := max DefaultPrefetchDelay cfg.refreshDelay
  let cacheTTL := min (168 * Hour) (max refreshDelay cfg.cacheTTL)
  let source : Source K :=
    { name := cfg.name, urls := [], format := .v2, bin := [], minisignKey := none
      cacheFile := cfg.cacheFile, cacheTTL := cacheTTL, prefetchDelay := refreshDelay
      refresh := none, namePrefix := cfg.namePrefix }
  if cfg.formatStr ≠ "v2" then
    { source, disk, err := some (.plain ("Unsupported source format: [" ++ cfg.formatStr ++ "]"))
      call := none }
  else
    match lib.newPublicKey cfg.minisignKeyStr with
    | .error err => { source, disk, err := some err, call := none }
    | .ok key =>
      -- URLs that do not parse are left out
      let source := { source with minisignKey := some key, urls := cfg.urls.filterMap lib.parseURL }
      let call : FetchCall K := { source, disk, env }
      { source := (call.fetched lib).source, disk := (call.fetched lib).disk, call := some call
        err := (call.fetched lib).err }

/-- A pass of `PrefetchSources`, and its calls of `fetchWithCache`. -/
structure Prefetched (K : Type*) where
  sources : List (Source K)
  disk : Disk
  interval : Duration
  calls : List (FetchCall K)

/-- The interval after one more source. -/
def nextInterval (interval : Duration) : Except GoError Duration → Duration
  | .error _ => interval
  | .ok delay =>
    if MinimumPrefetchInterval ≤ delay ∧
        (interval = MinimumPrefetchInterval ∨ delay < interval) then delay
    else interval

/-- The loop of `PrefetchSources`, over the sources of these numbers. -/
def prefetchLoop {K : Type*} (lib : SourceLib K) (now : Time) :
    List (Nat × SourceEnv) → List (Source K) → Disk → Duration → Prefetched K
  | [], sources, disk, interval => { sources, disk, interval, calls := [] }
  | (i, env) :: rest, sources, disk, interval =>
    -- skipped without a deadline, or before it
    match sources[i]?.filter fun source => source.refresh.any (decide <| · ≤ now) with
    | none => prefetchLoop lib now rest sources disk interval
    | some source =>
      let call : FetchCall K := { source, disk, env }
      let fetched := call.fetched lib
      let pass := prefetchLoop lib now rest (sources.set i fetched.source) fetched.disk
        (nextInterval interval fetched.result)
      { pass with calls := call :: pass.calls }

/-- `PrefetchSources` at `now`. -/
def prefetchSources {K : Type*} (lib : SourceLib K) (now : Time) (which : List (Nat × SourceEnv))
    (sources : List (Source K)) (disk : Disk) : Prefetched K :=
  prefetchLoop lib now which sources disk MinimumPrefetchInterval

end DnscryptProxy
