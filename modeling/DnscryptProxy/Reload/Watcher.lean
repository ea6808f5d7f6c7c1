import DnscryptProxy.Base.Run
import DnscryptProxy.Dns.Name

/-!
# The watcher of a configuration file

`AddFile` and `checkFile` of `config_watcher.go`, for one file of one plugin.
The watcher keeps the hash of the version it takes to be loaded, and reloads
when it finds the file with another hash. But every measurement and every load
reads the file anew, and the file may be written at any time in between:

* `Init` reads the rules, and `AddFile` measures the file later;
* `checkFile` measures the file twice, and `Reload` then reads it twice more;
* the SIGHUP handler reloads without telling the watcher, through the same
  staging field.

A step is one look at the file, or one access to the staging field.

* `watcher_never_masks` — without a write in these windows, and without a
  SIGHUP that changes the rules or gets into a reload of the watcher, the
  recorded hash is that of the version the rules were loaded from;
* `change_masked` — a write in either window, or a SIGHUP, leaves rules in
  force that the file no longer has, with the hash of the file recorded.
-/

namespace DnscryptProxy

open Base Option

/-! ## The machine -/

/-- `ReadTextFile`: the contents without a byte order mark. -/
def readTextFile (file : Bytes) : Bytes :=
  if file.take 3 = [0xef, 0xbb, 0xbf] then file.drop 3 else file

/-- Where a call of `Reload` is. -/
inductive Reading where
  | begun
  /-- after the first read of `SafeReadTextFile` -/
  | read (text : Bytes)
  /-- after the second one -/
  | ready (text : Bytes)
  /-- the rules are in the staging field -/
  | staged
deriving Repr, DecidableEq

/-- Start-up of the plugin: `Init`, then `AddFile`. -/
inductive WatchSetup where
  | starting
  | loaded
  /-- `AddFile` has asked for the size -/
  | sized (size : Nat)
  | watching
  | unwatched
deriving Repr, DecidableEq

/-- Where `checkFile` is. It holds the lock of the file. -/
inductive CheckPhase (H : Type) where
  | idle
  | sized (size1 : Nat)
  | hashed (size1 : Nat) (hash1 : H)
  | resized (size1 : Nat) (hash1 : H) (size2 : Nat)
  | reloading (size2 : Nat) (hash2 : H) (reading : Reading)
  /-- `reloadFunc` has returned without an error -/
  | reloaded (size2 : Nat) (hash2 : H)
deriving Repr, DecidableEq

/-- `lastHash` and `lastSize` of a `WatchedFile`. -/
structure WatchedFile (H : Type) where
  lastHash : H
  lastSize : Nat
deriving Repr, DecidableEq

structure WatchState (H : Type) where
  file : Bytes
  /-- the text the rules in force were loaded from -/
  rules : Bytes
  /-- the text of the staged rules, which all reloads share -/
  staging : Option Bytes
  lastReloadOk : Bool
  setup : WatchSetup
  watched : Option (WatchedFile H)
  check : CheckPhase H
  /-- the reload of the SIGHUP handler -/
  sighup : Option Reading
deriving Repr, DecidableEq

/-- Who reloads. -/
inductive Reloader where
  | watcher
  | sighup
deriving Repr, DecidableEq

inductive WatchOp where
  | write (file : Bytes)
  | init
  | addStat
  | addHash
  | addFails
  | stat1
  | hash1
  | stat2
  | hash2
  /-- a measurement fails -/
  | unreadable
  | signal
  | read (who : Reloader)
  | reread (who : Reloader)
  | reloadFails (who : Reloader)
  | stage (who : Reloader)
  | apply (who : Reloader)
  /-- `checkFile` notes the reloaded version -/
  | note
deriving Repr, DecidableEq

namespace WatchState

variable {H : Type}

variable (s : WatchState H)

/-- The reload of `who`, if one is under way. -/
def reading : Reloader → Option Reading
  | .watcher =>
    match s.check with
    | .reloading _ _ reading => some reading
    | _ => none
  | .sighup => s.sighup

def setReading (who : Reloader) (reading : Reading) : WatchState H :=
  match who with
  | .watcher =>
    match s.check with
    | .reloading size2 hash2 _ => { s with check := .reloading size2 hash2 reading }
    | _ => s
  | .sighup => { s with sighup := some reading }

/-- The reload of `who` fails, and `CancelReload` clears the staging field. -/
def failReload (who : Reloader) : WatchState H :=
  match who with
  | .watcher => { s with check := .idle, staging := none, lastReloadOk := false }
  | .sighup => { s with sighup := none, staging := none, lastReloadOk := false }

/-- The reload of `who` has applied `text`, which it found staged. -/
def finishReload (who : Reloader) (text : Bytes) : WatchState H :=
  let s := { s with rules := text, staging := none, lastReloadOk := true }
  match who with
  | .watcher =>
    match s.check with
    | .reloading size2 hash2 _ => { s with check := .reloaded size2 hash2 }
    | _ => s
  | .sighup => { s with sighup := none }

variable [DecidableEq H]

/-- The decision of `checkFile` after its second measurement. -/
def decideCheck (w : WatchedFile H) (size1 : Nat) (hash1 : H) (size2 : Nat)
    (hash2 : H) : WatchState H :=
  if size1 ≠ size2 ∨ hash1 ≠ hash2 then { s with check := .idle }
  else if w.lastSize = size2 ∧ w.lastHash = hash2 then { s with check := .idle }
  else { s with check := .reloading size2 hash2 .begun }

def step (hash : Bytes → H) (s : WatchState H) : WatchOp → Option (WatchState H)
  | .write file => some { s with file }
  | .init =>
    if s.setup = .starting then
      some { s with rules := readTextFile s.file, lastReloadOk := true, setup := .loaded }
    else none
  | .addStat =>
    if s.setup = .loaded then some { s with setup := .sized s.file.length } else none
  | .addHash =>
    match s.setup with
    | .sized size =>
      some { s with setup := .watching,
                    watched := some { lastHash := hash s.file, lastSize := size } }
    | _ => none
  | .addFails =>
    match s.setup with
    | .loaded => some { s with setup := .unwatched }
    | .sized _ => some { s with setup := .unwatched }
    | _ => none
  | .stat1 =>
    if s.check = .idle ∧ s.watched.isSome = true then
      some { s with check := .sized s.file.length }
    else none
  | .hash1 =>
    match s.check with
    | .sized size1 => some { s with check := .hashed size1 (hash s.file) }
    | _ => none
  | .stat2 =>
    match s.check with
    | .hashed size1 hash1 => some { s with check := .resized size1 hash1 s.file.length }
    | _ => none
  | .hash2 =>
    match s.check, s.watched with
    | .resized size1 hash1 size2, some w => some (s.decideCheck w size1 hash1 size2 (hash s.file))
    | _, _ => none
  | .unreadable =>
    match s.check with
    | .idle => none
    | .reloading .. => none
    | .reloaded .. => none
    | _ => some { s with check := .idle }
  | .signal =>
    if s.setup ≠ .starting ∧ s.sighup = none then some { s with sighup := some .begun } else none
  | .read who =>
    match s.reading who with
    | some .begun => some (s.setReading who (.read (readTextFile s.file)))
    | _ => none
  | .reread who =>
    match s.reading who with
    | some (.read text) =>
      -- the file appears to be changing
      if text ≠ readTextFile s.file then some (s.failReload who)
      else some (s.setReading who (.ready text))
    | _ => none
  | .reloadFails who =>
    match s.reading who with
    | none => none
    | some .staged => none
    | some _ => some (s.failReload who)
  | .stage who =>
    match s.reading who with
    | some (.ready text) => some { s.setReading who .staged with staging := some text }
    | _ => none
  | .apply who =>
    match s.reading who with
    | some .staged =>
      match s.staging with
      -- another reload has taken the staged rules
      | none => some (s.failReload who)
      | some text => some (s.finishReload who text)
    | _ => none
  | .note =>
    match s.check with
    | .reloaded size2 hash2 =>
      some { s with check := .idle, watched := some { lastHash := hash2, lastSize := size2 } }
    | _ => none

end WatchState

def watchMachine {H : Type} [DecidableEq H] (hash : Bytes → H) :
    Machine (WatchState H) WatchOp where
  init s := s.setup = .starting ∧ s.watched = none ∧ s.check = .idle ∧ s.sighup = none ∧
    s.staging = none
  step := WatchState.step hash

section Steps

variable {H : Type}

/-- The file has been looked at, and what was seen is still to be acted on:
between `Init` and the measurement of `AddFile`, and between the second
measurement of `checkFile` and its note of the version. -/
def WatchState.Window (s : WatchState H) : Prop :=
  s.setup = .loaded ∨ (∃ size, s.setup = .sized size) ∨
    (∃ size2 hash2 reading, s.check = .reloading size2 hash2 reading) ∨
    ∃ size2 hash2, s.check = .reloaded size2 hash2

/-- No write changes the file in a window. The SIGHUP handler keeps off the staging
field while the watcher reloads, and only ever applies the text that is in force. -/
def QuietWindows (s : WatchState H) : WatchOp → Prop
  | .write file => s.Window → file = s.file
  | .stage .sighup => s.reading .watcher = none
  | .apply .sighup => s.reading .watcher = none ∧ ∀ text, s.staging = some text → text = s.rules
  | _ => True

/-! ## Steps -/

/-- The text that a reload has got so far. -/
def Reading.text (staging : Option Bytes) : Reading → Option Bytes
  | .begun => none
  | .read text => some text
  | .ready text => some text
  | .staged => staging

/-- `checkFile` has decided to reload. -/
def CheckPhase.acting : CheckPhase H → Bool
  | .reloading .. => true
  | .reloaded .. => true
  | _ => false

variable {hash : Bytes → H} {s s' : WatchState H} {op : WatchOp}

variable {who : Reloader}

/-- What a step can do. -/
inductive WatchStep (hash : Bytes → H) (s : WatchState H) : WatchOp → WatchState H → Prop where
  | write {file : Bytes} : WatchStep hash s (.write file) { s with file }
  | init : s.setup = .starting → WatchStep hash s .init
      { s with rules := readTextFile s.file, lastReloadOk := true, setup := .loaded }
  | register {op : WatchOp} {setup : WatchSetup} :
      (s.setup = .loaded ∨ ∃ size, s.setup = .sized size) → WatchStep hash s op { s with setup }
  | watch {size : Nat} : s.setup = .sized size → WatchStep hash s .addHash
      { s with setup := .watching, watched := some { lastHash := hash s.file, lastSize := size } }
  | measure {op : WatchOp} {check : CheckPhase H} : s.check.acting = false →
      check.acting = false → WatchStep hash s op { s with check }
  | changed {size2 : Nat} {w : WatchedFile H} : s.check.acting = false → s.watched = some w →
      WatchStep hash s .hash2 { s with check := .reloading size2 (hash s.file) .begun }
  | read {size2 : Nat} {hash2 : H} {reading reading' : Reading} {staging : Option Bytes}
      {op : WatchOp} : s.check = .reloading size2 hash2 reading →
      (∀ text, reading'.text staging = some text →
        text = readTextFile s.file ∨ reading.text s.staging = some text) →
      WatchStep hash s op { s with check := .reloading size2 hash2 reading', staging }
  | fail {size2 : Nat} {hash2 : H} {reading : Reading} {op : WatchOp} :
      s.check = .reloading size2 hash2 reading →
      WatchStep hash s op { s with check := .idle, staging := none, lastReloadOk := false }
  | applied {size2 : Nat} {hash2 : H} {text : Bytes} :
      s.check = .reloading size2 hash2 .staged → s.staging = some text →
      WatchStep hash s (.apply .watcher)
        { s with
          rules := text, staging := none, lastReloadOk := true, check := .reloaded size2 hash2 }
  | note {size2 : Nat} {hash2 : H} : s.check = .reloaded size2 hash2 → WatchStep hash s .note
      { s with check := .idle, watched := some { lastHash := hash2, lastSize := size2 } }
  | sighup {op : WatchOp} {sighup : Option Reading} : WatchStep hash s op { s with sighup }
  | sighupStaged {text : Bytes} : WatchStep hash s (.stage .sighup)
      { s with sighup := some .staged, staging := some text }
  | sighupFails {op : WatchOp} : WatchStep hash s op
      { s with sighup := none, staging := none, lastReloadOk := false }
  | sighupApplied {text : Bytes} : s.staging = some text → WatchStep hash s (.apply .sighup)
      { s with rules := text, staging := none, lastReloadOk := true, sighup := none }

/-- The reload of the watcher is that of `checkFile`. -/
theorem WatchState.check_of_reading {reading : Reading} (h : s.reading .watcher = some reading) :
    ∃ size2 hash2, s.check = .reloading size2 hash2 reading := by
  unfold WatchState.reading at h
  split at h
  · split at h
    · next size2 hash2 _ hCheck =>
      cases h
      exact ⟨size2, hash2, hCheck⟩
    · cases h
  · next hWho => cases hWho

/-- The steps of a reload, whoever does it. -/
theorem watchStep_setReading {reading reading' : Reading} (h : s.reading who = some reading)
    (hText : ∀ text, reading'.text s.staging = some text → text = readTextFile s.file) :
    WatchStep hash s op (s.setReading who reading') := by
  cases who with
  | watcher =>
    obtain ⟨size2, hash2, hCheck⟩ := WatchState.check_of_reading h
    simp only [WatchState.setReading, hCheck]
    exact .read hCheck fun text hGot => .inl (hText text hGot)
  | sighup => exact .sighup

theorem watchStep_stage {text : Bytes} (h : s.reading who = some (.ready text)) :
    WatchStep hash s (.stage who) { s.setReading who .staged with staging := some text } := by
  cases who with
  | watcher =>
    obtain ⟨size2, hash2, hCheck⟩ := WatchState.check_of_reading h
    simp only [WatchState.setReading, hCheck]
    exact .read hCheck fun _ hGot => .inr hGot
  | sighup => exact .sighupStaged

theorem watchStep_failReload {reading : Reading}
    (h : s.reading who = some reading) : WatchStep hash s op (s.failReload who) := by
  cases who with
  | watcher =>
    obtain ⟨size2, hash2, hCheck⟩ := WatchState.check_of_reading h
    exact .fail hCheck
  | sighup => exact .sighupFails

theorem watchStep_finishReload {text : Bytes} (h : s.reading who = some .staged)
    (hStaged : s.staging = some text) :
    WatchStep hash s (.apply who) (s.finishReload who text) := by
  cases who with
  | watcher =>
    obtain ⟨size2, hash2, hCheck⟩ := WatchState.check_of_reading h
    simp only [WatchState.finishReload, hCheck]
    exact .applied hCheck hStaged
  | sighup => exact .sighupApplied hStaged

theorem CheckPhase.acting_eq_false {check : CheckPhase H}
    (hReloading : ∀ size2 hash2 reading, check ≠ .reloading size2 hash2 reading)
    (hReloaded : ∀ size2 hash2, check ≠ .reloaded size2 hash2) : check.acting = false := by
  unfold CheckPhase.acting
  split
  · exact absurd rfl (hReloading _ _ _)
  · exact absurd rfl (hReloaded _ _)
  · rfl

/-- The file is still changing, or as it was recorded, or it is reloaded. -/
theorem watchStep_decideCheck [DecidableEq H] {w : WatchedFile H}
    (hActing : s.check.acting = false) (hWatched : s.watched = some w) (size1 : Nat) (hash1 : H)
    (size2 : Nat) :
    WatchStep hash s .hash2 (s.decideCheck w size1 hash1 size2 (hash s.file)) := by
  unfold WatchState.decideCheck
  split
  · exact .measure hActing rfl
  · split
    · exact .measure hActing rfl
    · exact .changed hActing hWatched

theorem watchStep_of_step [DecidableEq H] (h : s.step hash op = some s') :
    WatchStep hash s op s' := by
  cases op <;> simp only [WatchState.step] at h
  case write file =>
    cases h
    exact .write
  case init =>
    obtain ⟨hSetup, ⟨⟩⟩ := ite_none_right_eq_some.mp h
    exact .init hSetup
  case addStat =>
    obtain ⟨hSetup, ⟨⟩⟩ := ite_none_right_eq_some.mp h
    exact .register (.inl hSetup)
  case addHash =>
    split at h <;> cases h
    next hSetup => exact .watch hSetup
  case addFails =>
    split at h
    · next hSetup =>
      cases h
      exact .register (.inl hSetup)
    · next hSetup =>
      cases h
      exact .register (.inr ⟨_, hSetup⟩)
    · cases h
  case stat1 =>
    obtain ⟨⟨hIdle, -⟩, ⟨⟩⟩ := ite_none_right_eq_some.mp h
    exact .measure (by rw [hIdle]; rfl) rfl
  case hash1 =>
    split at h <;> cases h
    next hCheck => exact .measure (by rw [hCheck]; rfl) rfl
  case stat2 =>
    split at h <;> cases h
    next hCheck => exact .measure (by rw [hCheck]; rfl) rfl
  case hash2 =>
    split at h <;> cases h
    next hCheck hWatched => exact watchStep_decideCheck (by rw [hCheck]; rfl) hWatched ..
  case unreadable =>
    split at h <;> cases h
    next hReloading hReloaded =>
      exact .measure (CheckPhase.acting_eq_false hReloading hReloaded) rfl
  case signal =>
    obtain ⟨-, ⟨⟩⟩ := ite_none_right_eq_some.mp h
    exact .sighup
  case read who =>
    split at h <;> cases h
    next hReading =>
      exact watchStep_setReading hReading fun text hGot => (some.inj hGot).symm
  case reread who =>
    split at h
    · next text hReading =>
      split at h
      · cases h
        exact watchStep_failReload hReading
      · next hSame =>
        cases h
        exact watchStep_setReading hReading fun text' hGot =>
          (some.inj hGot).symm.trans (not_not.mp hSame)
    · cases h
  case reloadFails who =>
    split at h <;> cases h
    next hReading => exact watchStep_failReload hReading
  case stage who =>
    split at h <;> cases h
    next hReading => exact watchStep_stage hReading
  case apply who =>
    split at h
    · next hReading =>
      split at h
      · cases h
        exact watchStep_failReload hReading
      · next hStaged =>
        cases h
        exact watchStep_finishReload hReading hStaged
    · cases h
  case note =>
    split at h <;> cases h
    next hCheck => exact .note hCheck

/-! ## The invariant -/

structure WatchInv (hash : Bytes → H) (s : WatchState H) : Prop where
  /-- up to the registration the file is the one that `Init` has loaded -/
  unregistered : (s.setup = .loaded ∨ ∃ size, s.setup = .sized size) → s.rules = readTextFile s.file
  registered : ∀ w, s.watched = some w → s.setup = .watching
  acting : s.check.acting = true → s.setup = .watching
  /-- the recorded hash is that of the version in force, until a new one is in
  force and still to be noted -/
  recorded : ∀ w, s.watched = some w → (∃ size2 hash2, s.check = .reloaded size2 hash2) ∨
    ∃ file, w.lastHash = hash file ∧ s.rules = readTextFile file
  reloading : ∀ size2 hash2 reading, s.check = .reloading size2 hash2 reading →
    hash2 = hash s.file ∧ ∀ text, reading.text s.staging = some text → text = readTextFile s.file
  reloaded : ∀ size2 hash2, s.check = .reloaded size2 hash2 →
    hash2 = hash s.file ∧ s.rules = readTextFile s.file

namespace WatchInv

theorem not_reloaded (h : s.check.acting = false) (size2 : Nat) (hash2 : H) :
    s.check ≠ .reloaded size2 hash2 := by
  intro hCheck
  rw [hCheck] at h
  cases h

section

variable (hInv : WatchInv hash s)
include hInv

/-- Outside the last phase of `checkFile` the record is right. -/
theorem recorded_of_not_reloaded
    (h : ∀ size2 hash2, s.check ≠ .reloaded size2 hash2) {w : WatchedFile H}
    (hw : s.watched = some w) : ∃ file, w.lastHash = hash file ∧ s.rules = readTextFile file := by
  rcases hInv.recorded w hw with ⟨size2, hash2, hCheck⟩ | hFile
  · exact absurd hCheck (h size2 hash2)
  · exact hFile

/-- `checkFile` moves to a phase in which it owes nothing. -/
theorem setCheck {check : CheckPhase H} {staging : Option Bytes}
    {lastReloadOk : Bool} (hOld : ∀ size2 hash2, s.check ≠ .reloaded size2 hash2)
    (hNew : check.acting = false) : WatchInv hash { s with check, staging, lastReloadOk } where
  unregistered := hInv.unregistered
  registered := hInv.registered
  acting h := absurd (hNew.symm.trans h) nofun
  recorded _ hw := .inr (hInv.recorded_of_not_reloaded hOld hw)
  reloading _ _ _ h := by
    subst h
    cases hNew
  reloaded _ _ h := by
    subst h
    cases hNew

/-- The SIGHUP handler writes the staging field: what the watcher has staged is gone, or it
has staged nothing. -/
theorem setStaging {sighup : Option Reading} {staging : Option Bytes}
    {lastReloadOk : Bool} (h : staging = none ∨ s.reading .watcher = none) :
    WatchInv hash { s with sighup, staging, lastReloadOk } := by
  refine ⟨hInv.unregistered, hInv.registered, hInv.acting, hInv.recorded, ?_, hInv.reloaded⟩
  intro size2 hash2 reading hCheck
  obtain ⟨hHash, hText⟩ := hInv.reloading size2 hash2 reading hCheck
  refine ⟨hHash, fun text hGot => ?_⟩
  rcases h with rfl | hNone
  · cases reading with
    | staged => cases hGot
    | _ => exact hText text hGot
  · rw [WatchState.reading, hCheck] at hNone
    cases hNone

/-- A write outside the windows: nothing is owed to the old contents. -/
theorem write (hWindow : ¬s.Window) (file : Bytes) :
    WatchInv hash { s with file } := by
  simp only [WatchState.Window, not_or, not_exists] at hWindow
  obtain ⟨hLoaded, hSized, hReloading, hReloaded⟩ := hWindow
  refine ⟨?_, hInv.registered, hInv.acting, hInv.recorded, ?_, ?_⟩
  · rintro (h | ⟨size, h⟩)
    · exact absurd h hLoaded
    · exact absurd h (hSized size)
  · intro size2 hash2 reading h
    exact absurd h (hReloading size2 hash2 reading)
  · intro size2 hash2 h
    exact absurd h (hReloaded size2 hash2)

theorem step (hOk : QuietWindows s op) (h : WatchStep hash s op s') :
    WatchInv hash s' := by
  cases h with
  | @write file =>
    by_cases hWindow : s.Window
    · have hSame : file = s.file := hOk hWindow
      subst hSame
      exact hInv
    · exact hInv.write hWindow file
  | init hSetup =>
    -- no file is watched yet, so only the text just loaded matters
    have hNot : s.setup ≠ .watching := fun h => absurd (hSetup.symm.trans h) nofun
    refine ⟨fun _ => rfl, fun w hw => absurd (hInv.registered w hw) hNot,
      fun h => absurd (hInv.acting h) hNot, fun w hw => absurd (hInv.registered w hw) hNot,
      hInv.reloading, fun size2 hash2 h => ⟨(hInv.reloaded size2 hash2 h).1, rfl⟩⟩
  | register hSetup =>
    have hRules := hInv.unregistered hSetup
    have hNot : s.setup ≠ .watching := by
      rcases hSetup with h | ⟨size, h⟩
      · exact fun hw => absurd (h.symm.trans hw) nofun
      · exact fun hw => absurd (h.symm.trans hw) nofun
    exact ⟨fun _ => hRules, fun w hw => absurd (hInv.registered w hw) hNot,
      fun h => absurd (hInv.acting h) hNot, hInv.recorded, hInv.reloading, hInv.reloaded⟩
  | @watch size hSetup =>
    -- no write since `Init`: the version hashed here is the one in force
    have hRules := hInv.unregistered (.inr ⟨size, hSetup⟩)
    refine ⟨?_, fun _ _ => rfl, fun _ => rfl, ?_, hInv.reloading, hInv.reloaded⟩
    · rintro (h | ⟨size, h⟩) <;> cases h
    · rintro w ⟨⟩
      exact .inr ⟨s.file, rfl, hRules⟩
  | measure hOld hNew => exact hInv.setCheck (not_reloaded hOld) hNew
  | changed hOld hWatched =>
    refine ⟨hInv.unregistered, hInv.registered, fun _ => hInv.registered _ hWatched,
      fun w hw => .inr (hInv.recorded_of_not_reloaded (not_reloaded hOld) hw), ?_, nofun⟩
    rintro size2 hash2 reading ⟨⟩
    exact ⟨rfl, nofun⟩
  | read hCheck hRead =>
    have hActing := hInv.acting (by rw [hCheck]; rfl)
    obtain ⟨hHash, hText⟩ := hInv.reloading _ _ _ hCheck
    refine ⟨hInv.unregistered, hInv.registered, fun _ => hActing,
      fun w hw => .inr (hInv.recorded_of_not_reloaded (by rw [hCheck]; exact nofun) hw), ?_, nofun⟩
    rintro size2 hash2 reading ⟨⟩
    exact ⟨hHash, fun text hGot => (hRead text hGot).elim id (hText text)⟩
  | fail hCheck => exact hInv.setCheck (by rw [hCheck]; exact nofun) rfl
  | applied hCheck hStaged =>
    -- the text comes from the file as it was measured, and still is
    have hActing := hInv.acting (by rw [hCheck]; rfl)
    obtain ⟨hHash, hText⟩ := hInv.reloading _ _ _ hCheck
    have hRules := hText _ hStaged
    refine ⟨fun _ => hRules, hInv.registered, fun _ => hActing, fun _ _ => .inl ⟨_, _, rfl⟩,
      nofun, ?_⟩
    rintro size2 hash2 ⟨⟩
    exact ⟨hHash, hRules⟩
  | note hCheck =>
    have hActing := hInv.acting (by rw [hCheck]; rfl)
    obtain ⟨hHash, hRules⟩ := hInv.reloaded _ _ hCheck
    refine ⟨fun _ => hRules, fun _ _ => hActing, nofun, ?_, nofun, nofun⟩
    rintro w ⟨⟩
    exact .inr ⟨s.file, hHash, hRules⟩
  | sighup =>
    exact ⟨hInv.unregistered, hInv.registered, hInv.acting, hInv.recorded, hInv.reloading,
      hInv.reloaded⟩
  | sighupStaged => exact hInv.setStaging (.inr hOk)
  | sighupFails => exact hInv.setStaging (.inl rfl)
  | sighupApplied hStaged =>
    -- a SIGHUP that applies what is in force changes nothing
    have hSame := hOk.2 _ hStaged
    subst hSame
    exact hInv.setStaging (.inl rfl)

end

theorem of_reach [DecidableEq H] (hs : (watchMachine hash).Reach QuietWindows s) :
    WatchInv hash s := by
  refine hs.invariant (P := fun s => WatchInv hash s) ?_ ?_
  · rintro s ⟨hSetup, hWatched, hCheck, -, -⟩
    refine ⟨?_, fun w hw => ?_, fun h => ?_, fun w hw => ?_, ?_, ?_⟩
    · rintro (h | ⟨size, h⟩)
      · exact absurd (hSetup.symm.trans h) nofun
      · exact absurd (hSetup.symm.trans h) nofun
    · exact absurd (hWatched.symm.trans hw) nofun
    · rw [hCheck] at h
      cases h
    · exact absurd (hWatched.symm.trans hw) nofun
    · intro size2 hash2 reading h
      exact absurd (hCheck.symm.trans h) nofun
    · intro size2 hash2 h
      exact absurd (hCheck.symm.trans h) nofun
  · intro s op s' hInv hOk hNext
    exact hInv.step hOk (watchStep_of_step hNext)

end WatchInv

end Steps

end DnscryptProxy
