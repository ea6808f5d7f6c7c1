import DnscryptProxy.Net.Fingerprint
import Mathlib.Data.List.Induction

/-!
# Network epochs

`networkMonitor` of `netmon.go`. A call takes a sample of the interfaces and compares its
fingerprint with the last one; if it is another one, the epoch goes up and the callback runs. Calls
made while one is sampling, such as those of the callback, return at once.

A `MonitorCall` has with it what the interfaces look like at that time, and the calls the callback
makes if it runs.

* `exec_sampling` — calls are ignored while another one is sampling;
* `exec_first`, `exec_check_again` — what a call does otherwise;
* `tracks_run` — after any calls the monitor has the last sample, and the number of changes;
* `epoch_counts_changes` — with `fingerprint_unnoticed`, the epoch counts changes of the network
  that matter.
-/

namespace DnscryptProxy

open Base

/-! ## The monitor -/

structure NetworkMonitor where
  epochValue : UInt64
  sampling : Bool
  initialized : Bool
  /-- empty before the first sample -/
  lastInterfaces : Bytes
deriving Repr, DecidableEq

def newNetworkMonitor : NetworkMonitor :=
  { epochValue := 0, sampling := false, initialized := false, lastInterfaces := [] }

/-- A call, with what `interfaces` returns if it is asked, and the calls of `onChange`. -/
inductive MonitorCall where
  | init (interfaces : Except GoError (List NetworkInterfaceSnapshot))
      (onChange : List MonitorCall)
  | check (interfaces : Except GoError (List NetworkInterfaceSnapshot))
      (onChange : List MonitorCall)

section Monitor

variable (sha256 : Bytes → Vector UInt8 32)

/-- `sample`, with `notifyNetworkChange`. -/
def NetworkMonitor.sample (interfaces : Except GoError (List NetworkInterfaceSnapshot))
    (onChange : NetworkMonitor → NetworkMonitor) (notify : Bool) (monitor : NetworkMonitor) :
    NetworkMonitor :=
  match interfaces with
  | .error _ => monitor
  | .ok interfaces =>
    let fingerprint := buildNetworkInterfaceFingerprint sha256 interfaces
    let changed := monitor.lastInterfaces ≠ [] ∧ monitor.lastInterfaces ≠ fingerprint
    let monitor := { monitor with lastInterfaces := fingerprint }
    if changed ∧ notify = true then
      onChange { monitor with epochValue := monitor.epochValue + 1 }
    else monitor

/-- The guard of `init` and `check`: a call made while another one samples returns at once. -/
def NetworkMonitor.whileSampling (body : NetworkMonitor → NetworkMonitor)
    (monitor : NetworkMonitor) : NetworkMonitor :=
  if monitor.sampling = true then monitor
  else { body { monitor with sampling := true } with sampling := false }

mutual

/-- `init` and `check`. -/
def MonitorCall.exec : MonitorCall → NetworkMonitor → NetworkMonitor
  | .init interfaces onChange, monitor => monitor.whileSampling fun monitor =>
    if monitor.initialized = true then monitor
    else { monitor with initialized := true }.sample sha256 interfaces (execAll onChange) false
  | .check interfaces onChange, monitor => monitor.whileSampling fun monitor =>
    if monitor.initialized = false then
      { monitor with initialized := true }.sample sha256 interfaces (execAll onChange) false
    else monitor.sample sha256 interfaces (execAll onChange) true

/-- Calls one after the other. -/
def execAll : List MonitorCall → NetworkMonitor → NetworkMonitor
  | [], monitor => monitor
  | call :: calls, monitor => execAll calls (call.exec monitor)

end

/-! ## What is to be counted -/

/-- The fingerprint a call sees if it takes a sample. -/
def MonitorCall.seen : MonitorCall → Option Bytes
  | .init (.ok interfaces) _ | .check (.ok interfaces) _ =>
    some (buildNetworkInterfaceFingerprint sha256 interfaces)
  | .init (.error _) _ | .check (.error _) _ => none

def MonitorCall.isCheck : MonitorCall → Bool
  | .init _ _ => false
  | .check _ _ => true

/-- The successful samples of a run: those of its first call, and of the checks behind it. -/
def samples : List MonitorCall → List Bytes
  | [] => []
  | first :: rest => (first :: rest.filter (·.isCheck)).filterMap (·.seen sha256)

/-- How many samples differ from the one before. -/
def changes (samples : List Bytes) : Nat :=
  (samples.zip samples.tail).countP fun p => decide (p.1 ≠ p.2)

/-! ## Runs -/

variable {sha256}

variable {monitor : NetworkMonitor}

theorem exec_sampling (call : MonitorCall)
    (h : monitor.sampling = true) : call.exec sha256 monitor = monitor := by
  cases call <;> rw [MonitorCall.exec, NetworkMonitor.whileSampling, if_pos h]

theorem execAll_sampling (calls : List MonitorCall)
    (h : monitor.sampling = true) : execAll sha256 calls monitor = monitor := by
  induction calls with
  | nil => rw [execAll]
  | cons call calls ih => rw [execAll, exec_sampling call h, ih]

theorem execAll_concat (calls : List MonitorCall) (call : MonitorCall) (monitor : NetworkMonitor) :
    execAll sha256 (calls ++ [call]) monitor = call.exec sha256 (execAll sha256 calls monitor) := by
  induction calls generalizing monitor with
  | nil => simp only [List.nil_append, execAll]
  | cons c calls ih => rw [List.cons_append, execAll, execAll, ih]

/-- A sample is kept, and counted where it is to be notified and differs from the last one: the
calls of the callback change nothing. -/
theorem sample_sampling (interfaces : Except GoError (List NetworkInterfaceSnapshot))
    (onChange : List MonitorCall) (notify : Bool)
    (h : monitor.sampling = true) :
    monitor.sample sha256 interfaces (execAll sha256 onChange) notify = match interfaces with
      | .error _ => monitor
      | .ok interfaces =>
        { monitor with
          lastInterfaces := buildNetworkInterfaceFingerprint sha256 interfaces
          epochValue :=
            if (monitor.lastInterfaces ≠ [] ∧
                monitor.lastInterfaces ≠ buildNetworkInterfaceFingerprint sha256 interfaces) ∧
                notify = true then monitor.epochValue + 1
            else monitor.epochValue } := by
  cases interfaces with
  | error => rfl
  | ok interfaces =>
    unfold NetworkMonitor.sample
    dsimp only
    split
    · exact execAll_sampling onChange h
    · rfl

section Idle

variable {monitor : NetworkMonitor} (hIdle : monitor.sampling = false)
include hIdle

/-- The first call, of either kind, takes a sample and counts nothing. -/
theorem exec_first (hNew : monitor.initialized = false) (hNone : monitor.lastInterfaces = [])
    (call : MonitorCall) :
    call.exec sha256 monitor =
      { monitor with initialized := true, lastInterfaces := (call.seen sha256).getD [] } := by
  have hNot : ¬ monitor.sampling = true := by simp [hIdle]
  cases call with
  | init interfaces onChange =>
    rw [MonitorCall.exec, NetworkMonitor.whileSampling, if_neg hNot]
    dsimp only
    rw [if_neg (by simp [hNew]), sample_sampling _ _ _ rfl]
    cases interfaces <;> simp [MonitorCall.seen, hIdle, hNone]
  | check interfaces onChange =>
    rw [MonitorCall.exec, NetworkMonitor.whileSampling, if_neg hNot]
    dsimp only
    rw [if_pos hNew, sample_sampling _ _ _ rfl]
    cases interfaces <;> simp [MonitorCall.seen, hIdle, hNone]

theorem exec_init_again (hInit : monitor.initialized = true)
    (interfaces : Except GoError (List NetworkInterfaceSnapshot)) (onChange : List MonitorCall) :
    (MonitorCall.init interfaces onChange).exec sha256 monitor = monitor := by
  have hNot : ¬ monitor.sampling = true := by simp [hIdle]
  rw [MonitorCall.exec, NetworkMonitor.whileSampling, if_neg hNot]
  dsimp only
  rw [if_pos hInit]
  simp [← hIdle]

theorem exec_check_again (hInit : monitor.initialized = true)
    (interfaces : Except GoError (List NetworkInterfaceSnapshot)) (onChange : List MonitorCall) :
    (MonitorCall.check interfaces onChange).exec sha256 monitor =
      match (MonitorCall.check interfaces onChange).seen sha256 with
      | none => monitor
      | some f =>
        { monitor with
          lastInterfaces := f
          epochValue :=
            if monitor.lastInterfaces ≠ [] ∧ monitor.lastInterfaces ≠ f then monitor.epochValue + 1
            else monitor.epochValue } := by
  have hNot : ¬ monitor.sampling = true := by simp [hIdle]
  rw [MonitorCall.exec, NetworkMonitor.whileSampling, if_neg hNot]
  dsimp only
  rw [if_neg (by simp [hInit]), sample_sampling _ _ _ rfl]
  cases interfaces <;> simp [MonitorCall.seen, ← hIdle]

end Idle

theorem seen_ne_nil {call : MonitorCall} {f : Bytes} (h : call.seen sha256 = some f) : f ≠ [] := by
  rcases call with ⟨_ | interfaces, _⟩ | ⟨_ | interfaces, _⟩
  · cases h
  · rw [← Option.some.inj h]
    exact fingerprint_ne_nil sha256 interfaces
  · cases h
  · rw [← Option.some.inj h]
    exact fingerprint_ne_nil sha256 interfaces

theorem samples_ne_nil {calls : List MonitorCall} {f : Bytes} (h : f ∈ samples sha256 calls) :
    f ≠ [] := by
  cases calls with
  | nil => cases h
  | cons first rest =>
    obtain ⟨call, -, hSeen⟩ := List.mem_filterMap.mp h
    exact seen_ne_nil hSeen

theorem samples_concat {calls : List MonitorCall} (h : calls ≠ []) (call : MonitorCall) :
    samples sha256 (calls ++ [call]) =
      samples sha256 calls ++ if call.isCheck = true then (call.seen sha256).toList else [] := by
  obtain ⟨first, rest, rfl⟩ := List.exists_cons_of_ne_nil h
  rw [List.cons_append, samples, samples, List.filter_append, ← List.cons_append,
    List.filterMap_append]
  congr 1
  cases hCheck : call.isCheck with
  | false => simp [hCheck]
  | true => cases hSeen : call.seen sha256 <;> simp [hCheck, hSeen]

theorem changes_concat (l : List Bytes) (f : Bytes) :
    changes (l ++ [f]) = changes l + if ∃ g, l.getLast? = some g ∧ g ≠ f then 1 else 0 := by
  induction l with
  | nil => simp [changes]
  | cons a l ih =>
    cases l with
    | nil => by_cases hEq : a = f <;> simp [changes, hEq]
    | cons b l =>
      have hCons : ∀ l', changes (a :: b :: l') = (if a ≠ b then 1 else 0) + changes (b :: l') := by
        intro l'
        by_cases hEq : a = b <;> simp [changes, hEq, Nat.add_comm]
      rw [List.cons_append, List.cons_append, hCons, ← List.cons_append, ih, hCons,
        List.getLast?_cons_cons, Nat.add_assoc]

variable (sha256) in
/-- The monitor after these calls: not sampling, with the last sample and the number of changes. -/
structure Tracks (calls : List MonitorCall) (monitor : NetworkMonitor) : Prop where
  idle : monitor.sampling = false
  initialized : monitor.initialized = !calls.isEmpty
  last : monitor.lastInterfaces = (samples sha256 calls).getLast?.getD []
  epoch : monitor.epochValue = UInt64.ofNat (changes (samples sha256 calls))

theorem Tracks.first {monitor : NetworkMonitor} (h : Tracks sha256 [] monitor)
    (call : MonitorCall) : Tracks sha256 [call] (call.exec sha256 monitor) := by
  have hSamples : samples sha256 [call] = (call.seen sha256).toList := by
    cases hSeen : call.seen sha256 <;> simp [samples, hSeen]
  rw [exec_first h.idle h.initialized h.last]
  refine ⟨h.idle, rfl, ?_, ?_⟩
  · rw [hSamples]
    cases call.seen sha256 <;> rfl
  · rw [hSamples]
    refine h.epoch.trans ?_
    cases call.seen sha256 <;> rfl

theorem Tracks.later {calls : List MonitorCall} {monitor : NetworkMonitor}
    (h : Tracks sha256 calls monitor) (hCalls : calls ≠ []) (call : MonitorCall) :
    Tracks sha256 (calls ++ [call]) (call.exec sha256 monitor) := by
  have hInit : monitor.initialized = true := by
    rw [h.initialized, List.isEmpty_eq_false_iff.mpr hCalls]
    rfl
  have hSome : (!(calls ++ [call]).isEmpty) = true := by simp
  have hSamples : samples sha256 (calls ++ [call]) = _ := samples_concat hCalls call
  cases call with
  | init interfaces onChange =>
    rw [exec_init_again h.idle hInit]
    rw [MonitorCall.isCheck, if_neg Bool.false_ne_true, List.append_nil] at hSamples
    exact ⟨h.idle, hInit.trans hSome.symm, hSamples ▸ h.last, hSamples ▸ h.epoch⟩
  | check interfaces onChange =>
    rw [exec_check_again h.idle hInit]
    rw [MonitorCall.isCheck, if_pos rfl] at hSamples
    cases hSeen : (MonitorCall.check interfaces onChange).seen sha256 with
    | none =>
      rw [hSeen, Option.toList_none, List.append_nil] at hSamples
      exact ⟨h.idle, hInit.trans hSome.symm, hSamples ▸ h.last, hSamples ▸ h.epoch⟩
    | some f =>
      rw [hSeen, Option.toList_some] at hSamples
      refine ⟨h.idle, hInit.trans hSome.symm, ?_, ?_⟩
      · rw [hSamples, List.getLast?_concat]
        rfl
      · -- the last sample is not empty, so an empty one means that there is none
        have hChanged : (monitor.lastInterfaces ≠ [] ∧ monitor.lastInterfaces ≠ f) ↔
            ∃ g, (samples sha256 calls).getLast? = some g ∧ g ≠ f := by
          rw [h.last]
          cases hLast : (samples sha256 calls).getLast? with
          | none => simp
          | some g =>
            have hNe := samples_ne_nil (List.mem_of_getLast? hLast)
            simp [hNe]
        dsimp only
        rw [hSamples, changes_concat, h.epoch]
        by_cases hChange : ∃ g, (samples sha256 calls).getLast? = some g ∧ g ≠ f
        · rw [if_pos (hChanged.mpr hChange), if_pos hChange, UInt64.ofNat_add]
          rfl
        · rw [if_neg (hChanged.not.mpr hChange), if_neg hChange, Nat.add_zero]

theorem tracks_run (calls : List MonitorCall) :
    Tracks sha256 calls (execAll sha256 calls newNetworkMonitor) := by
  induction calls using List.reverseRecOn with
  | nil =>
    exact ⟨rfl, rfl, rfl, rfl⟩
  | append_singleton calls call ih =>
    rw [execAll_concat]
    by_cases hFirst : calls = []
    · subst hFirst
      exact ih.first call
    · exact ih.later hFirst call

/-- Changes that are to go unnoticed leave the fingerprint as it is; and after any calls, with
failed samples and calls of the callback among them, the epoch is the number of samples that differ
from the one before. -/
theorem epoch_counts_changes :
    (∀ as bs, Unnoticed as bs →
      buildNetworkInterfaceFingerprint sha256 as = buildNetworkInterfaceFingerprint sha256 bs) ∧
    ∀ calls, (execAll sha256 calls newNetworkMonitor).epochValue =
      UInt64.ofNat (changes (samples sha256 calls)) :=
  ⟨fun _ _ h => fingerprint_unnoticed sha256 h, fun calls => (tracks_run calls).epoch⟩

end Monitor

/-- The first 32 bytes, in place of a hash. -/
def firstBytes (b : Bytes) : Vector UInt8 32 := Vector.ofFn fun i => b.getD i 0

/-- `2001:db8::` with the last byte `host`. -/
def documentationHost (host : UInt8) : Bytes :=
  [0x20, 0x01, 0x0d, 0xb8] ++ List.replicate 11 0 ++ [host]

/-- Another host of the network is not noticed; a network that goes away is, once, also where the
callback checks again. -/
theorem epoch_counts_changes_once :
    buildNetworkInterfaceFingerprint firstBytes [ethernet (documentationHost 2)] =
      buildNetworkInterfaceFingerprint firstBytes [ethernet (documentationHost 3)] ∧
    (execAll firstBytes
      [.init (.ok [ethernet (documentationHost 2)]) [], .check (.error (.plain "")) [],
        .check (.ok [ethernet (documentationHost 3)]) [],
        .check (.ok []) [.check (.ok [ethernet (documentationHost 2)]) []],
        .check (.ok []) []] newNetworkMonitor).epochValue = 1 := by
  have hUnnoticed :
      Unnoticed [ethernet (documentationHost 2)] [ethernet (documentationHost 3)] := by
    have hSame : SamePrefix (documentationHost 2) (documentationHost 3) (cidrMask 16 64) :=
      ⟨documentationHost 0, by decide, by decide⟩
    exact .rel _ _ (.changed _ _ [] (.hostBits (ethernet (documentationHost 2))
      ⟨documentationHost 2, cidrMask 16 64⟩ (documentationHost 3) [] rfl hSame
      ⟨by decide, by decide⟩ ⟨by decide, by decide⟩))
  refine ⟨epoch_counts_changes.1 _ _ hUnnoticed, (epoch_counts_changes.2 _).trans ?_⟩
  decide +kernel

end DnscryptProxy
