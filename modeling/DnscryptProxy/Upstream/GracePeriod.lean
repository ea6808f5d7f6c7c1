import DnscryptProxy.Base.Distinct
import DnscryptProxy.Upstream.AddressCache

/-!
# Expired addresses and their grace period

When the addresses of a host have expired and cannot be resolved again,
`resolveAndUpdateCache` stores the old ones once more, with a time to live of
`ExpiredCachedIPGraceTTL`. `saveCachedIPs` raises every time to live to
`MinResolverIPTTL`, though, which is the longer of the two. So a failed refresh keeps
the old addresses as long as a fresh answer is kept, and the host is not resolved
again before that.

* `distinct_reach` — the addresses of an entry are never changed by storing them again;
* `grace_period_never_kept` — what every refresh stores, from any reachable state.
-/

namespace DnscryptProxy

open Option

variable {ips : List Bytes} {t : XTransport}

open Base List

/-! ## Addresses that are stored again -/

theorem uniqueNormalizedIPsFrom_eq (ips : List Bytes) : ∀ seen,
    uniqueNormalizedIPsFrom seen ips = distinctOn ipKey seen (ips.filter (· ≠ [])) := by
  induction ips with
  | nil => exact fun _ => rfl
  | cons ip ips ih =>
    intro seen
    show (if ip = [] then uniqueNormalizedIPsFrom seen ips
      else if ipKey ip ∈ seen then uniqueNormalizedIPsFrom seen ips
      else ip :: uniqueNormalizedIPsFrom (ipKey ip :: seen) ips) = _
    by_cases hNil : ip = []
    · rw [if_pos hNil, ih, filter_cons_of_neg (by simpa using hNil)]
    · rw [if_neg hNil, filter_cons_of_pos (by simpa using hNil), distinctOn]
      by_cases hSeen : ipKey ip ∈ seen
      · rw [if_pos hSeen, if_pos hSeen, ih]
      · rw [if_neg hSeen, if_neg hSeen, ih]

/-- The addresses of an entry: none is nil, and no two are the same. -/
structure DistinctIPs (ips : List Bytes) : Prop where
  not_nil : ∀ ip ∈ ips, ip ≠ []
  nodup : (ips.map ipKey).Nodup

theorem DistinctIPs.sublist {ips ips' : List Bytes} (h : DistinctIPs ips)
    (hSub : ips'.Sublist ips) : DistinctIPs ips' :=
  ⟨fun ip hIp => h.not_nil ip (hSub.subset hIp), h.nodup.sublist (hSub.map ipKey)⟩

theorem distinctIPs_unique (ips : List Bytes) : DistinctIPs (uniqueNormalizedIPs ips) := by
  rw [uniqueNormalizedIPs, uniqueNormalizedIPsFrom_eq]
  refine ⟨fun ip hIp => ?_, nodup_distinctOn ipKey _ _⟩
  have hMem := (distinctOn_sublist ipKey _ _).subset hIp
  simpa using (mem_filter.mp hMem).2

theorem DistinctIPs.unique_eq (h : DistinctIPs ips) :
    uniqueNormalizedIPs ips = ips := by
  have hAll : ips.filter (· ≠ []) = ips :=
    filter_eq_self.mpr fun ip hIp => by simpa using h.not_nil ip hIp
  rw [uniqueNormalizedIPs, uniqueNormalizedIPsFrom_eq, hAll,
    distinctOn_eq_self ipKey h.nodup fun _ _ => not_mem_nil]

theorem unique_ne_nil {ip : Bytes} (hMem : ip ∈ ips) (hIp : ip ≠ []) :
    uniqueNormalizedIPs ips ≠ [] := by
  intro hNone
  rw [uniqueNormalizedIPs, uniqueNormalizedIPsFrom_eq] at hNone
  have hKey : ipKey ip ∈ (distinctOn ipKey [] (ips.filter (· ≠ []))).map ipKey := by
    rw [mem_map_distinctOn]
    refine ⟨mem_map_of_mem (mem_filter.mpr ⟨hMem, ?_⟩), not_mem_nil⟩
    simpa using hIp
  rw [hNone] at hKey
  cases hKey

/-- The addresses of every entry, and those that a resolution has found. -/
structure Distinct (s : AddressState) : Prop where
  cache : ∀ host item, s.cache host = some item → DistinctIPs item.ips
  calls : ∀ call r, s.calls call = some r → DistinctIPs r.cachedIPs

theorem distinct_saveCachedIPs {cache : IPCache}
    (h : ∀ host item, cache host = some item → DistinctIPs item.ips) (host : String)
    (ips : List Bytes) (ttl : Duration) (now : Time) (jitter : Duration) :
    ∀ host' item, cache.saveCachedIPs host ips ttl now jitter host' = some item →
      DistinctIPs item.ips := by
  intro host' item hItem
  unfold IPCache.saveCachedIPs at hItem
  split at hItem
  · exact h host' item hItem
  · rcases update_some_eq_some.mp hItem with ⟨-, rfl⟩ | ⟨-, hOld⟩
    · exact distinctIPs_unique ips
    · exact h host' item hOld

theorem Distinct.step {s s' : AddressState} {op : AddressOp} (h : Distinct s)
    (hStep : AddressStep t s op s') : Distinct s' := by
  cases hStep with
  | @pin host ip ttl hTtl =>
    refine ⟨fun host' item hItem => ?_, h.calls⟩
    dsimp only [IPCache.saveCachedIP] at hItem
    split at hItem
    · exact h.cache host' item hItem
    · exact distinct_saveCachedIPs h.cache host [ip] ttl 0 0 host' item hItem
  | cached => exact h
  | @resolve call host now now' cachedIPs expired updating hLoad hResolve =>
    refine ⟨h.cache, fun call' r hCall => ?_⟩
    rcases update_some_eq_some.mp hCall with ⟨-, rfl⟩ | ⟨-, hOld⟩
    · -- the addresses are read from the entry
      unfold IPCache.loadCachedIPs at hLoad
      split at hLoad
      · cases hLoad
        exact ⟨fun ip hIp => absurd hIp not_mem_nil, nodup_nil⟩
      · next item hItem =>
        have hIps : cachedIPs = item.ips.filter (· ≠ []) := by
          split at hLoad <;> cases hLoad <;> rfl
        rw [hIps]
        exact (h.cache host item hItem).sublist filter_sublist
    · exact h.calls call' r hOld
  | @mark call now r hCall =>
    constructor
    · intro host item hItem
      dsimp only [IPCache.markUpdatingCachedIP] at hItem
      cases hOld : s.cache r.host with
      | none =>
        rw [hOld] at hItem
        exact h.cache host item hItem
      | some old =>
        rw [hOld] at hItem
        rcases update_some_eq_some.mp hItem with ⟨-, rfl⟩ | ⟨-, hOther⟩
        · exact h.cache r.host old hOld
        · exact h.cache host item hOther
    · intro call' r' hCall'
      rcases update_some_eq_some.mp hCall' with ⟨-, rfl⟩ | ⟨-, hOld⟩
      · exact h.calls call r hCall
      · exact h.calls call' r' hOld
  | @stored call answer now jitter r ips ttl hCall hSelect =>
    refine ⟨distinct_saveCachedIPs h.cache r.host ips ttl now jitter, fun call' r' hCall' => ?_⟩
    exact h.calls call' r' (update_none_eq_some.mp hCall').2
  | nothing =>
    refine ⟨h.cache, fun call' r' hCall' => ?_⟩
    exact h.calls call' r' (update_none_eq_some.mp hCall').2

theorem distinct_reach {s₀ s : AddressState} (hStart : Distinct s₀)
    (h : ((addressMachine t).startAt s₀).Reach Machine.anyStep s) : Distinct s := by
  refine h.invariant (P := Distinct) ?_ ?_
  · rintro s rfl
    exact hStart
  · intro s op s' hDistinct _ hNext
    exact hDistinct.step (addressStep_of_step hNext)

/-! ## What a refresh stores -/

/-- An entry with these addresses, until `expiration`. -/
def IPCache.HoldsUntil (cache : IPCache) (host : String) (ips : List Bytes) (expiration : Time) :
    Prop :=
  cache host = some { ips, expiration := some expiration, updatingUntil := none }

/-- Whatever their time to live is, addresses are stored for `MinResolverIPTTL` at
least. -/
theorem holdsUntil_saveCachedIPs (cache : IPCache) (host : String)
    {ttl : Duration} (hIps : uniqueNormalizedIPs ips ≠ []) (hTtl : 0 ≤ ttl) (now : Time)
    (jitter : Duration) :
    ∃ expiration,
      (cache.saveCachedIPs host ips ttl now jitter).HoldsUntil host (uniqueNormalizedIPs ips)
        expiration ∧
      now + minResolverIPTTL ≤ expiration := by
  refine ⟨now + (max ttl minResolverIPTTL + jitter % resolverIPTTLMaxJitter), ?_, ?_⟩
  · rw [IPCache.HoldsUntil, IPCache.saveCachedIPs, if_neg hIps, if_pos hTtl, Function.update_self]
  · have hJitter : 0 ≤ jitter % resolverIPTTLMaxJitter := Int.emod_nonneg jitter (by decide)
    have hMax : minResolverIPTTL ≤ max ttl minResolverIPTTL := le_max_right _ _
    linarith

/-- A host with an entry is not resolved before the entry has expired. -/
theorem IPCache.HoldsUntil.loadCachedIPs {cache : IPCache} {host : String}
    {expiration : Time} (h : cache.HoldsUntil host ips expiration) (hIps : DistinctIPs ips)
    {now : Time} (hNow : now ≤ expiration) (now' : Time) :
    cache.loadCachedIPs host now now' = (ips, false, false) := by
  have hAll : ips.filter (· ≠ []) = ips :=
    filter_eq_self.mpr fun ip hIp => by simpa using hIps.not_nil ip hIp
  have hFuture : ¬ expiration - now < 0 := not_lt.mpr (sub_nonneg.mpr hNow)
  unfold IPCache.loadCachedIPs
  rw [h]
  simp only [any_some, hFuture, decide_false, Bool.false_eq_true, if_false, hAll]

/-- A resolution that gives no address. -/
def Fails (answer : Except GoError (List Bytes × Duration)) : Prop :=
  ∀ ips ttl, answer = .ok (ips, ttl) → ips = []

theorem selectIPs_of_fails {cachedIPs : List Bytes} (hStale : cachedIPs ≠ [])
    {answer : Except GoError (List Bytes × Duration)} (hFails : Fails answer) :
    selectIPs cachedIPs answer = some (cachedIPs, expiredCachedIPGraceTTL) := by
  cases answer with
  | error err => exact if_pos ⟨rfl, hStale⟩
  | ok result =>
    obtain ⟨ips, ttl⟩ := result
    exact if_pos ⟨hFails ips ttl rfl, hStale⟩

theorem selectIPs_of_fresh (cachedIPs : List Bytes) (hIps : ips ≠ []) (ttl : Duration) :
    selectIPs cachedIPs (.ok (ips, ttl)) = some (ips, max ttl minResolverIPTTL) := by
  unfold selectIPs
  rw [if_neg fun h => hIps h.1, if_neg hIps]

theorem step_store {s s' : AddressState} {call : Nat} {r : Resolution}
    {answer : Except GoError (List Bytes × Duration)} {now : Time} {jitter : Duration}
    {ttl : Duration} (hCall : s.calls call = some r)
    (hSelect : selectIPs r.cachedIPs answer = some (ips, ttl))
    (hStep : (addressMachine t).step s (.store call answer now jitter) = some s') :
    s'.cache = s.cache.saveCachedIPs r.host ips ttl now jitter := by
  simp only [addressMachine, AddressState.step, hCall, hSelect, ite_none_right_eq_some]
    at hStep
  obtain ⟨-, hEq⟩ := hStep
  cases hEq
  rfl

/-- What the grace period is for: the old addresses are kept, for at most the grace
period and the jitter. -/
def KeptForGrace (cache : IPCache) (r : Resolution) (now : Time) : Prop :=
  ∃ expiration, cache.HoldsUntil r.host r.cachedIPs expiration ∧
    expiration ≤ now + (expiredCachedIPGraceTTL + resolverIPTTLMaxJitter)

/-- At the end of every refresh, in every run: the old addresses that a failed resolution
keeps, like new ones, stay for `MinResolverIPTTL` at least, which is more than the grace
period and the jitter. Up to then the host is not resolved again. -/
theorem grace_period_never_kept {t : XTransport} {s₀ s s' : AddressState} {call : Nat}
    {r : Resolution} {answer : Except GoError (List Bytes × Duration)} {now : Time}
    {jitter : Duration} (hStart : Distinct s₀)
    (hReach : ((addressMachine t).startAt s₀).Reach Machine.anyStep s)
    (hCall : s.calls call = some r)
    (hStep : (addressMachine t).step s (.store call answer now jitter) = some s') :
    (Fails answer → r.cachedIPs ≠ [] → ¬ KeptForGrace s'.cache r now ∧
      ∃ expiration, s'.cache.HoldsUntil r.host r.cachedIPs expiration ∧
        now + minResolverIPTTL ≤ expiration ∧
        ∀ later later', later ≤ expiration →
          s'.cache.loadCachedIPs r.host later later' = (r.cachedIPs, false, false)) ∧
    ∀ ips ttl, answer = .ok (ips, ttl) → (∃ ip ∈ ips, ip ≠ []) →
      ∃ expiration, s'.cache.HoldsUntil r.host (uniqueNormalizedIPs ips) expiration ∧
        now + minResolverIPTTL ≤ expiration := by
  constructor
  · intro hFails hStale
    have hDistinct := (distinct_reach hStart hReach).calls call r hCall
    have hUnique : uniqueNormalizedIPs r.cachedIPs ≠ [] := by rwa [hDistinct.unique_eq]
    obtain ⟨expiration, hHolds, hLong⟩ := holdsUntil_saveCachedIPs s.cache r.host hUnique
      (by decide : 0 ≤ expiredCachedIPGraceTTL) now jitter
    rw [← step_store hCall (selectIPs_of_fails hStale hFails) hStep, hDistinct.unique_eq] at hHolds
    refine ⟨?_, expiration, hHolds, hLong, fun later later' hLater => ?_⟩
    · rintro ⟨expiration', hHolds', hShort⟩
      -- there is one entry, and four hours are more than half an hour
      have hSame : expiration = expiration' := by
        rw [IPCache.HoldsUntil, hHolds] at hHolds'
        exact some.inj (CachedIPItem.mk.inj (some.inj hHolds')).2.1
      have hOrder : expiredCachedIPGraceTTL + resolverIPTTLMaxJitter < minResolverIPTTL := by decide
      linarith
    · exact hHolds.loadCachedIPs hDistinct hLater later'
  · rintro ips ttl rfl ⟨ip, hMem, hIp⟩
    have hTtl : 0 ≤ max ttl minResolverIPTTL := le_max_of_le_right (by decide)
    have hSelect := selectIPs_of_fresh r.cachedIPs (ne_nil_of_mem hMem) ttl
    rw [step_store hCall hSelect hStep]
    exact holdsUntil_saveCachedIPs s.cache r.host (unique_ne_nil hMem hIp) hTtl now jitter

/-- An answer for an hour, and a fetch five hours later that finds it expired. -/
def beforeRefresh : List AddressOp :=
  [.load 1 "doh" 0 0, .mark 1 0, .store 1 (.ok ([[9, 9, 9, 9]], 3600 * Second)) 0 0,
    .load 2 "doh" (5 * 3600 * Second) (5 * 3600 * Second), .mark 2 (5 * 3600 * Second)]

/-- The refresh fails. -/
def failedRefresh : AddressOp := .store 2 (.error (.plain "timeout")) (5 * 3600 * Second) 0

/-- The old address is stored for four hours more. -/
theorem stale_for_four_hours :
    (((addressMachine plainTransport).exec noAddresses (beforeRefresh ++ [failedRefresh])).map
        fun s => s.cache "doh") =
      some (some { ips := [[9, 9, 9, 9]]
                   expiration := some (9 * 3600 * Second)
                   updatingUntil := none }) := by
  decide +kernel

theorem distinct_noAddresses : Distinct noAddresses := ⟨nofun, nofun⟩

/-- Such a run. -/
theorem grace_period_never_kept_run : ∃ s s' : AddressState,
    ((addressMachine plainTransport).startAt noAddresses).Reach Machine.anyStep s ∧
      (addressMachine plainTransport).step s failedRefresh = some s' ∧
      ¬ KeptForGrace s'.cache { host := "doh", cachedIPs := [[9, 9, 9, 9]], marked := true }
        (5 * 3600 * Second) := by
  have hRun : (((addressMachine plainTransport).startAt noAddresses).exec noAddresses
      beforeRefresh |>.bind fun s =>
      ((addressMachine plainTransport).step s failedRefresh).map fun _ => s.calls 2) =
      some (some { host := "doh", cachedIPs := [[9, 9, 9, 9]], marked := true }) := by
    decide +kernel
  obtain ⟨s, hExec, hNext⟩ := bind_eq_some_iff.mp hRun
  obtain ⟨s', hStep, hCall⟩ := map_eq_some_iff.mp hNext
  have hStart : ((addressMachine plainTransport).startAt noAddresses).Reach Machine.anyStep
      noAddresses := .init rfl
  have hReach := hStart.exec (fun _ _ _ => trivial) hExec
  refine ⟨s, s', hReach, hStep, ?_⟩
  have hFails : Fails (.error (.plain "timeout")) := nofun
  exact ((grace_period_never_kept distinct_noAddresses hReach hCall hStep).1 hFails
    (cons_ne_nil _ _)).1

end DnscryptProxy
