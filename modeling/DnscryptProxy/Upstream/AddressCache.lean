import DnscryptProxy.Base.Maps
import DnscryptProxy.Base.Run
import DnscryptProxy.Common
import Mathlib.Tactic.Linarith

/-!
# The addresses of DoH and ODoH hosts

`cachedIPs` of `xtransport.go`. A stamp with an address pins it: `saveCachedIP`
with a negative TTL stores an entry without an expiration. Every fetch calls
`resolveAndUpdateCache`, which reads the entry, resolves the host with no lock
held when there is none or it is expired, and stores what it got.

* `pin_lasts` — a pin stored while no resolution of that host is under way is
  never replaced but by another pin, and never expires;
* `pin_overwritten` — a resolution that had read the cache before the pin was
  stored replaces it by an answer of the resolver.
-/

namespace DnscryptProxy

open Base Function Option List Machine

/-! ## Addresses -/

/-- `IP.To4`. -/
def to4 (ip : Bytes) : Option Bytes :=
  if ip.length = 4 then some ip
  else if ip.length = 16 ∧ ip.take 10 = replicate 10 0 ∧ (ip.drop 10).take 2 = [255, 255] then
    some (ip.drop 12)
  else none

/-- What `IP.String` tells apart. -/
def ipKey (ip : Bytes) : Bytes := (to4 ip).getD ip

/-- The loop of `uniqueNormalizedIPs`; a nil address is `[]`. -/
def uniqueNormalizedIPsFrom (seen : List Bytes) : List Bytes → List Bytes
  | [] => []
  | ip :: rest =>
    if ip = [] then uniqueNormalizedIPsFrom seen rest
    else if ipKey ip ∈ seen then uniqueNormalizedIPsFrom seen rest
    else ip :: uniqueNormalizedIPsFrom (ipKey ip :: seen) rest

def uniqueNormalizedIPs (ips : List Bytes) : List Bytes := uniqueNormalizedIPsFrom [] ips

/-! ## The cache -/

def minResolverIPTTL : Duration := 4 * 3600 * Second
def resolverIPTTLMaxJitter : Duration := 15 * 60 * Second
def expiredCachedIPGraceTTL : Duration := 15 * 60 * Second

structure CachedIPItem where
  ips : List Bytes
  expiration : Option Time
  updatingUntil : Option Time
deriving Repr, DecidableEq

/-- The fixed part of an `XTransport`. -/
structure XTransport where
  timeout : Duration
  /-- `proxyDialer` or `httpProxyFunction` is set -/
  proxied : Bool
  /-- `ParseIP` -/
  parseIP : String → Option Bytes

/-- The map of `CachedIPs`. -/
abbrev IPCache := String → Option CachedIPItem

namespace IPCache

variable (cache : IPCache)

/-- `saveCachedIPs` at `now`; `jitter % resolverIPTTLMaxJitter` is drawn. -/
def saveCachedIPs (host : String) (ips : List Bytes) (ttl : Duration) (now : Time)
    (jitter : Duration) : IPCache :=
  let normalized := uniqueNormalizedIPs ips
  if normalized = [] then cache
  else
    let expiration :=
      if 0 ≤ ttl then
        some (now + (max ttl minResolverIPTTL + jitter % resolverIPTTLMaxJitter))
      else none
    update cache host (some { ips := normalized, expiration, updatingUntil := none })

def saveCachedIP (host : String) (ip : Bytes) (ttl : Duration) (now : Time) (jitter : Duration) :
    IPCache :=
  if ip = [] then cache else cache.saveCachedIPs host [ip] ttl now jitter

def markUpdatingCachedIP (timeout : Duration) (host : String) (now : Time) : IPCache :=
  match cache host with
  | none => cache
  | some item =>
    update cache host (some { item with updatingUntil := some (now + timeout) })

/-- `loadCachedIPs`: the addresses, whether they are expired, and whether they
are being updated. The clock is read twice. -/
def loadCachedIPs (host : String) (now now' : Time) : List Bytes × Bool × Bool :=
  match cache host with
  | none => ([], false, false)
  | some item =>
    let ips := item.ips.filter (· ≠ [])
    if item.expiration.any fun expiration => decide (expiration - now < 0) then
      (ips, true, item.updatingUntil.any fun deadline => decide (0 < deadline - now'))
    else (ips, false, false)

end IPCache

/-! ## The machine -/

/-- A `resolveAndUpdateCache` call that went past its look at the cache. -/
structure Resolution where
  host : String
  /-- what it found there -/
  cachedIPs : List Bytes
  marked : Bool
deriving Repr, DecidableEq

/-- `selectedIPs` and `ttl` for an answer of `resolve`; nothing is stored
without an address. -/
def selectIPs (cachedIPs : List Bytes) (answer : Except GoError (List Bytes × Duration)) :
    Option (List Bytes × Duration) :=
  let ips := match answer with
    | .ok (ips, _) => ips
    | .error _ => []
  let ttl := match answer with
    | .ok (_, ttl) => max ttl minResolverIPTTL
    | .error _ => minResolverIPTTL
  -- stale addresses for a grace period
  if ips = [] ∧ cachedIPs ≠ [] then some (cachedIPs, expiredCachedIPGraceTTL)
  else if ips = [] then none
  else some (ips, ttl)

structure AddressState where
  cache : IPCache
  calls : Nat → Option Resolution

inductive AddressOp where
  /-- `saveCachedIP` with a negative TTL, from a server or a relay stamp -/
  | pin (host : String) (ip : Bytes) (ttl : Duration)
  /-- `resolveAndUpdateCache` up to its decision; `call` is the goroutine -/
  | load (call : Nat) (host : String) (now now' : Time)
  | mark (call : Nat) (now : Time)
  /-- the answer of `resolve`, and the end of the call -/
  | store (call : Nat) (answer : Except GoError (List Bytes × Duration)) (now : Time)
      (jitter : Duration)

def AddressState.step (t : XTransport) (s : AddressState) : AddressOp → Option AddressState
  | .pin host ip ttl =>
    if ttl < 0 then some { s with cache := s.cache.saveCachedIP host ip ttl 0 0 } else none
  | .load call host now now' =>
    if s.calls call ≠ none then none
    else if t.proxied || (t.parseIP host).isSome then some s
    else
      let (cachedIPs, expired, updating) := s.cache.loadCachedIPs host now now'
      if cachedIPs ≠ [] ∧ (expired = false ∨ updating = true) then some s
      else some { s with
        calls := update s.calls call (some { host, cachedIPs, marked := false }) }
  | .mark call now =>
    match s.calls call with
    | none => none
    | some r =>
      if r.marked then none
      else some { cache := s.cache.markUpdatingCachedIP t.timeout r.host now
                  calls := update s.calls call (some { r with marked := true }) }
  | .store call answer now jitter =>
    match s.calls call with
    | none => none
    | some r =>
      if r.marked then
        some { cache :=
                 match selectIPs r.cachedIPs answer with
                 | none => s.cache
                 | some (ips, ttl) => s.cache.saveCachedIPs r.host ips ttl now jitter
               calls := update s.calls call none }
      else none

/-- No resolution is under way; the configuration may have stored addresses. -/
def addressMachine (t : XTransport) : Machine AddressState AddressOp where
  init s := s.calls = fun _ => none
  step := AddressState.step t

/-! ## Entries of other hosts -/

namespace IPCache

variable {cache : IPCache} {host host' : String}

theorem saveCachedIPs_of_ne (h : host ≠ host') (ips : List Bytes) (ttl : Duration) (now : Time)
    (jitter : Duration) : cache.saveCachedIPs host' ips ttl now jitter host = cache host := by
  unfold saveCachedIPs
  split
  · rfl
  · exact update_of_ne h ..

theorem saveCachedIP_of_ne {ip : Bytes} (h : ¬(host' = host ∧ ip ≠ [])) (ttl : Duration)
    (now : Time) (jitter : Duration) :
    cache.saveCachedIP host' ip ttl now jitter host = cache host := by
  unfold saveCachedIP
  split
  · rfl
  · next hIp => exact saveCachedIPs_of_ne (fun hEq => h ⟨hEq.symm, hIp⟩) ..

theorem markUpdatingCachedIP_of_ne (h : host ≠ host') (timeout : Duration) (now : Time) :
    cache.markUpdatingCachedIP timeout host' now host = cache host := by
  unfold markUpdatingCachedIP
  cases cache host' with
  | none => rfl
  | some item => exact update_of_ne h ..

end IPCache

/-! ## Pinned entries -/

/-- The entry of `host` is the address `ip`, for ever. -/
def IPCache.PinnedTo (cache : IPCache) (host : String) (ip : Bytes) : Prop :=
  ip ≠ [] ∧ ∃ updatingUntil, cache host = some { ips := [ip], expiration := none, updatingUntil }

namespace IPCache

variable {cache : IPCache} {host : String} {ip : Bytes}

theorem pinnedTo_saveCachedIP (hIp : ip ≠ []) {ttl : Duration} (hTtl : ttl < 0) (now : Time)
    (jitter : Duration) : (cache.saveCachedIP host ip ttl now jitter).PinnedTo host ip := by
  have hUnique : uniqueNormalizedIPs [ip] = [ip] := by
    show (if ip = [] then [] else if ipKey ip ∈ [] then [] else [ip]) = [ip]
    rw [if_neg hIp, if_neg not_mem_nil]
  refine ⟨hIp, none, ?_⟩
  rw [saveCachedIP, if_neg hIp, saveCachedIPs, hUnique, if_neg (cons_ne_nil _ _),
    if_neg (not_le.mpr hTtl), update_self]

theorem PinnedTo.loadCachedIPs (h : cache.PinnedTo host ip) (now now' : Time) :
    cache.loadCachedIPs host now now' = ([ip], false, false) := by
  obtain ⟨hIp, updatingUntil, hItem⟩ := h
  simp [IPCache.loadCachedIPs, hItem, hIp]

end IPCache

variable {s s' : AddressState} {t : XTransport}

/-! ## Steps -/

/-- What a step can do. -/
inductive AddressStep (t : XTransport) (s : AddressState) : AddressOp → AddressState → Prop where
  | pin {host : String} {ip : Bytes} {ttl : Duration} : ttl < 0 →
      AddressStep t s (.pin host ip ttl) { s with cache := s.cache.saveCachedIP host ip ttl 0 0 }
  | cached {call : Nat} {host : String} {now now' : Time} :
      AddressStep t s (.load call host now now') s
  | resolve {call : Nat} {host : String} {now now' : Time} {cachedIPs : List Bytes}
      {expired updating : Bool} :
      s.cache.loadCachedIPs host now now' = (cachedIPs, expired, updating) →
      ¬(cachedIPs ≠ [] ∧ (expired = false ∨ updating = true)) →
      AddressStep t s (.load call host now now') { s with
        calls := update s.calls call (some { host, cachedIPs, marked := false }) }
  | mark {call : Nat} {now : Time} {r : Resolution} : s.calls call = some r →
      AddressStep t s (.mark call now)
        { cache := s.cache.markUpdatingCachedIP t.timeout r.host now
          calls := update s.calls call (some { r with marked := true }) }
  | stored {call : Nat} {answer : Except GoError (List Bytes × Duration)} {now : Time}
      {jitter : Duration} {r : Resolution} {ips : List Bytes} {ttl : Duration} :
      s.calls call = some r → selectIPs r.cachedIPs answer = some (ips, ttl) →
      AddressStep t s (.store call answer now jitter)
        { cache := s.cache.saveCachedIPs r.host ips ttl now jitter
          calls := update s.calls call none }
  | nothing {call : Nat} {answer : Except GoError (List Bytes × Duration)} {now : Time}
      {jitter : Duration} :
      AddressStep t s (.store call answer now jitter)
        { s with calls := update s.calls call none }

theorem addressStep_of_step {op : AddressOp}
    (h : s.step t op = some s') : AddressStep t s op s' := by
  cases op with
  | pin host ip ttl =>
    simp only [AddressState.step, ite_none_right_eq_some] at h
    obtain ⟨hTtl, hEq⟩ := h
    cases hEq
    exact .pin hTtl
  | load call host now now' =>
    simp only [AddressState.step, ite_none_left_eq_some] at h
    obtain ⟨-, h⟩ := h
    split at h
    · cases h
      exact .cached
    · generalize hLoad : s.cache.loadCachedIPs host now now' = loaded at h
      obtain ⟨cachedIPs, expired, updating⟩ := loaded
      split at h
      · cases h
        exact .cached
      · next hResolve =>
        cases h
        exact .resolve hLoad hResolve
  | mark call now =>
    simp only [AddressState.step] at h
    split at h
    · cases h
    · next r hCall =>
      simp only [ite_none_left_eq_some] at h
      obtain ⟨-, hEq⟩ := h
      cases hEq
      exact .mark hCall
  | store call answer now jitter =>
    simp only [AddressState.step] at h
    split at h
    · cases h
    · next r hCall =>
      simp only [ite_none_right_eq_some] at h
      obtain ⟨-, hEq⟩ := h
      cases hEq
      split
      · exact .nothing
      · next hSelect => exact .stored hCall hSelect

/-! ## A pin under a quiet host -/

/-- The address a host is pinned to, with no resolution of it under way. -/
structure Settled (host : String) (ip : Bytes) (s : AddressState) : Prop where
  pinned : s.cache.PinnedTo host ip
  quiet : ∀ call r, s.calls call = some r → r.host ≠ host

/-- A step that pins an address to `host`; a nil address pins nothing. -/
def AddressOp.Pins (op : AddressOp) (host : String) : Prop :=
  ∃ ip ttl, ip ≠ [] ∧ op = .pin host ip ttl

/-- A pin is stored only while no resolution of its host is under way. -/
def PinsWhenQuiet (s : AddressState) (op : AddressOp) : Prop :=
  ∀ host, op.Pins host → ∀ call r, s.calls call = some r → r.host ≠ host

/-- Every step that is not a pin of the host leaves its address alone. -/
theorem Settled.step {host : String} {ip : Bytes}
    {op : AddressOp} (h : Settled host ip s) (hStep : AddressStep t s op s')
    (hOther : ¬op.Pins host) : Settled host ip s' := by
  obtain ⟨⟨hIp, updatingUntil, hItem⟩, hQuiet⟩ := h
  cases hStep with
  | @pin host' ip' ttl _ =>
    have hNot : ¬(host' = host ∧ ip' ≠ []) := by
      rintro ⟨rfl, hIp'⟩
      exact hOther ⟨ip', ttl, hIp', rfl⟩
    exact ⟨⟨hIp, updatingUntil, (IPCache.saveCachedIP_of_ne hNot ..).trans hItem⟩, hQuiet⟩
  | cached => exact ⟨⟨hIp, updatingUntil, hItem⟩, hQuiet⟩
  | @resolve call host' now now' cachedIPs expired updating hLoad hResolve =>
    -- a pinned host is never resolved: its entry is there, and not expired
    have hNe : host' ≠ host := by
      rintro rfl
      rw [IPCache.PinnedTo.loadCachedIPs ⟨hIp, updatingUntil, hItem⟩] at hLoad
      cases hLoad
      exact hResolve ⟨cons_ne_nil _ _, .inl rfl⟩
    refine ⟨⟨hIp, updatingUntil, hItem⟩, fun c r hc => ?_⟩
    rcases update_some_eq_some.mp hc with ⟨-, rfl⟩ | ⟨-, hOld⟩
    · exact hNe
    · exact hQuiet c r hOld
  | @mark call now r hCall =>
    have hNe := hQuiet call r hCall
    refine ⟨⟨hIp, updatingUntil, ?_⟩, fun c r' hc => ?_⟩
    · exact (IPCache.markUpdatingCachedIP_of_ne hNe.symm ..).trans hItem
    · rcases update_some_eq_some.mp hc with ⟨-, rfl⟩ | ⟨-, hOld⟩
      · exact hNe
      · exact hQuiet c r' hOld
  | @stored call answer now jitter r ips ttl hCall _ =>
    have hNe := hQuiet call r hCall
    refine ⟨⟨hIp, updatingUntil, ?_⟩, fun c r' hc => ?_⟩
    · exact (IPCache.saveCachedIPs_of_ne hNe.symm ..).trans hItem
    · exact hQuiet c r' (update_none_eq_some.mp hc).2
  | nothing =>
    exact ⟨⟨hIp, updatingUntil, hItem⟩, fun c r hc => hQuiet c r (update_none_eq_some.mp hc).2⟩

theorem settled_of_pin {host : String} {ip : Bytes} {ttl : Duration}
    (hIp : ip ≠ []) (hQuiet : PinsWhenQuiet s (.pin host ip ttl))
    (hStep : AddressStep t s (.pin host ip ttl) s') : Settled host ip s' := by
  cases hStep with
  | pin hTtl =>
    exact ⟨IPCache.pinnedTo_saveCachedIP hIp hTtl 0 0, hQuiet host ⟨ip, ttl, hIp, rfl⟩⟩

/-- From any state, in every run that stores pins only while no resolution of
the host is under way: once an address is pinned, the entry is there and never
expires, and no step but another pin of the host changes its address. -/
theorem pin_lasts {t : XTransport} {s₀ s₁ : AddressState} {host : String} {ip : Bytes}
    {ttl : Duration} (hIp : ip ≠ []) (hQuiet : PinsWhenQuiet s₀ (.pin host ip ttl))
    (hPin : (addressMachine t).step s₀ (.pin host ip ttl) = some s₁) :
    s₁.cache.PinnedTo host ip ∧ ∀ s, ((addressMachine t).startAt s₁).Reach PinsWhenQuiet s →
        ∃ ip', s.cache.PinnedTo host ip' ∧
          (∀ now now', s.cache.loadCachedIPs host now now' = ([ip'], false, false)) ∧
          ∀ op s', (addressMachine t).step s op = some s' → ¬op.Pins host →
            s'.cache.PinnedTo host ip' := by
  have hFirst : Settled host ip s₁ := settled_of_pin (t := t) hIp hQuiet (addressStep_of_step hPin)
  refine ⟨hFirst.pinned, fun s hReach => ?_⟩
  have hSettled : ∃ ip', Settled host ip' s := by
    refine hReach.invariant (P := fun s => ∃ ip', Settled host ip' s) ?_ ?_
    · rintro s rfl
      exact ⟨ip, hFirst⟩
    · rintro s op s' ⟨ip', h⟩ hOk hNext
      have hStep : AddressStep t s op s' := addressStep_of_step hNext
      by_cases hOp : op.Pins host
      · obtain ⟨ip'', ttl', hIp'', rfl⟩ := hOp
        exact ⟨ip'', settled_of_pin hIp'' hOk hStep⟩
      · exact ⟨ip', h.step hStep hOp⟩
  obtain ⟨ip', h⟩ := hSettled
  refine ⟨ip', h.pinned, fun now now' => h.pinned.loadCachedIPs now now', ?_⟩
  intro op s' hNext hOp
  exact (h.step (addressStep_of_step hNext) hOp).pinned

/-- A transport with no proxy and no literal addresses. -/
def plainTransport : XTransport :=
  { timeout := 5 * Second, proxied := false, parseIP := fun _ => none }

/-- Nothing cached, nothing under way. -/
def noAddresses : AddressState := { cache := fun _ => none, calls := fun _ => none }

/-- A host pinned before anybody asked for it keeps an address for ever. -/
theorem pin_lasts_before_fetch : ∃ s₁ : AddressState,
    (addressMachine plainTransport).step noAddresses (.pin "doh" [9, 9, 9, 9] (-Second)) = some s₁ ∧
      s₁.cache.PinnedTo "doh" [9, 9, 9, 9] ∧
      ∀ s, ((addressMachine plainTransport).startAt s₁).Reach PinsWhenQuiet s →
        ∃ ip, s.cache.PinnedTo "doh" ip := by
  have hQuiet : PinsWhenQuiet noAddresses (.pin "doh" [9, 9, 9, 9] (-Second)) := nofun
  have hPin : (addressMachine plainTransport).step noAddresses
      (.pin "doh" [9, 9, 9, 9] (-Second)) = some _ := rfl
  obtain ⟨hPinned, hLasts⟩ := pin_lasts (by decide) hQuiet hPin
  refine ⟨_, hPin, hPinned, fun s hs => ?_⟩
  obtain ⟨ip, hIp, -⟩ := hLasts s hs
  exact ⟨ip, hIp⟩

/-- A fetch misses the cache, the host is pinned, and the fetch stores the
answer of the resolver: the pin is gone, and the new entry expires. -/
theorem pin_overwritten : ∃ s₁ s₂ : AddressState,
    (addressMachine plainTransport).Reach anyStep s₁ ∧
      s₁.cache.PinnedTo "doh" [9, 9, 9, 9] ∧
      ((addressMachine plainTransport).startAt s₁).Reach anyStep s₂ ∧
      s₂.cache "doh" = some
        { ips := [[1, 2, 3, 4]], expiration := some minResolverIPTTL, updatingUntil := none } := by
  let before : List AddressOp :=
    [.load 1 "doh" 0 0, .mark 1 0, .pin "doh" [9, 9, 9, 9] (-Second)]
  let answered : AddressOp := .store 1 (.ok ([[1, 2, 3, 4]], 60 * Second)) 0 0
  have hRun : ((addressMachine plainTransport).exec noAddresses before).bind (fun s₁ =>
      ((addressMachine plainTransport).step s₁ answered).map fun s₂ =>
        (s₁.cache "doh", s₂.cache "doh")) =
      some (some { ips := [[9, 9, 9, 9]], expiration := none, updatingUntil := none },
        some { ips := [[1, 2, 3, 4]], expiration := some minResolverIPTTL,
               updatingUntil := none }) := by
    decide +kernel
  obtain ⟨s₁, hExec, hNext⟩ := bind_eq_some_iff.mp hRun
  obtain ⟨s₂, hStep, hView⟩ := map_eq_some_iff.mp hNext
  obtain ⟨hPin, hGone⟩ := Prod.mk.inj hView
  have hStart : (addressMachine plainTransport).Reach anyStep noAddresses := .init rfl
  refine ⟨s₁, s₂, hStart.exec (fun _ _ _ => trivial) hExec, ⟨by decide, none, hPin⟩, ?_, hGone⟩
  exact .step (.init rfl) trivial (by rw [startAt_step]; exact hStep)

end DnscryptProxy
