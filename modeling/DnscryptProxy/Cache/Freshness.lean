import DnscryptProxy.Cache.Plugins
import DnscryptProxy.Query.Run

/-!
# Is a cache hit fresh?

The proxy with its cache: the reader among the query plugins, the writer last
among the response plugins, and any other plugins around them. A hit should
serve records that an upstream delivered within their lifetime.

A stale message takes the place of an answer when the exchange fails, and then
goes through the response plugins like one. So the writer stores it again,
with a new expiration.

* `cache_hit_is_fresh` — in runs without such a substitution, and in which no
  response plugin rewrites the answer, every hit is fresh;
* `stale_answer_promoted` — a run with one.
-/

namespace DnscryptProxy

open Base List

/-! ## The proxy with its cache -/

/-- A proxy whose cache is on. The other plugins are given by what they do
outside the cache. -/
structure CachingProxy (κ V : Type*) where
  lib : DnsLib
  hash : Bytes → κ
  queryBefore : List (Plugin V)
  queryAfter : List (Plugin V)
  responseBefore : List (Plugin V)
  logging : List (Plugin V)
  params : ProxyParams
  growth : Growth
  refusedCodeInResponses : Bool
  respondWithIPv4 : Option Bytes
  respondWithIPv6 : Option Bytes

namespace CachingProxy

variable {κ V : Type*} [DecidableEq κ] (c : CachingProxy κ V)

/-- The plugins in the order of `InitPluginsGlobals`. -/
def globals : PluginsGlobals (CacheWorld κ V) :=
  { queryPlugins :=
      c.queryBefore.map Plugin.aside ++ [pluginCache c.hash] ++ c.queryAfter.map Plugin.aside
    responsePlugins := c.responseBefore.map Plugin.aside ++ [pluginCacheResponse c.hash]
    loggingPlugins := c.logging.map Plugin.aside
    refusedCodeInResponses := c.refusedCodeInResponses
    respondWithIPv4 := c.respondWithIPv4
    respondWithIPv6 := c.respondWithIPv6 }

def proxy : Proxy (CacheWorld κ V) :=
  { lib := c.lib, globals := c.globals, params := c.params, growth := c.growth }

/-- The limits of every session. -/
def limits : CacheLimits :=
  { minTTL := c.params.cacheMinTTL, maxTTL := c.params.cacheMaxTTL
    negMinTTL := c.params.cacheNegMinTTL, negMaxTTL := c.params.cacheNegMaxTTL }

/-- Runs start with an empty cache. -/
def machine : Machine (ProxyState (CacheWorld κ V)) (ProxyLabel (CacheWorld κ V)) :=
  { proxyMachine c.proxy with init := fun s => (proxyMachine c.proxy).init s ∧ s.world.cache = [] }

variable (now : Time) (w : CacheWorld κ V) (ps : PluginsState) (b : Bytes)

/-- The response plugins in front of the writer, run over the response `b`. -/
def runBefore (m : Msg) : EvalResult (CacheWorld κ V) :=
  runPlugins c.globals .response now (c.responseBefore.map Plugin.aside) w
    { ps with returnCode := returnCodeOfRcode (rcode b) } (removeEDNS0Options m)

/-- They pass it on as it is. -/
def LeavesRecords : Prop :=
  ∀ m, c.lib.unpack b = .ok m → (c.runBefore now w ps b m).msg = removeEDNS0Options m

end CachingProxy

/-! ## Where the entries come from -/

section Entries

variable {κ V : Type*}

variable (lib : DnsLib) (limits : CacheLimits) (delivered : List (Time × Bytes))

/-- The entry was made from a response that was delivered, with the lifetime
of that response. -/
def CachedResponse.StemsFrom (e : CachedResponse) : Prop :=
  ∃ t₀ b m, (t₀, b) ∈ delivered ∧ lib.unpack b = .ok m ∧
    e.msg = { removeEDNS0Options m with question := [] } ∧ e.expiration = t₀ + limits.lifetime m

theorem CachedResponse.StemsFrom.mono {lib : DnsLib} {limits : CacheLimits}
    {d d' : List (Time × Bytes)} {e : CachedResponse} (h : e.StemsFrom lib limits d)
    (hSub : ∀ x ∈ d, x ∈ d') : e.StemsFrom lib limits d' := by
  obtain ⟨t₀, b, m, hMem, hRest⟩ := h
  exact ⟨t₀, b, m, hSub _ hMem, hRest⟩

/-- All entries of the cache do. -/
def Cache.StemsFrom (cache : Cache κ) : Prop :=
  ∀ k e, (k, e) ∈ cache → e.StemsFrom lib limits delivered

variable {now : Time} {w : CacheWorld κ V} {ps : PluginsState}

variable (cache : Cache κ) (limits : CacheLimits)

/-- Only the writer touches the cache, and the session keeps its limits. -/
def Untouched (w : CacheWorld κ V) (core : SessionCore) : Prop :=
  w.cache = cache ∧ core.limits = limits

theorem aside_untouched (p : Plugin V) {cache : Cache κ} {limits : CacheLimits} {m : Msg}
    (h : Untouched cache limits w ps.core) :
    Untouched cache limits (p.aside.eval now w ps m).world
      (p.aside.eval now w ps m).state.core := by
  rw [Plugin.core_eq]
  exact h

theorem runResponseChain_limits (g : PluginsGlobals (CacheWorld κ V)) (b : Bytes) (m : Msg) :
    (runResponseChain g now w ps b m).state.limits = ps.limits := by
  refine runPlugins_invariant (P := fun _ ps' _ => ps'.limits = ps.limits) (fun _ _ _ _ h => h)
    (fun _ _ _ _ h => h) _ ?_ _ _ _ rfl
  intro p _ w' ps' m' h
  exact (p.limits_eq now w' ps' m').trans h

variable [DecidableEq κ] {c : CachingProxy κ V}

theorem logKeeps_untouched : c.globals.LogKeeps (Untouched cache limits) := by
  intro p hp now w ps m h
  obtain ⟨q, -, rfl⟩ := mem_map.mp hp
  exact aside_untouched q h

theorem queryKeeps_untouched : c.globals.QueryKeeps (Untouched cache limits) := by
  intro p hp now w ps m h
  simp only [CachingProxy.globals, mem_append, mem_map, mem_singleton] at hp
  rcases hp with (⟨q, -, rfl⟩ | rfl) | ⟨q, -, rfl⟩
  · exact aside_untouched q h
  · rw [Plugin.core_eq]
    exact h
  · exact aside_untouched q h

/-- The writer stores the message it gets, or nothing. -/
theorem runWriter_cache (g : PluginsGlobals (CacheWorld κ V)) (hash : Bytes → κ) (m : Msg) :
    (runPlugins g .response now [pluginCacheResponse hash] w ps m).world.cache = w.cache ∨
      ∃ k, (runPlugins g .response now [pluginCacheResponse hash] w ps m).world.cache =
        w.cache.insert k
          { expiration := now + ps.limits.lifetime m, msg := { m with question := [] } } := by
  have hWorld : (runPlugins g .response now [pluginCacheResponse hash] w ps m).world =
      ((pluginCacheResponse hash).eval now w ps m).world := by
    simp only [runPlugins]
    split
    · rfl
    · split <;> rfl
  rw [hWorld]
  exact (pluginCacheResponse_cache now w ps m).imp_right And.right

/-- The plugins in front of the writer keep off the cache and the limits. -/
theorem CachingProxy.runBefore_untouched (c : CachingProxy κ V) (now : Time) (w : CacheWorld κ V)
    (ps : PluginsState) (b : Bytes) (m : Msg) :
    (c.runBefore now w ps b m).world.cache = w.cache ∧
      (c.runBefore now w ps b m).state.limits = ps.limits := by
  refine runPlugins_invariant
    (P := fun (w' : CacheWorld κ V) ps' _ => w'.cache = w.cache ∧ ps'.limits = ps.limits)
    (fun _ _ _ _ h => h) (fun _ _ _ _ h => h) _ ?_ w _ _ ⟨rfl, rfl⟩
  intro p hp w' ps' m' h
  obtain ⟨q, -, rfl⟩ := mem_map.mp hp
  exact ⟨h.1, (q.aside.limits_eq now w' ps' m').trans h.2⟩

/-- The response plugins store the message they get, or nothing. -/
theorem runResponseChain_cache {b : Bytes} {m : Msg} (hUnpack : c.lib.unpack b = .ok m)
    (hLeaves : c.LeavesRecords now w ps b) :
    (runResponseChain c.globals now w ps b m).world.cache = w.cache ∨
      ∃ k, (runResponseChain c.globals now w ps b m).world.cache = w.cache.insert k
          { expiration := now + ps.limits.lifetime m
            msg := { removeEDNS0Options m with question := [] } } := by
  obtain ⟨hCache, hLimits⟩ := c.runBefore_untouched now w ps b m
  have hRun : runResponseChain c.globals now w ps b m = c.runBefore now w ps b m ∨
      runResponseChain c.globals now w ps b m = runPlugins c.globals .response now
        [pluginCacheResponse c.hash] (c.runBefore now w ps b m).world
        (c.runBefore now w ps b m).state (c.runBefore now w ps b m).msg :=
    runPlugins_append ..
  rcases hRun with h | h
  · -- a plugin in front of the writer ended the chain
    exact .inl ((congrArg (·.world.cache) h).trans hCache)
  · rw [h, hLeaves m hUnpack, ← hCache, ← hLimits]
    exact runWriter_cache c.globals c.hash (removeEDNS0Options m)

end Entries

/-! ## Runs -/

section Runs

variable {κ V : Type*} [DecidableEq κ] {c : CachingProxy κ V}

/-- The exchange does not fall back on a stale message. -/
def Dispatched.NoStaleAnswer (lib : DnsLib) (x : Dispatched) (up : Upstream) : Prop :=
  (x.transcript up).last.isSome = true ∨ (x.transcript up).staleAllowed = false ∨
    staleResponse lib x.state = none

/-- Then it goes on with an answer of the upstream, if at all. -/
theorem Dispatched.NoStaleAnswer.outcome_eq {lib : DnsLib} {x : Dispatched} {up : Upstream}
    (h : x.NoStaleAnswer lib up) : (x.transcript up).outcome lib = (x.transcript up).last := by
  obtain ⟨e, hNoted, -⟩ := x.noted_eq up
  unfold Transcript.outcome
  cases hLast : (x.transcript up).last with
  | some b => rfl
  | none =>
    rw [Option.none_or]
    rcases h with h | h | h
    · rw [hLast] at h
      cases h
    · rw [h]
      rfl
    · have hNone : staleResponse lib (x.transcript up).noted = none := by
        rw [hNoted]
        exact h
      rw [hNone, ite_self]

/-- A step that promotes nothing: a completion without a stale answer, at which the
response plugins leave the records of the answer alone; from outside the cache only
loses entries. -/
def Unpromoted (c : CachingProxy κ V) (s : ProxyState (CacheWorld κ V)) :
    ProxyLabel (CacheWorld κ V) → Prop
  | .complete id now up _ =>
    ∀ x, (id, x) ∈ s.inFlight → x.NoStaleAnswer c.lib up ∧ ∀ b, (x.transcript up).last = some b →
        c.LeavesRecords now s.world (x.transcript up).noted b
  | .outside w => ∀ e ∈ w.cache, e ∈ s.world.cache
  | _ => True

/-- The invariant: every entry was delivered, and the sessions under way have
the limits of the configuration. -/
structure CacheSound (c : CachingProxy κ V) (s : ProxyState (CacheWorld κ V)) : Prop where
  entries : s.world.cache.StemsFrom c.lib c.limits s.delivered
  limits : ∀ id x, (id, x) ∈ s.inFlight → x.state.limits = c.limits

namespace CacheSound

variable {s : ProxyState (CacheWorld κ V)}

theorem arrive (h : CacheSound c s) (client : ClientQuery) (now : Time) (first second : Draws)
    (spare : Nat) : CacheSound c (s.arrive c.proxy client now first second spare) := by
  have hBegun : (c.proxy.beginQuery now first second spare s.servers s.world client).Holds
      (Untouched s.world.cache c.limits) :=
    beginQuery_core (logKeeps_untouched _ _) (queryKeeps_untouched _ _) (fun _ _ _ _ h => h)
      ⟨rfl, rfl⟩
  unfold ProxyState.arrive
  generalize c.proxy.beginQuery now first second spare s.servers s.world client = begun at hBegun
  cases begun with
  | finished servers f =>
    refine ⟨?_, h.limits⟩
    rw [hBegun.1]
    exact h.entries
  | dispatched servers w x =>
    refine ⟨?_, fun id y hy => ?_⟩
    · show w.cache.StemsFrom c.lib c.limits s.delivered
      rw [hBegun.1]
      exact h.entries
    · rcases mem_append.mp hy with hy | hy
      · exact h.limits id y hy
      · obtain ⟨-, rfl⟩ := Prod.mk.inj (mem_singleton.mp hy)
        exact hBegun.2

/-- A completion stores the answer of the upstream, or nothing. -/
theorem complete (h : CacheSound c s) {id : Nat} {x : Dispatched} (hx : (id, x) ∈ s.inFlight)
    {now : Time} {up : Upstream} {spare : Nat}
    (hOk : Unpromoted c s (.complete id now up spare)) :
    CacheSound c (s.complete c.proxy id x now up spare) := by
  obtain ⟨hStale, hLeaves⟩ := hOk x hx
  suffices hDone : (c.proxy.completeQuery now up spare s.world x).world.cache.StemsFrom c.lib
      c.limits (s.delivered ++ (x.transcript up).deliveries.map fun response => (now, response)) ∧
        (c.proxy.completeQuery now up spare s.world x).state.core.limits = c.limits from
    ⟨hDone.1, fun id' y hy => h.limits id' y (mem_filter.mp hy).1⟩
  -- the rule for completions, with the deliveries of this exchange already on record
  refine completeQuery_core
    (P := fun (w : CacheWorld κ V) core => w.cache.StemsFrom c.lib c.limits
      (s.delivered ++ (x.transcript up).deliveries.map fun response => (now, response)) ∧
        core.limits = c.limits) ?_ ?_ ?_
  · intro p hp now w ps m hP
    obtain ⟨q, -, rfl⟩ := mem_map.mp hp
    rw [Plugin.core_eq]
    exact hP
  · exact ⟨fun k e he => (h.entries k e he).mono fun y hy => mem_append_left _ hy, h.limits id x hx⟩
  · intro b m hOut hUnpack hP
    -- no stale answer stands in, so the response is the last one delivered
    rw [show c.proxy.lib = c.lib from rfl, hStale.outcome_eq] at hOut
    have hLast := (Option.filter_eq_some_iff.mp hOut).1
    have hDelivered := Dispatched.last_mem hLast
    refine ⟨?_, (runResponseChain_limits c.globals b m).trans hP.2⟩
    -- the response plugins left the cache alone, or stored this response
    rcases runResponseChain_cache hUnpack (hLeaves b hLast) with hCache | ⟨k, hCache⟩
    · exact hCache ▸ hP.1
    · intro k' e he
      rcases Cache.mem_insert (hCache ▸ he) with hNew | hOld
      · obtain ⟨-, rfl⟩ := Prod.mk.inj hNew
        refine ⟨now, b, m, ?_, hUnpack, rfl, ?_⟩
        · exact mem_append_right _ (mem_map.mpr ⟨b, hDelivered, rfl⟩)
        · rw [← hP.2]
          rfl
      · exact hP.1 k' e hOld

theorem step (h : CacheSound c s) {l : ProxyLabel (CacheWorld κ V)}
    {s' : ProxyState (CacheWorld κ V)} (hOk : Unpromoted c s l)
    (hStep : (proxyMachine c.proxy).step s l = some s') : CacheSound c s' := by
  rcases proxyMachine_step hStep with ⟨client, now, first, second, spare, rfl, rfl⟩ |
    ⟨id, x, now, up, spare, rfl, hx, rfl⟩ | ⟨server, rfl, rfl⟩ | ⟨ref, now, rfl, rfl⟩ |
    ⟨world, rfl, rfl⟩
  · exact h.arrive client now first second spare
  · exact h.complete hx hOk
  · exact ⟨h.entries, h.limits⟩
  · exact ⟨h.entries, h.limits⟩
  · exact ⟨fun k e he => h.entries k e (hOk _ he), h.limits⟩

theorem of_reach (hReach : c.machine.Reach (Unpromoted c) s) : CacheSound c s := by
  refine hReach.invariant (P := CacheSound c) ?_ fun s l s' h hOk hStep => h.step hOk hStep
  rintro s ⟨⟨-, hIdle, -⟩, hEmpty⟩
  refine ⟨?_, ?_⟩
  · intro k e he
    rw [hEmpty] at he
    cases he
  · intro id x hx
    rw [hIdle] at hx
    cases hx

end CacheSound

/-! ## Hits -/

/-- A record apart from its TTL. -/
def RR.untimed (rr : RR) : RR := { rr with ttl := 0 }

/-- The same records, apart from TTLs. -/
structure Msg.SameRecords (a b : Msg) : Prop where
  rcode : a.rcode = b.rcode
  answer : a.answer.map RR.untimed = b.answer.map RR.untimed
  ns : a.ns.map RR.untimed = b.ns.map RR.untimed
  extra : a.extra.map RR.untimed = b.extra.map RR.untimed

theorem updateTTL_sameRecords (now : Time) (m : Msg) (expiration : Time) :
    (updateTTL now m expiration).SameRecords m := by
  refine ⟨rfl, ?_, ?_, ?_⟩
  · simp [updateTTL, RR.untimed]
  · simp [updateTTL, RR.untimed]
  · simp only [updateTTL, map_map, map_inj_left, Function.comp_apply]
    intro rr _
    split <;> rfl

/-- A hit of the reader, taken apart. -/
theorem evalCache_hit {hash : Bytes → κ} {t : Time} {cache : Cache κ} {ps : PluginsState} {q : Msg}
    (hNew : ps.cacheHit = false) (hHit : (evalCache hash t cache ps q).cacheHit = true) :
    ∃ k e, (k, e) ∈ cache ∧ t ≤ e.expiration ∧ (evalCache hash t cache ps q).synthResponse =
        some (updateTTL t (e.answerTo q) e.expiration) := by
  unfold evalCache at hHit ⊢
  cases hLookup : cacheLookup hash cache ps q with
  | none =>
    simp only [hLookup] at hHit
    rw [hNew] at hHit
    cases hHit
  | some e =>
    simp only [hLookup] at hHit ⊢
    obtain ⟨k, -, hGet⟩ := Option.bind_eq_some_iff.mp hLookup
    unfold readCached at hHit ⊢
    by_cases hExpired : t > e.expiration
    · rw [if_pos hExpired] at hHit
      rw [show ps.cacheHit = true from hHit] at hNew
      cases hNew
    · rw [if_neg hExpired]
      exact ⟨k, e, Cache.mem_of_get hGet, not_lt.mp hExpired, rfl⟩

/-- In a run that promotes nothing, whatever the reader serves as a hit at `t`
are the records of a response that an upstream delivered within its lifetime. -/
theorem cache_hit_is_fresh {s : ProxyState (CacheWorld κ V)}
    (hReach : c.machine.Reach (Unpromoted c) s) {t : Time} {ps : PluginsState} {q : Msg}
    (hNew : ps.cacheHit = false)
    (hHit : ((pluginCache c.hash).eval t s.world ps q).state.cacheHit = true) :
    ∃ served, ((pluginCache c.hash).eval t s.world ps q).state.synthResponse = some served ∧
      ∃ t₀ b m, (t₀, b) ∈ s.delivered ∧ c.lib.unpack b = .ok m ∧ served.SameRecords m ∧
        t ≤ t₀ + c.limits.lifetime m := by
  obtain ⟨k, e, hMem, hLive, hServed⟩ := evalCache_hit hNew hHit
  obtain ⟨t₀, b, m, hDelivered, hUnpack, hMsg, hExp⟩ :=
    (CacheSound.of_reach hReach).entries k e hMem
  refine ⟨_, hServed, t₀, b, m, hDelivered, hUnpack, ?_, hExp ▸ hLive⟩
  have hRecords := updateTTL_sameRecords t (e.answerTo q) e.expiration
  have hAnswer : e.answerTo q =
      { removeEDNS0Options m with id := q.id, response := true, question := q.question } := by
    rw [CachedResponse.answerTo, hMsg]
    rfl
  rw [hAnswer] at hRecords ⊢
  exact ⟨hRecords.rcode, hRecords.answer, hRecords.ns, hRecords.extra⟩

end Runs

/-! ### An answer kept alive by its own stale copy -/

/-- An answer to `rootQuery` with one address of the given TTL. -/
def timedAnswer (ttl : UInt32) : Msg :=
  { rootAnswer with answer := [⟨[dot], ClassINET, ttl, .a [192, 0, 2, 1]⟩] }

def timedAnswerPacket (ttl : UInt8) : Bytes :=
  [0x12, 0x34, 0x81, 0x80, 0, 1, 0, 1, 0, 0, 0, 0, 0, 0, 1, 0, 1,
    0, 0, 1, 0, 1, 0, 0, 0, ttl, 0, 4, 192, 0, 2, 1]

/-- A proxy with nothing but the cache. -/
def cacheOnly : CachingProxy Bytes Unit :=
  { lib := tableLib [(rootQuery, rootQueryPacket), (timedAnswer 10, timedAnswerPacket 10),
      (timedAnswer 30, timedAnswerPacket 30), (timedAnswer 60, timedAnswerPacket 60)]
    hash := id, queryBefore := [], queryAfter := [], responseBefore := [], logging := []
    params := defaultProxyParams, growth := exactGrowth, refusedCodeInResponses := false
    respondWithIPv4 := none, respondWithIPv6 := none }

/-- Two resolvers and an empty cache. -/
def emptyCacheState : ProxyState (CacheWorld Bytes Unit) :=
  { world := { cache := [], rest := () }, servers := twoResolvers, inFlight := [], nextId := 0
    delivered := [] }

theorem emptyCacheState_init : cacheOnly.machine.init emptyCacheState := ⟨⟨rfl, rfl, rfl⟩, rfl⟩

/-- The query arrives at `now`. -/
def queryAt (now : Time) : ProxyLabel (CacheWorld Bytes Unit) :=
  .arrive (rootClient false) now noExploration noExploration 0

/-- An upstream that answers with a TTL of 10 s. -/
def timedUpstream : Upstream := { deadUpstream with udp := .ok (timedAnswerPacket 10) }

/-- The first exchange is answered after 20 ms. -/
def answered : ProxyLabel (CacheWorld Bytes Unit) :=
  .complete 0 (20 * Millisecond) timedUpstream 0

/-- The second one times out. -/
def timedOut : ProxyLabel (CacheWorld Bytes Unit) := .complete 1 (105 * Second) deadUpstream 0

/-- The first query waits for its exchange. -/
def firstPending : ProxyState (CacheWorld Bytes Unit) :=
  emptyCacheState.arrive cacheOnly.proxy (rootClient false) 0 noExploration noExploration 0

theorem answered_isSome : (cacheOnly.machine.step firstPending answered).isSome = true := by
  decide +kernel

/-- Its answer is in the cache. -/
def answerCached : ProxyState (CacheWorld Bytes Unit) :=
  (cacheOnly.machine.step firstPending answered).get answered_isSome

theorem answerCached_reach : cacheOnly.machine.Reach (Unpromoted cacheOnly) answerCached := by
  have hLast : ∀ e ∈ firstPending.inFlight, (e.2.transcript timedUpstream).last.isSome = true := by
    decide +kernel
  have hPending : cacheOnly.machine.Reach (Unpromoted cacheOnly) firstPending :=
    .step (l := queryAt 0) (.init emptyCacheState_init) trivial rfl
  refine .step (l := answered) hPending ?_ (Option.some_get answered_isSome).symm
  intro x hx
  exact ⟨.inl (hLast _ hx), fun b _ m _ => rfl⟩

/-- A hit after 30 s. -/
theorem cache_hit_is_fresh_after_answer :
    ∃ served, ((pluginCache cacheOnly.hash).eval (30 * Second) answerCached.world
        (newPluginsState defaultProxyParams .udp .udp 0) rootQuery).state.synthResponse =
        some served ∧
      ∃ t₀ b m, (t₀, b) ∈ answerCached.delivered ∧ cacheOnly.lib.unpack b = .ok m ∧
        served.SameRecords m ∧ 30 * Second ≤ t₀ + cacheOnly.limits.lifetime m :=
  cache_hit_is_fresh answerCached_reach rfl (by decide +kernel)

theorem staleServed_isSome :
    (cacheOnly.machine.exec emptyCacheState
      [queryAt 0, answered, queryAt (100 * Second), timedOut]).isSome = true := by
  decide +kernel

/-- An answer with a lifetime of 60 s, served stale after 105 s because the
upstream is down, is a hit again at 110 s. -/
theorem stale_answer_promoted :
    ∃ s, cacheOnly.machine.Reach Machine.anyStep s ∧
      ((pluginCache cacheOnly.hash).eval (110 * Second) s.world
        (newPluginsState defaultProxyParams .udp .udp 0) rootQuery).state.cacheHit = true ∧
      s.delivered = [(20 * Millisecond, timedAnswerPacket 10)] ∧
      cacheOnly.lib.unpack (timedAnswerPacket 10) = .ok (timedAnswer 10) ∧
      20 * Millisecond + cacheOnly.limits.lifetime (timedAnswer 10) < 110 * Second := by
  refine ⟨_, Machine.Reach.exec_get (.init emptyCacheState_init) staleServed_isSome, ?_, ?_, rfl,
    ?_⟩
  · decide +kernel
  · decide +kernel
  · decide

end DnscryptProxy
