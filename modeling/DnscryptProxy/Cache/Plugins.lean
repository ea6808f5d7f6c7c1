import DnscryptProxy.Query.Plugins

/-!
# The cache plugins

`plugin_cache.go` with the TTL arithmetic of `dnsutils.go`: the cache, its
keys, the reader among the query plugins and the writer among the response
plugins. SHA-512/256 is the parameter `hash`.

The reader and the writer share the world of the plugins with everybody else;
`Plugin.aside` is a plugin that has nothing to do with the cache.
-/

namespace DnscryptProxy

open List

/-! ## Keys -/

/-- `binary.LittleEndian.PutUint16`. -/
def putUint16LE (n : UInt16) : Bytes := [UInt8.ofNat n.toNat, UInt8.ofNat (n.toNat / 256)]

/-- What `computeCacheKey` hashes. -/
def cacheKeyBytes (dnssec checkingDisabled : Bool) (question : Question) : Bytes :=
  putUint16LE question.qtype ++ putUint16LE question.qclass ++
    [(if dnssec then 1 else 0) ||| (if checkingDisabled then 2 else 0)] ++
    normalizeRawQName question.name.bytes

/-- `computeCacheKey`. It reads `msg.Question[0]`; the pipeline calls it with
one question. -/
def computeCacheKey {κ : Type*} (hash : Bytes → κ) (ps : PluginsState) (msg : Msg) : Option κ :=
  msg.question.head?.map fun question =>
    hash (cacheKeyBytes ps.dnssec msg.checkingDisabled question)

/-! ## The store -/

structure CachedResponse where
  expiration : Time
  msg : Msg
deriving Repr, DecidableEq

/-- The cache, as the entries it holds. What it evicts when it is full is up
to the sieve policy. -/
abbrev Cache (κ : Type*) := List (κ × CachedResponse)

namespace Cache

variable {κ : Type*} [DecidableEq κ]

def get (c : Cache κ) (k : κ) : Option CachedResponse :=
  (c.find? fun e => decide (e.1 = k)).map (·.2)

def insert (c : Cache κ) (k : κ) (v : CachedResponse) : Cache κ :=
  (k, v) :: c.filter fun e => decide (e.1 ≠ k)

theorem mem_of_get {c : Cache κ} {k : κ} {v : CachedResponse} (h : c.get k = some v) :
    (k, v) ∈ c := by
  obtain ⟨⟨k', v'⟩, hFind, rfl⟩ := Option.map_eq_some_iff.mp h
  obtain rfl : k' = k := by simpa using find?_some hFind
  exact mem_of_find?_eq_some hFind

theorem mem_insert {c : Cache κ} {k : κ} {v : CachedResponse} {e : κ × CachedResponse}
    (h : e ∈ c.insert k v) : e = (k, v) ∨ e ∈ c := by
  rcases mem_cons.mp h with h | h
  · exact .inl h
  · exact .inr (mem_filter.mp h).1

theorem get_insert_self (c : Cache κ) (k : κ) (v : CachedResponse) :
    (c.insert k v).get k = some v := by
  simp [insert, get]

theorem get_insert_nil (k k' : κ) (v : CachedResponse) :
    (insert [] k v).get k' = if k = k' then some v else none := by
  by_cases h : k = k' <;> simp [insert, get, h]

end Cache

/-! ## TTLs -/

def StaleResponseTTL : Duration := 30 * Second

/-- The smallest TTL of the records, from `ttl` down. -/
def minRecordTTL (ttl : UInt32) (rrs : List RR) : UInt32 :=
  rrs.foldl (fun ttl rr => if rr.ttl < ttl then rr.ttl else ttl) ttl

def getMinTTL (msg : Msg) (minTTL maxTTL cacheNegMinTTL cacheNegMaxTTL : UInt32) : Duration :=
  if (msg.rcode ≠ RcodeSuccess ∧ msg.rcode ≠ RcodeNameError) ∨
      (msg.answer.length = 0 ∧ msg.ns.length = 0) then
    cacheNegMinTTL.toNat * Second
  else
    let ttl := if msg.rcode = RcodeSuccess then maxTTL else cacheNegMaxTTL
    let ttl := minRecordTTL ttl (if msg.answer.length > 0 then msg.answer else msg.ns)
    let floor := if msg.rcode = RcodeSuccess then minTTL else cacheNegMinTTL
    (if ttl < floor then floor else ttl).toNat * Second

/-- The TTL `updateTTL` writes: the time left, rounded to seconds. -/
def remainingTTL (now expiration : Time) : UInt32 :=
  let left := expiration - now
  if left > 0 then
    let ttl := UInt32.ofNat (left / Second).toNat
    if left - ttl.toNat * Second ≥ Second / 2 then ttl + 1 else ttl
  else 0

def updateTTL (now : Time) (msg : Msg) (expiration : Time) : Msg :=
  let ttl := remainingTTL now expiration
  let age (rr : RR) : RR := { rr with ttl := ttl }
  { msg with
    answer := msg.answer.map age
    ns := msg.ns.map age
    extra := msg.extra.map fun rr => if rr.rrToType ≠ TypeOPT then age rr else rr }

/-! ## The plugins -/

/-- The world of the plugins: the cache, and what the other plugins know. -/
structure CacheWorld (κ V : Type*) where
  cache : Cache κ
  rest : V

section Plugins

variable {κ V : Type*}

/-- A plugin that has nothing to do with the cache. -/
def Plugin.aside (p : Plugin V) : Plugin (CacheWorld κ V) where
  eval now w ps msg :=
    let r := p.eval now w.rest ps msg
    { world := { w with rest := r.world }, state := r.state, msg := r.msg, err := r.err }
  exchange_eq now w := p.exchange_eq now w.rest
  exchangeStart_eq now w := p.exchangeStart_eq now w.rest
  limits_eq now w := p.limits_eq now w.rest
  named now w := p.named now w.rest

variable [DecidableEq κ] (hash : Bytes → κ)

/-- The cached message, made into an answer to `msg`. -/
def CachedResponse.answerTo (cached : CachedResponse) (msg : Msg) : Msg :=
  { cloneMsg cached.msg with id := msg.id, response := true, question := msg.question }

variable (now : Time) (ps : PluginsState) (msg : Msg) (cached : CachedResponse)

/-- The session after the reader has found `cached`. -/
def readCached : PluginsState :=
  if now > cached.expiration then
    -- kept for the case that the exchange fails; the query goes on
    { ps with stale := some (updateTTL now (cached.answerTo msg) (now + StaleResponseTTL)) }
  else
    { ps with
      synthResponse := some (updateTTL now (cached.answerTo msg) cached.expiration)
      action := .synth
      cacheHit := true }

/-- The reader leaves everything else of the session alone. -/
theorem readCached_frame : ∃ stale synth action hit, readCached now ps msg cached =
      { ps with stale := stale, synthResponse := synth, action := action, cacheHit := hit } := by
  unfold readCached
  split
  · exact ⟨_, ps.synthResponse, ps.action, ps.cacheHit, rfl⟩
  · exact ⟨ps.stale, _, _, _, rfl⟩

/-- The entry the reader finds for `msg`. -/
def cacheLookup (cache : Cache κ) (ps : PluginsState) (msg : Msg) : Option CachedResponse :=
  (computeCacheKey hash ps msg).bind cache.get

variable (now : Time) (cache : Cache κ) (ps : PluginsState) (msg : Msg)

/-- The session after the reader. -/
def evalCache : PluginsState :=
  match cacheLookup hash cache ps msg with
  | none => ps
  | some cached => readCached now ps msg cached

theorem evalCache_frame : ∃ stale synth action hit, evalCache hash now cache ps msg =
      { ps with stale := stale, synthResponse := synth, action := action, cacheHit := hit } := by
  unfold evalCache
  split
  · exact ⟨ps.stale, ps.synthResponse, ps.action, ps.cacheHit, rfl⟩
  · exact readCached_frame ..

/-- `PluginCache`, the reader. -/
def pluginCache : Plugin (CacheWorld κ V) where
  eval now w ps msg :=
    { world := w, state := evalCache hash now w.cache ps msg, msg := msg, err := none }
  exchange_eq now w ps msg := by
    obtain ⟨_, _, _, _, h⟩ := evalCache_frame hash now w.cache ps msg
    rw [h]
  exchangeStart_eq now w ps msg := by
    obtain ⟨_, _, _, _, h⟩ := evalCache_frame hash now w.cache ps msg
    rw [h]
  limits_eq now w ps msg := by
    obtain ⟨_, _, _, _, h⟩ := evalCache_frame hash now w.cache ps msg
    rw [h]
    rfl
  named now w ps msg hNamed := by
    obtain ⟨_, _, _, _, h⟩ := evalCache_frame hash now w.cache ps msg
    rw [h]
    exact hNamed

/-- The responses the writer stores. -/
def Msg.cacheable (msg : Msg) : Bool :=
  decide (msg.rcode = RcodeSuccess ∨ msg.rcode = RcodeNameError ∨ msg.rcode = RcodeNotAuth) &&
    !msg.truncated

/-- The lifetime the writer gives to a response. -/
def CacheLimits.lifetime (limits : CacheLimits) (msg : Msg) : Duration :=
  getMinTTL msg limits.minTTL limits.maxTTL limits.negMinTTL limits.negMaxTTL

/-- `PluginCacheResponse`, the writer. -/
def pluginCacheResponse : Plugin (CacheWorld κ V) where
  eval now w ps msg :=
    if msg.cacheable then
      let expiration := now + ps.limits.lifetime msg
      -- the entry takes the question of whoever asks next
      let cachedMsg := { cloneMsg msg with question := [] }
      let cache := match computeCacheKey hash ps msg with
        | none => w.cache
        | some cacheKey => w.cache.insert cacheKey ⟨expiration, cachedMsg⟩
      { world := { w with cache := cache }, state := ps, msg := updateTTL now msg expiration
        err := none }
    else { world := w, state := ps, msg := msg, err := none }
  exchange_eq now w ps msg := by split <;> rfl
  exchangeStart_eq now w ps msg := by split <;> rfl
  limits_eq now w ps msg := by split <;> rfl
  named now w ps msg h := by split <;> exact h

variable {hash}

/-- The writer stores the message it gets, or nothing. -/
theorem pluginCacheResponse_cache (now : Time) (w : CacheWorld κ V) (ps : PluginsState)
    (msg : Msg) :
    ((pluginCacheResponse hash).eval now w ps msg).world.cache = w.cache ∨
      msg.cacheable = true ∧ ∃ k, ((pluginCacheResponse hash).eval now w ps msg).world.cache =
        w.cache.insert k
          { expiration := now + ps.limits.lifetime msg
            msg := { cloneMsg msg with question := [] } } := by
  unfold pluginCacheResponse
  dsimp only
  by_cases hCacheable : msg.cacheable = true
  · rw [if_pos hCacheable]
    cases computeCacheKey hash ps msg with
    | none => exact .inl rfl
    | some k => exact .inr ⟨hCacheable, k, rfl⟩
  · rw [if_neg hCacheable]
    exact .inl rfl

/-- `PluginGetSetPayloadSize`, which runs before the reader and notes the
DNSSEC OK bit of the query. -/
def pluginGetSetPayloadSize : Plugin V where
  eval _ w ps msg :=
    let safe := if msg.udpSize > 0 then msg.udpSize.toNat else ps.maxUnencryptedUDPSafePayloadSize
    let original := if msg.udpSize > 0 then max (safe - ResponseOverhead) (512 - ResponseOverhead)
      else 512 - ResponseOverhead
    let size := min (MaxDNSUDPPacketSize - ResponseOverhead) (max original ps.maxPayloadSize)
    { world := w
      state := { ps with
        originalMaxPayloadSize := original
        maxUnencryptedUDPSafePayloadSize := safe
        dnssec := msg.security
        maxPayloadSize := size }
      msg := if size > 512 then { msg with udpSize := UInt16.ofNat size } else msg
      err := none }
  exchange_eq _ _ _ _ := rfl
  exchangeStart_eq _ _ _ _ := rfl
  limits_eq _ _ _ _ := rfl
  named _ _ _ _ h := h

end Plugins

end DnscryptProxy
