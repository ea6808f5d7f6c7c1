import DnscryptProxy.Base.Run
import DnscryptProxy.Crypto.Certs
import DnscryptProxy.Query.Plugins

/-!
# The client key

`Encrypt`, `rotateDNSCryptClientKey` and the parts of `refreshServer` and
`getOne` that decide which key a query is encrypted with, as one machine: the
public key sits in the proxy, the shared key in a `ServerInfo`, and a query
holds on to the `ServerInfo` it was given.

`rotateDNSCryptClientKey` recomputes the shared keys of the servers in the
registry. A `ServerInfo` that was replaced there and that a query still holds
keeps the shared key of the old secret key.

Each step is what happens under one lock: `recomputeServerSharedKeyLocked` and
the replacement in `refreshServer` under `cryptoKeyMu`, the whole rotation, the
two reads of `Encrypt`.

* `client_key_consistent` — as long as the key is rotated only while no query
  holds a replaced classic server, every packet of a classic construction is
  encrypted with the shared key of the secret key whose public key it carries;
* `replaced_server_keeps_old_key` — otherwise not.
-/

namespace DnscryptProxy

open Base List Option Function

/-! ## `Encrypt` -/

def PublicKeySize : Nat := 32
def QueryOverhead : Nat := ClientMagicLen + PublicKeySize + HalfNonceSize + TagSize

def pad (packet : Bytes) (minSize : Nat) : Bytes :=
  packet ++ 0x80 :: replicate (minSize - (packet.length + 1)) 0

/-- The fields of a `ServerInfo` that encryption uses. -/
structure CryptoServerInfo where
  name : String
  construction : CryptoConstruction
  serverPk : Bytes
  sharedKey : Bytes
  magicQuery : Bytes
  fragmentsBlocked : Bool
  relayed : Bool
deriving Repr, DecidableEq

/-- The libraries behind `Encrypt`, and how the proxy is configured. -/
structure KeyEnv where
  curve : Curve
  /-- `secretbox.Seal` and `xsecretbox.Seal`: nonce, key, packet -/
  secretboxSeal : Bytes → Bytes → Bytes → Bytes
  xsecretboxSeal : Bytes → Bytes → Bytes → Bytes
  /-- SHA-512/256 -/
  sha512_256 : Bytes → Bytes
  ephemeralKeys : Bool

/-- The arguments of `Encrypt`, its random bytes, and what the estimator of
question sizes says. -/
structure EncryptInput where
  packet : Bytes
  proto : ServerProto
  clientNonce : Bytes
  xpad : UInt8
  minQuestionSize : Nat
  /-- instead of a weak shared key -/
  random : Bytes

/-- The length to which `Encrypt` pads. -/
def paddedLength (server : CryptoServerInfo) (input : EncryptInput) : Nat :=
  let needed := QueryOverhead + input.packet.length
  let minQuestionSize := match input.proto with
    | .udp => max input.minQuestionSize needed
    | .tcp => needed + input.xpad.toNat
  if server.fragmentsBlocked = true ∧ input.proto = .udp then MaxDNSUDPSafePacketSize
  else if server.relayed = true ∧ input.proto = .tcp then MaxDNSPacketSize
  else min MaxDNSUDPPacketSize ((max minQuestionSize QueryOverhead + 1 + 63) / 64 * 64)

/-- The shared key, the public key and the packet of one `Encrypt`. -/
structure Encrypted where
  sharedKey : Bytes
  publicKey : Bytes
  result : Except GoError Bytes

variable (env : KeyEnv) (proxySecretKey proxyPublicKey : Bytes) (server : CryptoServerInfo)
  (input : EncryptInput)

/-- The two keys that `Encrypt` uses for a construction other than the PQ one. -/
def encryptKeys : Bytes × Bytes :=
  if env.ephemeralKeys then
    let ephSk := env.sha512_256 (input.clientNonce ++ proxySecretKey)
    (computeSharedKey env.curve input.random server.construction ephSk server.serverPk,
      env.curve.scalarBaseMult ephSk)
  else (server.sharedKey, proxyPublicKey)

/-- `Encrypt`, for a construction other than the PQ one. -/
def encrypt : Encrypted :=
  let (sharedKey, publicKey) := encryptKeys env proxySecretKey proxyPublicKey server input
  let paddedLength := paddedLength server input
  let result :=
    if QueryOverhead + input.packet.length + 1 > paddedLength then
      .error (.plain "Question too large; cannot be padded")
    else
      let nonce := input.clientNonce ++ replicate (NonceSize - HalfNonceSize) 0
      let padded := pad input.packet (paddedLength - QueryOverhead)
      let sealed :=
        if server.construction = .xChacha20Poly1305 then env.xsecretboxSeal nonce sharedKey padded
        else env.secretboxSeal nonce sharedKey padded
      .ok (server.magicQuery ++ publicKey ++ nonce.take HalfNonceSize ++ sealed)
  { sharedKey := sharedKey, publicKey := publicKey, result := result }

/-! ## The machine -/

/-- What was encrypted for which server; not in the source. -/
structure PacketRecord where
  server : CryptoServerInfo
  encrypted : Encrypted

structure KeyState where
  proxySecretKey : Bytes
  proxyPublicKey : Bytes
  /-- the `ServerInfo` objects, by number -/
  objects : Nat → CryptoServerInfo
  nextRef : Nat
  /-- the registry -/
  inner : List Nat
  /-- the queries, each with the object it was given -/
  inFlight : List (Nat × Nat)
  nextQuery : Nat
  packets : List PacketRecord

inductive KeyLabel where
  /-- `getOne` picks a candidate, by whatever strategy -/
  | getOne (candidate : Nat)
  /-- `refreshServer`, once the server is fetched -/
  | refreshServer (fetched : CryptoServerInfo) (random : Bytes)
  /-- `rotateDNSCryptClientKey` with a new secret key -/
  | rotate (secretKey : Bytes) (random : Nat → Bytes)
  | encrypt (query : Nat) (input : EncryptInput)
  /-- the query is done -/
  | done (query : Nat)

/-- `recomputeServerSharedKeyLocked`. -/
def recomputeServerSharedKey (curve : Curve) (random secretKey : Bytes)
    (server : CryptoServerInfo) : CryptoServerInfo :=
  if isClassicDNSCryptConstruction server.construction = false then server
  else
    { server with
      sharedKey := computeSharedKey curve random server.construction secretKey server.serverPk }

/-- The loop of `refreshServer`: replace the server of this name, or append. -/
def install (objects : Nat → CryptoServerInfo) (name : String) (ref : Nat) : List Nat → List Nat
  | [] => [ref]
  | old :: rest =>
    if (objects old).name = name then ref :: rest else old :: install objects name ref rest

namespace KeyState

variable (env : KeyEnv) (s : KeyState)

def getOne (ref : Nat) : KeyState :=
  { s with inFlight := s.inFlight ++ [(s.nextQuery, ref)], nextQuery := s.nextQuery + 1 }

def refreshServer (fetched : CryptoServerInfo) (random : Bytes) : KeyState :=
  let newServer := recomputeServerSharedKey env.curve random s.proxySecretKey fetched
  { s with
    objects := update s.objects s.nextRef newServer
    nextRef := s.nextRef + 1
    inner := install s.objects fetched.name s.nextRef s.inner }

def rotate (secretKey : Bytes) (random : Nat → Bytes) : KeyState :=
  { s with
    proxySecretKey := secretKey
    proxyPublicKey := env.curve.scalarBaseMult secretKey
    -- only the registry is walked: what a query holds besides is not reached
    objects := fun ref =>
      if ref ∈ s.inner then
        recomputeServerSharedKey env.curve (random ref) secretKey (s.objects ref)
      else s.objects ref }

def encryptFor (ref : Nat) (input : EncryptInput) : KeyState :=
  let server := s.objects ref
  { s with
    packets := s.packets ++
      [{ server := server
         encrypted := encrypt env s.proxySecretKey s.proxyPublicKey server input }] }

end KeyState

/-- Runs start with a key pair and without a server. -/
def keyMachine (env : KeyEnv) : Machine KeyState KeyLabel where
  init s := s.proxyPublicKey = env.curve.scalarBaseMult s.proxySecretKey ∧ s.inner = [] ∧
    s.inFlight = [] ∧ s.packets = []
  step s
    | .getOne candidate => (s.inner[candidate]?).map s.getOne
    | .refreshServer fetched random => some (s.refreshServer env fetched random)
    | .rotate secretKey random => some (s.rotate env secretKey random)
    | .encrypt query input =>
      (s.inFlight.find? fun e => decide (e.1 = query)).bind fun e =>
        -- `encryptPQ` uses neither of the two keys
        if (s.objects e.2).construction = .xWingPQ then none
        else some (s.encryptFor env e.2 input)
    | .done query => some { s with inFlight := s.inFlight.filter fun e => decide (e.1 ≠ query) }

/-! ## Keys that belong together -/

/-- The key of the server is not a weak one. -/
def NonDegenerate (curve : Curve) (construction : CryptoConstruction) (serverPk : Bytes) : Prop :=
  match construction with
  | .xChacha20Poly1305 =>
    ∀ secretKey, ∃ sharedKey, curve.xSharedKey secretKey serverPk = .ok sharedKey
  | .xSalsa20Poly1305 =>
    ∀ secretKey, (curve.precompute serverPk secretKey).all (fun b => decide (b = 0)) = false
  | _ => True

/-- Then no random bytes are needed. -/
theorem computeSharedKey_random {curve : Curve} {construction : CryptoConstruction}
    {serverPk : Bytes} (h : NonDegenerate curve construction serverPk)
    (random random' secretKey : Bytes) :
    computeSharedKey curve random construction secretKey serverPk =
      computeSharedKey curve random' construction secretKey serverPk := by
  cases construction with
  | undefinedConstruction => rfl
  | xWingPQ => rfl
  | xChacha20Poly1305 =>
    obtain ⟨sharedKey, hShared⟩ := h secretKey
    simp only [computeSharedKey, hShared, if_true]
  | xSalsa20Poly1305 =>
    have hStrong := h secretKey
    dsimp only [computeSharedKey]
    rw [hStrong]
    rfl

/-- The shared key of a classic server is the one of this secret key. -/
def Keyed (env : KeyEnv) (secretKey : Bytes) (server : CryptoServerInfo) : Prop :=
  isClassicDNSCryptConstruction server.construction = true →
    NonDegenerate env.curve server.construction server.serverPk ∧ ∀ random, server.sharedKey =
        computeSharedKey env.curve random server.construction secretKey server.serverPk

/-- The keys of a packet belong together, and the packet carries the public
one. -/
structure PacketRecord.Consistent (env : KeyEnv) (r : PacketRecord) (secretKey : Bytes) : Prop where
  publicKey : r.encrypted.publicKey = env.curve.scalarBaseMult secretKey
  sharedKey : ∀ random, r.encrypted.sharedKey =
    computeSharedKey env.curve random r.server.construction secretKey r.server.serverPk
  carried : ∀ packet, r.encrypted.result = .ok packet →
    ∃ rest, packet = r.server.magicQuery ++ r.encrypted.publicKey ++ rest

section Keys

variable {env : KeyEnv} {server : CryptoServerInfo}

theorem keyed_recompute (h : NonDegenerate env.curve server.construction server.serverPk)
    (random secretKey : Bytes) :
    Keyed env secretKey (recomputeServerSharedKey env.curve random secretKey server) := by
  unfold recomputeServerSharedKey
  split
  · rename_i hPQ
    intro hClassic
    rw [hPQ] at hClassic
    cases hClassic
  · exact fun _ => ⟨h, fun random' => computeSharedKey_random h random random' secretKey⟩

theorem recompute_construction (random secretKey : Bytes) :
    (recomputeServerSharedKey env.curve random secretKey server).construction =
      server.construction := by
  unfold recomputeServerSharedKey
  split <;> rfl

theorem encrypt_carried {proxySecretKey proxyPublicKey packet : Bytes} {input : EncryptInput}
    (h : (encrypt env proxySecretKey proxyPublicKey server input).result = .ok packet) :
    ∃ rest, packet = server.magicQuery ++
      (encrypt env proxySecretKey proxyPublicKey server input).publicKey ++ rest := by
  unfold encrypt at h ⊢
  dsimp only at h ⊢
  split at h <;> cases h
  exact ⟨_, append_assoc _ _ _⟩

/-- Encryption with a server whose shared key is the one of the proxy's secret
key, or with an ephemeral key. -/
theorem encrypt_consistent {secretKey : Bytes} (hKeyed : Keyed env secretKey server)
    (hClassic : isClassicDNSCryptConstruction server.construction = true) (input : EncryptInput) :
    ∃ sk, PacketRecord.Consistent env
      { server := server
        encrypted := encrypt env secretKey (env.curve.scalarBaseMult secretKey) server input }
      sk := by
  obtain ⟨hStrong, hShared⟩ := hKeyed hClassic
  by_cases hEph : env.ephemeralKeys = true
  · refine ⟨env.sha512_256 (input.clientNonce ++ secretKey), ?_, fun random => ?_,
      fun packet => encrypt_carried⟩
    · dsimp only [encrypt, encryptKeys]
      rw [if_pos hEph]
    · dsimp only [encrypt, encryptKeys]
      rw [if_pos hEph]
      exact computeSharedKey_random hStrong _ _ _
  · refine ⟨secretKey, ?_, fun random => ?_, fun packet => encrypt_carried⟩
    · dsimp only [encrypt, encryptKeys]
      rw [if_neg hEph]
    · dsimp only [encrypt, encryptKeys]
      rw [if_neg hEph]
      exact hShared random

end Keys

/-! ## The invariant -/

/-- The servers that are fetched do not have weak keys. -/
def StrongServers (env : KeyEnv) (_ : KeyState) : KeyLabel → Prop
  | .refreshServer fetched _ => NonDegenerate env.curve fetched.construction fetched.serverPk
  | _ => True

/-- Besides, the key is rotated only while every classic server that a query
holds is in the registry. -/
def RotatesInRegistry (env : KeyEnv) (s : KeyState) (l : KeyLabel) : Prop :=
  StrongServers env s l ∧ match l with
    | .rotate _ _ => ∀ query ref, (query, ref) ∈ s.inFlight →
        isClassicDNSCryptConstruction (s.objects ref).construction = true → ref ∈ s.inner
    | _ => True

/-- The object is in the registry, or a query holds it. -/
def KeyState.Used (s : KeyState) (ref : Nat) : Prop :=
  ref ∈ s.inner ∨ ∃ query, (query, ref) ∈ s.inFlight

/-- Every server that can still be used has the shared key of the current
secret key. -/
structure KeysMatch (env : KeyEnv) (s : KeyState) : Prop where
  publicKey : s.proxyPublicKey = env.curve.scalarBaseMult s.proxySecretKey
  fresh : ∀ ref, s.Used ref → ref < s.nextRef
  keyed : ∀ ref, s.Used ref → Keyed env s.proxySecretKey (s.objects ref)
  packets : ∀ r ∈ s.packets, isClassicDNSCryptConstruction r.server.construction = true →
    ∃ sk, r.Consistent env sk

theorem mem_install {objects : Nat → CryptoServerInfo} {name : String} {ref other : Nat}
    {inner : List Nat} (h : other ∈ install objects name ref inner) :
    other = ref ∨ other ∈ inner := by
  induction inner with
  | nil => exact .inl (mem_singleton.mp h)
  | cons old rest ih =>
    unfold install at h
    split at h
    · exact (mem_cons.mp h).imp_right (mem_cons_of_mem old)
    · rcases mem_cons.mp h with rfl | hRest
      · exact .inr mem_cons_self
      · exact (ih hRest).imp_right (mem_cons_of_mem old)

namespace KeysMatch

variable {env : KeyEnv} {s s' : KeyState}

theorem init (h : (keyMachine env).init s) : KeysMatch env s := by
  obtain ⟨hPublic, hInner, hFlight, hPackets⟩ := h
  have hUnused : ∀ ref, ¬s.Used ref := by simp [KeyState.Used, hInner, hFlight]
  exact
    { publicKey := hPublic
      fresh := fun ref hUsed => absurd hUsed (hUnused ref)
      keyed := fun ref hUsed => absurd hUsed (hUnused ref)
      packets := fun r hr => by simp [hPackets] at hr }

/-- Nothing but the queries changes, and they hold objects in use. -/
theorem ofQueries (h : KeysMatch env s) {queries : List (Nat × Nat)} {next : Nat}
    (hQueries : ∀ query ref, (query, ref) ∈ queries → s.Used ref) :
    KeysMatch env { s with inFlight := queries, nextQuery := next } := by
  have hUsed : ∀ ref, KeyState.Used { s with inFlight := queries, nextQuery := next } ref →
      s.Used ref := by
    rintro ref (hInner | ⟨query, hMem⟩)
    · exact .inl hInner
    · exact hQueries query ref hMem
  exact ⟨h.publicKey, fun ref hRef => h.fresh ref (hUsed ref hRef),
    fun ref hRef => h.keyed ref (hUsed ref hRef), h.packets⟩

theorem refreshServer (h : KeysMatch env s) {fetched : CryptoServerInfo} (random : Bytes)
    (hStrong : NonDegenerate env.curve fetched.construction fetched.serverPk) :
    KeysMatch env (s.refreshServer env fetched random) := by
  -- what is in use afterwards is the new object, or was in use before
  have hUsed : ∀ ref, (s.refreshServer env fetched random).Used ref →
      ref = s.nextRef ∨ s.Used ref := by
    rintro ref (hInner | hHeld)
    · exact (mem_install hInner).imp_right .inl
    · exact .inr (.inr hHeld)
  refine ⟨h.publicKey, fun ref hRef => ?_, fun ref hRef => ?_, h.packets⟩
  · rcases hUsed ref hRef with rfl | hOld
    · exact Nat.lt_succ_self _
    · exact Nat.lt_succ_of_lt (h.fresh ref hOld)
  · dsimp only [KeyState.refreshServer]
    rcases hUsed ref hRef with rfl | hOld
    · rw [update_self]
      exact keyed_recompute hStrong random s.proxySecretKey
    · rw [update_of_ne (ne_of_lt (h.fresh ref hOld))]
      exact h.keyed ref hOld

theorem rotate (h : KeysMatch env s) (secretKey : Bytes) (random : Nat → Bytes)
    (hHeld : ∀ query ref, (query, ref) ∈ s.inFlight →
      isClassicDNSCryptConstruction (s.objects ref).construction = true → ref ∈ s.inner) :
    KeysMatch env (s.rotate env secretKey random) := by
  refine ⟨rfl, h.fresh, fun ref hUsed => ?_, h.packets⟩
  dsimp only [KeyState.rotate]
  intro hClassic
  split
  · rename_i hInner
    rw [if_pos hInner, recompute_construction] at hClassic
    have hStrong := (h.keyed ref hUsed hClassic).1
    exact keyed_recompute hStrong (random ref) secretKey (by rwa [recompute_construction])
  · -- a classic server in use is in the registry, so this is not one
    rename_i hDetached
    rw [if_neg hDetached] at hClassic
    rcases hUsed with hInner | ⟨query, hMem⟩
    · exact absurd hInner hDetached
    · exact absurd (hHeld query ref hMem hClassic) hDetached

theorem encryptFor (h : KeysMatch env s) {ref : Nat} (hUsed : s.Used ref) (input : EncryptInput) :
    KeysMatch env (s.encryptFor env ref input) := by
  refine ⟨h.publicKey, h.fresh, h.keyed, fun r hr hClassic => ?_⟩
  rcases mem_append.mp hr with hOld | hNew
  · exact h.packets r hOld hClassic
  · obtain rfl := mem_singleton.mp hNew
    rw [h.publicKey]
    exact encrypt_consistent (h.keyed ref hUsed) hClassic input

theorem step (h : KeysMatch env s) {l : KeyLabel} (hOk : RotatesInRegistry env s l)
    (hStep : (keyMachine env).step s l = some s') : KeysMatch env s' := by
  cases l with
  | getOne candidate =>
    obtain ⟨ref, hRef, rfl⟩ := map_eq_some_iff.mp hStep
    refine h.ofQueries fun query other hMem => ?_
    rcases mem_append.mp hMem with hOld | hNew
    · exact .inr ⟨query, hOld⟩
    · cases mem_singleton.mp hNew
      exact .inl (mem_of_getElem? hRef)
  | refreshServer fetched random =>
    cases hStep
    exact h.refreshServer random hOk.1
  | rotate secretKey random =>
    cases hStep
    exact h.rotate secretKey random hOk.2
  | encrypt query input =>
    obtain ⟨e, hFind, hNext⟩ := bind_eq_some_iff.mp hStep
    split at hNext <;> cases hNext
    exact h.encryptFor (.inr ⟨e.1, mem_of_find?_eq_some hFind⟩) input
  | done query =>
    cases hStep
    exact h.ofQueries fun q ref hMem => .inr ⟨q, mem_of_mem_filter hMem⟩

theorem of_reach (hs : (keyMachine env).Reach (RotatesInRegistry env) s) : KeysMatch env s :=
  hs.invariant (fun _ => init) fun _ _ _ h hOk hStep => h.step hOk hStep

end KeysMatch

/-- **The keys of a packet belong together.** In every run that rotates the
client key only while the classic servers that queries hold are in the registry,
every packet of a classic construction carries the public key of a secret key,
and is encrypted with the shared key of that secret key and the server. -/
theorem client_key_consistent {env : KeyEnv} {s : KeyState}
    (hs : (keyMachine env).Reach (RotatesInRegistry env) s) :
    ∀ r ∈ s.packets, isClassicDNSCryptConstruction r.server.construction = true →
      ∃ sk, r.Consistent env sk :=
  (KeysMatch.of_reach hs).packets

/-! ### A curve in the clear -/

/-- A public key is its secret key, a shared key is both keys. -/
def clearKeys : KeyEnv where
  curve :=
    { scalarBaseMult := id
      xSharedKey := fun secretKey serverPk => .ok (secretKey ++ serverPk)
      precompute := fun serverPk secretKey => 1 :: secretKey ++ serverPk }
  secretboxSeal _ _ packet := packet
  xsecretboxSeal _ _ packet := packet
  sha512_256 := id
  ephemeralKeys := false

def sampleServer : CryptoServerInfo where
  name := "server"
  construction := .xChacha20Poly1305
  serverPk := [7]
  sharedKey := zeroKey
  magicQuery := replicate ClientMagicLen 9
  fragmentsBlocked := false
  relayed := false

theorem sampleServer_nonDegenerate :
    NonDegenerate clearKeys.curve sampleServer.construction sampleServer.serverPk :=
  fun _ => ⟨_, rfl⟩

def sampleInput : EncryptInput where
  packet := rootQueryPacket
  proto := .udp
  clientNonce := replicate HalfNonceSize 5
  xpad := 0
  minQuestionSize := 0
  random := zeroKey

/-- The client starts with the secret key `[1]`. -/
def firstKey : KeyState where
  proxySecretKey := [1]
  proxyPublicKey := [1]
  objects _ := sampleServer
  nextRef := 0
  inner := []
  inFlight := []
  nextQuery := 0
  packets := []

theorem firstKey_init : (keyMachine clearKeys).init firstKey := ⟨rfl, rfl, rfl, rfl⟩

/-- A server is fetched, picked for a query, and replaced while the query goes
on. -/
def replacedRun : List KeyLabel :=
  [.refreshServer sampleServer zeroKey, .getOne 0, .refreshServer sampleServer zeroKey]

theorem replacedRun_allowed : ∀ l ∈ replacedRun, ∀ s, RotatesInRegistry clearKeys s l := by
  intro l hl s
  simp only [replacedRun, mem_cons, not_mem_nil, or_false] at hl
  rcases hl with rfl | rfl | rfl
  · exact ⟨sampleServer_nonDegenerate, trivial⟩
  · exact ⟨trivial, trivial⟩
  · exact ⟨sampleServer_nonDegenerate, trivial⟩

/-- Without a rotation in between, the query may use the replaced server. -/
theorem client_key_consistent_replaced :
    ∃ s, (keyMachine clearKeys).Reach (RotatesInRegistry clearKeys) s ∧
      s.inner = [1] ∧ s.inFlight = [(0, 0)] ∧ s.packets.length = 1 ∧
      ∀ r ∈ s.packets, isClassicDNSCryptConstruction r.server.construction = true →
        ∃ sk, r.Consistent clearKeys sk := by
  have hLabels : ∀ l ∈ replacedRun ++ [.encrypt 0 sampleInput],
      ∀ s, RotatesInRegistry clearKeys s l := by
    intro l hl s
    rcases mem_append.mp hl with hRun | hLast
    · exact replacedRun_allowed l hRun s
    · rw [mem_singleton.mp hLast]
      exact ⟨trivial, trivial⟩
  have hReach := Machine.Reach.exec hLabels (.init firstKey_init) (some_get rfl).symm
  refine ⟨_, hReach, ?_, ?_, ?_, client_key_consistent hReach⟩
  all_goals decide +kernel

theorem rotatedRun_isSome :
    ((keyMachine clearKeys).exec firstKey
      (replacedRun ++ [.rotate [2] fun _ => zeroKey, .encrypt 0 sampleInput])).isSome = true := rfl

/-- With one, its packet carries the new public key and is encrypted with a
shared key of the old secret key. -/
theorem replaced_server_keeps_old_key :
    ∃ s, (keyMachine clearKeys).Reach (StrongServers clearKeys) s ∧
      s.packets.map (fun r => (r.server, r.encrypted.publicKey, r.encrypted.sharedKey)) =
        [({ sampleServer with sharedKey := [1, 7] }, [2], [1, 7])] ∧
      ∀ r ∈ s.packets, isClassicDNSCryptConstruction r.server.construction = true ∧
        ¬∃ sk, r.Consistent clearKeys sk := by
  have hLabels : ∀ l ∈ replacedRun ++ [.rotate [2] fun _ => zeroKey, .encrypt 0 sampleInput],
      ∀ s, StrongServers clearKeys s l := by
    intro l hl s
    rcases mem_append.mp hl with hRun | hLast
    · exact (replacedRun_allowed l hRun s).1
    · simp only [mem_cons, not_mem_nil, or_false] at hLast
      rcases hLast with rfl | rfl <;> trivial
  have hReach := Machine.Reach.exec hLabels (.init firstKey_init)
    (some_get rotatedRun_isSome).symm
  have hKeys : (((keyMachine clearKeys).exec firstKey _).get rotatedRun_isSome).packets.map
      (fun r => (r.server, r.encrypted.publicKey, r.encrypted.sharedKey)) =
        [({ sampleServer with sharedKey := [1, 7] }, [2], [1, 7])] := by decide +kernel
  refine ⟨_, hReach, hKeys, fun r hr => ?_⟩
  have hMem := mem_map_of_mem (f := fun r : PacketRecord =>
    (r.server, r.encrypted.publicKey, r.encrypted.sharedKey)) hr
  rw [hKeys, mem_singleton, Prod.mk.injEq, Prod.mk.injEq] at hMem
  obtain ⟨hServer, hPublic, hShared⟩ := hMem
  refine ⟨by rw [hServer]; rfl, ?_⟩
  rintro ⟨sk, hConsistent⟩
  -- the public key names the new secret key, whose shared key is another one
  obtain rfl : sk = [2] := hConsistent.publicKey.symm.trans hPublic
  have hExpected := hConsistent.sharedKey zeroKey
  rw [hShared, hServer] at hExpected
  exact absurd hExpected (by decide)

end DnscryptProxy
