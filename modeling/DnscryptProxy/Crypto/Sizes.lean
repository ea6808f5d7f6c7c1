import DnscryptProxy.Crypto.ClientKey

/-!
# The size of a query

`estimators.go`, and what `Encrypt` makes of its minimum: the plaintext is padded so that
the length of the datagram tells little about the query, and so that an answer over UDP,
which may not be larger than the query, has room.

* `EstimatorInv.of_reach` — the minimum is a power of two from 512 to 4096;
* `paddedLength_udp` — the padded length, by the 64-byte block of what is needed;
* `encrypt_eq` — `Encrypt` fails above the limit, and else has exactly the padded length;
* `unpad_eq_ok` — what `unpad` accepts.
-/

namespace DnscryptProxy

open Base List Machine

/-! ## The estimator -/

def InitialMinQuestionSize : Nat := 512

/-- `ewma.MovingAverage`; `value` is `int(Value())`. -/
structure MovingAverage (A : Type*) where
  zero : A
  add : A → Nat → A
  set : A → Nat → A
  value : A → Int

structure QuestionSizeEstimator (A : Type*) where
  minQuestionSize : Nat
  ewma : A

section Estimator

variable {A : Type*} (avg : MovingAverage A)

def newQuestionSizeEstimator : QuestionSizeEstimator A :=
  { minQuestionSize := InitialMinQuestionSize, ewma := avg.zero }

namespace QuestionSizeEstimator

variable (e : QuestionSizeEstimator A)

def blindAdjust : QuestionSizeEstimator A :=
  let minQuestionSize :=
    if (MaxDNSUDPPacketSize : Int) - e.minQuestionSize < e.minQuestionSize then MaxDNSUDPPacketSize
    else e.minQuestionSize * 2
  { minQuestionSize, ewma := avg.set e.ewma minQuestionSize }

def adjust (packetSize : Nat) : QuestionSizeEstimator A :=
  let ewma := avg.add e.ewma packetSize
  let ma := avg.value ewma
  { minQuestionSize :=
      if ma > InitialMinQuestionSize ∧ ma < (e.minQuestionSize / 2 : Nat) then
        max InitialMinQuestionSize (e.minQuestionSize / 2)
      else e.minQuestionSize
    ewma }

end QuestionSizeEstimator

inductive EstimatorCall where
  | blindAdjust
  | adjust (packetSize : Nat)

def estimatorMachine : Machine (QuestionSizeEstimator A) EstimatorCall where
  init e := e = newQuestionSizeEstimator avg
  step e
    | .blindAdjust => some (e.blindAdjust avg)
    | .adjust packetSize => some (e.adjust avg packetSize)

/-- The minimum after any calls. -/
def EstimatorInv (e : QuestionSizeEstimator A) : Prop :=
  ∃ k ≤ 3, e.minQuestionSize = InitialMinQuestionSize * 2 ^ k

variable {avg} {e : QuestionSizeEstimator A}

theorem EstimatorInv.blindAdjust (h : EstimatorInv e) : EstimatorInv (e.blindAdjust avg) := by
  obtain ⟨k, hk, hMin⟩ := h
  unfold QuestionSizeEstimator.blindAdjust
  split
  · exact ⟨3, le_refl 3, rfl⟩
  · next hRoom =>
    refine ⟨k + 1, ?_, by rw [hMin, Nat.pow_succ, mul_assoc]⟩
    -- 4096 cannot be doubled
    by_contra hLast
    obtain rfl : k = 3 := by omega
    rw [hMin] at hRoom
    exact hRoom (by decide)

theorem EstimatorInv.adjust (h : EstimatorInv e) (packetSize : Nat) :
    EstimatorInv (e.adjust avg packetSize) := by
  obtain ⟨k, hk, hMin⟩ := h
  unfold QuestionSizeEstimator.adjust
  dsimp only
  split
  · cases k with
    | zero => exact ⟨0, Nat.zero_le 3, by rw [hMin]; rfl⟩
    | succ k =>
      refine ⟨k, by omega, ?_⟩
      have hHalf : e.minQuestionSize / 2 = InitialMinQuestionSize * 2 ^ k := by
        rw [hMin, Nat.pow_succ, ← mul_assoc, Nat.mul_div_cancel _ Nat.zero_lt_two]
      rw [hHalf]
      exact max_eq_right (Nat.le_mul_of_pos_right _ (Nat.two_pow_pos k))
  · exact ⟨k, hk, hMin⟩

theorem EstimatorInv.of_reach (he : (estimatorMachine avg).Reach anyStep e) :
    EstimatorInv e := by
  refine he.invariant (P := EstimatorInv) ?_ ?_
  · rintro e rfl
    exact ⟨0, Nat.zero_le 3, rfl⟩
  · intro e call e' ih _ hStep
    cases call with
    | blindAdjust =>
      obtain rfl := Option.some.inj hStep
      exact ih.blindAdjust
    | adjust packetSize =>
      obtain rfl := Option.some.inj hStep
      exact ih.adjust packetSize

theorem EstimatorInv.bounds (h : EstimatorInv e) :
    InitialMinQuestionSize ≤ e.minQuestionSize ∧ e.minQuestionSize ≤ MaxDNSUDPPacketSize := by
  obtain ⟨k, hk, hMin⟩ := h
  rw [hMin]
  refine ⟨Nat.le_mul_of_pos_right _ (Nat.two_pow_pos k), ?_⟩
  exact Nat.mul_le_mul_left _ (Nat.pow_le_pow_right Nat.zero_lt_two hk)

end Estimator

/-! ## Padding -/

theorem unpadFrom_eq_ok {x p : Bytes} :
    unpadFrom x = .ok p ↔ ∃ zeros, x = replicate zeros 0 ++ 0x80 :: p.reverse := by
  constructor
  · intro h
    induction x with
    | nil => cases h
    | cons c rest ih =>
      unfold unpadFrom at h
      split at h
      · next hMark =>
        obtain rfl := Except.ok.inj h
        exact ⟨0, by rw [hMark, reverse_reverse]; rfl⟩
      · split at h
        · cases h
        · next hZero =>
          obtain ⟨zeros, rfl⟩ := ih h
          exact ⟨zeros + 1, by rw [not_not.mp hZero]; rfl⟩
  · rintro ⟨zeros, rfl⟩
    rw [unpadFrom_replicate, reverse_reverse]

theorem unpad_eq_ok {x p : Bytes} :
    unpad x = .ok p ↔ ∃ zeros, x = p ++ 0x80 :: replicate zeros 0 := by
  rw [unpad, unpadFrom_eq_ok]
  refine exists_congr fun zeros => ?_
  simp

theorem unpad_pad (packet : Bytes) (minSize : Nat) : unpad (pad packet minSize) = .ok packet :=
  unpad_padded packet _

theorem length_pad (packet : Bytes) (minSize : Nat) :
    (pad packet minSize).length = max minSize (packet.length + 1) := by
  rw [pad, length_append, length_cons, length_replicate]
  omega

/-! ## The padded length -/

variable (fragmentsBlocked : Bool)

/-- The largest query that is sent. -/
def queryLimit (proto : ServerProto) : Nat :=
  if fragmentsBlocked = true ∧ proto = .udp then MaxDNSUDPSafePacketSize else MaxDNSPacketSize

/-- The size of a query over UDP, by the 64-byte block of what it needs. -/
def udpQuerySize (block : Nat) : Nat :=
  if fragmentsBlocked then MaxDNSUDPSafePacketSize else min MaxDNSUDPPacketSize ((block + 1) * 64)

theorem queryLimit_udp : queryLimit fragmentsBlocked .udp =
    if fragmentsBlocked then MaxDNSUDPSafePacketSize else MaxDNSPacketSize := by
  cases fragmentsBlocked <;> rfl

theorem queryLimit_tcp : queryLimit fragmentsBlocked .tcp = MaxDNSPacketSize := by
  cases fragmentsBlocked <;> rfl

section PaddedLength

variable {server : CryptoServerInfo} {input : EncryptInput}

theorem paddedLength_udp (hUdp : input.proto = .udp) :
    paddedLength server input = udpQuerySize server.fragmentsBlocked
      (max input.minQuestionSize (QueryOverhead + input.packet.length) / 64) := by
  have hTcp : ¬ (server.relayed = true ∧ input.proto = .tcp) := by
    rw [hUdp]
    rintro ⟨-, h⟩
    cases h
  unfold paddedLength udpQuerySize
  by_cases hBlocked : server.fragmentsBlocked = true
  · rw [if_pos ⟨hBlocked, hUdp⟩, if_pos hBlocked]
  · rw [if_neg (fun h => hBlocked h.1), if_neg hTcp, if_neg hBlocked, hUdp]
    dsimp only
    congr 1
    omega

theorem paddedLength_tcp (hTcp : input.proto = .tcp) :
    paddedLength server input = if server.relayed = true then MaxDNSPacketSize
      else min MaxDNSUDPPacketSize
        (((QueryOverhead + input.packet.length + input.xpad.toNat) / 64 + 1) * 64) := by
  have hUdp : ¬ (server.fragmentsBlocked = true ∧ input.proto = .udp) := by
    rw [hTcp]
    rintro ⟨-, h⟩
    cases h
  unfold paddedLength
  rw [if_neg hUdp]
  by_cases hRelayed : server.relayed = true
  · rw [if_pos ⟨hRelayed, hTcp⟩, if_pos hRelayed]
  · rw [if_neg (fun h => hRelayed h.1), if_neg hRelayed, hTcp]
    dsimp only
    congr 1
    omega

theorem paddedLength_le (server : CryptoServerInfo) (input : EncryptInput) :
    paddedLength server input ≤ queryLimit server.fragmentsBlocked input.proto := by
  cases hProto : input.proto with
  | udp =>
    rw [paddedLength_udp hProto, udpQuerySize, queryLimit_udp]
    split
    · exact le_refl _
    · exact min_le_left _ _
  | tcp =>
    rw [paddedLength_tcp hProto, queryLimit_tcp]
    split
    · exact le_refl _
    · exact min_le_left _ _

/-- The packet fits into the padding if it fits into the limit: rounding up leaves room for
the mark, and 4096 is a multiple of 64. -/
theorem le_paddedLength (hFits : QueryOverhead + input.packet.length + 1 ≤
    queryLimit server.fragmentsBlocked input.proto) :
    QueryOverhead + input.packet.length + 1 ≤ paddedLength server input := by
  cases hProto : input.proto with
  | udp =>
    rw [hProto, queryLimit_udp] at hFits
    rw [paddedLength_udp hProto, udpQuerySize]
    split at hFits
    · next hBlocked => rwa [if_pos hBlocked]
    · next hBlocked =>
      rw [if_neg hBlocked]
      exact Nat.le_min.mpr ⟨hFits, by omega⟩
  | tcp =>
    rw [hProto, queryLimit_tcp] at hFits
    rw [paddedLength_tcp hProto]
    split
    · exact hFits
    · exact Nat.le_min.mpr ⟨hFits, by omega⟩

end PaddedLength

/-! ## `Encrypt` -/

/-- The lengths that the types of the source fix. -/
structure KeyEnv.Sized (env : KeyEnv) : Prop where
  secretboxSeal : ∀ nonce key packet,
    (env.secretboxSeal nonce key packet).length = packet.length + TagSize
  xsecretboxSeal : ∀ nonce key packet,
    (env.xsecretboxSeal nonce key packet).length = packet.length + TagSize
  scalarBaseMult : ∀ secretKey, (env.curve.scalarBaseMult secretKey).length = PublicKeySize

/-- The seal of the construction of a server. -/
def KeyEnv.seal (env : KeyEnv) (construction : CryptoConstruction) (nonce key packet : Bytes) :
    Bytes :=
  if construction = .xChacha20Poly1305 then env.xsecretboxSeal nonce key packet
  else env.secretboxSeal nonce key packet

section Encrypt

variable {env : KeyEnv} {proxySecretKey proxyPublicKey : Bytes} {server : CryptoServerInfo}
  {input : EncryptInput}

theorem length_seal (hEnv : env.Sized) (construction : CryptoConstruction)
    (nonce key packet : Bytes) :
    (env.seal construction nonce key packet).length = packet.length + TagSize := by
  unfold KeyEnv.seal
  split
  · exact hEnv.xsecretboxSeal ..
  · exact hEnv.secretboxSeal ..

/-- The packet that is sealed. -/
def paddedPacket (server : CryptoServerInfo) (input : EncryptInput) : Bytes :=
  pad input.packet (paddedLength server input - QueryOverhead)

/-- The query, if the packet is not too large. -/
def classicQuery (env : KeyEnv) (proxySecretKey proxyPublicKey : Bytes)
    (server : CryptoServerInfo) (input : EncryptInput) : Bytes :=
  let keys := encryptKeys env proxySecretKey proxyPublicKey server input
  server.magicQuery ++ keys.2 ++ input.clientNonce ++ env.seal server.construction
      (input.clientNonce ++ replicate (NonceSize - HalfNonceSize) 0) keys.1
      (paddedPacket server input)

theorem encrypt_eq (hNonce : input.clientNonce.length = HalfNonceSize) :
    (encrypt env proxySecretKey proxyPublicKey server input).result =
      if QueryOverhead + input.packet.length + 1 >
          queryLimit server.fragmentsBlocked input.proto then
        .error (.plain "Question too large; cannot be padded")
      else .ok (classicQuery env proxySecretKey proxyPublicKey server input) := by
  have hTake : (input.clientNonce ++ replicate (NonceSize - HalfNonceSize) 0).take
      HalfNonceSize = input.clientNonce := take_left' hNonce
  have hLe := paddedLength_le server input
  unfold encrypt
  dsimp only
  by_cases hFits : QueryOverhead + input.packet.length + 1 ≤
      queryLimit server.fragmentsBlocked input.proto
  · have hPadded := le_paddedLength hFits
    rw [if_neg (not_lt.mpr hPadded), if_neg (not_lt.mpr hFits), hTake]
    rfl
  · rw [if_pos (by omega), if_pos (by omega)]

theorem length_encryptKeys (hEnv : env.Sized) (hPublic : proxyPublicKey.length = PublicKeySize) :
    (encryptKeys env proxySecretKey proxyPublicKey server input).2.length = PublicKeySize := by
  unfold encryptKeys
  split
  · exact hEnv.scalarBaseMult _
  · exact hPublic

theorem length_classicQuery (hEnv : env.Sized) (hPublic : proxyPublicKey.length = PublicKeySize)
    (hMagic : server.magicQuery.length = ClientMagicLen)
    (hNonce : input.clientNonce.length = HalfNonceSize)
    (hFits : QueryOverhead + input.packet.length + 1 ≤
      queryLimit server.fragmentsBlocked input.proto) :
    (classicQuery env proxySecretKey proxyPublicKey server input).length =
      paddedLength server input := by
  have hPadded := le_paddedLength hFits
  have hOverhead : QueryOverhead = ClientMagicLen + PublicKeySize + HalfNonceSize + TagSize := rfl
  unfold classicQuery
  rw [length_append, length_append, length_append, length_seal hEnv,
    length_encryptKeys hEnv hPublic, hMagic, hNonce, paddedPacket, length_pad]
  omega

end Encrypt

/-- `Encrypt` fails exactly when the packet with its mark does not fit into the limit.
Otherwise the query stays in the limit, reaches the minimum of the estimator over UDP, shows
only a 64-byte block, and carries the packet; and `unpad` accepts nothing else than paddings. -/
theorem classic_query_sizes {env : KeyEnv} (hEnv : env.Sized) {A : Type*} (avg : MovingAverage A)
    {estimator : QuestionSizeEstimator A}
    (hEstimator : (estimatorMachine avg).Reach anyStep estimator)
    (proxySecretKey : Bytes) {proxyPublicKey : Bytes}
    (hPublic : proxyPublicKey.length = PublicKeySize) {server : CryptoServerInfo}
    (hMagic : server.magicQuery.length = ClientMagicLen) {input : EncryptInput}
    (hNonce : input.clientNonce.length = HalfNonceSize)
    (hMin : input.minQuestionSize = estimator.minQuestionSize) :
    ((∃ err, (encrypt env proxySecretKey proxyPublicKey server input).result = .error err) ↔
      QueryOverhead + input.packet.length + 1 > queryLimit server.fragmentsBlocked input.proto) ∧
    (∀ encrypted, (encrypt env proxySecretKey proxyPublicKey server input).result = .ok encrypted →
      encrypted.length ≤ queryLimit server.fragmentsBlocked input.proto ∧
      (input.proto = .udp → server.fragmentsBlocked = false →
        estimator.minQuestionSize ≤ encrypted.length) ∧
      (input.proto = .udp → encrypted.length = udpQuerySize server.fragmentsBlocked
        (max estimator.minQuestionSize (QueryOverhead + input.packet.length) / 64)) ∧
      ∃ publicKey nonce key padded, unpad padded = .ok input.packet ∧
        encrypted = server.magicQuery ++ publicKey ++ input.clientNonce ++
          env.seal server.construction nonce key padded) ∧
    ∀ x p, unpad x = .ok p ↔ ∃ zeros, x = p ++ 0x80 :: replicate zeros 0 := by
  have hMax := (EstimatorInv.of_reach hEstimator).bounds.2
  refine ⟨?_, ?_, fun x p => unpad_eq_ok⟩
  · rw [encrypt_eq hNonce]
    split
    · next hLarge => exact ⟨fun _ => hLarge, fun _ => ⟨_, rfl⟩⟩
    · next hFits =>
      refine ⟨?_, fun hLarge => absurd hLarge hFits⟩
      rintro ⟨err, hErr⟩
      cases hErr
  · intro encrypted hOk
    rw [encrypt_eq hNonce] at hOk
    split at hOk
    · cases hOk
    · next hLarge =>
      obtain rfl := Except.ok.inj hOk
      have hFits := not_lt.mp hLarge
      have hLength : (classicQuery env proxySecretKey proxyPublicKey server input).length =
          paddedLength server input := length_classicQuery hEnv hPublic hMagic hNonce hFits
      rw [hLength, ← hMin]
      refine ⟨paddedLength_le server input, ?_, paddedLength_udp, ?_⟩
      · -- the estimate is at most 4096, so the cap does not cut below it
        intro hUdp hOpen
        rw [paddedLength_udp hUdp, hOpen]
        refine Nat.le_min.mpr ⟨hMin ▸ hMax, ?_⟩
        omega
      · exact ⟨_, _, _, paddedPacket server input, unpad_pad _ _, rfl⟩

/-- Boxes that are the packet behind a tag. -/
def taggedKeys : KeyEnv where
  curve :=
    { scalarBaseMult := fun _ => zeroKey
      xSharedKey := fun _ _ => .ok zeroKey
      precompute := fun _ _ => zeroKey }
  secretboxSeal := fun _ _ packet => replicate TagSize 0 ++ packet
  xsecretboxSeal := fun _ _ packet => replicate TagSize 0 ++ packet
  sha512_256 := id
  ephemeralKeys := false

theorem taggedKeys_sized : taggedKeys.Sized :=
  ⟨fun _ _ _ => by simp [taggedKeys, add_comm], fun _ _ _ => by simp [taggedKeys, add_comm],
    fun _ => rfl⟩

/-- The last value. -/
def lastValue : MovingAverage Nat where
  zero := 0
  add _ v := v
  set _ v := v
  value v := v

/-- The query of `sampleInput`, with the first minimum. -/
def sizedInput : EncryptInput := { sampleInput with minQuestionSize := InitialMinQuestionSize }

theorem classic_query_sizes_first :
    ∃ encrypted,
      (encrypt taggedKeys zeroKey zeroKey sampleServer sizedInput).result = .ok encrypted ∧
        encrypted.length = 576 := by
  have hStart : (estimatorMachine lastValue).Reach anyStep
      (newQuestionSizeEstimator lastValue) := .init rfl
  have hPublic : zeroKey.length = PublicKeySize := by decide
  have hMagic : sampleServer.magicQuery.length = ClientMagicLen := by decide
  have hNonce : sizedInput.clientNonce.length = HalfNonceSize := by decide
  obtain ⟨hFails, hSizes, -⟩ := classic_query_sizes taggedKeys_sized lastValue hStart zeroKey
    hPublic hMagic hNonce rfl
  cases hResult : (encrypt taggedKeys zeroKey zeroKey sampleServer sizedInput).result with
  | error err => exact absurd (hFails.mp ⟨err, hResult⟩) (by decide)
  | ok encrypted => exact ⟨encrypted, rfl, (hSizes encrypted hResult).2.2.1 rfl⟩

end DnscryptProxy
