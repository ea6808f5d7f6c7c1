import DnscryptProxy.Base.Traced
import DnscryptProxy.Query.Send

/-!
# Oblivious DoH responses

`decryptResponse` of `oblivious_doh.go`: the parsing of a response body, whose
length fields the target chooses, and of the plaintext inside. HPKE and the AEAD
are a parameter (`HpkeSuite`); a slice is taken with its range check, and the
nonce bytes that go into the salt are an event.

The wire format is stated apart from the parser (`odohResponse`,
`odohPlaintextOf`), and `Accepts` says which messages a response may yield.

* `decryptResponse_returns` — short of the last three nonce lengths, the parser
  returns exactly the accepted messages;
* `decryptResponse_exact_iff` — the parsing is exact unless the nonce length is
  one of those and the response is long enough for it: `3 + n` wraps around.
-/

namespace DnscryptProxy

open Base List Except

/-! ## The library -/

/-- The operations of `hpkecompact.Suite` that `decryptResponse` uses. -/
structure HpkeSuite where
  Cipher : Type
  keyBytes : Nat
  nonceBytes : Nat
  /-- `Extract(secret, salt)` -/
  extract : Bytes → Bytes → Bytes
  /-- `Expand(prk, info, length)` -/
  expand : Bytes → Bytes → Nat → Except GoError Bytes
  newRawCipher : Bytes → Except GoError Cipher
  /-- `Open(nil, nonce, ct, aad)` -/
  openRaw : Cipher → Bytes → Bytes → Bytes → Except GoError Bytes

/-- `ODoHQuery`, without the message that was sent. -/
structure ODoHQuery where
  suite : HpkeSuite
  /-- `ctx.Export` -/
  ctxExport : Bytes → Nat → Except GoError Bytes
  odohPlaintext : Bytes

/-- The bytes of a response body that `fetch` reads at most. -/
def MaxHTTPBodyLength : Nat := 1000000

/-- `fmt.Errorf("Malformed response")`. -/
def malformedResponse : Halt GoError := .error (.plain "Malformed response")

/-- `binary.BigEndian.Uint16`. -/
def uint16 (b : Bytes) : GoCall UInt16 :=
  match b with
  | hi :: lo :: _ => .ok (UInt16.ofNat (hi.toNat * 256 + lo.toNat))
  | _ => .error .panic

/-! ## The parser -/

/-- The checks on the front of the response: the declared nonce length and the
slice `responseNonceEnc`. The end of the slice is a `uint16`. -/
def responseNonce (response : Bytes) : GoCall (UInt16 × Bytes) :=
  if response.length < 3 then .error malformedResponse
  else do
    let messageType ← index response 0
    if messageType ≠ 0x02 then .error malformedResponse
    else
      let responseNonceLength ← uint16 (← slice response 1 3)
      if response.length < 5 + responseNonceLength.toNat then .error malformedResponse
      else
        let responseNonceEnc ← slice response 1 (3 + responseNonceLength).toNat
        return (responseNonceLength, responseNonceEnc)

variable (q : ODoHQuery)

/-- The key and the nonce of the response, and the cipher for the key. -/
def ODoHQuery.responseCipher (secret salt : Bytes) : Except GoError (q.suite.Cipher × Bytes) := do
  let prk := q.suite.extract secret salt
  let key ← q.suite.expand prk (ascii "odoh key") q.suite.keyBytes
  let nonce ← q.suite.expand prk (ascii "odoh nonce") q.suite.nonceBytes
  let cipher ← q.suite.newRawCipher key
  return (cipher, nonce)

/-- `subtle.ConstantTimeByteEq`. -/
def constantTimeByteEq (x y : UInt8) : Nat := if x = y then 1 else 0

/-- The length prefix and the padding of the plaintext. -/
def responseMessage (responsePlaintext : Bytes) : GoCall Bytes :=
  if responsePlaintext.length < 2 then .error malformedResponse
  else do
    let responseLength ← uint16 (← slice responsePlaintext 0 2)
    let paddingOffset := 2 + responseLength.toNat
    if paddingOffset + 2 > responsePlaintext.length then .error malformedResponse
    else
      let paddingLength ← uint16 (← slice responsePlaintext paddingOffset (paddingOffset + 2))
      if paddingOffset + 2 + paddingLength.toNat ≠ responsePlaintext.length then
        .error malformedResponse
      else
        let valid := (responsePlaintext.drop (paddingOffset + 2)).foldl
          (fun valid c => valid &&& constantTimeByteEq c 0) 1
        if valid ≠ 1 then .error malformedResponse
        else slice responsePlaintext 2 (2 + responseLength.toNat)

/-- The rest of `decryptResponse`, once the salt is known. -/
def ODoHQuery.openResponse (response : Bytes) (responseNonceLength : UInt16)
    (secret salt : Bytes) : GoCall Bytes := do
  let (cipher, nonce) ← returns (q.responseCipher secret salt)
  let ctLength ← uint16
    (← slice response (3 + responseNonceLength.toNat) (5 + responseNonceLength.toNat))
  let ct ← slice response (5 + responseNonceLength.toNat) response.length
  if ctLength.toNat ≠ ct.length then .error malformedResponse
  else
    let aad ← slice response 0 (3 + responseNonceLength.toNat)
    let responsePlaintext ← returns (q.suite.openRaw cipher nonce ct aad)
    responseMessage responsePlaintext

/-- `decryptResponse`. The event is the nonce field that is appended to
`odohPlaintext` for the salt. -/
def ODoHQuery.decryptResponse (response : Bytes) : Traced Bytes (Halt GoError) Bytes := do
  let (responseNonceLength, responseNonceEnc) ← Traced.lift (responseNonce response)
  let secret ← Traced.lift (returns (q.ctxExport (ascii "odoh response") q.suite.keyBytes))
  Traced.emit responseNonceEnc
  Traced.lift
    (q.openResponse response responseNonceLength secret (q.odohPlaintext ++ responseNonceEnc))

/-! ## The format -/

/-- A response with this nonce and this ciphertext. -/
def odohResponse (nonce ct : Bytes) : Bytes :=
  0x02 :: (putUint16 nonce.length ++ nonce ++ putUint16 ct.length ++ ct)

/-- The plaintext that carries `m` and `padding` bytes of padding. -/
def odohPlaintextOf (m : Bytes) (padding : Nat) : Bytes :=
  putUint16 m.length ++ m ++ putUint16 padding ++ replicate padding 0

/-- The ciphertext opens to `plaintext` under the key that is derived with the
nonce field in the salt. -/
def ODoHQuery.Opens (nonceField aad ct plaintext : Bytes) : Prop :=
  ∃ secret cipher nonce, q.ctxExport (ascii "odoh response") q.suite.keyBytes = .ok secret ∧
    q.responseCipher secret (q.odohPlaintext ++ nonceField) = .ok (cipher, nonce) ∧
    q.suite.openRaw cipher nonce ct aad = .ok plaintext

/-- The messages a response may yield. The nonce field of the salt is the one of
the associated data. -/
def ODoHQuery.Accepts (response m : Bytes) : Prop :=
  ∃ nonce ct padding,
    nonce.length < 65536 ∧ ct.length < 65536 ∧ m.length < 65536 ∧ padding < 65536 ∧
    response = odohResponse nonce ct ∧
    q.Opens (putUint16 nonce.length ++ nonce) (0x02 :: (putUint16 nonce.length ++ nonce)) ct
      (odohPlaintextOf m padding)

/-- The nonce length that a response declares. -/
def declaredNonceLength (response : Bytes) : Nat :=
  (response.getD 1 0).toNat * 256 + (response.getD 2 0).toNat

/-- The parsing of a response is exact. -/
structure ODoHQuery.Exact (q : ODoHQuery) (response : Bytes) : Prop where
  no_panic : (q.decryptResponse response).result ≠ .error .panic
  salt : ∀ field ∈ (q.decryptResponse response).events,
    field = (response.take (3 + declaredNonceLength response)).drop 1
  returns_iff : ∀ m, (q.decryptResponse response).result = .ok m ↔ q.Accepts response m

/-- The nonce length is so large that `3 + n` wraps around, and the response is
long enough to pass the length check. The salt is built only if the export of
the secret succeeds. -/
def ODoHQuery.Wraps (response : Bytes) : Prop :=
  response.head? = some 0x02 ∧ 65533 ≤ declaredNonceLength response ∧
    5 + declaredNonceLength response ≤ response.length ∧
    (declaredNonceLength response = 65533 ∨
      ∃ secret, q.ctxExport (ascii "odoh response") q.suite.keyBytes = .ok secret)

/-! ## Length fields -/

@[simp]
theorem length_putUint16 (n : Nat) : (putUint16 n).length = 2 := rfl

theorem uint16_of_length {b : Bytes} (h : b.length = 2) :
    ∃ n : UInt16, uint16 b = .ok n ∧ b = putUint16 n.toNat := by
  obtain ⟨hi, lo, rfl⟩ : ∃ hi lo, b = [hi, lo] := length_eq_two.mp h
  refine ⟨_, rfl, ?_⟩
  have hHi := hi.toNat_lt
  have hLo := lo.toNat_lt
  have hNat : (UInt16.ofNat (hi.toNat * 256 + lo.toNat)).toNat = hi.toNat * 256 + lo.toNat := by
    rw [UInt16.toNat_ofNat']
    omega
  congr 1
  · apply UInt8.toNat_inj.mp
    rw [UInt8.toNat_ofNat']
    omega
  · congr 1
    apply UInt8.toNat_inj.mp
    rw [UInt8.toNat_ofNat']
    omega

theorem uint16_putUint16 {n : Nat} (h : n < 65536) (rest : Bytes) :
    uint16 (putUint16 n ++ rest) = .ok (UInt16.ofNat n) := by
  show ok (UInt16.ofNat ((UInt8.ofNat (n / 256)).toNat * 256 + (UInt8.ofNat n).toNat)) = _
  rw [UInt8.toNat_ofNat', UInt8.toNat_ofNat']
  congr 2
  omega

theorem toNat_ofNat_of_lt {n : Nat} (h : n < 65536) : (UInt16.ofNat n).toNat = n := by
  rw [UInt16.toNat_ofNat']
  omega

theorem uint16_toNat (n : UInt16) (rest : Bytes) :
    uint16 (putUint16 n.toNat ++ rest) = .ok n := by
  rw [uint16_putUint16 n.toNat_lt, UInt16.ofNat_toNat]

theorem uint16_field (n : UInt16) : uint16 (putUint16 n.toNat) = .ok n := by
  simpa using uint16_toNat n []

/-- What has two bytes begins with a length field. -/
theorem exists_lengthField {l : Bytes} (h : 2 ≤ l.length) :
    ∃ (n : UInt16) (rest : Bytes), l = putUint16 n.toNat ++ rest := by
  obtain ⟨n, -, hTake⟩ := uint16_of_length (b := l.take 2) (by rw [length_take]; omega)
  exact ⟨n, l.drop 2, by rw [← hTake, take_append_drop]⟩

/-! ## The plaintext -/

theorem foldl_constantTimeByteEq (l : Bytes) (valid : Nat) (hValid : valid = 0 ∨ valid = 1) :
    l.foldl (fun valid c => valid &&& constantTimeByteEq c 0) valid = 1 ↔
      valid = 1 ∧ ∀ c ∈ l, c = 0 := by
  induction l generalizing valid with
  | nil => simp
  | cons c l ih =>
    rw [foldl_cons]
    by_cases hc : c = 0
    · have hKeep : valid &&& constantTimeByteEq c 0 = valid := by
        rcases hValid with rfl | rfl <;> rw [constantTimeByteEq, if_pos hc] <;> rfl
      rw [hKeep, ih valid hValid]
      simp [hc]
    · have hZero : valid &&& constantTimeByteEq c 0 = 0 := by
        rw [constantTimeByteEq, if_neg hc, Nat.and_zero]
      rw [hZero, ih 0 (.inl rfl)]
      simp [hc]

/-- The parser on a plaintext that is long enough for its fields. -/
theorem responseMessage_eq (n k : UInt16) (m padding : Bytes) (hm : m.length = n.toNat) :
    responseMessage (putUint16 n.toNat ++ (m ++ (putUint16 k.toNat ++ padding))) =
      if padding = replicate k.toNat 0 then .ok m else .error malformedResponse := by
  generalize hPt : putUint16 n.toNat ++ (m ++ (putUint16 k.toNat ++ padding)) = pt
  have hLen : pt.length = 2 + n.toNat + 2 + padding.length := by
    simp only [← hPt, length_append, length_putUint16]
    omega
  have hField : slice pt (2 + n.toNat) (2 + n.toNat + 2) =
      (.ok (putUint16 k.toNat) : GoCall Bytes) := by
    rw [← hPt, ← append_assoc]
    apply slice_append
    · rw [length_append, length_putUint16, hm]
    · rw [length_append, length_putUint16, length_putUint16, hm]
  have hPadding : pt.drop (2 + n.toNat + 2) = padding := by
    rw [← hPt, ← append_assoc, ← append_assoc]
    apply drop_left'
    simp only [length_append, length_putUint16]
    omega
  have hFront : slice pt 0 2 = (.ok (putUint16 n.toNat) : GoCall Bytes) :=
    hPt ▸ slice_append [] (putUint16 n.toNat) _ rfl rfl
  rw [responseMessage, if_neg (by omega), hFront, ok_bind, uint16_field, ok_bind]
  rw [if_neg (by omega), hField, ok_bind, uint16_field, ok_bind, hLen, hPadding]
  by_cases hk : k.toNat = padding.length
  · rw [if_neg (by omega)]
    by_cases hZero : ∀ c ∈ padding, c = 0
    · have hValid := (foldl_constantTimeByteEq padding 1 (.inr rfl)).mpr ⟨rfl, hZero⟩
      rw [if_neg (not_not.mpr hValid), if_pos (eq_replicate_iff.mpr ⟨hk.symm, hZero⟩)]
      exact hPt ▸ slice_append _ m _ rfl (by rw [length_putUint16, hm])
    · have hValid : ¬ padding.foldl (fun valid c => valid &&& constantTimeByteEq c 0) 1 = 1 :=
        fun h => hZero ((foldl_constantTimeByteEq padding 1 (.inr rfl)).mp h).2
      rw [if_pos hValid, if_neg fun h => hZero (eq_replicate_iff.mp h).2]
  · rw [if_pos (by omega), if_neg fun h => hk (eq_replicate_iff.mp h).1.symm]

/-- Every other plaintext is malformed. -/
theorem responseMessage_cases (pt : Bytes) :
    responseMessage pt = .error malformedResponse ∨
      ∃ (n k : UInt16) (m padding : Bytes), m.length = n.toNat ∧
        pt = putUint16 n.toNat ++ (m ++ (putUint16 k.toNat ++ padding)) := by
  by_cases hTwo : pt.length < 2
  · exact .inl (by rw [responseMessage, if_pos hTwo])
  obtain ⟨n, rest, rfl⟩ := exists_lengthField (Nat.le_of_not_lt hTwo)
  by_cases hRest : rest.length < n.toNat + 2
  · -- the declared length leaves no room for the padding length
    left
    have hFront : slice (putUint16 n.toNat ++ rest) 0 2 =
        (.ok (putUint16 n.toNat) : GoCall Bytes) :=
      slice_append [] (putUint16 n.toNat) _ rfl rfl
    rw [responseMessage, if_neg hTwo, hFront, ok_bind, uint16_field, ok_bind]
    apply if_pos
    rw [length_append, length_putUint16]
    omega
  · obtain ⟨k, padding, hDrop⟩ :=
      exists_lengthField (l := rest.drop n.toNat) (by rw [length_drop]; omega)
    refine .inr ⟨n, k, rest.take n.toNat, padding, ?_, ?_⟩
    · rw [length_take]
      omega
    · rw [← hDrop, take_append_drop]

theorem responseMessage_ne_panic (pt : Bytes) : responseMessage pt ≠ .error .panic := by
  rcases responseMessage_cases pt with h | ⟨n, k, m, padding, hm, rfl⟩
  · rw [h]
    simp [malformedResponse]
  · rw [responseMessage_eq n k m padding hm]
    split <;> simp [malformedResponse]

theorem responseMessage_eq_ok {pt m : Bytes} :
    responseMessage pt = .ok m ↔
      ∃ padding, m.length < 65536 ∧ padding < 65536 ∧ pt = odohPlaintextOf m padding := by
  constructor
  · intro h
    rcases responseMessage_cases pt with hBad | ⟨n, k, m', padding, hm, rfl⟩
    · rw [hBad] at h
      cases h
    · rw [responseMessage_eq n k m' padding hm] at h
      split at h
      · next hPad =>
        obtain rfl : m' = m := by simpa using h
        have hn := n.toNat_lt
        have hk := k.toNat_lt
        refine ⟨k.toNat, by omega, by omega, ?_⟩
        rw [odohPlaintextOf, hm, hPad]
        simp only [append_assoc]
      · cases h
  · rintro ⟨padding, hm, hPadding, rfl⟩
    have hEq := responseMessage_eq _ (UInt16.ofNat padding) m (replicate padding 0)
      (toNat_ofNat_of_lt hm).symm
    rw [toNat_ofNat_of_lt hm, toNat_ofNat_of_lt hPadding, if_pos rfl] at hEq
    simpa only [odohPlaintextOf, append_assoc] using hEq

/-! ## The response -/

/-- A response that is long enough for its nonce and a ciphertext length. -/
def framedResponse (n c : UInt16) (nonce ct : Bytes) : Bytes :=
  0x02 :: (putUint16 n.toNat ++ (nonce ++ (putUint16 c.toNat ++ ct)))

section Framed

variable (n c : UInt16) (nonce ct : Bytes)

theorem declaredNonceLength_framed :
    declaredNonceLength (framedResponse n c nonce ct) = n.toNat := by
  show (UInt8.ofNat (n.toNat / 256)).toNat * 256 + (UInt8.ofNat n.toNat).toNat = n.toNat
  have hn := n.toNat_lt
  rw [UInt8.toNat_ofNat', UInt8.toNat_ofNat']
  omega

variable {nonce}

theorem length_framed (hNonce : nonce.length = n.toNat) :
    (framedResponse n c nonce ct).length = 5 + n.toNat + ct.length := by
  simp only [framedResponse, length_cons, length_append, length_putUint16]
  omega

/-- The nonce field, as in the associated data. -/
theorem nonceField_framed (hNonce : nonce.length = n.toNat) :
    (framedResponse n c nonce ct).take (3 + n.toNat) = 0x02 :: (putUint16 n.toNat ++ nonce) := by
  rw [framedResponse, ← append_assoc, ← cons_append]
  apply take_left'
  simp only [length_cons, length_append, length_putUint16]
  omega

theorem responseNonce_framed (hNonce : nonce.length = n.toNat) :
    responseNonce (framedResponse n c nonce ct) =
      (slice (framedResponse n c nonce ct) 1 (3 + n).toNat).map fun field => (n, field) := by
  have hLen := length_framed n c ct hNonce
  have hField : slice (framedResponse n c nonce ct) 1 3 =
      (.ok (putUint16 n.toNat) : GoCall Bytes) :=
    slice_append [0x02] (putUint16 n.toNat) _ rfl rfl
  rw [responseNonce, if_neg (by omega), index_eq (a := 0x02) rfl, ok_bind, if_neg (by simp),
    hField, ok_bind, uint16_field, ok_bind, if_neg (by omega)]
  cases (slice (framedResponse n c nonce ct) 1 (3 + n).toNat : GoCall Bytes) <;> rfl

/-- What `openResponse` does once the cipher is there. -/
theorem openResponse_framed (q : ODoHQuery) (hNonce : nonce.length = n.toNat)
    (secret salt : Bytes) :
    q.openResponse (framedResponse n c nonce ct) n secret salt =
      (returns (q.responseCipher secret salt) >>= fun keys =>
        if c.toNat ≠ ct.length then .error malformedResponse
        else returns (q.suite.openRaw keys.1 keys.2 ct (0x02 :: (putUint16 n.toNat ++ nonce))) >>=
          responseMessage) := by
  have hLen := length_framed n c ct hNonce
  have hCtLength : slice (framedResponse n c nonce ct) (3 + n.toNat) (5 + n.toNat) =
      (.ok (putUint16 c.toNat) : GoCall Bytes) := by
    rw [framedResponse, ← append_assoc, ← cons_append]
    apply slice_append <;> simp only [length_cons, length_append, length_putUint16] <;> omega
  have hCt : slice (framedResponse n c nonce ct) (5 + n.toNat)
      (framedResponse n c nonce ct).length = (.ok ct : GoCall Bytes) := by
    rw [slice_eq (by omega) (le_refl _), take_length, framedResponse, ← append_assoc,
      ← append_assoc, ← cons_append]
    congr 1
    apply drop_left'
    simp only [length_cons, length_append, length_putUint16]
    omega
  have hAad : slice (framedResponse n c nonce ct) 0 (3 + n.toNat) =
      (.ok (0x02 :: (putUint16 n.toNat ++ nonce)) : GoCall Bytes) := by
    rw [slice_eq (Nat.zero_le _) (by omega), nonceField_framed n c ct hNonce, drop_zero]
  unfold ODoHQuery.openResponse
  congr 1
  funext keys
  obtain ⟨cipher, nonce'⟩ := keys
  simp only [hCtLength, hCt, hAad, ok_bind, uint16_field]

end Framed

/-- The responses that pass the first length check. -/
theorem exists_framed {response : Bytes} (hType : response.head? = some 0x02)
    (hLen : 5 + declaredNonceLength response ≤ response.length) :
    ∃ n c nonce ct, nonce.length = UInt16.toNat n ∧ response = framedResponse n c nonce ct := by
  cases response with
  | nil => cases hType
  | cons b rest =>
    obtain rfl : b = 0x02 := by simpa using hType
    simp only [length_cons] at hLen
    obtain ⟨n, rest, rfl⟩ := exists_lengthField (l := rest) (by omega)
    have hDeclared : declaredNonceLength (0x02 :: (putUint16 n.toNat ++ rest)) = n.toNat :=
      declaredNonceLength_framed n 0 rest []
    rw [hDeclared, length_append, length_putUint16] at hLen
    obtain ⟨c, ct, hDrop⟩ :=
      exists_lengthField (l := rest.drop n.toNat) (by rw [length_drop]; omega)
    refine ⟨n, c, rest.take n.toNat, ct, ?_, ?_⟩
    · rw [length_take]
      omega
    · rw [framedResponse, ← hDrop, take_append_drop]

/-- All others are malformed, and no secret is exported for them. -/
theorem responseNonce_malformed {response : Bytes}
    (h : ¬ (response.head? = some 0x02 ∧ 5 + declaredNonceLength response ≤ response.length)) :
    responseNonce response = .error malformedResponse := by
  match response with
  | [] | [_] | [_, _] => rfl
  | b :: hi :: lo :: rest =>
    rw [responseNonce, if_neg (by simp), index_eq (a := b) rfl, ok_bind]
    by_cases hType : b = 0x02
    · rw [if_neg (not_not.mpr hType)]
      have hShort : ¬ 5 + declaredNonceLength (b :: hi :: lo :: rest) ≤
          (b :: hi :: lo :: rest).length := fun hLen => h ⟨by rw [hType]; rfl, hLen⟩
      have hHi := hi.toNat_lt
      have hLo := lo.toNat_lt
      have hNat : (UInt16.ofNat (hi.toNat * 256 + lo.toNat)).toNat = hi.toNat * 256 + lo.toNat :=
        toNat_ofNat_of_lt (by omega)
      show (if (b :: hi :: lo :: rest).length <
        5 + (UInt16.ofNat (hi.toNat * 256 + lo.toNat)).toNat then _ else _) = _
      rw [hNat]
      exact if_pos (Nat.lt_of_not_le hShort)
    · rw [if_pos hType]

/-! ## The end of the nonce field -/

theorem toNat_three_add {n : UInt16} (h : n.toNat < 65533) : (3 + n).toNat = 3 + n.toNat := by
  show (3 + n.toNat) % 65536 = _
  omega

theorem toNat_three_add_wraps {n : UInt16} (h : 65533 ≤ n.toNat) :
    (3 + n).toNat = n.toNat - 65533 := by
  have hn := n.toNat_lt
  show (3 + n.toNat) % 65536 = _
  omega

theorem responseNonce_fits (n c : UInt16) {nonce : Bytes} (ct : Bytes)
    (hNonce : nonce.length = n.toNat) (h : n.toNat < 65533) :
    responseNonce (framedResponse n c nonce ct) = .ok (n, putUint16 n.toNat ++ nonce) := by
  have hLen := length_framed n c ct hNonce
  rw [responseNonce_framed n c ct hNonce, toNat_three_add h, slice_eq (by omega) (by omega),
    nonceField_framed n c ct hNonce]
  rfl

/-- At the last three lengths the slice ends at byte 0, 1 or 2. -/
theorem responseNonce_wraps (n c : UInt16) {nonce : Bytes} (ct : Bytes)
    (hNonce : nonce.length = n.toNat) (h : 65533 ≤ n.toNat) :
    responseNonce (framedResponse n c nonce ct) = if n.toNat = 65533 then .error .panic
      else .ok (n, ((framedResponse n c nonce ct).take (n.toNat - 65533)).drop 1) := by
  have hLen := length_framed n c ct hNonce
  rw [responseNonce_framed n c ct hNonce, toNat_three_add_wraps h]
  by_cases hPanic : n.toNat = 65533
  · rw [if_pos hPanic, slice, if_neg (by omega)]
    rfl
  · rw [if_neg hPanic, slice_eq (by omega) (by omega)]
    rfl

/-! ## Exactness -/

section Exact

variable (q : ODoHQuery)

variable {n c : UInt16} {response : Bytes} {e : GoError}

theorem decryptResponse_of_error {e : Halt GoError} (h : responseNonce response = .error e) :
    q.decryptResponse response = { events := [], result := .error e } := by
  rw [ODoHQuery.decryptResponse, h]
  rfl

theorem decryptResponse_of_exportError {r : UInt16 × Bytes} (h : responseNonce response = .ok r)
    (hExport : q.ctxExport (ascii "odoh response") q.suite.keyBytes = .error e) :
    q.decryptResponse response = { events := [], result := .error (.error e) } := by
  rw [ODoHQuery.decryptResponse, h, hExport]
  rfl

theorem decryptResponse_of_export {response field secret : Bytes} {n : UInt16}
    (h : responseNonce response = .ok (n, field))
    (hExport : q.ctxExport (ascii "odoh response") q.suite.keyBytes = .ok secret) :
    q.decryptResponse response =
      { events := [field]
        result := q.openResponse response n secret (q.odohPlaintext ++ field) } := by
  rw [ODoHQuery.decryptResponse, h, hExport]
  rfl

theorem ODoHQuery.Accepts.isFramed {q : ODoHQuery} {response m : Bytes} (h : q.Accepts response m) :
    response.head? = some 0x02 ∧ 5 + declaredNonceLength response ≤ response.length := by
  obtain ⟨nonce, ct, padding, hNonce, hCt, -, -, rfl, -⟩ := h
  have hEq : odohResponse nonce ct =
      framedResponse (UInt16.ofNat nonce.length) (UInt16.ofNat ct.length) nonce ct := by
    rw [odohResponse, framedResponse, toNat_ofNat_of_lt hNonce, toNat_ofNat_of_lt hCt]
    simp only [append_assoc]
  rw [hEq, declaredNonceLength_framed, length_framed _ _ _ (toNat_ofNat_of_lt hNonce).symm]
  exact ⟨rfl, by omega⟩

/-- What an accepted response is, when its frame is known. -/
theorem accepts_framed {nonce ct m : Bytes} (hNonce : nonce.length = n.toNat) :
    q.Accepts (framedResponse n c nonce ct) m ↔
      c.toNat = ct.length ∧ ∃ padding, m.length < 65536 ∧ padding < 65536 ∧
        q.Opens (putUint16 n.toNat ++ nonce) (0x02 :: (putUint16 n.toNat ++ nonce)) ct
          (odohPlaintextOf m padding) := by
  have hn := n.toNat_lt
  have hc := c.toNat_lt
  constructor
  · rintro ⟨nonce', ct', padding, hNonce', hCt', hm, hPadding, hEq, hOpens⟩
    have hLength : nonce'.length = n.toNat := by
      have hDeclared := congrArg declaredNonceLength hEq
      rw [declaredNonceLength_framed] at hDeclared
      have hOther := declaredNonceLength_framed (UInt16.ofNat nonce'.length) 0 [] []
      rw [toNat_ofNat_of_lt hNonce'] at hOther
      rw [hDeclared, ← hOther]
      rw [odohResponse, framedResponse, toNat_ofNat_of_lt hNonce']
      rfl
    simp only [framedResponse, odohResponse, append_assoc, hLength] at hEq
    have hRest := append_cancel_left (tail_eq_of_cons_eq hEq)
    obtain ⟨rfl, hCtField⟩ := append_inj hRest (by omega)
    obtain ⟨hField, rfl⟩ := append_inj hCtField rfl
    have hCount : c.toNat = ct.length := by
      have hC := uint16_field c
      rw [hField, ← append_nil (putUint16 ct.length), uint16_putUint16 hCt'] at hC
      rw [← ok.inj hC, toNat_ofNat_of_lt hCt']
    rw [hLength] at hOpens
    exact ⟨hCount, padding, hm, hPadding, hOpens⟩
  · rintro ⟨hCount, padding, hm, hPadding, hOpens⟩
    refine ⟨nonce, ct, padding, by omega, by omega, hm, hPadding, ?_, ?_⟩
    · rw [framedResponse, odohResponse, hCount, hNonce]
      simp only [append_assoc]
    · rw [hNonce]
      exact hOpens

/-- `openResponse` with the right salt returns the accepted messages. -/
theorem openResponse_eq_ok {nonce ct m secret : Bytes} (hNonce : nonce.length = n.toNat)
    (hExport : q.ctxExport (ascii "odoh response") q.suite.keyBytes = .ok secret) :
    q.openResponse (framedResponse n c nonce ct) n secret
        (q.odohPlaintext ++ (putUint16 n.toNat ++ nonce)) = .ok m ↔
      q.Accepts (framedResponse n c nonce ct) m := by
  rw [openResponse_framed n c ct q hNonce, accepts_framed q hNonce, bind_eq_ok]
  constructor
  · rintro ⟨⟨cipher, nonce'⟩, hCipher, h⟩
    split at h
    · cases h
    · next hCount =>
      obtain ⟨pt, hOpen, hMessage⟩ := bind_eq_ok.mp h
      obtain ⟨padding, hm, hPadding, rfl⟩ := responseMessage_eq_ok.mp hMessage
      exact ⟨not_not.mp hCount, padding, hm, hPadding, secret, cipher, nonce', hExport,
        returns_eq_ok.mp hCipher, returns_eq_ok.mp hOpen⟩
  · rintro ⟨hCount, padding, hm, hPadding, secret', cipher, nonce', hExport', hCipher, hOpen⟩
    obtain rfl : secret = secret' := by
      rw [hExport] at hExport'
      exact ok.inj hExport'
    refine ⟨(cipher, nonce'), returns_eq_ok.mpr hCipher, ?_⟩
    rw [if_neg (not_not.mpr hCount), bind_eq_ok]
    exact ⟨_, returns_eq_ok.mpr hOpen, responseMessage_eq_ok.mpr ⟨padding, hm, hPadding, rfl⟩⟩

theorem openResponse_ne_panic {nonce ct : Bytes} (hNonce : nonce.length = n.toNat)
    (secret salt : Bytes) :
    q.openResponse (framedResponse n c nonce ct) n secret salt ≠ .error .panic := by
  rw [openResponse_framed n c ct q hNonce]
  apply bind_ne_panic (returns_ne_panic _)
  intro keys _
  split
  · simp [malformedResponse]
  · exact bind_ne_panic (returns_ne_panic _) fun pt _ => responseMessage_ne_panic pt

theorem not_accepts_of_exportError {response m : Bytes}
    (hExport : q.ctxExport (ascii "odoh response") q.suite.keyBytes = .error e) :
    ¬ q.Accepts response m := by
  rintro ⟨_, _, _, _, _, _, _, _, secret, _, _, hSecret, _⟩
  rw [hExport] at hSecret
  cases hSecret

/-- A response for which the parser stops with an error before the salt is
built, and that is not an encoding, is parsed exactly. -/
theorem exact_of_error
    (h : q.decryptResponse response = { events := [], result := .error (.error e) })
    (hNone : ∀ m, ¬ q.Accepts response m) : q.Exact response := by
  refine ⟨?_, ?_, ?_⟩
  · rw [h]
    simp
  · rw [h]
    simp
  · intro m
    rw [h]
    exact iff_of_false (fun hEq => nomatch hEq) (hNone m)

theorem decryptResponse_returns {nonce ct : Bytes}
    (hNonce : nonce.length = n.toNat) (h : n.toNat < 65533) :
    q.Exact (framedResponse n c nonce ct) := by
  have hStart := responseNonce_fits n c ct hNonce h
  cases hExport : q.ctxExport (ascii "odoh response") q.suite.keyBytes with
  | error e =>
    exact exact_of_error q (decryptResponse_of_exportError q hStart hExport)
      fun m => not_accepts_of_exportError q hExport
  | ok secret =>
    have hRun := decryptResponse_of_export q hStart hExport
    refine ⟨?_, ?_, ?_⟩
    · rw [hRun]
      exact openResponse_ne_panic q hNonce _ _
    · intro field hField
      rw [hRun] at hField
      rw [mem_singleton.mp hField, declaredNonceLength_framed, nonceField_framed n c ct hNonce]
      rfl
    · intro m
      rw [hRun]
      exact openResponse_eq_ok q hNonce hExport

/-- The parsing is exact unless the end of the nonce field wraps around. -/
theorem decryptResponse_exact_iff (q : ODoHQuery) (response : Bytes) :
    q.Exact response ↔ ¬ q.Wraps response := by
  by_cases hFrame : response.head? = some 0x02 ∧ 5 + declaredNonceLength response ≤ response.length
  · obtain ⟨n, c, nonce, ct, hNonce, rfl⟩ := exists_framed hFrame.1 hFrame.2
    have hDeclared := declaredNonceLength_framed n c nonce ct
    by_cases hFits : n.toNat < 65533
    · refine iff_of_true (decryptResponse_returns q hNonce hFits) fun hWraps => ?_
      have hLarge := hWraps.2.1
      omega
    · have hStart := responseNonce_wraps n c ct hNonce (Nat.le_of_not_lt hFits)
      by_cases hPanic : n.toNat = 65533
      · -- `response[1:0]`
        rw [if_pos hPanic] at hStart
        refine iff_of_false (fun hExact => hExact.no_panic ?_) fun hNot =>
          hNot ⟨hFrame.1, by omega, hFrame.2, .inl (by omega)⟩
        rw [decryptResponse_of_error q hStart]
      rw [if_neg hPanic] at hStart
      cases hExport : q.ctxExport (ascii "odoh response") q.suite.keyBytes with
      | error e =>
        refine iff_of_true (exact_of_error q (decryptResponse_of_exportError q hStart hExport)
          fun m => not_accepts_of_exportError q hExport) fun hWraps => ?_
        rcases hWraps.2.2.2 with hEq | ⟨secret, hSecret⟩
        · omega
        · rw [hExport] at hSecret
          cases hSecret
      | ok secret =>
        -- the field that is mixed in has at most one byte
        refine iff_of_false (fun hExact => ?_) fun hNot =>
          hNot ⟨hFrame.1, by omega, hFrame.2, .inr ⟨secret, hExport⟩⟩
        have hSalt := hExact.salt
        rw [decryptResponse_of_export q hStart hExport] at hSalt
        have hLength := congrArg length (hSalt _ (mem_singleton.mpr rfl))
        simp only [length_drop, length_take] at hLength
        omega
  · have hRun := decryptResponse_of_error q (responseNonce_malformed hFrame)
    refine iff_of_true (exact_of_error q hRun fun m hAccepts => hFrame hAccepts.isFramed)
      fun hWraps => hFrame ⟨hWraps.1, hWraps.2.2.1⟩

/-- A body of 65538 bytes. -/
def wrappingResponse : Bytes := 0x02 :: 0xff :: 0xfd :: replicate 65535 0

/-- `fetch` reads that much, and the parser panics on it. -/
theorem wrappingResponse_panics :
    wrappingResponse.length ≤ MaxHTTPBodyLength ∧ (ODoHQuery.decryptResponse
          { suite :=
              { Cipher := Unit, keyBytes := 16, nonceBytes := 12, extract := fun _ _ => []
                expand := fun _ _ _ => .ok [], newRawCipher := fun _ => .ok ()
                openRaw := fun _ _ _ _ => .error (.plain "message authentication failed") }
            ctxExport := fun _ _ => .ok [], odohPlaintext := [] }
          wrappingResponse).result = .error .panic := by
  have hFrame : wrappingResponse = framedResponse 65533 0 (replicate 65533 0) [] := by
    rw [wrappingResponse, framedResponse, show (65535 : Nat) = 65533 + 2 from rfl, replicate_add]
    rfl
  have hLength : wrappingResponse.length = 65538 := by
    rw [wrappingResponse, length_cons, length_cons, length_cons, length_replicate]
  refine ⟨by rw [hLength]; decide, ?_⟩
  have hNonce : (replicate 65533 (0 : UInt8)).length = (65533 : UInt16).toNat := by
    rw [length_replicate]
    rfl
  have hStart := responseNonce_wraps 65533 0 [] hNonce (by decide)
  rw [hFrame, decryptResponse_of_error _ hStart]

end Exact

end DnscryptProxy
