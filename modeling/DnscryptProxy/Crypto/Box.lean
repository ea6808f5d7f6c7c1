import DnscryptProxy.Common

/-!
# DNSCrypt boxes

`crypto.go`: the constructions, the padding and the opening of a response. The
primitives themselves (authenticated encryption, the curve) are a parameter,
`Primitives`.
-/

namespace DnscryptProxy

open List

inductive CryptoConstruction where
  | undefinedConstruction
  | xSalsa20Poly1305
  | xChacha20Poly1305
  | xWingPQ
deriving Repr, DecidableEq

def isClassicDNSCryptConstruction (c : CryptoConstruction) : Bool :=
  decide (c = .xSalsa20Poly1305) || decide (c = .xChacha20Poly1305)

def ServerMagic : Bytes := [0x72, 0x36, 0x66, 0x6e, 0x76, 0x57, 0x6a, 0x38]
def NonceSize : Nat := 24
def HalfNonceSize : Nat := 12
def TagSize : Nat := 16

/-- The primitives of the libraries behind `crypto.go`. -/
structure Primitives where
  /-- `secretbox.Open`: nonce, key, box -/
  secretboxOpen : Bytes → Bytes → Bytes → Option Bytes
  /-- `xsecretbox.Open`: nonce, key, box -/
  xsecretboxOpen : Bytes → Bytes → Bytes → Except GoError Bytes

/-! ## Padding -/

/-- The loop of `unpad`, from the end of the packet. -/
def unpadFrom : Bytes → Except GoError Bytes
  | [] => .error (.plain "Invalid padding (short packet)")
  | c :: rest =>
    if c = 0x80 then .ok rest.reverse
    else if c ≠ 0 then .error (.plain "Invalid padding (delimiter not found)")
    else unpadFrom rest

def unpad (packet : Bytes) : Except GoError Bytes := unpadFrom packet.reverse

/-! ## Responses -/

/-- What `Decrypt` knows of a query: the keys of its exchange and, for the PQ
construction, what `pqStripControl` makes of the plaintext. -/
structure BoxKeys where
  construction : CryptoConstruction
  sharedKey : Bytes
  clientNonce : Bytes
  pqStripControl : Bytes → Except GoError Bytes

/-- Open the box with the construction of the server. -/
def openBox (prim : Primitives) (keys : BoxKeys) (serverNonce box : Bytes) :
    Except GoError Bytes :=
  match keys.construction with
  | .xChacha20Poly1305 | .xWingPQ => prim.xsecretboxOpen serverNonce keys.sharedKey box
  | _ =>
    match prim.secretboxOpen serverNonce keys.sharedKey box with
    | some packet => .ok packet
    | none => .error (.plain "Incorrect tag")

def decrypt (prim : Primitives) (keys : BoxKeys) (encrypted : Bytes) : Except GoError Bytes :=
  let responseHeaderLen := ServerMagic.length + NonceSize
  if encrypted.length < responseHeaderLen + TagSize + MinDNSPacketSize ∨
      encrypted.length > responseHeaderLen + TagSize + MaxDNSPacketSize ∨
      encrypted.take ServerMagic.length ≠ ServerMagic then
    .error (.plain "Invalid message size or prefix")
  else
    let serverNonce := (encrypted.take responseHeaderLen).drop ServerMagic.length
    if keys.clientNonce.take HalfNonceSize ≠ serverNonce.take HalfNonceSize then
      .error (.plain "Unexpected nonce")
    else
      match openBox prim keys serverNonce (encrypted.drop responseHeaderLen) with
      | .error err => .error err
      | .ok packet =>
        match (if keys.construction = .xWingPQ then keys.pqStripControl packet else .ok packet) with
        | .error err => .error err
        | .ok packet =>
          match unpad packet with
          | .error _ => .error (.plain "Incorrect padding")
          | .ok packet =>
            if packet.length < MinDNSPacketSize then .error (.plain "Incorrect padding")
            else .ok packet

/-! ## What a server sends -/

/-- The datagram is what the server sends in answer to a query of these keys:
the magic, the client's half of the nonce with the server's half, and a box
that opens to a padded packet. -/
structure ServerAnswer (prim : Primitives) (keys : BoxKeys) (datagram : Bytes) : Prop where
  fits : datagram.length ≤ MaxDNSPacketSize
  built : ∃ serverHalf box plain packet : Bytes, ∃ zeros : Nat,
    datagram = ServerMagic ++ (keys.clientNonce.take HalfNonceSize ++ serverHalf) ++ box ∧
    keys.clientNonce.length = HalfNonceSize ∧ serverHalf.length = HalfNonceSize ∧
    TagSize + MinDNSPacketSize ≤ box.length ∧
    openBox prim keys (keys.clientNonce.take HalfNonceSize ++ serverHalf) box = .ok plain ∧
    (if keys.construction = .xWingPQ then keys.pqStripControl plain else .ok plain) =
      .ok (packet ++ 0x80 :: replicate zeros 0) ∧
    MinDNSPacketSize ≤ packet.length

theorem unpadFrom_replicate (zeros : Nat) (rest : Bytes) :
    unpadFrom (replicate zeros 0 ++ 0x80 :: rest) = .ok rest.reverse := by
  induction zeros with
  | zero => simp [unpadFrom]
  | succ n ih =>
    exact ih

theorem unpad_padded (packet : Bytes) (zeros : Nat) :
    unpad (packet ++ 0x80 :: replicate zeros 0) = .ok packet := by
  have h := unpadFrom_replicate zeros packet.reverse
  simpa [unpad] using h

theorem ServerAnswer.decrypt_ok {prim : Primitives} {keys : BoxKeys} {datagram : Bytes}
    (h : ServerAnswer prim keys datagram) : ∃ packet, decrypt prim keys datagram = .ok packet := by
  obtain ⟨serverHalf, box, plain, packet, zeros, rfl, hNonce, hHalf, hBox, hOpen, hStrip, hMin⟩ :=
    h.built
  have hFits := h.fits
  have hTake : keys.clientNonce.take HalfNonceSize = keys.clientNonce :=
    take_of_length_le (Nat.le_of_eq hNonce)
  rw [hTake] at hOpen hFits ⊢
  -- the header ends where the box begins, so every cut of `decrypt` is between the parts
  have hHeader : (ServerMagic ++ (keys.clientNonce ++ serverHalf)).length =
      ServerMagic.length + NonceSize := by
    simp only [length_append, hNonce, hHalf, HalfNonceSize, NonceSize]
  have hLen := congrArg (· + box.length) hHeader
  simp only [← length_append] at hLen
  refine ⟨packet, ?_⟩
  unfold decrypt
  dsimp only
  have hSizes : ¬((ServerMagic ++ (keys.clientNonce ++ serverHalf) ++ box).length <
        ServerMagic.length + NonceSize + TagSize + MinDNSPacketSize ∨
      (ServerMagic ++ (keys.clientNonce ++ serverHalf) ++ box).length >
        ServerMagic.length + NonceSize + TagSize + MaxDNSPacketSize ∨
      (ServerMagic ++ (keys.clientNonce ++ serverHalf) ++ box).take ServerMagic.length ≠
        ServerMagic) := by
    rintro (hShort | hLong | hMagic)
    · omega
    · omega
    · exact hMagic rfl
  rw [if_neg hSizes, ← hHeader, take_left, drop_left, drop_left,
    take_left' hNonce, hTake, if_neg (fun hNe => hNe rfl), hOpen]
  dsimp only
  rw [hStrip]
  dsimp only
  rw [unpad_padded]
  dsimp only
  rw [if_neg (by omega)]

end DnscryptProxy
