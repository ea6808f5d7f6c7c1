import DnscryptProxy.Crypto.ClientKey
import DnscryptProxy.Query.Send

/-!
# The post-quantum construction

`pq.go`: a query carries an X-Wing ciphertext, or the resumption ticket of an earlier
answer. Both are kept in the session of a server, together with the network epoch they
belong to. The primitives are a parameter, `PqPrimitives`.

`encryptPQ` and `pqProcessControl` are given here as they run undisturbed; their parts,
each under one lock, are the steps of the machine in `PqEpoch`.
-/

namespace DnscryptProxy

open Base

def PQResumeMagic : Bytes := "PQResume".toUTF8.toList
def PQControlMagic : Bytes := [0x50, 0x51, 0x44, 0x52]
def PQControlVersion : UInt8 := 0x01
def PQESVersion : Bytes := [0x00, 0x03]
def PQResumedPaddingFloor : Nat := 256

/-- The libraries behind `pq.go`. -/
structure PqPrimitives where
  /-- `hkdfSha256` for 32 bytes: salt, key material, info -/
  hkdfSha256 : Bytes → Bytes → Bytes → Bytes
  sha256 : Bytes → Bytes
  /-- `xsecretbox.Seal`: nonce, key, packet -/
  xsecretboxSeal : Bytes → Bytes → Bytes → Bytes
  /-- `pqEncapsulate` for a public key, with the random seed it draws: the shared secret and
  the ciphertext -/
  encapsulate : Bytes → Bytes → Except GoError (Bytes × Bytes)

/-- The fields of a `ServerInfo` that are used here. -/
structure PqServer where
  magicQuery : Bytes
  pqPublicKey : Bytes
  pqCertContext : Bytes
  fragmentsBlocked : Bool
deriving Repr, DecidableEq

/-! ## Keys -/

section Keys

variable (prim : PqPrimitives)

def pqDeriveSharedKey (kemSS clientMagic certContext ct : Bytes) : Bytes :=
  prim.hkdfSha256 (PQESVersion ++ clientMagic) kemSS (certContext ++ ct)

def pqResumeSecret (sharedKey clientMagic clientNonce : Bytes) : Bytes :=
  prim.hkdfSha256 (clientMagic ++ clientNonce) sharedKey
    "DNSCrypt-PQ-resume-secret-v1".toUTF8.toList

def pqResumedSharedKey (resumeSecret clientMagic clientNonce ticket : Bytes) : Bytes :=
  prim.hkdfSha256 (clientMagic ++ clientNonce) resumeSecret
    ("DNSCrypt-PQ-resumed-query-v1".toUTF8.toList ++ prim.sha256 ticket)

end Keys

/-! ## Sizes -/

def pqPad (packet : Bytes) (floor : Nat) : Bytes :=
  pad packet (max floor ((packet.length + 1 + 63) / 64 * 64))

def pqResumedOverhead (ticketLen : Nat) : Nat :=
  PQResumeMagic.length + 2 + ticketLen + HalfNonceSize + TagSize

def pqUDPPacketLimit (server : PqServer) : Nat :=
  if server.fragmentsBlocked then MaxDNSUDPSafePacketSize else MaxDNSUDPPacketSize

/-- `pqResumedPaddingFloor`; rounding goes down, also below zero. -/
def pqResumedPaddingFloor (server : PqServer) (minQuestionSize ticketLen : Nat) :
    ServerProto → Nat
  | .tcp => PQResumedPaddingFloor
  | .udp =>
    let overhead : Int := pqResumedOverhead ticketLen
    let want : Int := minQuestionSize - overhead
    (max (PQResumedPaddingFloor : Int) (min ((want + 63) / 64 * 64)
      (((pqUDPPacketLimit server : Int) - overhead) / 64 * 64))).toNat

/-! ## Sessions -/

structure PqSessionState where
  ticket : Option Bytes
  resumeSecret : Bytes
  /-- the zero time is `none` -/
  expiry : Option Time
  epoch : UInt64
  encap : Option Bytes
  encapKey : Bytes
  encapEpoch : UInt64
deriving Repr, DecidableEq

/-- `&pqSessionState{}`. -/
def newPqSessionState : PqSessionState :=
  { ticket := none, resumeSecret := zeroKey, expiry := none, epoch := 0, encap := none
    encapKey := zeroKey, encapEpoch := 0 }

/-- `append([]byte(nil), b...)`: a copy of nothing is nil. -/
def copyOrNil (b : Bytes) : Option Bytes := if b = [] then none else some b

namespace PqSessionState

variable (s : PqSessionState)

def store (ticket resumeSecret : Bytes) (expiry : Time) (epoch : UInt64) : PqSessionState :=
  { s with
    ticket := copyOrNil ticket
    resumeSecret := resumeSecret
    expiry := some expiry
    epoch := epoch }

/-- `get` at `now`: the ticket and the secret, if they are those of the current epoch. -/
def get (now : Time) (currentEpoch : UInt64) : PqSessionState × Option (Bytes × Bytes) :=
  match s.ticket, s.expiry with
  | some ticket, some expiry =>
    if ¬now < expiry then (s, none)
    else if s.epoch ≠ currentEpoch then
      ({ s with ticket := none, resumeSecret := zeroKey, expiry := none }, none)
    else (s, some (ticket, s.resumeSecret))
  | _, _ => (s, none)

/-- `getCachedEncapsulation`: the ciphertext and the key. -/
def getCachedEncapsulation (currentEpoch : UInt64) : PqSessionState × Option (Bytes × Bytes) :=
  match s.encap with
  | none => (s, none)
  | some ct =>
    if s.encapEpoch ≠ currentEpoch then ({ s with encap := none, encapKey := zeroKey }, none)
    else (s, some (ct, s.encapKey))

def storeEncapsulation (ct key : Bytes) (epoch : UInt64) : PqSessionState :=
  { s with encap := copyOrNil ct, encapKey := key, encapEpoch := epoch }

end PqSessionState

/-! ## Queries -/

/-- The arguments of `encryptPQ`, its random bytes, and what the estimator of question sizes
says. -/
structure PqInput where
  packet : Bytes
  proto : ServerProto
  clientNonce : Bytes
  minQuestionSize : Nat
deriving Repr, DecidableEq

/-- The shared key and the packet that `encryptPQ` returns. -/
structure PqEncrypted where
  sharedKey : Bytes
  encrypted : Bytes
deriving Repr, DecidableEq

section Queries

variable (prim : PqPrimitives) (server : PqServer) (input : PqInput)

/-- The client's half of the nonce, and zeros. -/
def PqInput.nonce : Bytes :=
  input.clientNonce ++ List.replicate (NonceSize - HalfNonceSize) 0

/-- The query that `encryptPQ` builds with a ticket. -/
def resumedQuery (ticket resumeSecret : Bytes) : PqEncrypted :=
  let key := pqResumedSharedKey prim resumeSecret server.magicQuery input.clientNonce ticket
  let padded := pqPad input.packet
    (pqResumedPaddingFloor server input.minQuestionSize ticket.length input.proto)
  { sharedKey := key
    encrypted := PQResumeMagic ++ putUint16 ticket.length ++ ticket ++ input.clientNonce ++
      prim.xsecretboxSeal input.nonce key padded }

/-- The query that `encryptPQ` builds with a ciphertext. -/
def ciphertextQuery (ctKem key : Bytes) : PqEncrypted :=
  { sharedKey := key
    encrypted := server.magicQuery ++ ctKem ++ input.clientNonce ++
      prim.xsecretboxSeal input.nonce key (pqPad input.packet 64) }

/-- `encryptPQ` in the epoch `queryEpoch`, undisturbed: the session it leaves, and the query.
`seed` is drawn if there is a need to encapsulate. -/
def encryptPQ (queryEpoch : UInt64) (now : Time) (seed : Bytes) (session : PqSessionState) :
    PqSessionState × Except GoError PqEncrypted :=
  match session.get now queryEpoch with
  | (session, some (ticket, resumeSecret)) =>
    (session, .ok (resumedQuery prim server input ticket resumeSecret))
  | (session, none) =>
    match session.getCachedEncapsulation queryEpoch with
    | (session, some (ctKem, key)) => (session, .ok (ciphertextQuery prim server input ctKem key))
    | (session, none) =>
      match prim.encapsulate server.pqPublicKey seed with
      | .error err => (session, .error err)
      | .ok (kemSS, ctKem) =>
        let key := pqDeriveSharedKey prim kemSS server.magicQuery server.pqCertContext ctKem
        (session.storeEncapsulation ctKem key queryEpoch,
          .ok (ciphertextQuery prim server input ctKem key))

end Queries

/-! ## Responses -/

/-- The control block of a response, and the body behind it. -/
def splitControl (plaintext : Bytes) : Except GoError (Bytes × Bytes) :=
  if plaintext.length < 2 then .error (.plain "PQ response too short")
  else
    let controlLen := bigEndian (subBytes plaintext 0 2)
    if 2 + controlLen > plaintext.length then
      .error (.plain "PQ control block overflows response")
    else .ok (subBytes plaintext 2 (2 + controlLen), plaintext.drop (2 + controlLen))

/-- A ticket, and how many seconds it lives. -/
structure PqTicket where
  lifetime : Nat
  ticket : Bytes
deriving Repr, DecidableEq

/-- What `pqProcessControl` reads from a control block, up to its look at the epoch. -/
def controlTicket (control : Bytes) : Option PqTicket :=
  if control.length < 11 then none
  else if subBytes control 0 4 ≠ PQControlMagic ∨ control.getD 4 0 ≠ PQControlVersion then none
  else
    let lifetime := bigEndian (subBytes control 5 9)
    let ticketLen := bigEndian (subBytes control 9 11)
    if 11 + ticketLen > control.length then none
    else
      let ticket := subBytes control 11 (11 + ticketLen)
      if pqResumedOverhead ticket.length + PQResumedPaddingFloor > MaxDNSUDPPacketSize then none
      else some { lifetime := lifetime, ticket := ticket }

section Responses

variable (prim : PqPrimitives) (server : PqServer)

/-- The end of `pqProcessControl`: keep the ticket, under the epoch of the query. -/
def storeTicket (sharedKey clientNonce : Bytes) (queryEpoch : UInt64) (now : Time) (t : PqTicket)
    (session : PqSessionState) : PqSessionState :=
  session.store t.ticket (pqResumeSecret prim sharedKey server.magicQuery clientNonce)
    (now + t.lifetime * Second) queryEpoch

/-- `pqProcessControl` in the epoch `networkEpoch`, undisturbed. -/
def pqProcessControl (sharedKey clientNonce control : Bytes) (queryEpoch networkEpoch : UInt64)
    (now : Time) (session : PqSessionState) : PqSessionState :=
  match controlTicket control with
  | none => session
  | some t =>
    if queryEpoch ≠ networkEpoch then session
    else storeTicket prim server sharedKey clientNonce queryEpoch now t session

def pqStripControl (sharedKey clientNonce plaintext : Bytes) (queryEpoch networkEpoch : UInt64)
    (now : Time) (session : PqSessionState) : PqSessionState × Except GoError Bytes :=
  match splitControl plaintext with
  | .error err => (session, .error err)
  | .ok (control, body) =>
    (if control = [] then session
      else pqProcessControl prim server sharedKey clientNonce control queryEpoch networkEpoch now
        session, .ok body)

end Responses

end DnscryptProxy
