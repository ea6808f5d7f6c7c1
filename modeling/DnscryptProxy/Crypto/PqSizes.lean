import DnscryptProxy.Crypto.PqControl
import DnscryptProxy.Crypto.Sizes

/-!
# The size of a resumed query

A ticket travels in every query that uses it, so a long ticket leaves little room. Three
places look at sizes: `pqProcessControl` when it keeps a ticket, `pqResumedPaddingFloor` when
a query is padded, and `Encrypt` when it is done. The first one compares with
`MaxDNSUDPPacketSize`, the other two with `pqUDPPacketLimit`, which is lower for a server
whose fragments are blocked.

* `encryptXWingPQ_stored` — `Encrypt` with a ticket that was kept;
* `room_iff` — when a smallest query fits;
* `kept_ticket_blocks_udp` — a ticket that is kept and that no query over UDP can use.
-/

namespace DnscryptProxy

open Base List

/-! ## `Encrypt` -/

section Encrypt

variable (prim : PqPrimitives) (server : PqServer) (input : PqInput)

/-- `Encrypt` for the PQ construction: what `encryptPQ` builds may be too large for UDP. -/
def encryptXWingPQ (queryEpoch : UInt64) (now : Time) (seed : Bytes) (session : PqSessionState) :
    PqSessionState × Except GoError PqEncrypted :=
  match encryptPQ prim server input queryEpoch now seed session with
  | (session, .error err) => (session, .error err)
  | (session, .ok result) =>
    if input.proto = .udp ∧ result.encrypted.length > pqUDPPacketLimit server then
      (session, .error (.plain "Question too large; cannot be padded"))
    else (session, .ok result)

/-- The packet that is sealed with a ticket of that length. -/
def resumedPadded (ticketLen : Nat) : Bytes :=
  pqPad input.packet (pqResumedPaddingFloor server input.minQuestionSize ticketLen input.proto)

end Encrypt

/-! ## Floors -/

section Floors

variable {server : PqServer} {minQuestionSize ticketLen : Nat}

theorem pqResumedPaddingFloor_ge :
    PQResumedPaddingFloor ≤ pqResumedPaddingFloor server minQuestionSize ticketLen .udp := by
  unfold pqResumedPaddingFloor
  dsimp only
  omega

theorem dvd_pqResumedPaddingFloor :
    64 ∣ pqResumedPaddingFloor server minQuestionSize ticketLen .udp := by
  unfold pqResumedPaddingFloor PQResumedPaddingFloor
  dsimp only
  omega

/-- Where a smallest query fits, the floor keeps to the limit, and falls short of the minimum
only if the limit forces it to. -/
theorem pqResumedPaddingFloor_fits (minQuestionSize : Nat)
    (hFits : pqResumedOverhead ticketLen + PQResumedPaddingFloor ≤ pqUDPPacketLimit server) :
    pqResumedOverhead ticketLen + pqResumedPaddingFloor server minQuestionSize ticketLen .udp ≤
        pqUDPPacketLimit server ∧
      min minQuestionSize (pqUDPPacketLimit server - 63) ≤
        pqResumedOverhead ticketLen +
          pqResumedPaddingFloor server minQuestionSize ticketLen .udp := by
  unfold pqResumedPaddingFloor
  generalize pqResumedOverhead ticketLen = overhead at *
  generalize pqUDPPacketLimit server = limit at *
  dsimp only
  omega

theorem length_pqPad {packet : Bytes} (hPacket : packet.length ≤ 255) {floor : Nat}
    (hFloor : PQResumedPaddingFloor ≤ floor) : (pqPad packet floor).length = floor := by
  unfold PQResumedPaddingFloor at hFloor
  rw [pqPad, length_pad]
  omega

theorem length_resumedPadded {input : PqInput} (hUdp : input.proto = .udp)
    (hPacket : input.packet.length ≤ 255) :
    (resumedPadded server input ticketLen).length =
      pqResumedPaddingFloor server input.minQuestionSize ticketLen .udp := by
  rw [resumedPadded, hUdp, length_pqPad hPacket pqResumedPaddingFloor_ge]

end Floors

/-! ## With a ticket that was kept -/

section Stored

/-- `xsecretbox.Seal` adds a tag. -/
def PqPrimitives.Sized (prim : PqPrimitives) : Prop :=
  ∀ nonce key packet, (prim.xsecretboxSeal nonce key packet).length = packet.length + TagSize

variable {prim : PqPrimitives} {server : PqServer} {input : PqInput}

theorem length_resumedQuery (hPrim : prim.Sized)
    (hNonce : input.clientNonce.length = HalfNonceSize) (ticket resumeSecret : Bytes) :
    (resumedQuery prim server input ticket resumeSecret).encrypted.length =
      pqResumedOverhead ticket.length + (resumedPadded server input ticket.length).length := by
  unfold resumedQuery
  rw [length_append, length_append, length_append, length_append, hPrim, hNonce]
  unfold pqResumedOverhead resumedPadded
  show PQResumeMagic.length + 2 + _ + _ + _ = _
  omega

theorem encryptPQ_of_get {session : PqSessionState} {epoch : UInt64} {now : Time}
    {ticket resumeSecret : Bytes} (hGet : (session.get now epoch).2 = some (ticket, resumeSecret))
    (seed : Bytes) :
    (encryptPQ prim server input epoch now seed session).2 =
      .ok (resumedQuery prim server input ticket resumeSecret) := by
  unfold encryptPQ
  rcases hLeft : session.get now epoch with ⟨left, hit⟩
  rw [hLeft] at hGet
  obtain rfl : hit = some (ticket, resumeSecret) := hGet
  rfl

theorem encryptXWingPQ_of_ok {session : PqSessionState} {epoch : UInt64} {now : Time} {seed : Bytes}
    {result : PqEncrypted} (hUdp : input.proto = .udp)
    (hOk : (encryptPQ prim server input epoch now seed session).2 = .ok result) :
    (encryptXWingPQ prim server input epoch now seed session).2 =
      if result.encrypted.length > pqUDPPacketLimit server then
        .error (.plain "Question too large; cannot be padded")
      else .ok result := by
  unfold encryptXWingPQ
  rcases hLeft : encryptPQ prim server input epoch now seed session with ⟨left, built⟩
  rw [hLeft] at hOk
  obtain rfl : built = .ok result := hOk
  dsimp only
  by_cases hLarge : result.encrypted.length > pqUDPPacketLimit server
  · rw [if_pos ⟨hUdp, hLarge⟩, if_pos hLarge]
  · rw [if_neg (fun h => hLarge h.2), if_neg hLarge]

variable {sharedKey clientNonce control : Bytes} {epoch : UInt64} {now later : Time} {t : PqTicket}

/-- The session hands out the ticket that `pqProcessControl` has kept, until it expires. -/
theorem get_pqProcessControl (hStored : controlTicket control = some t) (hTicket : t.ticket ≠ [])
    (hLater : later < now + t.lifetime * Second) (session : PqSessionState) :
    ((pqProcessControl prim server sharedKey clientNonce control epoch epoch now session).get later
        epoch).2 =
      some (t.ticket, pqResumeSecret prim sharedKey server.magicQuery clientNonce) := by
  rw [pqProcessControl, hStored]
  dsimp only
  rw [if_neg (not_not.mpr rfl), get_storeTicket prim server sharedKey clientNonce epoch hLater,
    if_neg hTicket]

theorem encryptXWingPQ_stored (hPrim : prim.Sized) (hStored : controlTicket control = some t)
    (hTicket : t.ticket ≠ []) (hLater : later < now + t.lifetime * Second)
    (hUdp : input.proto = .udp) (hNonce : input.clientNonce.length = HalfNonceSize)
    (seed : Bytes) (session : PqSessionState) :
    (encryptXWingPQ prim server input epoch later seed
        (pqProcessControl prim server sharedKey clientNonce control epoch epoch now session)).2 =
      if pqResumedOverhead t.ticket.length + (resumedPadded server input t.ticket.length).length >
          pqUDPPacketLimit server then
        .error (.plain "Question too large; cannot be padded")
      else .ok (resumedQuery prim server input t.ticket
        (pqResumeSecret prim sharedKey server.magicQuery clientNonce)) := by
  rw [encryptXWingPQ_of_ok hUdp (encryptPQ_of_get (get_pqProcessControl hStored hTicket hLater
    session) seed), length_resumedQuery hPrim hNonce]

end Stored

/-! ## Usable tickets -/

/-- A query over UDP with that ticket: it carries the padded packet, in whole blocks, keeps to
the limit, and reaches the minimum of the estimator as far as the limit allows. -/
def UsableOverUDP (prim : PqPrimitives) (server : PqServer) (input : PqInput) (ticket : Bytes)
    (result : Except GoError PqEncrypted) : Prop :=
  ∃ query padded, result = .ok query ∧
    query.encrypted = PQResumeMagic ++ putUint16 ticket.length ++ ticket ++ input.clientNonce ++
      prim.xsecretboxSeal input.nonce query.sharedKey padded ∧
    unpad padded = .ok input.packet ∧ 64 ∣ padded.length ∧
    query.encrypted.length ≤ pqUDPPacketLimit server ∧
    min input.minQuestionSize (pqUDPPacketLimit server - 63) ≤ query.encrypted.length

theorem room_iff {server : PqServer} {ticket : Bytes} (hKept : FitsDatagram ticket) :
    pqResumedOverhead ticket.length + PQResumedPaddingFloor ≤ pqUDPPacketLimit server ↔
      (server.fragmentsBlocked = true → ticket.length ≤ 958) := by
  have hOverhead : pqResumedOverhead ticket.length = 38 + ticket.length := by
    have hMagic : PQResumeMagic.length = 8 := by decide +kernel
    rw [pqResumedOverhead, hMagic]
    show 8 + 2 + ticket.length + 12 + 16 = _
    omega
  unfold pqUDPPacketLimit
  by_cases hBlocked : server.fragmentsBlocked = true
  · rw [if_pos hBlocked, hOverhead]
    show 38 + ticket.length + 256 ≤ 1252 ↔ _
    refine ⟨fun h _ => by omega, fun h => ?_⟩
    have := h hBlocked
    omega
  · -- the limit is then the one a ticket was kept by
    rw [if_neg hBlocked]
    exact ⟨fun _ h => absurd h hBlocked, fun _ => hKept⟩

/-- A ticket that `pqProcessControl` keeps can be used over UDP, unless the fragments of the
server are blocked and the ticket leaves no room below the lower limit. -/
theorem kept_tickets_usable {prim : PqPrimitives} (hPrim : prim.Sized) {server : PqServer}
    {control : Bytes} {t : PqTicket} (hStored : controlTicket control = some t)
    (hTicket : t.ticket ≠ []) (sharedKey clientNonce : Bytes) (epoch : UInt64) {now later : Time}
    (hLater : later < now + t.lifetime * Second) (session : PqSessionState) {input : PqInput}
    (hUdp : input.proto = .udp) (hNonce : input.clientNonce.length = HalfNonceSize)
    (hPacket : input.packet.length ≤ 255) (seed : Bytes) :
    UsableOverUDP prim server input t.ticket
        (encryptXWingPQ prim server input epoch later seed
          (pqProcessControl prim server sharedKey clientNonce control epoch epoch now session)).2 ↔
      (server.fragmentsBlocked = true → t.ticket.length ≤ 958) := by
  have hKept : FitsDatagram t.ticket := (controlTicket_eq_some.mp hStored).2.1
  have hPadded : (resumedPadded server input t.ticket.length).length =
      pqResumedPaddingFloor server input.minQuestionSize t.ticket.length .udp :=
    length_resumedPadded hUdp hPacket
  rw [encryptXWingPQ_stored hPrim hStored hTicket hLater hUdp hNonce, hPadded, ← room_iff hKept]
  constructor
  · -- a query that is not too large has room for the smallest padding
    rintro ⟨query, padded, hOk, -⟩
    split at hOk
    · cases hOk
    · next hSmall =>
      exact (Nat.add_le_add_left pqResumedPaddingFloor_ge _).trans (not_lt.mp hSmall)
  · intro hRoom
    obtain ⟨hLimit, hMinimum⟩ := pqResumedPaddingFloor_fits input.minQuestionSize hRoom
    rw [if_neg (not_lt.mpr hLimit)]
    refine ⟨_, resumedPadded server input t.ticket.length, rfl, rfl, unpad_pad _ _, ?_, ?_, ?_⟩
    · rw [hPadded]
      exact dvd_pqResumedPaddingFloor
    · rw [length_resumedQuery hPrim hNonce, hPadded]
      exact hLimit
    · rw [length_resumedQuery hPrim hNonce, hPadded]
      exact hMinimum

section Boundary

/-- Boxes that are the packet behind a tag. -/
def taggedPrimitives : PqPrimitives where
  hkdfSha256 _ ikm _ := ikm
  sha256 data := data
  xsecretboxSeal _ _ packet := replicate TagSize 0 ++ packet
  encapsulate _ seed := .ok (seed, seed)

theorem taggedPrimitives_sized : taggedPrimitives.Sized := by
  intro nonce key packet
  simp [taggedPrimitives, add_comm]

/-- A server whose fragments are blocked. -/
def blockedServer : PqServer :=
  { magicQuery := zeroKey.take 8, pqPublicKey := [], pqCertContext := [], fragmentsBlocked := true }

/-- A ticket of `n` bytes that lives for an hour. -/
def ticketOf (n : Nat) : PqTicket := { lifetime := 3600, ticket := replicate n 1 }

def ticketControl (n : Nat) : Bytes := controlBlock 3600 (replicate n 1) []

def smallQuery : PqInput :=
  { packet := rootQueryPacket, proto := .udp, clientNonce := replicate HalfNonceSize 5
    minQuestionSize := InitialMinQuestionSize }

/-- The answer of `Encrypt`, right after a control block with a ticket of `n` bytes. -/
def encryptAfter (n : Nat) : Except GoError PqEncrypted :=
  (encryptXWingPQ taggedPrimitives blockedServer smallQuery 0 1 []
    (pqProcessControl taggedPrimitives blockedServer zeroKey zeroKey (ticketControl n) 0 0 0
      newPqSessionState)).2

theorem controlTicket_ticketControl {n : Nat} (hn : n ≤ 1000) :
    controlTicket (ticketControl n) = some (ticketOf n) := by
  refine controlTicket_controlBlock (by decide) ?_ []
  rw [FitsDatagram, length_replicate]
  exact (Nat.add_le_add_right (Nat.add_le_add_right (Nat.add_le_add_right
    (Nat.add_le_add_left hn _) _) _) _).trans (by decide +kernel)

theorem ticketOf_ne_nil {n : Nat} (hn : 0 < n) : (ticketOf n).ticket ≠ [] := by
  intro h
  have hLength := congrArg length h
  simp only [ticketOf, length_replicate, length_nil] at hLength
  omega

theorem kept_tickets_usable_longest :
    UsableOverUDP taggedPrimitives blockedServer smallQuery (ticketOf 958).ticket
      (encryptAfter 958) := by
  refine (kept_tickets_usable taggedPrimitives_sized (controlTicket_ticketControl (by decide))
    (ticketOf_ne_nil (by decide)) zeroKey zeroKey 0 (by decide) newPqSessionState rfl rfl
    (by decide) []).mpr fun _ => ?_
  rw [ticketOf, length_replicate]

/-- A ticket of 959 bytes is kept, and no query over UDP can use it. -/
theorem kept_ticket_blocks_udp :
    controlTicket (ticketControl 959) = some (ticketOf 959) ∧
      encryptAfter 959 = .error (.plain "Question too large; cannot be padded") := by
  have hStored := controlTicket_ticketControl (n := 959) (by decide)
  refine ⟨hStored, ?_⟩
  have hPadded : PQResumedPaddingFloor ≤ (resumedPadded blockedServer smallQuery 959).length := by
    rw [length_resumedPadded rfl (by decide)]
    exact pqResumedPaddingFloor_ge
  have hOverhead : pqResumedOverhead 959 + PQResumedPaddingFloor >
      pqUDPPacketLimit blockedServer := by
    decide +kernel
  have hLength : (ticketOf 959).ticket.length = 959 := length_replicate
  rw [encryptAfter, encryptXWingPQ_stored taggedPrimitives_sized hStored
    (ticketOf_ne_nil (by decide)) (by decide) rfl rfl, hLength, if_pos (by omega)]

end Boundary

end DnscryptProxy
