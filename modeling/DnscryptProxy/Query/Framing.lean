import DnscryptProxy.Query.OdohResponse

/-!
# Reading a frame

`ReadPrefixed` of `common.go`: the packet of a TCP client, or of a server over TCP, is
preceded by its length and arrives in pieces that the network chooses. The buffer has room
for the largest packet, and every access to it is checked.

* `frameOf` — what a stream of bytes yields, however it is cut;
* `Received.turn` — one `Read`: the buffer holds the beginning of the stream;
* `readPrefixed_eq` — the loop returns what the stream yields, on every cut.

A frame of `MaxDNSPacketSize` bytes, which `validateQuery` admits and `PrefixWithSize`
makes, is too large for `ReadPrefixed`.
-/

namespace DnscryptProxy

open Base List

/-! ## The loop -/

/-- A connection: the pieces that are still to arrive, and the error at their end. -/
structure Conn where
  pieces : List Bytes
  err : GoError
deriving Repr, DecidableEq

/-- `conn.Read` into a buffer with room for `room` bytes. What does not fit waits for the
next call. -/
def Conn.read (conn : Conn) (room : Nat) : Except GoError (Bytes × Conn) :=
  match conn.pieces with
  | [] => .error conn.err
  | piece :: rest =>
    if piece.length ≤ room then .ok (piece, { conn with pieces := rest })
    else .ok (piece.take room, { conn with pieces := piece.drop room :: rest })

/-- The variables of the loop; `packetLength` is `none` for -1. -/
structure ReadState where
  buf : Bytes
  pos : Nat
  packetLength : Option Nat
  conn : Conn
deriving Repr, DecidableEq

/-- The length of the packet, once its two bytes are there. -/
def ReadState.readLength (s : ReadState) : GoCall (Option Nat) :=
  if s.pos ≥ 2 ∧ s.packetLength = none then do
    let packetLength := (← uint16 (← slice s.buf 0 2)).toNat
    if packetLength > MaxDNSPacketSize - 1 then .error (.error (.plain "Packet too large"))
    else if packetLength < MinDNSPacketSize then .error (.error (.plain "Packet too short"))
    else .ok (some packetLength)
  else .ok s.packetLength

/-- One turn of the loop: go on, or return. -/
def ReadState.turn (s : ReadState) : GoCall (ReadState ⊕ Bytes) := do
  let room ← slice s.buf s.pos s.buf.length
  let (data, conn) ← returns (s.conn.read room.length)
  let s := { s with buf := overwrite s.buf s.pos data, pos := s.pos + data.length, conn }
  match ← s.readLength with
  | none => .ok (.inl { s with packetLength := none })
  | some packetLength =>
    if s.pos ≥ 2 + packetLength then .inr <$> slice s.buf 2 (2 + packetLength)
    else .ok (.inl { s with packetLength := some packetLength })

/-- At most that many turns; `none` if the loop goes on. -/
def ReadState.loop : Nat → ReadState → Option (GoCall Bytes)
  | 0, _ => none
  | fuel + 1, s =>
    match s.turn with
    | .error halt => some (.error halt)
    | .ok (.inr packet) => some (.ok packet)
    | .ok (.inl s) => s.loop fuel

/-- The variables before the loop. -/
def ReadState.start (conn : Conn) : ReadState :=
  { buf := replicate (2 + MaxDNSPacketSize) 0, pos := 0, packetLength := none, conn }

/-- `ReadPrefixed`. No piece is empty, so a turn for every byte and one for the end of the
stream are enough. -/
def readPrefixed (conn : Conn) : Option (GoCall Bytes) :=
  (ReadState.start conn).loop (conn.pieces.flatten.length + 1)

/-! ## What a stream yields -/

/-- The length that the first two bytes declare. -/
def declaredLength (stream : Bytes) : Nat :=
  (stream.getD 0 0).toNat * 256 + (stream.getD 1 0).toNat

/-- The packet at the beginning of a stream; `err` is the error at its end. -/
def frameOf (err : GoError) (stream : Bytes) : Except GoError Bytes :=
  if stream.length < 2 then .error err
  else if declaredLength stream > MaxDNSPacketSize - 1 then .error (.plain "Packet too large")
  else if declaredLength stream < MinDNSPacketSize then .error (.plain "Packet too short")
  else if stream.length < 2 + declaredLength stream then .error err
  else .ok ((stream.drop 2).take (declaredLength stream))

/-- The buffer holds the beginning of the stream, the connection the rest. -/
structure Received (err : GoError) (stream : Bytes) (s : ReadState) : Prop where
  buf_length : s.buf.length = 2 + MaxDNSPacketSize
  pos_le : s.pos ≤ stream.length
  buf_take : s.buf.take s.pos = stream.take s.pos
  conn_eq : s.conn.pieces.flatten = stream.drop s.pos
  conn_err : s.conn.err = err
  pieces : ∀ piece ∈ s.conn.pieces, piece ≠ []

/-- The length is known as soon as two bytes are there, and there is something left to
read. -/
def Unfinished (stream : Bytes) (s : ReadState) : Prop :=
  (s.pos < 2 ∧ s.packetLength = none) ∨ (2 ≤ s.pos ∧ s.packetLength = some (declaredLength stream) ∧
      MinDNSPacketSize ≤ declaredLength stream ∧ declaredLength stream < MaxDNSPacketSize ∧
      s.pos < 2 + declaredLength stream)

section Turn

variable {err : GoError} {stream : Bytes} {s : ReadState}

theorem Unfinished.pos_lt (h : Unfinished stream s) : s.pos < 2 + MaxDNSPacketSize := by
  rcases h with ⟨hPos, -⟩ | ⟨-, -, -, hMax, hPos⟩
  · exact Nat.lt_add_right _ hPos
  · omega

/-- A read brings something, and takes it off the connection. -/
theorem read_cons {conn : Conn} {room : Nat} (hRoom : 0 < room)
    (hPieces : ∀ p ∈ conn.pieces, p ≠ []) (hConn : conn.pieces ≠ []) :
    ∃ data pieces, conn.read room = .ok (data, { conn with pieces }) ∧ data ≠ [] ∧
      data.length ≤ room ∧ conn.pieces.flatten = data ++ pieces.flatten ∧
      ∀ p ∈ pieces, p ≠ [] := by
  obtain ⟨piece, rest, hEq⟩ := exists_cons_of_ne_nil hConn
  rw [hEq] at hPieces
  have hPiece : piece ≠ [] := hPieces piece mem_cons_self
  have hRest : ∀ p ∈ rest, p ≠ [] := fun p hp => hPieces p (mem_cons_of_mem _ hp)
  simp only [Conn.read, hEq]
  by_cases hFits : piece.length ≤ room
  · rw [if_pos hFits]
    exact ⟨piece, rest, rfl, hPiece, hFits, rfl, hRest⟩
  · -- the piece is longer than the room: its rest is the next piece
    rw [if_neg hFits]
    refine ⟨_, _, rfl, ?_, ?_, ?_, ?_⟩
    · rw [Ne, take_eq_nil_iff, not_or]
      exact ⟨by omega, hPiece⟩
    · rw [length_take]
      omega
    · rw [flatten_cons, flatten_cons, ← append_assoc, take_append_drop]
    · intro p hp
      rcases mem_cons.mp hp with rfl | hp
      · rw [Ne, drop_eq_nil_iff]
        omega
      · exact hRest p hp

/-- The variables after a read of `data`. -/
def ReadState.receive (s : ReadState) (data : Bytes) (pieces : List Bytes) : ReadState :=
  { s with
    buf := overwrite s.buf s.pos data
    pos := s.pos + data.length
    conn := { s.conn with pieces } }

theorem Received.receive (h : Received err stream s) {data : Bytes} {pieces : List Bytes}
    (hRoom : s.pos + data.length ≤ s.buf.length)
    (hData : s.conn.pieces.flatten = data ++ pieces.flatten) (hPieces : ∀ p ∈ pieces, p ≠ []) :
    Received err stream (s.receive data pieces) := by
  have hDrop : stream.drop s.pos = data ++ pieces.flatten := by rw [← h.conn_eq, hData]
  have hStream : stream = stream.take s.pos ++ (data ++ pieces.flatten) := by
    rw [← hDrop, take_append_drop]
  have hTake : (stream.take s.pos).length = s.pos := length_take_of_le h.pos_le
  have hEnd : (stream.take s.pos ++ data).length = s.pos + data.length := by
    rw [length_append, hTake]
  refine ⟨?_, ?_, ?_, ?_, h.conn_err, hPieces⟩
  · rw [ReadState.receive, length_overwrite hRoom, h.buf_length]
  · show s.pos + data.length ≤ stream.length
    rw [hStream, ← append_assoc, length_append, hEnd]
    exact Nat.le_add_right _ _
  · show (overwrite s.buf s.pos data).take (s.pos + data.length) = stream.take (s.pos + data.length)
    rw [overwrite, h.buf_take, take_left' hEnd]
    nth_rewrite 2 [hStream]
    rw [← append_assoc, take_left' hEnd]
  · show pieces.flatten = stream.drop (s.pos + data.length)
    rw [← drop_drop, hDrop, drop_left]

/-- The two bytes of the length, once they are in the buffer. -/
theorem Received.uint16_eq (h : Received err stream s) (hPos : 2 ≤ s.pos) :
    ∃ n : UInt16, n.toNat = declaredLength stream ∧
      (slice s.buf 0 2 >>= uint16 : GoCall UInt16) = .ok n := by
  have hBuf : s.buf.take 2 = stream.take 2 := by
    have hTwice := congrArg (take 2) h.buf_take
    rwa [take_take, take_take, min_eq_left hPos] at hTwice
  have hLen : 2 ≤ s.buf.length := by
    rw [h.buf_length]
    exact Nat.le_add_right _ _
  have hStream : 2 ≤ stream.length := hPos.trans h.pos_le
  match stream, hStream with
  | hi :: lo :: rest, _ =>
    refine ⟨UInt16.ofNat (hi.toNat * 256 + lo.toNat), ?_, ?_⟩
    · have hHi := hi.toNat_lt
      have hLo := lo.toNat_lt
      show (hi.toNat * 256 + lo.toNat) % 2 ^ 16 = hi.toNat * 256 + lo.toNat
      omega
    · rw [slice_eq (Nat.zero_le _) hLen, hBuf, ok_bind]
      rfl

/-- What the loop knows of the length after a read. -/
theorem Received.readLength_eq (h : Received err stream s)
    (hKnown : s.packetLength = none ∨ (2 ≤ s.pos ∧ s.packetLength = some (declaredLength stream) ∧
      MinDNSPacketSize ≤ declaredLength stream ∧ declaredLength stream < MaxDNSPacketSize)) :
    s.readLength = if s.pos < 2 then .ok none
      else if declaredLength stream > MaxDNSPacketSize - 1 then
        .error (.error (.plain "Packet too large"))
      else if declaredLength stream < MinDNSPacketSize then
        .error (.error (.plain "Packet too short"))
      else .ok (some (declaredLength stream)) := by
  unfold ReadState.readLength
  rcases hKnown with hNone | ⟨hPos, hSome, hMin, hMax⟩
  · by_cases hPos : s.pos < 2
    · rw [if_neg (by omega), if_pos hPos, hNone]
    · -- the first two bytes are there and were not read before
      obtain ⟨n, hn, hRead⟩ := h.uint16_eq (by omega)
      rw [if_pos ⟨by omega, hNone⟩, if_neg hPos, ← hn, ← bind_assoc, hRead]
      rfl
  · rw [if_neg (by simp [hSome]), if_neg (by omega), if_neg (by omega), if_neg (by omega), hSome]

/-- What a turn does after its read. -/
def ReadState.afterRead (s : ReadState) : GoCall (ReadState ⊕ Bytes) := do
  match ← s.readLength with
  | none => .ok (.inl { s with packetLength := none })
  | some packetLength =>
    if s.pos ≥ 2 + packetLength then .inr <$> slice s.buf 2 (2 + packetLength)
    else .ok (.inl { s with packetLength := some packetLength })

theorem turn_of_read {data : Bytes} {pieces : List Bytes} (hPos : s.pos ≤ s.buf.length)
    (hRead : s.conn.read (s.buf.length - s.pos) = .ok (data, { s.conn with pieces })) :
    s.turn = (s.receive data pieces).afterRead := by
  rw [ReadState.turn, slice_eq hPos (le_refl _), ok_bind, take_length, length_drop, hRead]
  rfl

theorem turn_of_end (hPos : s.pos ≤ s.buf.length) (hEnd : s.conn.pieces = []) :
    s.turn = .error (.error s.conn.err) := by
  rw [ReadState.turn, slice_eq hPos (le_refl _), ok_bind, Conn.read, hEnd]
  rfl

/-- A turn returns what the stream yields, or goes on with less than `n` bytes to come. -/
inductive TurnResult (err : GoError) (stream : Bytes) (n : Nat) :
    GoCall (ReadState ⊕ Bytes) → Prop where
  | more {s : ReadState} (received : Received err stream s) (unfinished : Unfinished stream s)
      (shorter : s.conn.pieces.flatten.length < n) : TurnResult err stream n (.ok (.inl s))
  | packet {packet : Bytes} (eq : frameOf err stream = .ok packet) :
      TurnResult err stream n (.ok (.inr packet))
  | error {e : GoError} (eq : frameOf err stream = .error e) :
      TurnResult err stream n (.error (.error e))

theorem Received.afterRead (h : Received err stream s)
    (hKnown : s.packetLength = none ∨ (2 ≤ s.pos ∧ s.packetLength = some (declaredLength stream) ∧
      MinDNSPacketSize ≤ declaredLength stream ∧ declaredLength stream < MaxDNSPacketSize))
    {n : Nat} (hShorter : s.conn.pieces.flatten.length < n) :
    TurnResult err stream n s.afterRead := by
  have hLen := h.pos_le
  rw [ReadState.afterRead, h.readLength_eq hKnown]
  -- the checks of `readLength` and of `frameOf` come in the same order
  by_cases hTwo : s.pos < 2
  · rw [if_pos hTwo]
    exact .more ⟨h.buf_length, h.pos_le, h.buf_take, h.conn_eq, h.conn_err, h.pieces⟩
      (.inl ⟨hTwo, rfl⟩) hShorter
  have hTwoLe : ¬ stream.length < 2 := by omega
  rw [if_neg hTwo]
  by_cases hLarge : declaredLength stream > MaxDNSPacketSize - 1
  · rw [if_pos hLarge]
    exact .error (by rw [frameOf, if_neg hTwoLe, if_pos hLarge])
  rw [if_neg hLarge]
  by_cases hShort : declaredLength stream < MinDNSPacketSize
  · rw [if_pos hShort]
    exact .error (by rw [frameOf, if_neg hTwoLe, if_neg hLarge, if_pos hShort])
  rw [if_neg hShort, ok_bind]
  have hMax : declaredLength stream < MaxDNSPacketSize := by
    unfold MaxDNSPacketSize at hLarge ⊢
    omega
  by_cases hDone : s.pos ≥ 2 + declaredLength stream
  · have hBuf : 2 + declaredLength stream ≤ s.buf.length := by
      rw [h.buf_length]
      omega
    have hTake : s.buf.take (2 + declaredLength stream) =
        stream.take (2 + declaredLength stream) := by
      have hTwice := congrArg (take (2 + declaredLength stream)) h.buf_take
      rwa [take_take, take_take, min_eq_left hDone] at hTwice
    simp only [if_pos hDone]
    rw [slice_eq (Nat.le_add_right _ _) hBuf, hTake]
    refine .packet ?_
    rw [frameOf, if_neg hTwoLe, if_neg hLarge, if_neg hShort, if_neg (by omega), drop_take,
      Nat.add_sub_cancel_left]
  · simp only [if_neg hDone]
    exact .more ⟨h.buf_length, h.pos_le, h.buf_take, h.conn_eq, h.conn_err, h.pieces⟩
      (.inr ⟨Nat.le_of_not_lt hTwo, rfl, Nat.le_of_not_lt hShort, hMax, Nat.lt_of_not_le hDone⟩)
      hShorter

theorem Received.turn (h : Received err stream s) (hMore : Unfinished stream s) :
    TurnResult err stream s.conn.pieces.flatten.length s.turn := by
  have hPos : s.pos < s.buf.length := by
    rw [h.buf_length]
    exact hMore.pos_lt
  by_cases hEnd : s.conn.pieces = []
  · -- the stream has ended before the packet has
    have hLen : stream.length ≤ s.pos := by
      have hDrop := h.conn_eq
      rw [hEnd, flatten_nil, eq_comm, drop_eq_nil_iff] at hDrop
      exact hDrop
    rw [turn_of_end (le_of_lt hPos) hEnd, h.conn_err]
    refine .error ?_
    unfold frameOf
    rcases hMore with ⟨hTwo, -⟩ | ⟨-, -, hMin, hMax, hLt⟩
    · rw [if_pos (by omega)]
    · split
      · rfl
      · rw [if_neg (by omega), if_neg (by omega), if_pos (by omega)]
  · -- a read returns at least a byte, so what is left to receive gets shorter
    obtain ⟨data, pieces, hRead, hData, hRoom, hFlat, hPieces⟩ :=
      read_cons (Nat.sub_pos_of_lt hPos) h.pieces hEnd
    have hFits : s.pos + data.length ≤ s.buf.length := by omega
    have hShorter : pieces.flatten.length < s.conn.pieces.flatten.length := by
      have := length_pos_of_ne_nil hData
      rw [hFlat, length_append]
      omega
    rw [turn_of_read (le_of_lt hPos) hRead]
    refine (h.receive hFits hFlat hPieces).afterRead ?_ hShorter
    rcases hMore with ⟨-, hNone⟩ | ⟨hTwo, hSome, hMin, hMax, -⟩
    · exact .inl hNone
    · exact .inr ⟨Nat.le_add_right_of_le hTwo, hSome, hMin, hMax⟩

theorem Received.loop_eq (h : Received err stream s) (hMore : Unfinished stream s) {fuel : Nat}
    (hFuel : s.conn.pieces.flatten.length < fuel) :
    s.loop fuel = some (returns (frameOf err stream)) := by
  induction fuel generalizing s with
  | zero => exact absurd hFuel (Nat.not_lt_zero _)
  | succ fuel ih =>
    have hTurn := h.turn hMore
    rw [ReadState.loop]
    generalize s.turn = result at hTurn
    cases hTurn with
    | more hReceived hUnfinished hShorter => exact ih hReceived hUnfinished (by omega)
    | packet hFrame => rw [hFrame]; rfl
    | error hFrame => rw [hFrame]; rfl

end Turn

/-! ## Every cut of a stream -/

section Cuts

variable {conn : Conn}

theorem received_start (hPieces : ∀ piece ∈ conn.pieces, piece ≠ []) :
    Received conn.err conn.pieces.flatten (.start conn) :=
  ⟨length_replicate, Nat.zero_le _, rfl, rfl, rfl, hPieces⟩

theorem unfinished_start (stream : Bytes) : Unfinished stream (.start conn) :=
  .inl ⟨Nat.zero_lt_two, rfl⟩

theorem readPrefixed_eq (hPieces : ∀ piece ∈ conn.pieces, piece ≠ []) :
    readPrefixed conn = some (returns (frameOf conn.err conn.pieces.flatten)) :=
  (received_start hPieces).loop_eq (unfinished_start _) (Nat.lt_succ_self _)

/-- One turn of the loop leads to the next. -/
def ReadState.GoesOn (s s' : ReadState) : Prop := s.turn = .ok (.inl s')

/-- Every read of a run has room for at least one byte. -/
theorem pos_lt_of_goesOn (hPieces : ∀ piece ∈ conn.pieces, piece ≠ []) {s : ReadState}
    (hRun : Relation.ReflTransGen ReadState.GoesOn (.start conn) s) :
    s.buf.length = 2 + MaxDNSPacketSize ∧ s.pos < s.buf.length := by
  have hInv : Received conn.err conn.pieces.flatten s ∧ Unfinished conn.pieces.flatten s := by
    induction hRun with
    | refl => exact ⟨received_start hPieces, unfinished_start _⟩
    | tail _ hStep ih =>
      have hTurn := ih.1.turn ih.2
      rw [hStep] at hTurn
      cases hTurn with
      | more hReceived hUnfinished _ => exact ⟨hReceived, hUnfinished⟩
  refine ⟨hInv.1.buf_length, ?_⟩
  rw [hInv.1.buf_length]
  exact hInv.2.pos_lt

end Cuts

/-! ## Frames -/

theorem declaredLength_putUint16 {n : Nat} (hn : n < 65536) (rest : Bytes) :
    declaredLength (putUint16 n ++ rest) = n := by
  show (UInt8.ofNat (n / 256)).toNat * 256 + (UInt8.ofNat n).toNat = n
  rw [UInt8.toNat_ofNat', UInt8.toNat_ofNat']
  omega

theorem frameOf_frame (err : GoError) {packet : Bytes} (hMin : MinDNSPacketSize ≤ packet.length)
    (hMax : packet.length ≤ MaxDNSPacketSize) (more : Bytes) :
    frameOf err (putUint16 packet.length ++ packet ++ more) =
      if packet.length = MaxDNSPacketSize then .error (.plain "Packet too large")
      else .ok packet := by
  have hLength : (putUint16 packet.length ++ packet ++ more).length =
      2 + packet.length + more.length := by
    rw [length_append, length_append, length_putUint16]
  have hDeclared : declaredLength (putUint16 packet.length ++ packet ++ more) = packet.length := by
    rw [append_assoc, declaredLength_putUint16]
    exact lt_of_le_of_lt hMax (by decide)
  have hPacket : ((putUint16 packet.length ++ packet ++ more).drop 2).take packet.length =
      packet := by
    rw [append_assoc, drop_left' (length_putUint16 _), take_left]
  unfold MaxDNSPacketSize at hMax ⊢
  rw [frameOf, hDeclared, hLength, hPacket, if_neg (by omega)]
  unfold MaxDNSPacketSize
  by_cases hFull : packet.length = 4096
  · rw [if_pos hFull, if_pos (by omega)]
  · rw [if_neg hFull, if_neg (by omega), if_neg (by omega), if_neg (by omega)]

/-- `ReadPrefixed` gives back the packet that `PrefixWithSize` framed, however the stream
is cut and whatever follows. -/
def ReadsBack (growth : Growth) (h : Heap UInt8) (s : Slice) : Prop :=
  ∃ h' frame, prefixWithSize growth h s = (h', .ok frame) ∧
    ∀ (conn : Conn) (more : Bytes), (∀ piece ∈ conn.pieces, piece ≠ []) →
      conn.pieces.flatten = h'.read frame ++ more → readPrefixed conn = some (.ok (h.read s))

theorem validateQuery_iff {query : Bytes} : validateQuery query = true ↔
    MinDNSPacketSize ≤ query.length ∧ query.length ≤ MaxDNSPacketSize := by
  unfold validateQuery
  split
  · simp
    omega
  · split
    · simp
      omega
    · simp
      omega

theorem readsBack_iff (growth : Growth) {h : Heap UInt8} {s : Slice} (hs : h.Valid s)
    (hQuery : validateQuery (h.read s) = true) :
    ReadsBack growth h s ↔ (h.read s).length ≠ MaxDNSPacketSize := by
  obtain ⟨hMin, hMax⟩ := validateQuery_iff.mp hQuery
  have hRead := hs.length_read
  obtain ⟨h', frame, hFrame, hBytes⟩ := prefixWithSize_read growth hs (by
    rw [← hRead]
    exact hMax.trans (by decide))
  rw [← hRead] at hBytes
  have hReads : ∀ (conn : Conn) (more : Bytes), (∀ piece ∈ conn.pieces, piece ≠ []) →
      conn.pieces.flatten = h'.read frame ++ more →
      readPrefixed conn = some (returns (if (h.read s).length = MaxDNSPacketSize then
        .error (.plain "Packet too large") else .ok (h.read s))) := by
    intro conn more hPieces hStream
    rw [readPrefixed_eq hPieces, hStream, hBytes, frameOf_frame _ hMin hMax]
  constructor
  · rintro ⟨h'', frame', hFrame', hBack⟩ hFull
    obtain ⟨rfl, hOk⟩ := Prod.mk.inj (hFrame'.symm.trans hFrame)
    obtain rfl := Except.ok.inj hOk
    -- the frame in one piece, and nothing behind it
    have hPieces : ∀ piece ∈ [h''.read frame'], piece ≠ [] := by
      intro piece hPiece
      rw [mem_singleton.mp hPiece, hBytes]
      exact cons_ne_nil _ _
    have hOne := hBack ⟨[h''.read frame'], .plain "EOF"⟩ [] hPieces (by simp)
    rw [hReads ⟨[h''.read frame'], .plain "EOF"⟩ [] hPieces (by simp), if_pos hFull] at hOne
    cases hOne
  · intro hNotFull
    refine ⟨h', frame, hFrame, fun conn more hPieces hStream => ?_⟩
    rw [hReads conn more hPieces hStream, if_neg hNotFull]
    rfl

/-- A length that `validateQuery` would not admit ends the reading. -/
theorem readPrefixed_outside {conn : Conn} (hPieces : ∀ piece ∈ conn.pieces, piece ≠ [])
    (hTwo : 2 ≤ conn.pieces.flatten.length)
    (hOutside : declaredLength conn.pieces.flatten < MinDNSPacketSize ∨
      MaxDNSPacketSize < declaredLength conn.pieces.flatten) :
    ∃ err, readPrefixed conn = some (.error (.error err)) := by
  rw [readPrefixed_eq hPieces, frameOf, if_neg (by omega)]
  split
  · exact ⟨_, rfl⟩
  · rw [if_pos (by omega)]
    exact ⟨_, rfl⟩

/-- Packets that `validateQuery` admits are read back, except those of the largest size;
and a length outside of its range ends the reading with an error, inside the buffer. -/
theorem tcp_framing (growth : Growth) {h : Heap UInt8} {s : Slice} (hs : h.Valid s)
    (hQuery : validateQuery (h.read s) = true) :
    (ReadsBack growth h s ↔ (h.read s).length ≠ MaxDNSPacketSize) ∧
    ∀ conn : Conn, (∀ piece ∈ conn.pieces, piece ≠ []) → (2 ≤ conn.pieces.flatten.length →
        declaredLength conn.pieces.flatten < MinDNSPacketSize ∨
          MaxDNSPacketSize < declaredLength conn.pieces.flatten →
        ∃ err, readPrefixed conn = some (.error (.error err))) ∧
      ∀ s, Relation.ReflTransGen ReadState.GoesOn (.start conn) s →
        s.buf.length = 2 + MaxDNSPacketSize ∧ s.pos < s.buf.length :=
  ⟨readsBack_iff growth hs hQuery,
    fun _ hPieces => ⟨readPrefixed_outside hPieces, fun _ => pos_lt_of_goesOn hPieces⟩⟩

section Boundary

/-- A heap with a packet of `n` zeros. -/
def zerosHeap (n : Nat) : Heap UInt8 := ⟨[replicate n 0]⟩

def zerosSlice (n : Nat) : Slice := { arr := 0, off := 0, len := n, cap := n }

theorem zeros_valid (n : Nat) : (zerosHeap n).Valid (zerosSlice n) :=
  ⟨zero_lt_one, le_refl _, by simp [zerosHeap, zerosSlice, Heap.array]⟩

theorem read_zeros (n : Nat) : (zerosHeap n).read (zerosSlice n) = replicate n 0 := by
  simp [zerosHeap, zerosSlice, Heap.array, Heap.read]

theorem validateQuery_zeros {n : Nat} (hMin : MinDNSPacketSize ≤ n) (hMax : n ≤ MaxDNSPacketSize) :
    validateQuery ((zerosHeap n).read (zerosSlice n)) = true := by
  rw [validateQuery_iff, read_zeros, length_replicate]
  exact ⟨hMin, hMax⟩

theorem tcp_framing_below : ReadsBack exactGrowth (zerosHeap 4095) (zerosSlice 4095) := by
  refine (tcp_framing exactGrowth (zeros_valid 4095)
    (validateQuery_zeros (by decide) (by decide))).1.mpr ?_
  rw [read_zeros, length_replicate]
  decide

/-- A query of 4096 bytes is valid, and its frame is not read. -/
theorem largest_frame_refused :
    validateQuery ((zerosHeap 4096).read (zerosSlice 4096)) = true ∧
      ¬ ReadsBack exactGrowth (zerosHeap 4096) (zerosSlice 4096) ∧
      readPrefixed ⟨[putUint16 4096 ++ replicate 4096 0], .plain "EOF"⟩ =
        some (.error (.error (.plain "Packet too large"))) := by
  have hQuery : validateQuery ((zerosHeap 4096).read (zerosSlice 4096)) = true :=
    validateQuery_zeros (by decide) (by decide)
  refine ⟨hQuery, ?_, ?_⟩
  · rw [readsBack_iff exactGrowth (zeros_valid 4096) hQuery, read_zeros, length_replicate]
    decide
  · have hLength : (replicate 4096 (0 : UInt8)).length = 4096 := length_replicate
    generalize replicate 4096 (0 : UInt8) = packet at hLength
    have hMin : MinDNSPacketSize ≤ packet.length := by
      rw [hLength]
      decide
    have hMax : packet.length ≤ MaxDNSPacketSize := le_of_eq hLength
    have hFrame := frameOf_frame (.plain "EOF") hMin hMax []
    rw [append_nil, hLength, if_pos (by decide)] at hFrame
    rw [readPrefixed_eq (by simp [putUint16]), flatten_singleton, hFrame]
    rfl

end Boundary

end DnscryptProxy
