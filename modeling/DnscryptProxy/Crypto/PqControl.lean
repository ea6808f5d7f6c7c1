import DnscryptProxy.Crypto.Pq

/-!
# The control block of a response

`pqStripControl` and `pqProcessControl` read a block that the resolver made, inside the
plaintext of an authenticated response: a length, the block, and in the block again a length
and a ticket. Here with every access checked.

* `controlTicket_eq_some` — which blocks carry a ticket that is kept;
* `pqStripControlAt_eq` — the checked accesses are in range, on any plaintext;
* `get_storeTicket` — what the session hands out after a ticket was kept.
-/

namespace DnscryptProxy

open Base List

/-! ## With checked accesses -/

/-- The control block of a response, and the body behind it. -/
def splitControlAt (plaintext : Bytes) : GoCall (Bytes × Bytes) :=
  if plaintext.length < 2 then .error (.error (.plain "PQ response too short"))
  else do
    let controlLen := bigEndian (← slice plaintext 0 2)
    if 2 + controlLen > plaintext.length then
      .error (.error (.plain "PQ control block overflows response"))
    else
      let control ← slice plaintext 2 (2 + controlLen)
      let body ← slice plaintext (2 + controlLen) plaintext.length
      return (control, body)

/-- What `pqProcessControl` reads from a control block, up to its look at the epoch. -/
def controlTicketAt (control : Bytes) : GoCall (Option PqTicket) :=
  if control.length < 11 then .ok none
  else do
    if (← slice control 0 4) ≠ PQControlMagic ∨ (← index control 4) ≠ PQControlVersion then
      return none
    else
      let lifetime := bigEndian (← slice control 5 9)
      let ticketLen := bigEndian (← slice control 9 11)
      if 11 + ticketLen > control.length then return none
      else
        let ticket ← slice control 11 (11 + ticketLen)
        if pqResumedOverhead ticket.length + PQResumedPaddingFloor > MaxDNSUDPPacketSize then
          return none
        else return some { lifetime := lifetime, ticket := ticket }

section Checked

variable (prim : PqPrimitives) (server : PqServer)

variable (sharedKey clientNonce plaintext : Bytes) (queryEpoch networkEpoch : UInt64) (now : Time)
  (session : PqSessionState)

/-- `pqStripControl`: the session it leaves, and what it returns. -/
def pqStripControlAt : PqSessionState × GoCall Bytes :=
  match splitControlAt plaintext with
  | .error halt => (session, .error halt)
  | .ok (control, body) =>
    if control = [] then (session, .ok body)
    else
      match controlTicketAt control with
      | .error halt => (session, .error halt)
      | .ok none => (session, .ok body)
      | .ok (some t) =>
        if queryEpoch ≠ networkEpoch then (session, .ok body)
        else (storeTicket prim server sharedKey clientNonce queryEpoch now t session, .ok body)

theorem slice_eq_subBytes {b : Bytes} {i j : Nat} (hOrder : i ≤ j) (hEnd : j ≤ b.length) :
    (slice b i j : GoCall Bytes) = .ok (subBytes b i j) :=
  slice_eq hOrder hEnd

theorem splitControlAt_eq (plaintext : Bytes) :
    splitControlAt plaintext = returns (splitControl plaintext) := by
  unfold splitControlAt splitControl
  by_cases hShort : plaintext.length < 2
  · rw [if_pos hShort, if_pos hShort]
    rfl
  rw [if_neg hShort, if_neg hShort, slice_eq_subBytes (by omega) (by omega), ok_bind]
  by_cases hBeyond : 2 + bigEndian (subBytes plaintext 0 2) > plaintext.length
  · rw [if_pos hBeyond, if_pos hBeyond]
    rfl
  · have hInside := Nat.le_of_not_lt hBeyond
    rw [if_neg hBeyond, if_neg hBeyond, slice_eq_subBytes (Nat.le_add_right _ _) hInside, ok_bind,
      slice_eq hInside (Nat.le_refl _), ok_bind, take_length]
    rfl

theorem controlTicketAt_eq (control : Bytes) :
    controlTicketAt control = .ok (controlTicket control) := by
  unfold controlTicketAt controlTicket
  by_cases hShort : control.length < 11
  · rw [if_pos hShort, if_pos hShort]
  have hVersion : control[4]? = some (control.getD 4 0) := by
    rw [getD_eq_getElem?_getD, getElem?_eq_getElem (by omega)]
    rfl
  rw [if_neg hShort, if_neg hShort, slice_eq_subBytes (by omega) (by omega), ok_bind,
    index_eq hVersion, ok_bind]
  by_cases hForm : subBytes control 0 4 ≠ PQControlMagic ∨ control.getD 4 0 ≠ PQControlVersion
  · rw [if_pos hForm, if_pos hForm]
    rfl
  rw [if_neg hForm, if_neg hForm, slice_eq_subBytes (by omega) (by omega), ok_bind,
    slice_eq_subBytes (by omega) (by omega), ok_bind]
  dsimp only
  by_cases hBeyond : 11 + bigEndian (subBytes control 9 11) > control.length
  · rw [if_pos hBeyond, if_pos hBeyond]
    rfl
  · rw [if_neg hBeyond, if_neg hBeyond,
      slice_eq_subBytes (Nat.le_add_right _ _) (Nat.le_of_not_lt hBeyond), ok_bind]
    split <;> rfl

theorem pqStripControlAt_eq :
    pqStripControlAt prim server sharedKey clientNonce plaintext queryEpoch networkEpoch now
        session =
      ((pqStripControl prim server sharedKey clientNonce plaintext queryEpoch networkEpoch now
          session).1,
        returns (pqStripControl prim server sharedKey clientNonce plaintext queryEpoch networkEpoch
          now session).2) := by
  unfold pqStripControlAt pqStripControl pqProcessControl
  rw [splitControlAt_eq]
  cases splitControl plaintext with
  | error err => rfl
  | ok parts =>
    obtain ⟨control, body⟩ := parts
    show (if control = [] then _ else _) = _
    rw [controlTicketAt_eq]
    dsimp only
    split
    · rfl
    · cases controlTicket control with
      | none => rfl
      | some t =>
        dsimp only
        split <;> rfl

end Checked

/-! ## Blocks -/

/-- `binary.BigEndian.PutUint32`. -/
def putUint32 (n : Nat) : Bytes :=
  [UInt8.ofNat (n / 2 ^ 24), UInt8.ofNat (n / 2 ^ 16), UInt8.ofNat (n / 2 ^ 8), UInt8.ofNat n]

/-- A control block with a ticket, and `trailing` bytes behind it. -/
def controlBlock (lifetime : Nat) (ticket trailing : Bytes) : Bytes :=
  PQControlMagic ++ PQControlVersion :: (putUint32 lifetime ++ (putUint16 ticket.length ++
    (ticket ++ trailing)))

/-- A plaintext with that control block and that body. -/
def controlPlaintext (control body : Bytes) : Bytes := putUint16 control.length ++ (control ++ body)

/-- A ticket that fits into a resumed datagram. -/
def FitsDatagram (ticket : Bytes) : Prop :=
  pqResumedOverhead ticket.length + PQResumedPaddingFloor ≤ MaxDNSUDPPacketSize

section Blocks

theorem bigEndian_putUint16 {n : Nat} (hn : n < 2 ^ 16) : bigEndian (putUint16 n) = n := by
  show 256 * (256 * 0 + (UInt8.ofNat (n / 256)).toNat) + (UInt8.ofNat n).toNat = n
  rw [UInt8.toNat_ofNat', UInt8.toNat_ofNat']
  omega

theorem bigEndian_putUint32 {n : Nat} (hn : n < 2 ^ 32) : bigEndian (putUint32 n) = n := by
  show 256 * (256 * (256 * (256 * 0 + (UInt8.ofNat (n / 2 ^ 24)).toNat) +
    (UInt8.ofNat (n / 2 ^ 16)).toNat) + (UInt8.ofNat (n / 2 ^ 8)).toNat) + (UInt8.ofNat n).toNat = n
  rw [UInt8.toNat_ofNat', UInt8.toNat_ofNat', UInt8.toNat_ofNat', UInt8.toNat_ofNat']
  omega

/-- A byte of a number, which is the number shifted down to it. -/
theorem ofNat_eq_of_mod {n : Nat} {x : UInt8} (h : n % 256 = x.toNat) : UInt8.ofNat n = x := by
  apply UInt8.toNat_inj.mp
  exact h

theorem putUint16_bigEndian (a b : UInt8) :
    bigEndian [a, b] < 2 ^ 16 ∧ putUint16 (bigEndian [a, b]) = [a, b] := by
  have ha := a.toNat_lt
  have hb := b.toNat_lt
  have hNat : bigEndian [a, b] = 256 * a.toNat + b.toNat := by simp [bigEndian]
  rw [hNat, putUint16, ofNat_eq_of_mod (x := a) (by omega), ofNat_eq_of_mod (x := b) (by omega)]
  exact ⟨by omega, rfl⟩

theorem putUint32_bigEndian (a b c d : UInt8) :
    bigEndian [a, b, c, d] < 2 ^ 32 ∧ putUint32 (bigEndian [a, b, c, d]) = [a, b, c, d] := by
  have ha := a.toNat_lt
  have hb := b.toNat_lt
  have hc := c.toNat_lt
  have hd := d.toNat_lt
  have hNat : bigEndian [a, b, c, d] =
      256 * (256 * (256 * a.toNat + b.toNat) + c.toNat) + d.toNat := by
    simp [bigEndian]
  rw [hNat, putUint32, ofNat_eq_of_mod (x := a) (by omega), ofNat_eq_of_mod (x := b) (by omega),
    ofNat_eq_of_mod (x := c) (by omega), ofNat_eq_of_mod (x := d) (by omega)]
  exact ⟨by omega, rfl⟩

/-- The fields of a control block. -/
theorem exists_fields {control : Bytes} (h : 11 ≤ control.length) :
    ∃ m₁ m₂ m₃ m₄ v l₁ l₂ l₃ l₄ n₁ n₂ rest,
      control = m₁ :: m₂ :: m₃ :: m₄ :: v :: l₁ :: l₂ :: l₃ :: l₄ :: n₁ :: n₂ :: rest := by
  match control, h with
  | m₁ :: m₂ :: m₃ :: m₄ :: v :: l₁ :: l₂ :: l₃ :: l₄ :: n₁ :: n₂ :: rest, _ =>
    exact ⟨m₁, m₂, m₃, m₄, v, l₁, l₂, l₃, l₄, n₁, n₂, rest, rfl⟩

theorem subBytes_append (pre rest : Bytes) (n : Nat) :
    subBytes (pre ++ rest) pre.length (pre.length + n) = rest.take n := by
  rw [subBytes, take_length_add_append, drop_left]

theorem FitsDatagram.length_lt {ticket : Bytes} (h : FitsDatagram ticket) :
    ticket.length < 2 ^ 16 := by
  have hLe := Nat.le_trans (Nat.le_add_right _ _) h
  unfold pqResumedOverhead MaxDNSUDPPacketSize at hLe
  omega

theorem controlTicket_controlBlock {lifetime : Nat} (hLifetime : lifetime < 2 ^ 32) {ticket : Bytes}
    (hFits : FitsDatagram ticket) (trailing : Bytes) :
    controlTicket (controlBlock lifetime ticket trailing) = some { lifetime, ticket } := by
  have hCount : bigEndian (subBytes (controlBlock lifetime ticket trailing) 9 11) =
      ticket.length := bigEndian_putUint16 hFits.length_lt
  have hSeconds : bigEndian (subBytes (controlBlock lifetime ticket trailing) 5 9) = lifetime :=
    bigEndian_putUint32 hLifetime
  have hTicket : subBytes (controlBlock lifetime ticket trailing) 11 (11 + ticket.length) =
      ticket := by
    have hAppend := subBytes_append (PQControlMagic ++ PQControlVersion :: (putUint32 lifetime ++
      putUint16 ticket.length)) (ticket ++ trailing) ticket.length
    rw [take_left] at hAppend
    exact hAppend
  have hLength : (controlBlock lifetime ticket trailing).length =
      11 + (ticket.length + trailing.length) := by
    rw [← length_append, add_comm]
    rfl
  unfold controlTicket
  dsimp only
  rw [hCount, hSeconds, hTicket, hLength, if_neg (by omega), if_neg, if_neg (by omega),
    if_neg (not_lt.mpr hFits)]
  rintro (hMagic | hVersion)
  · exact hMagic rfl
  · exact hVersion rfl

theorem controlTicket_eq_some {control : Bytes} {t : PqTicket} :
    controlTicket control = some t ↔ t.lifetime < 2 ^ 32 ∧ FitsDatagram t.ticket ∧
        ∃ trailing, control = controlBlock t.lifetime t.ticket trailing := by
  constructor
  · intro h
    unfold controlTicket at h
    simp only [Option.ite_none_left_eq_some, not_or, not_not, not_lt] at h
    obtain ⟨hLong, ⟨hMagic, hVersion⟩, hInside, hFits, hTicket⟩ := h
    -- name the bytes of the fields, so that each field of the block is read back
    obtain ⟨m₁, m₂, m₃, m₄, v, l₁, l₂, l₃, l₄, n₁, n₂, rest, rfl⟩ := exists_fields hLong
    have hVersion : v = PQControlVersion := hVersion
    obtain ⟨hSeconds, hPutSeconds⟩ := putUint32_bigEndian l₁ l₂ l₃ l₄
    obtain ⟨hCount, hPutCount⟩ := putUint16_bigEndian n₁ n₂
    have hCountLe : bigEndian [n₁, n₂] ≤ rest.length := by
      have hLe : 11 + bigEndian [n₁, n₂] ≤ rest.length + 11 := hInside
      omega
    have hRest : subBytes (m₁ :: m₂ :: m₃ :: m₄ :: v :: l₁ :: l₂ :: l₃ :: l₄ :: n₁ :: n₂ :: rest) 11
        (11 + bigEndian [n₁, n₂]) = rest.take (bigEndian [n₁, n₂]) :=
      subBytes_append [m₁, m₂, m₃, m₄, v, l₁, l₂, l₃, l₄, n₁, n₂] rest _
    obtain rfl : PqTicket.mk (bigEndian [l₁, l₂, l₃, l₄]) (rest.take (bigEndian [n₁, n₂])) = t := by
      rw [← hRest]
      exact Option.some.inj hTicket
    refine ⟨hSeconds, ?_, rest.drop (bigEndian [n₁, n₂]), ?_⟩
    · rw [FitsDatagram, ← hRest]
      exact hFits
    · rw [controlBlock, length_take_of_le hCountLe, hPutSeconds, hPutCount, ← hMagic, hVersion,
        take_append_drop]
      rfl
  · rintro ⟨hLifetime, hFits, trailing, rfl⟩
    exact controlTicket_controlBlock hLifetime hFits trailing

/-- A plaintext is too short, or it is cut where its length says. -/
theorem splitControl_cases (plaintext : Bytes) :
    ((plaintext.length < 2 ∨ plaintext.length < 2 + bigEndian (plaintext.take 2)) ∧
      ∃ err, splitControl plaintext = .error err) ∨
    ∃ control body, control.length < 2 ^ 16 ∧ plaintext = controlPlaintext control body ∧
      splitControl plaintext = .ok (control, body) := by
  rcases plaintext with _ | ⟨a, _ | ⟨b, rest⟩⟩
  · exact .inl ⟨.inl Nat.zero_lt_two, _, rfl⟩
  · exact .inl ⟨.inl Nat.one_lt_two, _, rfl⟩
  · obtain ⟨hCount, hPutCount⟩ := putUint16_bigEndian a b
    have hLong : ¬ (a :: b :: rest).length < 2 := by simp
    have hTwo : subBytes (a :: b :: rest) 0 2 = [a, b] := rfl
    unfold splitControl
    rw [if_neg hLong, hTwo]
    by_cases hBeyond : 2 + bigEndian [a, b] > (a :: b :: rest).length
    · rw [if_pos hBeyond]
      exact .inl ⟨.inr hBeyond, _, rfl⟩
    · have hInside : bigEndian [a, b] ≤ rest.length := by
        simp only [length_cons] at hBeyond
        omega
      have hControl : subBytes (a :: b :: rest) 2 (2 + bigEndian [a, b]) =
          rest.take (bigEndian [a, b]) := subBytes_append [a, b] rest _
      have hBody : (a :: b :: rest).drop (2 + bigEndian [a, b]) = rest.drop (bigEndian [a, b]) := by
        rw [← drop_drop]
        rfl
      rw [if_neg hBeyond, hControl, hBody]
      refine .inr ⟨_, _, ?_, ?_, rfl⟩
      · rwa [length_take_of_le hInside]
      · rw [controlPlaintext, length_take_of_le hInside, hPutCount, take_append_drop]
        rfl

end Blocks

/-! ## The session -/

theorem get_storeTicket (prim : PqPrimitives) (server : PqServer) (sharedKey clientNonce : Bytes)
    (queryEpoch : UInt64) {now later : Time} {t : PqTicket}
    (hLater : later < now + t.lifetime * Second) (session : PqSessionState) :
    ((storeTicket prim server sharedKey clientNonce queryEpoch now t session).get later
        queryEpoch).2 =
      if t.ticket = [] then none
      else some (t.ticket, pqResumeSecret prim sharedKey server.magicQuery clientNonce) := by
  unfold storeTicket PqSessionState.store PqSessionState.get copyOrNil
  by_cases hEmpty : t.ticket = []
  · rw [if_pos hEmpty, if_pos hEmpty]
  · rw [if_neg hEmpty, if_neg hEmpty]
    dsimp only
    rw [if_neg (not_not.mpr hLater), if_neg (not_not.mpr rfl)]

/-- `pqStripControl` fails on a plaintext that is too short, with the session as it was. On any
other it returns the body, and keeps a ticket only if the block carries one in its form, it
fits, and the epoch is that of the query; then the session hands out this ticket until it
expires. -/
theorem pq_control_block (prim : PqPrimitives) (server : PqServer)
    (sharedKey clientNonce plaintext : Bytes) (queryEpoch networkEpoch : UInt64) (now : Time)
    (session : PqSessionState) :
    ∃ left result, pqStripControlAt prim server sharedKey clientNonce plaintext queryEpoch
        networkEpoch now session = (left, result) ∧
      ((plaintext.length < 2 ∨ plaintext.length < 2 + bigEndian (plaintext.take 2)) ∧
        left = session ∧ (∃ err, result = .error (.error err)) ∨
      ∃ control body, control.length < 2 ^ 16 ∧ plaintext = controlPlaintext control body ∧
        result = .ok body ∧
        (left ≠ session → queryEpoch = networkEpoch ∧ ∃ lifetime ticket trailing,
          lifetime < 2 ^ 32 ∧ FitsDatagram ticket ∧
            control = controlBlock lifetime ticket trailing) ∧
        ∀ lifetime ticket trailing, lifetime < 2 ^ 32 → FitsDatagram ticket →
          control = controlBlock lifetime ticket trailing → queryEpoch = networkEpoch →
          ∀ later < now + lifetime * Second, (left.get later queryEpoch).2 =
            if ticket = [] then none
            else some (ticket, pqResumeSecret prim sharedKey server.magicQuery clientNonce)) := by
  refine ⟨_, _, pqStripControlAt_eq .., ?_⟩
  unfold pqStripControl
  rcases splitControl_cases plaintext with
    ⟨hShort, err, hErr⟩ | ⟨control, body, hControl, hPlain, hOk⟩
  · rw [hErr]
    exact .inl ⟨hShort, rfl, err, rfl⟩
  · rw [hOk]
    refine .inr ⟨control, body, hControl, hPlain, rfl, ?_, ?_⟩
    · -- a change needs every check on the way to `storeTicket` to pass
      dsimp only
      intro hChanged
      split at hChanged
      · exact absurd rfl hChanged
      · unfold pqProcessControl at hChanged
        split at hChanged
        · exact absurd rfl hChanged
        · next t hTicket =>
          obtain ⟨hLifetime, hFits, trailing, hBlock⟩ := controlTicket_eq_some.mp hTicket
          split at hChanged
          · exact absurd rfl hChanged
          · next hEpoch =>
            exact ⟨not_not.mp hEpoch, t.lifetime, t.ticket, trailing, hLifetime, hFits, hBlock⟩
    · intro lifetime ticket trailing hLifetime hFits hBlock hEpoch later hLater
      dsimp only
      have hNonempty : control ≠ [] := by
        rw [hBlock]
        exact cons_ne_nil _ _
      rw [if_neg hNonempty, pqProcessControl, hBlock, controlTicket_controlBlock hLifetime hFits]
      dsimp only
      rw [if_neg (not_not.mpr hEpoch)]
      exact get_storeTicket prim server sharedKey clientNonce queryEpoch
        (t := { lifetime, ticket }) hLater session

end DnscryptProxy
