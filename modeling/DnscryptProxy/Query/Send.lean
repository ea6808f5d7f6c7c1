import DnscryptProxy.Base.Slice
import DnscryptProxy.Dns.Wire
import DnscryptProxy.Query.Feedback

/-!
# Sending a response

`PrefixWithSize` and `sendResponse`, over a heap of byte arrays. The caller of
`sendResponse` keeps its own slice of the response and classifies it in the
deferred `observeOutcome`, so what `sendResponse` writes in place matters.

* `prefixWithSize_read` — the framed packet is right in any case;
* `prefixWithSize_read_original` — with two spare bytes behind the packet, the
  original slice afterwards shows the frame, cut to the old length;
* `sendResponse_keeps_response_iff` — when the caller still sees the bytes it
  passed;
* `servfail_lost_over_tcp` — a SERVFAIL that is counted for a UDP client and
  not for a TCP client.
-/

namespace DnscryptProxy

universe u

open Base List Heap

/-! ## Framing -/

def prefixWithSize (growth : Growth) (h : Heap UInt8) (packet : Slice) :
    Heap UInt8 × Except GoError Slice :=
  if packet.len > 0xffff then (h, .error (.plain "Packet too large"))
  else
    -- `append(packet, 0, 0)`, then the packet moves up and its size goes in front
    let (h, packet) := h.append growth packet 0
    let (h, packet) := h.append growth packet 0
    let h := h.copy (packet.dropFirst 2) (packet.keepFirst (packet.len - 2))
    let h := h.store packet.arr packet.off (putUint16 (packet.len - 2))
    (h, .ok packet)

section Framing

variable (growth : Growth) {h : Heap UInt8} {s : Slice}

/-- The heap and the slice after the two appends. -/
def appendTwo (growth : Growth) (h : Heap UInt8) (s : Slice) : Heap UInt8 × Slice :=
  (h.append growth s 0).1.append growth (h.append growth s 0).2 0

theorem prefixWithSize_eq (hSize : s.len ≤ 0xffff) :
    prefixWithSize growth h s =
      ((((appendTwo growth h s).1.copy ((appendTwo growth h s).2.dropFirst 2)
          ((appendTwo growth h s).2.keepFirst ((appendTwo growth h s).2.len - 2))).store
            (appendTwo growth h s).2.arr (appendTwo growth h s).2.off
            (putUint16 ((appendTwo growth h s).2.len - 2))),
        .ok (appendTwo growth h s).2) := by
  rw [prefixWithSize, if_neg (by omega)]
  rfl

theorem valid_appendTwo (hs : h.Valid s) :
    (appendTwo growth h s).1.Valid (appendTwo growth h s).2 :=
  valid_append (valid_append hs 0) 0

theorem len_appendTwo (hs : h.Valid s) : (appendTwo growth h s).2.len = s.len + 2 := by
  rw [appendTwo, append_len _ _ (valid_append hs 0), append_len _ _ hs]

theorem read_appendTwo (hs : h.Valid s) :
    (appendTwo growth h s).1.read (appendTwo growth h s).2 = h.read s ++ [0, 0] := by
  rw [appendTwo, read_append (valid_append hs 0), read_append hs, append_assoc]
  rfl

/-- Shifting a packet by two and writing its size in front. -/
theorem overwrite_shift (xs : Bytes) (n : Nat) :
    overwrite (overwrite (xs ++ [0, 0]) 2 xs) 0 (putUint16 n) = putUint16 n ++ xs := by
  have hLen : (putUint16 n).length = 2 := rfl
  unfold overwrite
  rw [hLen, take_zero, nil_append, append_assoc, zero_add, drop_append_of_le_length (by simp)]
  simp
  omega

theorem prefixWithSize_read (hs : h.Valid s) (hSize : s.len ≤ 0xffff) :
    ∃ h' p, prefixWithSize growth h s = (h', .ok p) ∧ h'.read p = putUint16 s.len ++ h.read s := by
  refine ⟨_, _, prefixWithSize_eq growth hSize, ?_⟩
  have hValid := valid_appendTwo growth hs
  have hLen := len_appendTwo growth hs
  have hRead := read_appendTwo growth hs
  have hOld := hs.length_read
  generalize appendTwo growth h s = r at hValid hLen hRead
  obtain ⟨h', p⟩ := r
  dsimp only at hValid hLen hRead ⊢
  -- what `copy` moves is the packet itself
  have hMoved : (h'.read (p.keepFirst (p.len - 2))).take (p.dropFirst 2).len = h.read s := by
    have hKeep : h'.read (p.keepFirst (p.len - 2)) = (h'.read p).take (p.len - 2) :=
      read_eq_take rfl rfl (Nat.sub_le _ _)
    rw [hKeep, hRead, hLen, Nat.add_sub_cancel, take_left' hOld]
    apply take_of_length_le
    simp only [Slice.dropFirst]
    omega
  have hCopy : h'.copy (p.dropFirst 2) (p.keepFirst (p.len - 2)) =
      h'.store p.arr (p.off + 2) (h.read s) := by
    rw [copy, hMoved]
    rfl
  have hFit : 2 + (h.read s).length ≤ p.len := by omega
  have hCap := hValid.cap_le
  have hLe := hValid.len_le
  have hStored : (h'.store p.arr (p.off + 2) (h.read s)).Valid p :=
    hValid.store hValid.alloc (by omega)
  have hShifted := read_store_self hValid hFit
  rw [hRead] at hShifted
  have hFrame : 0 + (putUint16 (p.len - 2)).length ≤ p.len := by
    simp only [putUint16, length_cons, length_nil]
    omega
  have hFinal := read_store_self hStored hFrame
  rw [hShifted] at hFinal
  rw [hCopy]
  refine hFinal.trans ?_
  rw [hLen, Nat.add_sub_cancel, overwrite_shift]

/-- With room for two more bytes the appends stay in place. -/
theorem appendTwo_in_place (hRoom : s.len + 2 ≤ s.cap) :
    (appendTwo growth h s).2 = { s with len := s.len + 2 } := by
  have hFirst : h.append growth s 0 =
      (h.store s.arr (s.off + s.len) [0], { s with len := s.len + 1 }) :=
    append_of_lt (by omega) 0
  rw [appendTwo, hFirst, append_of_lt (by show s.len + 1 < s.cap; omega)]

/-- Without that room the framed packet ends up in another array, and the
appends are not seen through the original slice. -/
theorem appendTwo_moved (hs : h.Valid s) (hFull : s.cap < s.len + 2) :
    (appendTwo growth h s).2.arr ≠ s.arr ∧
      (appendTwo growth h s).1.read s = h.read s ∧ (appendTwo growth h s).1.Valid s := by
  have hOne := valid_append (g := growth) hs 0
  have hKept := hs.append_frame (g := growth) 0
  unfold appendTwo
  by_cases hRoom : s.len < s.cap
  · -- the first byte fits, the second moves the packet
    have hStep : h.append growth s 0 =
        (h.store s.arr (s.off + s.len) [0], { s with len := s.len + 1 }) :=
      append_of_lt hRoom 0
    have hGrow : ¬ (h.append growth s 0).2.len < (h.append growth s 0).2.cap := by
      rw [hStep]
      dsimp only
      omega
    refine ⟨?_, ?_, ?_⟩
    · rw [append_arr_of_ge hGrow]
      exact Nat.ne_of_gt hKept.alloc
    · rw [append, if_neg hGrow, read_alloc_frame hKept, read_append_frame hs]
    · rw [append, if_neg hGrow]
      exact hKept.alloc_frame ..
  · have hNe : (h.append growth s 0).2.arr ≠ s.arr := by
      rw [append_arr_of_ge hRoom]
      exact Nat.ne_of_gt hs.alloc
    refine ⟨append_arr_ne hKept hNe 0, ?_, ?_⟩
    · rw [read_append_of_ne hOne hKept hNe, read_append_frame hs]
    · by_cases hRoom' : (h.append growth s 0).2.len < (h.append growth s 0).2.cap
      · have hCap := hOne.cap_le
        rw [append_of_lt hRoom']
        apply hKept.store hOne.alloc
        simp only [length_singleton]
        omega
      · rw [append, if_neg hRoom']
        exact hKept.alloc_frame ..

theorem prefixWithSize_read_original (hs : h.Valid s) (hSize : s.len ≤ 0xffff) :
    (prefixWithSize growth h s).1.read s =
      if s.len + 2 ≤ s.cap then (putUint16 s.len ++ h.read s).take s.len else h.read s := by
  by_cases hRoom : s.len + 2 ≤ s.cap
  · rw [if_pos hRoom]
    obtain ⟨h', p, hEq, hRead⟩ := prefixWithSize_read growth hs hSize
    have hp : p = { s with len := s.len + 2 } := by
      rw [prefixWithSize_eq growth hSize] at hEq
      have := (Prod.mk.inj hEq).2
      rw [← Except.ok.inj this, appendTwo_in_place growth hRoom]
    rw [hEq, ← hRead]
    exact read_eq_take (by rw [hp]) (by rw [hp]) (by rw [hp]; exact Nat.le_add_right _ 2)
  · rw [if_neg hRoom, prefixWithSize_eq growth hSize]
    obtain ⟨hNe, hRead, -⟩ := appendTwo_moved growth hs (by omega)
    have hValid := valid_appendTwo growth hs
    have hLen := len_appendTwo growth hs
    generalize appendTwo growth h s = r at hNe hRead hValid hLen
    obtain ⟨h', p⟩ := r
    dsimp only at hNe hRead hValid hLen ⊢
    have hLe := hValid.len_le
    -- both writes go to the new array
    have hDst : h'.Valid (p.dropFirst 2) := hValid.dropFirst (by omega)
    have hCopied : (h'.copy (p.dropFirst 2) (p.keepFirst (p.len - 2))).Valid p :=
      hValid.copy hDst _
    have hFit : p.off + (putUint16 (p.len - 2)).length ≤
        ((h'.copy (p.dropFirst 2) (p.keepFirst (p.len - 2))).array p.arr).length := by
      have hCap' := hCopied.cap_le
      simp only [putUint16, length_cons, length_nil]
      omega
    rw [read_store_of_disjoint hCopied.alloc hFit (.inl (Ne.symm hNe)),
      read_copy_of_ne hDst _ hNe, hRead]

end Framing

/-! ## Sending -/

/-- What `sendResponse` leaves behind, and what it wrote to the client. -/
structure Sent (W : Type*) where
  world : W
  state : PluginsState
  heap : Heap UInt8
  written : List Bytes

section Send

variable {W Plug : Type u} [PluginEval W Plug] (lib : DnsLib) (g : PluginsGlobals W Plug)
  (growth : Growth) (now : Time)

/-- A response that is not sent: remember why, and log the query. -/
def refuseToSend (w : W) (ps : PluginsState) (h : Heap UInt8) (code : PluginsReturnCode) : Sent W :=
  let (w, ps) := applyLoggingPlugins g now w { ps with returnCode := code }
  { world := w, state := ps, heap := h, written := [] }

/-- The return code of a response of invalid size. -/
def sizeReturnCode (response : Bytes) : PluginsReturnCode :=
  if response.length = 0 then .notReady else .parseError

/-- `sendResponse`. `clientPc` says that a TCP client is there to write to. -/
def sendResponse (clientProto : ClientProto) (clientPc : Bool) (w : W) (ps : PluginsState)
    (h : Heap UInt8) (response : Slice) : Sent W :=
  let bytes := h.read response
  if validResponseSize bytes = false then refuseToSend g now w ps h (sizeReturnCode bytes)
  else
    match clientProto with
    | .udp =>
      if bytes.length > ps.maxUnencryptedUDPSafePayloadSize then
        match truncatedResponse lib bytes with
        | .error _ => refuseToSend g now w ps h .parseError
        | .ok truncated =>
          { world := w, heap := h, written := [truncated]
            state := { ps with exchange := { ps.exchange with localTruncated := true } } }
      else { world := w, state := ps, heap := h, written := [bytes] }
    | .tcp =>
      match prefixWithSize growth h response with
      | (h, .error _) => refuseToSend g now w ps h .parseError
      | (h, .ok framed) =>
        { world := w, state := ps, heap := h
          written := if clientPc then [h.read framed] else [] }
    | .localDoH | .trampoline => { world := w, state := ps, heap := h, written := [] }

variable {clientProto : ClientProto} {clientPc : Bool} {w : W} {ps : PluginsState}

theorem sendResponse_heap_of_ne_tcp (hProto : clientProto ≠ .tcp) (h : Heap UInt8) (s : Slice) :
    (sendResponse lib g growth now clientProto clientPc w ps h s).heap = h := by
  unfold sendResponse
  dsimp only
  split
  · rfl
  · cases clientProto with
    | tcp => exact absurd rfl hProto
    | localDoH => rfl
    | trampoline => rfl
    | udp =>
      dsimp only
      split
      · split <;> rfl
      · rfl

theorem len_le_of_validResponseSize {h : Heap UInt8} {s : Slice} (hs : h.Valid s)
    (hSize : ¬ validResponseSize (h.read s) = false) : s.len ≤ 0xffff := by
  rw [Bool.not_eq_false, validResponseSize, Bool.and_eq_true, decide_eq_true_eq,
    decide_eq_true_eq, hs.length_read] at hSize
  have hMax := hSize.2
  unfold MaxDNSPacketSize at hMax
  omega

/-- What the caller's slice shows after sending to a TCP client. -/
theorem sendResponse_tcp_read {h : Heap UInt8} {s : Slice} (hs : h.Valid s) :
    (sendResponse lib g growth now .tcp clientPc w ps h s).heap.read s =
      if validResponseSize (h.read s) = false ∨ s.cap < s.len + 2 then h.read s
      else (putUint16 s.len ++ h.read s).take s.len := by
  unfold sendResponse
  by_cases hSize : validResponseSize (h.read s) = false
  · rw [if_pos hSize, if_pos (.inl hSize)]
    rfl
  · have hSmall := len_le_of_validResponseSize hs hSize
    have hRead := prefixWithSize_read_original growth hs hSmall
    obtain ⟨h', p, hFrame, -⟩ := prefixWithSize_read growth hs hSmall
    rw [hFrame] at hRead
    rw [if_neg hSize, hFrame]
    refine hRead.trans ?_
    by_cases hRoom : s.len + 2 ≤ s.cap
    · rw [if_pos hRoom, if_neg (by rintro (h | h); exacts [hSize h, by omega])]
    · rw [if_neg hRoom, if_pos (.inr (by omega))]

theorem sendResponse_length_read (clientProto : ClientProto) (clientPc : Bool) (w : W)
    (ps : PluginsState) {h : Heap UInt8} {s : Slice} (hs : h.Valid s) :
    ((sendResponse lib g growth now clientProto clientPc w ps h s).heap.read s).length = s.len := by
  by_cases hProto : clientProto = .tcp
  · subst hProto
    rw [sendResponse_tcp_read lib g growth now hs]
    split
    · exact hs.length_read
    · rw [length_take, length_append, hs.length_read]
      omega
  · rw [sendResponse_heap_of_ne_tcp lib g growth now hProto, hs.length_read]

end Send

section Afterwards

variable {W : Type*} (lib : DnsLib) (g : PluginsGlobals W) (growth : Growth) (now : Time)
  {clientProto : ClientProto} {clientPc : Bool} {w : W} {ps : PluginsState}

/-- The bytes the caller passed are the bytes it sees afterwards exactly if
the client is not a TCP one, nothing is sent, the array has no room for the
frame, or framing happens to reproduce the response. -/
theorem sendResponse_keeps_response_iff (response : Buffer UInt8) :
    (sendResponse lib g growth now clientProto clientPc w ps response.heap response.slice).heap.read
        response.slice = response.contents ↔
      clientProto ≠ .tcp ∨ validResponseSize response.contents = false ∨
        response.slice.cap < response.slice.len + 2 ∨
        (putUint16 response.slice.len ++ response.contents).take response.slice.len =
          response.contents := by
  by_cases hProto : clientProto = .tcp
  · subst hProto
    rw [sendResponse_tcp_read lib g growth now response.valid]
    by_cases hKept : validResponseSize response.contents = false ∨
        response.slice.cap < response.slice.len + 2
    · exact iff_of_true (if_pos hKept) (.inr (hKept.imp_right .inl))
    · rw [show response.heap.read response.slice = response.contents from rfl, if_neg hKept]
      obtain ⟨hSize, hRoom⟩ := not_or.mp hKept
      simp [hSize, hRoom]
  · simp only [ne_eq, hProto, not_false_eq_true, true_or, iff_true]
    rw [sendResponse_heap_of_ne_tcp lib g growth now hProto]
    rfl

end Afterwards

/-! ### A SERVFAIL seen differently by a UDP and a TCP client -/

/-- SERVFAIL for `. IN A` with ID 0x1234. -/
def servfailAnswer : Bytes :=
  [0x12, 0x34, 0x81, 0x82, 0, 1, 0, 0, 0, 0, 0, 0, 0, 0, 1, 0, 1]

/-- The answer in an array with two bytes to spare. -/
def servfailBuffer : Buffer UInt8 where
  heap := ((mk []).alloc servfailAnswer 2).1
  slice := ((mk []).alloc servfailAnswer 2).2
  valid := valid_alloc ..

/-- A codec that decodes nothing; the RCODE is read off the packet. -/
def noLib : DnsLib :=
  { unpack := fun _ => .error (.plain "bad packet")
    pack := fun _ => .error (.plain "bad message") }

/-- Growth to exactly what is needed. -/
def exactGrowth : Growth := { newCap := fun _ need => need, le_newCap := fun _ _ => le_refl _ }

/-- What `observeOutcome` gets to classify after `servfailBuffer` went to a
client. -/
def observedServfail (clientProto : ClientProto) : Bytes :=
  (sendResponse noLib (noPlugins Unit) exactGrowth 0 clientProto true ()
    (newPluginsState defaultProxyParams clientProto .udp 0) servfailBuffer.heap
    servfailBuffer.slice).heap.read servfailBuffer.slice

/-- The same SERVFAIL is counted for a UDP client and lost for a TCP one. -/
theorem servfail_lost_over_tcp :
    servfailBuffer.contents = servfailAnswer ∧
      observedServfail .udp = servfailAnswer ∧ observedServfail .tcp ≠ servfailAnswer ∧
      (classifyExchangeResponse noLib (observedServfail .udp) false).1 = true ∧
      (classifyExchangeResponse noLib (observedServfail .tcp) false).1 = false := by
  decide

end DnscryptProxy
