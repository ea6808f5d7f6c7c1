import DnscryptProxy.Common
import Mathlib.Data.List.Nodup

/-!
# DNS messages as the proxy sees them

The parsed messages of the vendored `dns` package, as far as the proxy reads
or writes them, and the helpers of `dnsutils.go` that build or check them.

`Msg.Pack` and `Msg.Unpack` are a parameter (`DnsLib`): the wire codec is a
library of its own. Where a result needs the codec to be faithful it assumes
`DnsLib.RoundTrips`, which is what `Pack` followed by `Unpack` does to the
ID, the QR bit and a single question.

* `validateResponseForQuery` — the check every answer to a client passes;
* `emptyResponseFromMessage`, `truncatedResponse`,
  `refusedResponseFromMessage` — the answers the proxy makes up itself;
* `rcode`, `hasTCFlag`, `setTransactionID` — header access on raw packets.
-/

namespace DnscryptProxy

open Option List

/-! ## Query names -/

/-- `NormalizeQName`: lower case, no trailing dot, ASCII only. -/
def normalizeQName (str : Bytes) : Except GoError Bytes :=
  if str = [] ∨ str = [dot] then .ok [dot]
  else
    let trimmed := if str.getLast? = some dot then str.dropLast else str
    if trimmed.any (fun c => decide (128 ≤ c)) then
      .error (.plain "Query name is not an ASCII string")
    else .ok (trimmed.map lowerByte)

/-! ## Records and messages -/

structure Question where
  name : DName
  qtype : UInt16
  qclass : UInt16
deriving Repr, DecidableEq

def TypeA : UInt16 := 1
def TypeNS : UInt16 := 2
def TypeSOA : UInt16 := 6
def TypePTR : UInt16 := 12
def TypeHINFO : UInt16 := 13
def TypeTXT : UInt16 := 16
def TypeAAAA : UInt16 := 28
def TypeOPT : UInt16 := 41
def ClassINET : UInt16 := 1

inductive RData where
  | a (addr : Bytes)
  | aaaa (addr : Bytes)
  | hinfo (cpu os : String)
  | txt (txts : List Bytes)
  | raw (rtype : UInt16) (data : Bytes)
deriving Repr, DecidableEq

structure RR where
  name : Bytes
  rclass : UInt16
  ttl : UInt32
  rdata : RData
deriving Repr, DecidableEq

/-- `dns.RRToType`. -/
def RR.rrToType (rr : RR) : UInt16 :=
  match rr.rdata with
  | .a _ => TypeA
  | .aaaa _ => TypeAAAA
  | .hinfo _ _ => TypeHINFO
  | .txt _ => TypeTXT
  | .raw t _ => t

/-- The EDNS options of the virtual `Pseudo` section. -/
inductive EdnsOption where
  | subnet (family : UInt16) (netmask scope : UInt8) (address : Bytes)
  | padding (padding : Bytes)
  | ede (infoCode : UInt16) (extraText : String)
  | other (code : UInt16) (data : Bytes)
deriving Repr, DecidableEq

def RcodeSuccess : UInt16 := 0
def RcodeServerFailure : UInt16 := 2
def RcodeNameError : UInt16 := 3
def RcodeRefused : UInt16 := 5
def RcodeNotAuth : UInt16 := 9

structure Msg where
  id : UInt16
  opcode : UInt8
  rcode : UInt16
  /-- the advertised UDP size of the OPT record, 0 without EDNS -/
  udpSize : UInt16
  response : Bool
  truncated : Bool
  recursionDesired : Bool
  recursionAvailable : Bool
  authenticatedData : Bool
  checkingDisabled : Bool
  /-- the DNSSEC OK bit -/
  security : Bool
  compactAnswers : Bool
  delegation : Bool
  question : List Question
  answer : List RR
  ns : List RR
  extra : List RR
  pseudo : List EdnsOption
deriving Repr, DecidableEq

/-- `&dns.Msg{}`. -/
def Msg.empty : Msg :=
  { id := 0, opcode := 0, rcode := 0, udpSize := 0, response := false, truncated := false,
    recursionDesired := false, recursionAvailable := false, authenticatedData := false,
    checkingDisabled := false, security := false, compactAnswers := false, delegation := false,
    question := [], answer := [], ns := [], extra := [], pseudo := [] }

/-- The wire codec of the `dns` package. -/
structure DnsLib where
  unpack : Bytes → Except GoError Msg
  pack : Msg → Except GoError Bytes

/-- `Pack` followed by `Unpack` keeps the ID, the QR bit and a single
question. (`Pack` writes only the first question, so nothing is said about
messages with several.) -/
def DnsLib.RoundTrips (lib : DnsLib) : Prop :=
  ∀ (m : Msg) (q : Question) (b : Bytes), m.question = [q] → lib.pack m = .ok b →
    ∃ m', lib.unpack b = .ok m' ∧ m'.id = m.id ∧ m'.response = m.response ∧ m'.question = [q]

/-! ### A codec with a finite table -/

/-- A codec that knows the messages of a table and no others. -/
def tableLib (table : List (Msg × Bytes)) : DnsLib where
  unpack packet :=
    match table.find? fun e => decide (e.2 = packet) with
    | some e => .ok e.1
    | none => .error (.plain "bad packet")
  pack msg :=
    match table.find? fun e => decide (e.1 = msg) with
    | some e => .ok e.2
    | none => .error (.plain "bad message")

section Table

variable {table : List (Msg × Bytes)} {m : Msg} {b : Bytes}

theorem tableLib_of_pack (hNodup : (table.map (·.2)).Nodup)
    (h : (tableLib table).pack m = .ok b) :
    (m, b) ∈ table ∧ (tableLib table).unpack b = .ok m := by
  simp only [tableLib] at h ⊢
  split at h
  · next e hFind =>
    obtain rfl : e.1 = m := by simpa using find?_some hFind
    cases h
    have hMem := mem_of_find?_eq_some hFind
    have hSome : (table.find? fun e' => decide (e'.2 = e.2)).isSome = true := by
      rw [find?_isSome]
      exact ⟨e, hMem, by simp⟩
    obtain ⟨e', hFind'⟩ := isSome_iff_exists.mp hSome
    have hSnd : e'.2 = e.2 := by simpa using find?_some hFind'
    obtain rfl : e' = e :=
      inj_on_of_nodup_map hNodup (mem_of_find?_eq_some hFind') hMem hSnd
    exact ⟨hMem, by rw [hFind']⟩
  · cases h

theorem tableLib_roundTrips (hNodup : (table.map (·.2)).Nodup) :
    (tableLib table).RoundTrips :=
  fun m _ _ hQ hPack => ⟨m, (tableLib_of_pack hNodup hPack).2, rfl, rfl, hQ⟩

end Table

/-- `. IN A`. -/
def rootQuestion : Question := { name := ⟨[dot], rfl⟩, qtype := TypeA, qclass := ClassINET }

/-- A query for `rootQuestion`, and its empty answer. -/
def rootQuery : Msg :=
  { Msg.empty with id := 0x1234, recursionDesired := true, question := [rootQuestion] }

def rootQueryPacket : Bytes := [0x12, 0x34, 1, 0, 0, 1, 0, 0, 0, 0, 0, 0, 0, 0, 1, 0, 1]

def rootAnswer : Msg := { rootQuery with response := true, recursionAvailable := true }

def rootAnswerPacket : Bytes := [0x12, 0x34, 0x81, 0x80, 0, 1, 0, 0, 0, 0, 0, 0, 0, 0, 1, 0, 1]

/-- A codec for the two. -/
def rootLib : DnsLib := tableLib [(rootQuery, rootQueryPacket), (rootAnswer, rootAnswerPacket)]

theorem rootLib_roundTrips : rootLib.RoundTrips := tableLib_roundTrips (by decide)

/-! ## Checking a response against the query -/

/-- A Go byte string as text, for error messages. -/
def Bytes.text (b : Bytes) : String := String.ofList (b.map fun c => Char.ofNat c.toNat)

def Question.text (q : Question) : String :=
  Bytes.text q.name.bytes ++ "/" ++ toString q.qtype ++ "/" ++ toString q.qclass

/-- `validateResponseQuestion`; `none` is success. -/
def validateResponseQuestion (query response : Option Msg) : Option GoError :=
  match query.map Msg.question, response.map Msg.question with
  | some [q], some [r] =>
    if q.qtype ≠ r.qtype ∨ q.qclass ≠ r.qclass ∨ equalName q.name.bytes r.name.bytes = false then
      some (.plain ("Response question does not match query: " ++ r.text ++ " != " ++ q.text))
    else none
  | _, _ => some (.plain "Unexpected number of questions")

/-- `validateResponseForQuery`; `none` is success. -/
def validateResponseForQuery (query response : Option Msg) : Option GoError :=
  match query, response with
  | some q, some r =>
    if r.response = false then some (.plain "response bit is not set")
    else if r.id ≠ q.id then
      some (.plain ("response ID mismatch: " ++ toString r.id ++ " != " ++ toString q.id))
    else validateResponseQuestion query response
  | _, _ => some (.plain "Missing query or response")

/-- Equal in type and class, and in name up to case. -/
structure Question.Matches (q r : Question) : Prop where
  qtype : q.qtype = r.qtype
  qclass : q.qclass = r.qclass
  name : normalizeRawQName q.name.bytes = normalizeRawQName r.name.bytes

/-- What an accepted response has in common with the query. -/
structure Msg.Answers (q r : Msg) : Prop where
  response : r.response = true
  id : r.id = q.id
  question : ∃ qq rq, q.question = [qq] ∧ r.question = [rq] ∧ qq.Matches rq

theorem validateResponseQuestion_none_iff {q r : Msg} :
    validateResponseQuestion (some q) (some r) = none ↔
      ∃ qq rq, q.question = [qq] ∧ r.question = [rq] ∧ qq.Matches rq := by
  unfold validateResponseQuestion
  -- one question on both sides, or the check fails before it compares anything
  split
  · next qq rq hq hr =>
    simp only [map_some, some.injEq] at hq hr
    rw [hq, hr]
    constructor
    · intro h
      split at h
      · cases h
      · next hOk =>
        push Not at hOk
        refine ⟨qq, rq, rfl, rfl, hOk.1, hOk.2.1, ?_⟩
        rw [← equalName_iff]
        simpa using hOk.2.2
    · rintro ⟨qq', rq', hqq, hrq, hM⟩
      obtain rfl : qq = qq' := by simpa using hqq
      obtain rfl : rq = rq' := by simpa using hrq
      have hName := (equalName_iff qq.name rq.name).mpr hM.name
      simp [hM.qtype, hM.qclass, hName]
  · next hNot =>
    constructor
    · intro h
      cases h
    · rintro ⟨qq, rq, hqq, hrq, -⟩
      exact (hNot qq rq (by simp [hqq]) (by simp [hrq])).elim

/-- The check accepts exactly the responses that answer the query. -/
theorem validateResponseForQuery_none_iff {q r : Msg} :
    validateResponseForQuery (some q) (some r) = none ↔ q.Answers r := by
  unfold validateResponseForQuery
  constructor
  · intro h
    dsimp only at h
    split at h
    · cases h
    · next hQr =>
      split at h
      · cases h
      · next hId =>
        exact ⟨by simpa using hQr, by simpa using hId, validateResponseQuestion_none_iff.mp h⟩
  · rintro ⟨hQr, hId, hQ⟩
    dsimp only
    rw [if_neg (by simp [hQr]), if_neg (by simp [hId])]
    exact validateResponseQuestion_none_iff.mpr hQ

/-- The same, for a query that may be missing. -/
theorem validateResponseForQuery_eq_none {query : Option Msg} {r : Msg} :
    validateResponseForQuery query (some r) = none ↔ ∃ q, query = some q ∧ q.Answers r := by
  cases query with
  | none => simp [validateResponseForQuery]
  | some q => simp [validateResponseForQuery_none_iff]

/-! ## Responses made by the proxy -/

def emptyResponseFromMessage (srcMsg : Msg) : Msg :=
  let dstMsg : Msg :=
    { Msg.empty with
      id := srcMsg.id
      opcode := srcMsg.opcode
      question := srcMsg.question
      response := true
      recursionAvailable := true
      recursionDesired := srcMsg.recursionDesired
      checkingDisabled := false
      authenticatedData := false }
  if srcMsg.udpSize > 0 then
    { dstMsg with udpSize := srcMsg.udpSize, security := srcMsg.security }
  else dstMsg

@[simp] theorem emptyResponseFromMessage_id (m : Msg) :
    (emptyResponseFromMessage m).id = m.id := by
  unfold emptyResponseFromMessage
  split <;> rfl

@[simp] theorem emptyResponseFromMessage_response (m : Msg) :
    (emptyResponseFromMessage m).response = true := by
  unfold emptyResponseFromMessage
  split <;> rfl

@[simp] theorem emptyResponseFromMessage_question (m : Msg) :
    (emptyResponseFromMessage m).question = m.question := by
  unfold emptyResponseFromMessage
  split <;> rfl

def truncatedResponse (lib : DnsLib) (packet : Bytes) : Except GoError Bytes :=
  match lib.unpack packet with
  | .error e => .error e
  | .ok srcMsg => lib.pack { emptyResponseFromMessage srcMsg with truncated := true }

/-- `net.IP.To4` on the 4 or 16 bytes of an address. -/
def ipTo4 (ip : Bytes) : Option Bytes :=
  if ip.length = 4 then some ip
  else if ip.length = 16 ∧ ip.take 12 = replicate 10 0 ++ [255, 255] then some (ip.drop 12)
  else none

/-- `net.IP.To16`. -/
def ipTo16 (ip : Bytes) : Option Bytes :=
  if ip.length = 4 then some (replicate 10 0 ++ [255, 255] ++ ip)
  else if ip.length = 16 then some ip
  else none

def ExtendedErrorForgedAnswer : UInt16 := 4
def ExtendedErrorFiltered : UInt16 := 17

/-- The address record `RefusedResponseFromMessage` forges for the question,
if an address of its family is configured. -/
def forgedAnswer (question : Question) (ipv4 ipv6 : Option Bytes) (ttl : UInt32) : Option RR :=
  if ipv4.isSome ∧ question.qtype = TypeA then
    (ipv4.bind ipTo4).map fun ip4 => ⟨question.name.bytes, ClassINET, ttl, .a ip4⟩
  else if ipv6.isSome ∧ question.qtype = TypeAAAA then
    (ipv6.bind ipTo16).map fun ip6 => ⟨question.name.bytes, ClassINET, ttl, .aaaa ip6⟩
  else none

/-- `RefusedResponseFromMessage`. The EDE option is a pointer in the source
and gets its final code and text after it was appended. -/
def refusedResponseFromMessage (srcMsg : Msg) (refusedCode : Bool) (ipv4 ipv6 : Option Bytes)
    (ttl : UInt32) : Msg :=
  let dstMsg := emptyResponseFromMessage srcMsg
  let withEde (m : Msg) (code : UInt16) (text : String) : Msg :=
    if dstMsg.udpSize > 0 then { m with pseudo := m.pseudo ++ [.ede code text] } else m
  if refusedCode then
    withEde { dstMsg with rcode := RcodeRefused } ExtendedErrorFiltered ""
  else
    match srcMsg.question with
    | [] => withEde { dstMsg with rcode := RcodeSuccess } ExtendedErrorFiltered ""
    | question :: _ =>
      match forgedAnswer question ipv4 ipv6 ttl with
      | some rr =>
        withEde { dstMsg with rcode := RcodeSuccess, answer := [rr] } ExtendedErrorForgedAnswer
          "This query has been locally blocked by dnscrypt-proxy"
      | none =>
        withEde
          { dstMsg with
            rcode := RcodeSuccess
            answer := [⟨question.name.bytes, ClassINET, ttl,
              .hinfo "This query has been locally blocked" "by dnscrypt-proxy"⟩] }
          ExtendedErrorFiltered ""

def removeEDNS0Options (msg : Msg) : Msg := { msg with pseudo := [] }

/-- `cloneMsg`: the header fields and sections, without the packed data. -/
def cloneMsg (src : Msg) : Msg := src

/-- `addEDNS0PaddingIfNoneFound`: the message as the source leaves it, and the
packet it returns (`none` when packing fails). -/
def addEDNS0PaddingIfNoneFound (lib : DnsLib) (msg : Msg) (unpaddedPacket : Bytes)
    (paddingLen : Nat) : Msg × Option Bytes :=
  let msg := if msg.udpSize = 0 then { msg with udpSize := UInt16.ofNat MaxDNSPacketSize } else msg
  if msg.pseudo.any (fun rr => match rr with | .padding _ => true | _ => false) then
    (msg, some unpaddedPacket)
  else
    let msg := { msg with pseudo := msg.pseudo ++ [.padding (replicate paddingLen 0x58)] }
    match lib.pack msg with
    | .ok data => (msg, some data)
    | .error _ => (msg, none)

/-! ## Header access on raw packets -/

def hasTCFlag (packet : Bytes) : Bool := packet.getD 2 0 &&& 2 = 2

def transactionID (packet : Bytes) : Bytes := packet.take 2

def setTransactionID (packet : Bytes) (tid : Bytes) : Bytes := tid ++ packet.drop 2

def rcode (packet : Bytes) : UInt8 := packet.getD 3 0 &&& 0xf

end DnscryptProxy
