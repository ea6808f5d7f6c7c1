import DnscryptProxy.Dns.Message

/-!
# The wire form of messages

What `Msg.Pack` writes, but for the compression of names and for names with escapes. The results
about the proxy have the codec as a parameter; with `wireLib` they can be evaluated.

* `length_wireOpt` — an OPT record takes 11 bytes and its options.
-/

namespace DnscryptProxy

open List

/-- `binary.BigEndian.PutUint16`. -/
def putUint16 (n : Nat) : Bytes := [UInt8.ofNat (n / 256), UInt8.ofNat n]

/-- `isPseudo`: the message is packed with an OPT record. -/
def Msg.CarriesOpt (m : Msg) : Prop :=
  512 < m.udpSize ∨ m.security = true ∨ m.compactAnswers = true ∨ m.delegation = true ∨
    15 < m.rcode ∨ m.pseudo ≠ []

instance (m : Msg) : Decidable m.CarriesOpt := inferInstanceAs (Decidable (_ ∨ _))

def wireName (name : Bytes) : Bytes :=
  ((name.splitOn dot).filter (· ≠ [])).flatMap charString ++ [0]
where
  /-- a string with its length -/
  charString (b : Bytes) : Bytes := UInt8.ofNat b.length :: b

def Question.wire (q : Question) : Bytes :=
  wireName q.name.bytes ++ putUint16 q.qtype.toNat ++ putUint16 q.qclass.toNat

def RData.wire : RData → Bytes
  | .a addr => addr
  | .aaaa addr => addr
  | .hinfo cpu os => wireName.charString (utf8 cpu.toList) ++ wireName.charString (utf8 os.toList)
  | .txt txts => txts.flatMap wireName.charString
  | .raw _ data => data

def RR.wire (rr : RR) : Bytes :=
  wireName rr.name ++ putUint16 rr.rrToType.toNat ++ putUint16 rr.rclass.toNat ++
    putUint16 (rr.ttl.toNat >>> 16) ++ putUint16 rr.ttl.toNat ++
    putUint16 rr.rdata.wire.length ++ rr.rdata.wire

def EdnsOption.wire : EdnsOption → Bytes
  | .subnet family netmask scope address =>
    tlv 8 (putUint16 family.toNat ++ netmask :: scope :: address)
  | .padding zeros => tlv 12 zeros
  | .ede infoCode extraText => tlv 15 (putUint16 infoCode.toNat ++ utf8 extraText.toList)
  | .other code data => tlv code.toNat data
where
  /-- code and length first -/
  tlv (code : Nat) (data : Bytes) : Bytes := putUint16 code ++ putUint16 data.length ++ data

namespace Msg

variable (m : Msg)

/-- A bit of a flag word. -/
def flag (b : Bool) (n : Nat) : Nat := if b then 1 <<< n else 0

def wireHeader : Bytes :=
  putUint16 m.id.toNat ++
    putUint16 (flag m.response 15 + m.opcode.toNat <<< 11 + flag m.truncated 9 +
      flag m.recursionDesired 8 + flag m.recursionAvailable 7 + flag m.authenticatedData 5 +
      flag m.checkingDisabled 4 + m.rcode.toNat % 16) ++
    putUint16 m.question.length ++ putUint16 m.answer.length ++ putUint16 m.ns.length ++
    putUint16 (m.extra.length + if m.CarriesOpt then 1 else 0)

/-- The OPT record. -/
def wireOpt : Bytes :=
  let options := m.pseudo.flatMap EdnsOption.wire
  0 :: putUint16 TypeOPT.toNat ++ putUint16 (if 512 < m.udpSize then m.udpSize.toNat else 0) ++
    [UInt8.ofNat (m.rcode.toNat / 16), 0] ++
    putUint16 (flag m.security 15 + flag m.compactAnswers 14 + flag m.delegation 13) ++
    putUint16 options.length ++ options

/-- All but the OPT record. Only the first question is packed. -/
def wireBody : Bytes :=
  m.wireHeader ++ (m.question.take 1).flatMap Question.wire ++
    (m.answer ++ m.ns ++ m.extra).flatMap RR.wire

def wire : Bytes := m.wireBody ++ if m.CarriesOpt then m.wireOpt else []

theorem length_wireOpt : m.wireOpt.length = 11 + (m.pseudo.flatMap EdnsOption.wire).length := by
  simp only [wireOpt, putUint16, length_append, length_cons, length_nil]

end Msg

/-- Packs every message, and unpacks those of `known`. -/
def wireLib (known : List Msg) : DnsLib where
  unpack packet := match known.find? fun m => decide (m.wire = packet) with
    | some m => .ok m
    | none => .error (.plain "bad packet")
  pack m := .ok m.wire

end DnscryptProxy
