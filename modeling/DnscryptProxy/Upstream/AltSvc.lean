import DnscryptProxy.Base.IpNet
import DnscryptProxy.Base.Words
import DnscryptProxy.Common

/-!
# Reading `Alt-Svc`

The loop of `Fetch` in `xtransport.go` over the values of an `Alt-Svc` header, and the syntax of
such values: `clear`, or alternatives between commas, each with parameters behind semicolons. The
loop knows semicolons only.

* `readPiece_first` — what is read from a value up to its first semicolon: the first alternative,
  if a semicolon or the end of the value follows it;
* `readValues_of_clear`, `readValues_text` — what is read from a whole header.
-/

namespace DnscryptProxy

open Base List Option

/-! ## The loop -/

def quoteByte : UInt8 := 34
def commaByte : UInt8 := 44
def semicolonByte : UInt8 := 59
def equalsByte : UInt8 := 61

/-- `clear` -/
def clearText : Bytes := [99, 108, 101, 97, 114]

/-- `h3` -/
def h3Name : Bytes := [104, 51]

/-- `h3=":` -/
def h3Front : Bytes := [104, 51, 61, 34, 58]

/-- `strconv.ParseUint(v, 10, 16)`. -/
def parseUint16 (v : Bytes) : Option UInt16 :=
  if v = [] ∨ v.all Base.isDigit = false ∨ 65535 < decimalValue v then none
  else some (UInt16.ofNat (decimalValue v))

/-- The port of one piece of a value. -/
def readPiece (v : Bytes) : Option UInt16 :=
  let v := trimSpace v
  if h3Front <+: v then
    let v := v.drop h3Front.length
    let v := if v.getLast? = some quoteByte then v.dropLast else v
    parseUint16 v
  else none

/-- The pieces of value number `i`, up to the first one with a port. -/
def readValue (i : Nat) (xalt : Bytes) : Option UInt16 :=
  if 8 ≤ i then none else ((xalt.splitOn semicolonByte).take 16).findSome? readPiece

/-- The loop over the values: `altPort` and `advertisesH3`. -/
def readValues : Nat → List Bytes → UInt16 × Bool → UInt16 × Bool
  | _, [], alt => alt
  | i, xalt :: rest, alt =>
    if trimSpace xalt = clearText then (0, false)
    else
      readValues (i + 1) rest <| match readValue i xalt with
        | some xAltPort => (xAltPort, true)
        | none => alt

/-! ## The syntax -/

/-- The bytes of a token. -/
def isTokenByte (c : UInt8) : Bool :=
  decide (48 ≤ c ∧ c ≤ 57 ∨ 65 ≤ c ∧ c ≤ 90 ∨ 94 ≤ c ∧ c ≤ 122 ∨
    c ∈ [33, 35, 36, 37, 38, 39, 42, 43, 45, 46, 124, 126])

structure Token where
  bytes : Bytes
  ne : bytes ≠ []
  isToken : ∀ c ∈ bytes, isTokenByte c = true

/-- Spaces and tabs, or nothing. -/
structure OptionalBlanks where
  bytes : Bytes
  isBlank : ∀ c ∈ bytes, c = 32 ∨ c = 9

/-- What stands between quotes: bytes other than quotes and backslashes, or any byte behind a
backslash. -/
inductive QuotedByte where
  | plain (c : UInt8) (h : c ≠ quoteByte ∧ c ≠ 92)
  | escaped (c : UInt8)

def QuotedByte.text : QuotedByte → Bytes
  | .plain c _ => [c]
  | .escaped c => [92, c]

inductive ParameterValue where
  | token (value : Token)
  | quoted (value : List QuotedByte)

def ParameterValue.text : ParameterValue → Bytes
  | .token value => value.bytes
  | .quoted value => quoteByte :: value.flatMap QuotedByte.text ++ [quoteByte]

/-- A parameter with its semicolon. -/
structure AltParameter where
  before : OptionalBlanks
  after : OptionalBlanks
  name : Token
  value : ParameterValue

def AltParameter.text (p : AltParameter) : Bytes :=
  p.before.bytes ++ semicolonByte :: (p.after.bytes ++ p.name.bytes ++ equalsByte :: p.value.text)

/-- An alternative: the name of a protocol, and a host, which may be left out, with a port. -/
structure Alternative where
  protocol : Token
  host : Bytes
  port : Bytes
  params : List AltParameter
  host_colon : host.head? ≠ some colon
  host_quote : quoteByte ∉ host
  port_digits : port.all Base.isDigit = true

/-- The alternative without its parameters. -/
def Alternative.head (a : Alternative) : Bytes :=
  a.protocol.bytes ++ equalsByte :: quoteByte :: (a.host ++ colon :: (a.port ++ [quoteByte]))

def Alternative.text (a : Alternative) : Bytes := a.head ++ a.params.flatMap AltParameter.text

/-- The alternative is `h3=":p"`. -/
def Alternative.IsH3 (a : Alternative) (p : UInt16) : Prop :=
  a.protocol.bytes = h3Name ∧ a.host = [] ∧ a.port ≠ [] ∧ decimalValue a.port = p.toNat

/-- An alternative behind a comma. -/
structure NextAlternative where
  before : OptionalBlanks
  after : OptionalBlanks
  alternative : Alternative

def NextAlternative.text (a : NextAlternative) : Bytes :=
  a.before.bytes ++ commaByte :: (a.after.bytes ++ a.alternative.text)

inductive AltSvcValue where
  | clear
  | alternatives (first : Alternative) (rest : List NextAlternative)

namespace AltSvcValue

def text : AltSvcValue → Bytes
  | .clear => clearText
  | .alternatives first rest => first.text ++ rest.flatMap NextAlternative.text

def all : AltSvcValue → List Alternative
  | .clear => []
  | .alternatives first rest => first :: rest.map (·.alternative)

/-- The port that is read: that of the first alternative, if it is one for HTTP/3 without a host,
and no comma follows it. -/
def readable : AltSvcValue → Option UInt16
  | .clear => none
  | .alternatives first rest =>
    if first.protocol.bytes = h3Name ∧ first.host = [] ∧ (first.params ≠ [] ∨ rest = []) then
      parseUint16 first.port
    else none

/-- No piece behind a semicolon looks like an alternative for HTTP/3. -/
def Quiet (v : AltSvcValue) : Prop :=
  ∀ piece ∈ (v.text.splitOn semicolonByte).tail, readPiece piece = none

end AltSvcValue

/-! ## Pieces -/

theorem parseUint16_eq_some {v : Bytes} {p : UInt16} (h : parseUint16 v = some p) :
    v ≠ [] ∧ decimalValue v = p.toNat := by
  unfold parseUint16 at h
  split at h
  · cases h
  · next hOk =>
    simp only [not_or, not_lt] at hOk
    refine ⟨hOk.1, ?_⟩
    rw [← some.inj h, UInt16.toNat_ofNat_of_lt' (Nat.lt_succ_of_le hOk.2.2)]

/-- Commas are no digits, and nothing that is cut off. -/
theorem readPiece_of_comma {piece : Bytes} (h : commaByte ∈ piece) : readPiece piece = none := by
  have hTrim : commaByte ∈ trimSpace piece :=
    mem_trimWords wordCode_spaceWords (by decide) h
  unfold readPiece
  dsimp only
  split
  · next hFront =>
    obtain ⟨r, hr⟩ := hFront
    rw [← hr] at hTrim ⊢
    have hIn : commaByte ∈ r := (mem_append.mp hTrim).resolve_left (by decide)
    have hLeft : commaByte ∈ if r.getLast? = some quoteByte then r.dropLast else r := by
      split
      · next hLast =>
        obtain ⟨r', rfl⟩ := getLast?_eq_some_iff.mp hLast
        rw [dropLast_concat]
        exact (mem_append.mp hIn).resolve_right (by decide)
      · exact hIn
    have hDigits : all (if r.getLast? = some quoteByte then r.dropLast else r) Base.isDigit =
        false := all_eq_false.mpr ⟨commaByte, hLeft, by decide⟩
    exact if_pos (.inr (.inl hDigits))
  · rfl

theorem readPiece_of_h3 {port b : Bytes} (hb : Blank spaceWords b) :
    readPiece (h3Front ++ port ++ [quoteByte] ++ b) = parseUint16 port := by
  have hBare : Bare spaceWords (h3Front ++ port ++ [quoteByte]) := by
    refine .of_ends wordCode_spaceWords.ne_nil ?_ ?_
    · intro a ha
      obtain rfl : 104 = a := some.inj ha
      decide
    · intro a ha
      rw [getLast?_concat] at ha
      obtain rfl := some.inj ha
      decide
  have hTrim : trimSpace (h3Front ++ port ++ [quoteByte] ++ b) =
      h3Front ++ (port ++ [quoteByte]) := by
    exact trimSpace_of_bare .nil hb hBare
  unfold readPiece
  dsimp only
  rw [hTrim, if_pos (prefix_append _ _), drop_left, if_pos getLast?_concat, dropLast_concat]

theorem not_isTokenByte : ∀ w ∈ spaceWords, ∀ c ∈ w, isTokenByte c = false := by
  have hAll : spaceWords.all (·.all (!isTokenByte ·)) = true := by decide +kernel
  simpa using hAll

theorem readPiece_of_other (a : Alternative) (h : ¬ (a.protocol.bytes = h3Name ∧ a.host = []))
    {piece rest : Bytes} (hPiece : piece <+: a.head ++ rest) : readPiece piece = none := by
  obtain ⟨c, name, hName⟩ := exists_cons_of_ne_nil a.protocol.ne
  have hToken : ∀ c ∈ a.protocol.bytes, isTokenByte c = true := a.protocol.isToken
  unfold Alternative.head at hPiece
  rw [hName] at hPiece h hToken
  have hFront : ∀ w ∈ spaceWords, ¬ w <+: piece := by
    intro w hw hIn
    obtain ⟨d, w, rfl⟩ := exists_cons_of_ne_nil (wordCode_spaceWords.ne_nil w hw)
    obtain rfl : d = c := (cons_prefix_cons.mp (hIn.trans hPiece)).1
    have hNot := not_isTokenByte _ hw d mem_cons_self
    rw [hToken d mem_cons_self] at hNot
    cases hNot
  have hTrim := (trimWords_front wordCode_spaceWords hFront).trans hPiece
  unfold readPiece
  refine if_neg fun hH3 => ?_
  have hAll := hH3.trans hTrim
  -- the name ends where its `=` stands
  rcases name with _ | ⟨d, _ | ⟨e, name⟩⟩
  · simp [h3Front, equalsByte] at hAll
  · simp only [h3Front, cons_append, nil_append, cons_prefix_cons] at hAll
    obtain ⟨rfl, rfl, -, -, hColon⟩ := hAll
    refine h ⟨rfl, ?_⟩
    cases hHost : a.host with
    | nil => rfl
    | cons x host =>
      rw [hHost, cons_append, cons_append, cons_prefix_cons] at hColon
      exact absurd (by rw [hHost, ← hColon.1]; rfl) a.host_colon
  · simp only [h3Front, cons_append, cons_prefix_cons] at hAll
    obtain ⟨-, -, rfl, -⟩ := hAll
    exact absurd (hToken 61 (by simp)) (by decide)

theorem OptionalBlanks.blank (b : OptionalBlanks) : Blank spaceWords b.bytes := by
  obtain ⟨bytes, isBlank⟩ := b
  induction bytes with
  | nil => exact .nil
  | cons c bytes ih =>
    have hWord : [c] ∈ spaceWords := by
      rcases isBlank c mem_cons_self with rfl | rfl <;> decide
    exact .cons hWord (ih fun d hd => isBlank d (mem_cons_of_mem c hd))

theorem OptionalBlanks.no_semicolon (b : OptionalBlanks) : ∀ c ∈ b.bytes, c ≠ semicolonByte := by
  rintro c hc rfl
  rcases b.isBlank _ hc with h | h <;> cases h

theorem OptionalBlanks.takeWhile (b : OptionalBlanks) (tail : Bytes) :
    (b.bytes ++ tail).takeWhile (· ≠ semicolonByte) =
      b.bytes ++ tail.takeWhile (· ≠ semicolonByte) :=
  takeWhile_append_of_pos fun c hc => decide_eq_true (b.no_semicolon c hc)

theorem readPiece_first (first : Alternative) (rest : List NextAlternative) :
    readPiece ((AltSvcValue.alternatives first rest).text.takeWhile (· ≠ semicolonByte)) =
      (AltSvcValue.alternatives first rest).readable := by
  unfold AltSvcValue.text AltSvcValue.readable Alternative.text
  dsimp only
  rw [append_assoc]
  by_cases hH3 : first.protocol.bytes = h3Name ∧ first.host = []
  · have hHead : first.head = h3Front ++ first.port ++ [quoteByte] := by
      rw [Alternative.head, hH3.1, hH3.2]
      rfl
    have hNo : ∀ c ∈ first.head, decide (c ≠ semicolonByte) = true := by
      intro c hc
      refine decide_eq_true ?_
      rintro rfl
      rw [hHead, append_assoc, mem_append, mem_append] at hc
      rcases hc with hc | hc | hc
      · exact absurd hc (by decide)
      · exact absurd (all_eq_true.mp first.port_digits _ hc) (by decide)
      · exact absurd hc (by decide)
    rw [takeWhile_append_of_pos hNo]
    cases hParams : first.params with
    | cons p params =>
      -- a parameter follows, with its semicolon
      rw [if_pos ⟨hH3.1, hH3.2, .inl (cons_ne_nil p params)⟩, flatMap_cons,
        AltParameter.text, append_assoc, append_assoc, p.before.takeWhile,
        cons_append, takeWhile_cons_of_neg (by decide), append_nil, hHead]
      exact readPiece_of_h3 p.before.blank
    | nil =>
      rw [flatMap_nil, nil_append]
      cases rest with
      | nil =>
        rw [if_pos ⟨hH3.1, hH3.2, .inr rfl⟩, hHead]
        exact readPiece_of_h3 .nil
      | cons next rest =>
        -- a comma follows
        have hNot : ¬ (first.protocol.bytes = h3Name ∧ first.host = [] ∧
            (([] : List AltParameter) ≠ [] ∨ next :: rest = [])) := by
          rintro ⟨-, -, hNil | hNil⟩
          · exact hNil rfl
          · cases hNil
        rw [if_neg hNot, flatMap_cons, NextAlternative.text, append_assoc,
          next.before.takeWhile, cons_append, takeWhile_cons_of_pos (by decide)]
        exact readPiece_of_comma (by simp)
  · rw [if_neg fun h => hH3 ⟨h.1, h.2.1⟩]
    exact readPiece_of_other first hH3 <| takeWhile_prefix _

/-! ## Headers -/

/-- Alternatives are not taken for `clear`. -/
theorem trimSpace_alternatives (first : Alternative) (rest : List NextAlternative) :
    trimSpace (AltSvcValue.alternatives first rest).text ≠ clearText := by
  intro hClear
  have hMem : equalsByte ∈ (AltSvcValue.alternatives first rest).text := by
    simp [AltSvcValue.text, Alternative.text, Alternative.head]
  have hIn : equalsByte ∈ clearText := by
    rw [← hClear]
    exact mem_trimWords wordCode_spaceWords (by decide) hMem
  exact absurd hIn (by decide)

theorem readValue_text {v : AltSvcValue} (hClear : v ≠ .clear) (hQuiet : v.Quiet) {i : Nat}
    (hi : i < 8) : readValue i v.text = v.readable := by
  cases v with
  | clear => exact absurd rfl hClear
  | alternatives first rest =>
    obtain ⟨later, hSplit⟩ := exists_splitOn_eq semicolonByte
      (AltSvcValue.alternatives first rest).text
    rw [AltSvcValue.Quiet, hSplit, tail_cons] at hQuiet
    have hLater : (later.take 15).findSome? readPiece = none :=
      findSome?_eq_none_iff.mpr fun piece hPiece => hQuiet piece (mem_of_mem_take hPiece)
    rw [readValue, if_neg (not_le.mpr hi), hSplit, take_succ_cons, findSome?_cons,
      readPiece_first, hLater]
    cases (AltSvcValue.alternatives first rest).readable <;> rfl

theorem readValues_of_clear {values : List AltSvcValue} (h : .clear ∈ values) :
    ∀ i alt, readValues i (values.map (·.text)) alt = (0, false) := by
  induction values with
  | nil => cases h
  | cons v values ih =>
    intro i alt
    rw [map_cons, readValues]
    cases v with
    | clear => exact if_pos (by decide)
    | alternatives first rest =>
      rw [if_neg (trimSpace_alternatives first rest)]
      exact ih ((mem_cons.mp h).resolve_left (fun hEq => (nomatch hEq))) _ _

theorem readValues_text {values : List AltSvcValue} (hClear : .clear ∉ values) :
    ∀ i alt, (∀ v ∈ values.take (8 - i), v.Quiet) → (readValues i (values.map (·.text)) alt).1 =
        ((values.take (8 - i)).filterMap (·.readable)).getLast?.getD alt.1 := by
  induction values with
  | nil =>
    intro i alt _
    simp [readValues]
  | cons v values ih =>
    intro i alt hQuiet
    rw [mem_cons, not_or] at hClear
    have hNot : trimSpace v.text ≠ clearText := by
      cases v with
      | clear => exact absurd rfl hClear.1
      | alternatives first rest => exact trimSpace_alternatives first rest
    rw [map_cons, readValues, if_neg hNot]
    by_cases hi : i < 8
    · have hTake : (v :: values).take (8 - i) = v :: values.take (8 - (i + 1)) := by
        rw [show 8 - i = (8 - (i + 1)) + 1 by omega, take_succ_cons]
      rw [hTake] at hQuiet ⊢
      rw [ih hClear.2 _ _ fun v' hv' => hQuiet v' (mem_cons_of_mem v hv'),
        readValue_text (Ne.symm hClear.1) (hQuiet v mem_cons_self) hi]
      cases hRead : v.readable with
      | none => rw [filterMap_cons_none hRead]
      | some port => rw [filterMap_cons_some hRead, getLast?_cons, getD_some]
    · have hNone : readValue i v.text = none := if_pos (not_lt.mp hi)
      have hZero : 8 - i = 0 := by omega
      have hZero' : 8 - (i + 1) = 0 := by omega
      rw [hNone, ih hClear.2 _ _ (by simp [hZero']), hZero, hZero']
      rfl

end DnscryptProxy
