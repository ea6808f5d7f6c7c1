import Mathlib.Data.List.Basic

/-!
# Domain names

Names as `unpack.Name` returns them, the lower-casing of `dnsutils.go`, and
the name comparison of the `dns` package.

`CompareName` walks both names label by label from the right, while the cache
key lower-cases the whole name (`NormalizeRawQName`). `equalName_iff` says the
two agree on fully qualified names: `EqualName` accepts exactly the pairs with
the same lower-case form.
-/

namespace DnscryptProxy

open List Option

abbrev Bytes := List UInt8

def dot : UInt8 := 46

/-- A name as `unpack.Name` returns it: the raw label bytes with a dot after
every label, `.` for the root. There are no escapes. -/
structure DName where
  bytes : Bytes
  fqdn : bytes.getLast? = some dot
deriving Repr, DecidableEq

-- ---------------------------------------------------------------------------
-- Lower case
-- ---------------------------------------------------------------------------

/-- `c + 32` on `A`..`Z`, as in `NormalizeRawQName`. -/
def lowerByte (c : UInt8) : UInt8 := if 65 ≤ c ∧ c ≤ 90 then c + 32 else c

def normalizeRawQName (name : Bytes) : Bytes := name.map lowerByte

-- ---------------------------------------------------------------------------
-- `CompareName`
-- ---------------------------------------------------------------------------

/-- The loop of `dnsutilPrev`: the dot closest below index `i`. -/
def scanDot (s : Bytes) : Nat → Nat × Bool
  | 0 => (0, true)
  | i + 1 => if s.getD i 0 = dot then (i + 1, false) else scanDot s i

/-- `dnsutilPrev(s, offset)`: the start of the label that ends at `offset`.
The last branch reads `s[offset]`, which the callers never ask for. -/
def dnsutilPrev (s : Bytes) (offset : Nat) : Nat × Bool :=
  if s.length ≤ 1 then (0, true)
  else if s.getD (offset - 1) 0 = dot then scanDot s (offset - 1)
  else scanDot s (offset + 1)

/-- The case folding of `compareLabel`. -/
def foldByte (c : UInt8) : UInt8 := if 65 ≤ c ∧ c ≤ 90 then c ||| 32 else c

def compareLabel : Bytes → Bytes → Ordering
  | [], [] => .eq
  | [], _ :: _ => .lt
  | _ :: _, [] => .gt
  | a :: as, b :: bs =>
    if foldByte a < foldByte b then .lt
    else if foldByte a > foldByte b then .gt
    else compareLabel as bs

/-- `s[i:j]`. -/
def subBytes (s : Bytes) (i j : Nat) : Bytes := (s.take j).drop i

/-- The loop of `CompareName`. A round that goes on has found a label in both
names, so `fuel = a.length` rounds are enough. -/
def compareNameFrom (a b : Bytes) : Nat → Nat → Nat → Ordering
  | 0, _, _ => .eq
  | fuel + 1, lasta, lastb =>
    let prevA := dnsutilPrev a lasta
    let prevB := dnsutilPrev b lastb
    let x := compareLabel (subBytes a prevA.1 (lasta - 1)) (subBytes b prevB.1 (lastb - 1))
    if prevA.2 && prevB.2 then x
    else if x ≠ .eq then x
    else if prevA.2 then .lt
    else if prevB.2 then .gt
    else compareNameFrom a b fuel prevA.1 prevB.1

/-- `dns.CompareName`. -/
def compareName (a b : Bytes) : Ordering := compareNameFrom a b (a.length + 1) a.length b.length

/-- `dns.EqualName`. -/
def equalName (a b : Bytes) : Bool := compareName a b = .eq

-- ---------------------------------------------------------------------------
-- Bytes and labels
-- ---------------------------------------------------------------------------

set_option maxRecDepth 4000 in
/-- The two spellings of case folding agree, and neither touches the dot. -/
private theorem byte_cases : ∀ n : Fin 256, foldByte (UInt8.ofNat n) = lowerByte (UInt8.ofNat n) ∧
      (lowerByte (UInt8.ofNat n) = dot → UInt8.ofNat n = dot) := by
  decide

theorem foldByte_eq_lowerByte (c : UInt8) : foldByte c = lowerByte c := by
  have h := (byte_cases ⟨c.toNat, c.toNat_lt⟩).1
  rwa [UInt8.ofNat_toNat] at h

theorem lowerByte_eq_dot {c : UInt8} : lowerByte c = dot ↔ c = dot := by
  constructor
  · have h := (byte_cases ⟨c.toNat, c.toNat_lt⟩).2
    rwa [UInt8.ofNat_toNat] at h
  · rintro rfl
    decide

theorem compareLabel_eq_iff : ∀ {a b : Bytes},
    compareLabel a b = .eq ↔ a.map lowerByte = b.map lowerByte := by
  intro a
  induction a with
  | nil =>
    intro b
    cases b <;> simp [compareLabel]
  | cons x xs ih =>
    intro b
    cases b with
    | nil => simp [compareLabel]
    | cons y ys =>
      rw [compareLabel, map_cons, map_cons, cons.injEq,
        ← foldByte_eq_lowerByte, ← foldByte_eq_lowerByte, ← ih]
      -- the first bytes decide unless they fold to the same one
      by_cases hLt : foldByte x < foldByte y
      · rw [if_pos hLt]
        simp [UInt8.ne_of_lt hLt]
      · rw [if_neg hLt]
        by_cases hGt : foldByte y < foldByte x
        · rw [if_pos hGt]
          simp [(UInt8.ne_of_lt hGt).symm]
        · rw [if_neg hGt]
          have hEq : foldByte x = foldByte y :=
            UInt8.le_antisymm (UInt8.not_lt.mp hGt) (UInt8.not_lt.mp hLt)
          simp [hEq]

-- ---------------------------------------------------------------------------
-- Splitting off the last label
-- ---------------------------------------------------------------------------

/-- What the scan found below index `k`: no dot at all, or the last one just
before `c`. -/
theorem scanDot_spec (s : Bytes) (k : Nat) :
    ((scanDot s k).2 = true → (scanDot s k).1 = 0) ∧
    ((scanDot s k).2 = false → 1 ≤ (scanDot s k).1 ∧ s.getD ((scanDot s k).1 - 1) 0 = dot) ∧
    (scanDot s k).1 ≤ k ∧
    (∀ i, (scanDot s k).1 ≤ i → i < k → s.getD i 0 ≠ dot) := by
  induction k with
  | zero => simp [scanDot]
  | succ k ih =>
    rw [scanDot]
    split
    · next hDot =>
      refine ⟨by simp, fun _ => ⟨by simp, by simpa using hDot⟩, by simp, ?_⟩
      intro i h1 h2
      omega
    · -- no dot at `k`: the scan goes on below, and `k` is one more place without a dot
      next hNot =>
      obtain ⟨h1, h2, h3, h4⟩ := ih
      refine ⟨h1, h2, by omega, ?_⟩
      intro i hi hk
      rcases Nat.lt_or_ge i k with hlt | hge
      · exact h4 i hi hlt
      · have hEq : i = k := by omega
        rw [hEq]
        exact hNot

/-- Two splits of one list into a part that is empty or ends in `d` and a
part without `d` are the same split. -/
theorem append_split_unique {α : Type*} {d : α} {p q l m : List α}
    (hp : p = [] ∨ p.getLast? = some d) (hq : q = [] ∨ q.getLast? = some d)
    (hl : d ∉ l) (hm : d ∉ m) (h : p ++ l = q ++ m) : p = q ∧ l = m := by
  rcases append_eq_append_iff.mp h with ⟨c, hqc, hlc⟩ | ⟨c, hpc, hmc⟩
  · rcases eq_nil_or_concat c with rfl | ⟨c', e, rfl⟩
    · exact ⟨by simpa using hqc.symm, by simpa using hlc⟩
    · exfalso
      rcases hq with rfl | hq
      · simp at hqc
      · rw [hqc, concat_eq_append, ← append_assoc, getLast?_concat, some.injEq] at hq
        exact hl (by rw [hlc]; simp [hq])
  · rcases eq_nil_or_concat c with rfl | ⟨c', e, rfl⟩
    · exact ⟨by simpa using hpc, by simpa using hmc.symm⟩
    · exfalso
      rcases hp with rfl | hp
      · simp at hpc
      · rw [hpc, concat_eq_append, ← append_assoc, getLast?_concat, some.injEq] at hp
        exact hm (by rw [hmc]; simp [hp])

/-- A position of the walk: just behind a dot of the name. -/
structure AtDot (s : Bytes) (last : Nat) : Prop where
  pos : 1 ≤ last
  le : last ≤ s.length
  isDot : s.getD (last - 1) 0 = dot

/-- One round of the walk: the prefix before the label, the label, the dot. -/
structure LastLabel (s : Bytes) (last cur : Nat) (atStart : Bool) : Prop where
  split : s.take last = s.take cur ++ subBytes s cur (last - 1) ++ [dot]
  lt : cur < last
  noDot : dot ∉ subBytes s cur (last - 1)
  start : atStart = true → cur = 0
  more : atStart = false → AtDot s cur

theorem take_eq_concat {s : Bytes} {last : Nat} (h : AtDot s last) :
    s.take last = s.take (last - 1) ++ [dot] := by
  have hPos := h.pos
  have hLe := h.le
  have hIdx : last - 1 < s.length := by omega
  have hLast : last = last - 1 + 1 := by omega
  have hDot : s[last - 1] = dot := by
    have := h.isDot
    rwa [getD_eq_getElem?_getD, getElem?_eq_getElem hIdx, getD_some] at this
  conv_lhs => rw [hLast, take_succ_eq_append_getElem hIdx, hDot]

theorem dnsutilPrev_eq {s : Bytes} {last : Nat} (h : AtDot s last) :
    dnsutilPrev s last = scanDot s (last - 1) := by
  unfold dnsutilPrev
  split
  · next hLen =>
    have hZero : last - 1 = 0 := by
      have := h.le
      omega
    rw [hZero, scanDot]
  · rw [if_pos h.isDot]

theorem lastLabel_of_atDot {s : Bytes} {last : Nat} (h : AtDot s last) :
    LastLabel s last (dnsutilPrev s last).1 (dnsutilPrev s last).2 := by
  rw [dnsutilPrev_eq h]
  obtain ⟨hOver, hMore, hLe, hNone⟩ := scanDot_spec s (last - 1)
  have hPos := h.pos
  have hLen := h.le
  refine ⟨?_, by omega, ?_, hOver, ?_⟩
  · -- what comes before the label, the label, and the dot that ends it
    rw [take_eq_concat h, subBytes]
    congr 1
    conv_lhs => rw [← take_append_drop (scanDot s (last - 1)).1 (s.take (last - 1))]
    rw [take_take, Nat.min_eq_left hLe]
  · intro hMem
    obtain ⟨i, hi⟩ := mem_iff_getElem?.mp hMem
    rw [subBytes, getElem?_drop] at hi
    obtain ⟨hBound, -⟩ := List.getElem?_eq_some_iff.mp hi
    rw [length_take] at hBound
    rw [getElem?_take_of_lt (by omega)] at hi
    apply hNone ((scanDot s (last - 1)).1 + i) (by omega) (by omega)
    rw [getD_eq_getElem?_getD, hi, getD_some]
  · intro hF
    obtain ⟨h1, h2⟩ := hMore hF
    exact ⟨h1, by omega, h2⟩

/-- Lower-casing commutes with the split, and dots stay where they are. -/
theorem lower_take_eq_iff {a b : Bytes} {lasta lastb cura curb : Nat} {oa ob : Bool}
    (ha : LastLabel a lasta cura oa) (hb : LastLabel b lastb curb ob) :
    normalizeRawQName (a.take lasta) = normalizeRawQName (b.take lastb) ↔
      normalizeRawQName (a.take cura) = normalizeRawQName (b.take curb) ∧
      (subBytes a cura (lasta - 1)).map lowerByte =
        (subBytes b curb (lastb - 1)).map lowerByte := by
  have hEnds : ∀ {s : Bytes} {last cur : Nat} {o : Bool}, LastLabel s last cur o →
      normalizeRawQName (s.take cur) = [] ∨
        (normalizeRawQName (s.take cur)).getLast? = some dot := by
    intro s last cur o hs
    cases o with
    | true =>
      left
      simp [normalizeRawQName, hs.start rfl]
    | false =>
      right
      rw [take_eq_concat (hs.more rfl), normalizeRawQName, map_append]
      simp [lowerByte_eq_dot]
  -- lower-casing makes no dots, so the split of the lower-case name is the same one
  have hNoDot : ∀ {l : Bytes}, dot ∉ l → dot ∉ l.map lowerByte := by
    intro l hl hMem
    obtain ⟨c, hc, hEq⟩ := mem_map.mp hMem
    rw [lowerByte_eq_dot] at hEq
    exact hl (hEq ▸ hc)
  have hEndsA := hEnds ha
  have hEndsB := hEnds hb
  rw [ha.split, hb.split]
  simp only [normalizeRawQName, map_append] at hEndsA hEndsB ⊢
  constructor
  · intro h
    exact append_split_unique hEndsA hEndsB (hNoDot ha.noDot) (hNoDot hb.noDot)
      (append_cancel_right h)
  · rintro ⟨h1, h2⟩
    rw [h1, h2]

-- ---------------------------------------------------------------------------
-- `EqualName` is equality of the lower-case names
-- ---------------------------------------------------------------------------

/-- The walk from `lasta`, `lastb` decides the prefixes up to there. -/
theorem compareNameFrom_eq_iff {a b : Bytes} : ∀ (fuel lasta lastb : Nat),
    lasta ≤ fuel → AtDot a lasta → AtDot b lastb →
    (compareNameFrom a b fuel lasta lastb = .eq ↔
      normalizeRawQName (a.take lasta) = normalizeRawQName (b.take lastb)) := by
  intro fuel
  induction fuel with
  | zero =>
    intro lasta lastb hFuel hA _
    have := hA.pos
    omega
  | succ fuel ih =>
    intro lasta lastb hFuel hA hB
    have hSplitA := lastLabel_of_atDot hA
    have hSplitB := lastLabel_of_atDot hB
    rw [lower_take_eq_iff hSplitA hSplitB, ← compareLabel_eq_iff, compareNameFrom]
    -- a name whose walk ended has an empty rest, one that goes on has not
    have hRest : ∀ {s : Bytes} {cur : Nat}, AtDot s cur → normalizeRawQName (s.take cur) ≠ [] := by
      intro s cur hs hNil
      rw [take_eq_concat hs, normalizeRawQName] at hNil
      simp at hNil
    have hLtA := hSplitA.lt
    generalize dnsutilPrev a lasta = pa at *
    generalize dnsutilPrev b lastb = pb at *
    obtain ⟨cura, oa⟩ := pa
    obtain ⟨curb, ob⟩ := pb
    dsimp only at *
    cases oa with
    | true =>
      have hCurA := hSplitA.start rfl
      cases ob with
      | true =>
        have hCurB := hSplitB.start rfl
        simp [hCurA, hCurB, normalizeRawQName]
      | false =>
        have hNe := hRest (hSplitB.more rfl)
        rw [hCurA]
        simp only [Bool.and_false, Bool.false_eq_true, if_false, if_true]
        split
        · next hx => simp [hx]
        · simp [normalizeRawQName] at hNe ⊢
          simp [hNe]
    | false =>
      have hNeA := hRest (hSplitA.more rfl)
      cases ob with
      | true =>
        have hCurB := hSplitB.start rfl
        rw [hCurB]
        simp only [Bool.false_and, Bool.false_eq_true, if_false, if_true]
        split
        · next hx => simp [hx]
        · simp [normalizeRawQName] at hNeA ⊢
          simp [hNeA]
      | false =>
        simp only [Bool.and_self, Bool.false_eq_true, if_false]
        split
        · next hx => simp [hx]
        · next hx =>
          rw [ih cura curb (by omega) (hSplitA.more rfl) (hSplitB.more rfl)]
          simp only [ne_eq, Decidable.not_not] at hx
          simp [hx]

theorem DName.atDot (n : DName) : AtDot n.bytes n.bytes.length := by
  have hNe : n.bytes ≠ [] := by
    intro h
    have := n.fqdn
    rw [h] at this
    simp at this
  have hPos : 0 < n.bytes.length := length_pos_iff.mpr hNe
  refine ⟨hPos, Nat.le_refl _, ?_⟩
  have hLast := n.fqdn
  rw [getLast?_eq_getElem?] at hLast
  rw [getD_eq_getElem?_getD, hLast, getD_some]

theorem equalName_iff (a b : DName) :
    equalName a.bytes b.bytes = true ↔ normalizeRawQName a.bytes = normalizeRawQName b.bytes := by
  rw [equalName, decide_eq_true_eq, compareName,
    compareNameFrom_eq_iff _ _ _ (Nat.le_succ _) a.atDot b.atDot, take_length,
    take_length]

end DnscryptProxy
