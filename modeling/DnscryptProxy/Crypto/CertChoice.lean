import DnscryptProxy.Base.LastMax
import DnscryptProxy.Crypto.Certs
import Mathlib.Data.List.Induction
import Mathlib.Data.Prod.Lex

/-!
# The choice of a certificate

A provider answers with several certificates: old and new ones, and one for each
construction. The loop of `FetchCurrentDNSCryptCert` overwrites what it has found whenever
a certificate is at least as good, field by field, and the two certificate formats do not
have the same fields.

* `ValidCert` — what makes an answer a certificate of this provider;
* `assign_eq` — no field of an earlier certificate is left over;
* `CertLoop.of_answers` — the loop has the last of the best certificates so far.
-/

namespace DnscryptProxy

open Base Option List

/-! ## The loop, field by field -/

section Loop

variable (env : CertEnv) (pk : Bytes)

/-- The assignments to `certInfo` for an accepted certificate. -/
def Cert.assign (cert : Cert) (certInfo : CertInfo) : CertInfo :=
  let certInfo :=
    { certInfo with forwardSecurity := decide (cert.tsEnd - cert.tsBegin ≤ 86400 * 7) }
  let certInfo :=
    if cert.construction = .xWingPQ then
      { certInfo with
        pqPublicKey := subBytes cert.binCert 72 1288
        pqCertContext := DnscryptProxy.pqCertContext cert.binCert
        serverPk := zeroKey
        sharedKey := zeroKey
        magicQuery := subBytes cert.binCert 1288 1296 }
    else
      let serverPk := subBytes cert.binCert 72 104
      { certInfo with
        sharedKey := computeSharedKey env.curve env.random cert.construction env.secretKey serverPk
        pqPublicKey := []
        pqCertContext := []
        serverPk := serverPk
        magicQuery := subBytes cert.binCert 104 112 }
  { certInfo with construction := cert.construction }

/-- The body of the loop, on `certInfo` and `highestSerial`. -/
def certStep (s : CertInfo × Nat) (rr : RR) : CertInfo × Nat :=
  match parseCert env pk rr with
  | none => s
  | some cert =>
    if cert.serial < s.2 then s
    else if cert.serial = s.2 ∧ cert.construction.rank < s.1.construction.rank then s
    else (cert.assign env s.1, cert.serial)

/-- The loop of `FetchCurrentDNSCryptCert`. -/
def certLoop (answers : List RR) : CertInfo × Nat :=
  answers.foldl (certStep env pk) (CertInfo.none, 0)

theorem assign_eq (cert : Cert) (certInfo : CertInfo) :
    cert.assign env certInfo = cert.info env := by
  unfold Cert.assign Cert.info
  split <;> rfl

theorem selectCert_eq (answers : List RR) (certInfo : CertInfo) (highestSerial : Nat) :
    selectCert env pk answers certInfo highestSerial =
      (answers.foldl (certStep env pk) (certInfo, highestSerial)).1 := by
  induction answers generalizing certInfo highestSerial with
  | nil => rfl
  | cons rr answers ih =>
    rw [selectCert, foldl_cons, certStep]
    cases parseCert env pk rr with
    | none => exact ih _ _
    | some cert =>
      dsimp only
      split
      · exact ih _ _
      · split
        · exact ih _ _
        · rw [assign_eq]
          exact ih _ _

end Loop

/-! ## Valid certificates -/

/-- Where the serial number stands; the two dates follow. -/
def CryptoConstruction.serialOff (construction : CryptoConstruction) : Nat :=
  if construction = .xWingPQ then 1296 else 112

/-- The answer is a certificate of the provider with this key, and may be used now. -/
structure ValidCert (env : CertEnv) (pk : Bytes) (rr : RR) (cert : Cert) : Prop where
  txt : ∃ txts, rr.rdata = .txt txts ∧ cert.binCert = packTXTRR txts.flatten
  length : 124 ≤ cert.binCert.length
  magic : cert.binCert.take 4 = CertMagic
  /-- the construction is supported, and enabled -/
  construction :
    (subBytes cert.binCert 4 6 = [0, 1] ∧ cert.construction = .xSalsa20Poly1305) ∨
    (subBytes cert.binCert 4 6 = [0, 2] ∧ cert.construction = .xChacha20Poly1305) ∨
    (subBytes cert.binCert 4 6 = [0, 3] ∧ cert.construction = .xWingPQ ∧
      env.pqDNSCrypt = true ∧ 1320 ≤ cert.binCert.length)
  signature : env.verify pk (cert.binCert.drop 72) (subBytes cert.binCert 8 72) = true
  pqExtension : cert.construction = .xWingPQ → subBytes cert.binCert 1308 1320 = pqProfileExtension
  serial : cert.serial = bigEndian (subBytes cert.binCert cert.construction.serialOff
    (cert.construction.serialOff + 4))
  tsBegin : cert.tsBegin = bigEndian (subBytes cert.binCert (cert.construction.serialOff + 4)
    (cert.construction.serialOff + 8))
  tsEnd : cert.tsEnd = bigEndian (subBytes cert.binCert (cert.construction.serialOff + 8)
    (cert.construction.serialOff + 12))
  nonEmpty : cert.tsBegin < cert.tsEnd
  current : env.certIgnoreTimestamp = false → cert.tsBegin ≤ env.now ∧ env.now ≤ cert.tsEnd

section Valid

variable {env : CertEnv} {pk : Bytes} {rr : RR} {cert : Cert}

/-- Two bytes are determined by their number. -/
theorem bigEndian_two {b : Bytes} (hb : b.length = 2) {n : Nat} (hn : n < 256) :
    bigEndian b = n ↔ b = [0, UInt8.ofNat n] := by
  obtain ⟨hi, lo, rfl⟩ : ∃ hi lo, b = [hi, lo] := length_eq_two.mp hb
  have hNat : bigEndian [hi, lo] = 256 * hi.toNat + lo.toNat := by simp [bigEndian]
  rw [hNat]
  constructor
  · intro h
    have hHi : hi = 0 := UInt8.toNat_inj.mp (by show hi.toNat = 0; omega)
    subst hHi
    have hLo : lo.toNat = n := by simpa using h
    rw [← hLo, UInt8.ofNat_toNat]
  · intro h
    obtain ⟨rfl, hLo⟩ := cons.inj h
    obtain ⟨rfl, -⟩ := cons.inj hLo
    show 256 * 0 + n % 2 ^ 8 = n
    omega

theorem length_subBytes {b : Bytes} {i j : Nat} (h : j ≤ b.length) :
    (subBytes b i j).length = j - i := by
  rw [subBytes, length_drop, length_take, min_eq_left h]

/-- The construction, from the two bytes of the version. -/
theorem certConstruction_eq_some {binCert : Bytes} (hLength : 124 ≤ binCert.length)
    {construction : CryptoConstruction} :
    certConstruction env binCert = some construction ↔
      (subBytes binCert 4 6 = [0, 1] ∧ construction = .xSalsa20Poly1305) ∨
      (subBytes binCert 4 6 = [0, 2] ∧ construction = .xChacha20Poly1305) ∨
      (subBytes binCert 4 6 = [0, 3] ∧ construction = .xWingPQ ∧
        env.pqDNSCrypt = true ∧ 1320 ≤ binCert.length) := by
  -- the source compares numbers, the format names the two bytes
  have hTwo : (subBytes binCert 4 6).length = 2 := length_subBytes (by omega)
  have hOne : bigEndian (subBytes binCert 4 6) = 1 ↔ subBytes binCert 4 6 = [0, 1] :=
    bigEndian_two hTwo (n := 1) (by decide)
  have hSecond : bigEndian (subBytes binCert 4 6) = 2 ↔ subBytes binCert 4 6 = [0, 2] :=
    bigEndian_two hTwo (n := 2) (by decide)
  have hThird : bigEndian (subBytes binCert 4 6) = 3 ↔ subBytes binCert 4 6 = [0, 3] :=
    bigEndian_two hTwo (n := 3) (by decide)
  have hNe : ([0, 1] : Bytes) ≠ [0, 2] ∧ ([0, 1] : Bytes) ≠ [0, 3] ∧ ([0, 2] : Bytes) ≠ [0, 3] := by
    decide
  unfold certConstruction
  rw [if_congr hOne rfl (if_congr hSecond rfl (if_congr hThird rfl rfl))]
  generalize subBytes binCert 4 6 = version
  constructor
  · intro h
    split at h
    · next h1 => exact .inl ⟨h1, (some.inj h).symm⟩
    · split at h
      · next h2 => exact .inr (.inl ⟨h2, (some.inj h).symm⟩)
      · split at h
        · next h3 =>
          split at h
          · cases h
          · next hEnabled =>
            rw [not_or, Bool.not_eq_false, not_lt] at hEnabled
            exact .inr (.inr ⟨h3, (some.inj h).symm, hEnabled⟩)
        · cases h
  · rintro (⟨rfl, rfl⟩ | ⟨rfl, rfl⟩ | ⟨rfl, rfl, hPq, hLong⟩)
    · rw [if_pos rfl]
    · rw [if_neg hNe.1.symm, if_pos rfl]
    · rw [if_neg hNe.2.1.symm, if_neg hNe.2.2.symm, if_pos rfl, if_neg]
      rw [not_or, Bool.not_eq_false, not_lt]
      exact ⟨hPq, hLong⟩

/-- A certificate of this construction, with its fields. -/
def readCert (binCert : Bytes) (construction : CryptoConstruction) : Cert :=
  let serialOff := construction.serialOff
  { binCert
    construction
    serial := bigEndian (subBytes binCert serialOff (serialOff + 4))
    tsBegin := bigEndian (subBytes binCert (serialOff + 4) (serialOff + 8))
    tsEnd := bigEndian (subBytes binCert (serialOff + 8) (serialOff + 12)) }

/-- The checks of the loop on a TXT record. -/
theorem parseCert_txt {txts : List Bytes} (hTxt : rr.rdata = .txt txts) :
    parseCert env pk rr = let binCert := packTXTRR txts.flatten
      if binCert.length < 124 ∨ binCert.take 4 ≠ CertMagic then none
      else
        match certConstruction env binCert with
        | none => none
        | some construction =>
          let cert := readCert binCert construction
          if env.verify pk (binCert.drop 72) (subBytes binCert 8 72) = false then none
          else if construction = .xWingPQ ∧ (subBytes binCert 1308 1320 ≠ pqProfileExtension ∨
              subBytes binCert 4 6 ≠ subBytes (subBytes binCert 1308 1320) 4 6) then none
          else if cert.tsBegin ≥ cert.tsEnd then none
          else if env.certIgnoreTimestamp = false ∧ (env.now > cert.tsEnd ∨ env.now < cert.tsBegin)
          then none
          else some cert := by
  unfold parseCert
  rw [hTxt]
  simp only [decide_eq_true_eq]
  rfl

theorem exists_txt_of_parseCert (h : parseCert env pk rr = some cert) :
    ∃ txts, rr.rdata = .txt txts := by
  unfold parseCert at h
  split at h
  · next txts hTxt => exact ⟨txts, hTxt⟩
  · cases h

theorem validCert_of_parseCert (h : parseCert env pk rr = some cert) :
    ValidCert env pk rr cert := by
  obtain ⟨txts, hTxt⟩ := exists_txt_of_parseCert h
  rw [parseCert_txt hTxt] at h
  obtain ⟨hForm, h⟩ := ite_none_left_eq_some.mp h
  rw [not_or, not_lt, not_not] at hForm
  split at h
  · cases h
  · next construction hConstruction =>
    simp only [ite_none_left_eq_some] at h
    obtain ⟨hSigned, hExtension, hPeriod, hCurrent, hCert⟩ := h
    obtain rfl := some.inj hCert
    refine ⟨⟨txts, hTxt, rfl⟩, hForm.1, hForm.2,
      (certConstruction_eq_some hForm.1).mp hConstruction, Bool.eq_true_of_not_eq_false hSigned,
      ?_, rfl, rfl, rfl, Nat.lt_of_not_le hPeriod, ?_⟩
    · intro hPq
      by_contra hBad
      exact hExtension ⟨hPq, .inl hBad⟩
    · intro hIgnore
      obtain ⟨hEnd, hBegin⟩ := not_or.mp fun hOutside => hCurrent ⟨hIgnore, hOutside⟩
      exact ⟨not_lt.mp hBegin, not_lt.mp hEnd⟩

theorem ValidCert.parseCert_eq (h : ValidCert env pk rr cert) :
    parseCert env pk rr = some cert := by
  obtain ⟨txts, hTxt, hBin⟩ := h.txt
  have hCert : cert = readCert cert.binCert cert.construction := by
    obtain ⟨binCert, construction, serial, tsBegin, tsEnd⟩ := cert
    exact congr (congr (congrArg (Cert.mk binCert construction) h.serial) h.tsBegin) h.tsEnd
  have hForm : ¬ (cert.binCert.length < 124 ∨ cert.binCert.take 4 ≠ CertMagic) := by
    rw [not_or, not_lt, not_not]
    exact ⟨h.length, h.magic⟩
  have hConstruction : certConstruction env cert.binCert = some cert.construction :=
    (certConstruction_eq_some h.length).mpr h.construction
  rw [parseCert_txt hTxt, ← hBin]
  rw [if_neg hForm, hConstruction]
  dsimp only
  rw [← hCert, if_neg (by rw [h.signature]; decide), if_neg, if_neg (not_le.mpr h.nonEmpty),
    if_neg]
  · rintro ⟨hIgnore, hOutside⟩
    have := h.current hIgnore
    omega
  · -- with the extension of the profile, the second comparison cannot fail
    rintro ⟨hPq, hBad⟩
    have hExtension := h.pqExtension hPq
    rcases h.construction with ⟨-, hNot⟩ | ⟨-, hNot⟩ | ⟨hVersion, -⟩
    · rw [hPq] at hNot
      cases hNot
    · rw [hPq] at hNot
      cases hNot
    · rcases hBad with hBad | hBad
      · exact hBad hExtension
      · exact hBad (by rw [hVersion, hExtension]; rfl)

theorem validCert_single : LastMax.Single (ValidCert env pk) := by
  intro rr cert cert' h h'
  exact some.inj (h.parseCert_eq.symm.trans h'.parseCert_eq)

theorem ValidCert.rank_pos (h : ValidCert env pk rr cert) : 0 < cert.construction.rank := by
  rcases h.construction with ⟨-, hEq⟩ | ⟨-, hEq⟩ | ⟨-, hEq, -⟩
  all_goals
    rw [hEq]
    decide

end Valid

/-! ## The best certificate -/

section Best

variable {env : CertEnv} {pk : Bytes}

/-- Serial number first, then construction. -/
def Cert.key (cert : Cert) : Nat ×ₗ Nat := toLex (cert.serial, cert.construction.rank)

/-- What the loop has after these answers: the last of the best certificates, with its serial
number, or what it started with. -/
inductive CertLoop (env : CertEnv) (pk : Bytes) (answers : List RR) : CertInfo × Nat → Prop where
  | none (hNone : ∀ rr ∈ answers, ∀ cert, ¬ ValidCert env pk rr cert) :
      CertLoop env pk answers (CertInfo.none, 0)
  | best {cert : Cert} (hBest : LastMax (ValidCert env pk) Cert.key answers cert) :
      CertLoop env pk answers (cert.info env, cert.serial)

theorem construction_info (cert : Cert) : (cert.info env).construction = cert.construction := by
  unfold Cert.info
  split <;> rfl

/-- The two conditions of the loop compare the keys. -/
theorem skip_iff {cert best : Cert} :
    (cert.serial < best.serial ∨
      cert.serial = best.serial ∧ cert.construction.rank < best.construction.rank) ↔
      cert.key < best.key :=
  (Prod.Lex.toLex_lt_toLex (x := (cert.serial, cert.construction.rank))
    (y := (best.serial, best.construction.rank))).symm

theorem CertLoop.step {answers : List RR} {s : CertInfo × Nat} (h : CertLoop env pk answers s)
    (rr : RR) : CertLoop env pk (answers ++ [rr]) (certStep env pk s rr) := by
  unfold certStep
  cases hParsed : parseCert env pk rr with
  | none =>
    have hNot : ∀ cert, ¬ ValidCert env pk rr cert := by
      intro cert hCert
      rw [hCert.parseCert_eq] at hParsed
      cases hParsed
    cases h with
    | none hNone =>
      refine .none fun r hr => ?_
      rcases mem_append.mp hr with hr | hr
      · exact hNone r hr
      · rw [mem_singleton.mp hr]
        exact hNot
    | best hBest => exact .best (hBest.append_of_lt fun cert hCert => absurd hCert (hNot cert))
  | some cert =>
    have hCert := validCert_of_parseCert hParsed
    dsimp only
    rw [assign_eq]
    cases h with
    | none hNone =>
      -- serial number zero and an undefined construction are below everything
      rw [if_neg (Nat.not_lt_zero _), if_neg fun hSkip => Nat.not_lt_zero _ hSkip.2]
      exact .best (.first hNone hCert)
    | @best best hBest =>
      rw [construction_info]
      by_cases hLower : cert.key < best.key
      · have hSkip := skip_iff.mpr hLower
        have hKeep := hBest.append_of_lt (r := rr) fun cert' hCert' => by
          rwa [validCert_single rr cert' cert hCert' hCert]
        split
        · exact .best hKeep
        · next hSerial =>
          rw [if_pos (hSkip.resolve_left hSerial)]
          exact .best hKeep
      · -- an equal key replaces: of several certificates with it the last one stays
        have hSkip := not_or.mp fun hOr => hLower (skip_iff.mp hOr)
        rw [if_neg hSkip.1, if_neg hSkip.2]
        exact .best (hBest.append_of_le validCert_single hCert (not_lt.mp hLower))

theorem CertLoop.of_answers (answers : List RR) :
    CertLoop env pk answers (certLoop env pk answers) := by
  induction answers using reverseRecOn with
  | nil => exact .none fun _ h => absurd h not_mem_nil
  | append_singleton answers rr ih =>
    rw [certLoop, foldl_append]
    exact ih.step rr

end Best

/-- The loop fails if there is no valid certificate. Otherwise it ends with the highest serial
number and the best construction among those with this number, and every field is that of the
last such certificate. -/
theorem certificate_selection (env : CertEnv) (pk : Bytes) (answers : List RR) :
    ((∃ err, currentCert env pk answers = .error err) ↔
      ∀ rr ∈ answers, ∀ cert, ¬ ValidCert env pk rr cert) ∧
    ∀ certInfo, currentCert env pk answers = .ok certInfo →
      ∃ cert, LastMax (ValidCert env pk) Cert.key answers cert ∧
        certLoop env pk answers = (certInfo, cert.serial) ∧ certInfo = cert.info env := by
  have hLoop : CertLoop env pk answers (certLoop env pk answers) := .of_answers answers
  rw [currentCert, selectCert_eq, ← certLoop]
  generalize certLoop env pk answers = s at hLoop
  cases hLoop with
  | none hNone =>
    have hUndefined : CertInfo.none.construction = .undefinedConstruction := rfl
    refine ⟨⟨fun _ => hNone, fun _ => ⟨_, rfl⟩⟩, fun _ hOk => ?_⟩
    cases hOk
  | @best best hBest =>
    obtain ⟨rr, hMem, hValid⟩ := hBest.exists_value
    have hUsable : (best.info env).construction ≠ .undefinedConstruction := by
      have hRank := hValid.rank_pos
      rw [construction_info]
      intro hUndefined
      rw [hUndefined] at hRank
      exact lt_irrefl 0 hRank
    rw [if_neg hUsable]
    refine ⟨⟨?_, fun hNone => absurd hValid (hNone rr hMem best)⟩, ?_⟩
    · rintro ⟨err, hErr⟩
      cases hErr
    · intro certInfo hOk
      obtain rfl := Except.ok.inj hOk
      exact ⟨best, hBest, rfl, rfl⟩

end DnscryptProxy
