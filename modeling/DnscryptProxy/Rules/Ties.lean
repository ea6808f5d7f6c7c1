import DnscryptProxy.Rules.Patterns

/-!
# When the order of the rules matters

Which rule `PatternMatcher.Eval` reports can depend on the order in which the rules
were added: a trie keeps the first rule for a key and a map the last one, and
substrings and globs are tried one after the other. `Foremost` is what does not
depend on it.

* `TopRule.foremost` — the rule in charge is a foremost one;
* `topRule_perm` — so the order does not matter if there is only one;
* `topRule_swap` — with two of them, some orders differ.
-/

namespace DnscryptProxy

open Base List Option

variable {W : Type} {lib : TextLib} {glob : Bytes → Bytes → Bool}

variable (lib glob) in
/-- A rule that is in charge in some order: no rule of an earlier kind matches, and
no longer suffix or prefix. -/
structure Foremost (q : Bytes) (rules : NameRule W → Prop) (r : NameRule W) : Prop where
  mem : rules r
  hit : r.matches lib glob q = true
  rank_le : ∀ o, rules o → o.matches lib glob q = true → r.kind.rank ≤ o.kind.rank
  longest : r.kind = .suffixType ∨ r.kind = .prefixType → ∀ o, rules o → o.kind = r.kind →
    o.matches lib glob q = true → o.key.length ≤ r.key.length

variable (lib glob) in
/-- Two rules are foremost for a name. -/
def Tied (q : Bytes) (rules : NameRule W → Prop) : Prop :=
  2 ≤ q.length ∧ ∃ r r', r ≠ r' ∧ Foremost lib glob q rules r ∧ Foremost lib glob q rules r'

theorem Foremost.congr {q : Bytes} {rules rules' : NameRule W → Prop} {r : NameRule W}
    (h : Foremost lib glob q rules r) (hSame : ∀ o, rules' o ↔ rules o) :
    Foremost lib glob q rules' r :=
  ⟨(hSame r).mpr h.mem, h.hit, fun o ho => h.rank_le o ((hSame o).mp ho),
    fun hKind o ho => h.longest hKind o ((hSame o).mp ho)⟩

theorem Tied.congr {q : Bytes} {rules rules' : NameRule W → Prop} (h : Tied lib glob q rules)
    (hSame : ∀ o, rules' o ↔ rules o) : Tied lib glob q rules' := by
  obtain ⟨hLong, r, r', hNe, hr, hr'⟩ := h
  exact ⟨hLong, r, r', hNe, hr.congr hSame, hr'.congr hSame⟩

theorem TopRule.foremost {q : Bytes} {rules : List (NameRule W)} {p : NameRule W → Prop}
    (h : TopRule lib glob q rules p) : ∃ r, p r ∧ Foremost lib glob q (· ∈ rules) r := by
  obtain ⟨before, r, after, rfl, hCharge, hp⟩ := h
  exact ⟨r, hp, by simp, hCharge.chosen.hit, hCharge.chosen.rank_le, hCharge.chosen.longest⟩

/-- Some rule is in charge of a name that a rule matches. -/
theorem exists_topRule {q : Bytes} (hLong : 2 ≤ q.length) {rules : List (NameRule W)}
    {r : NameRule W} (hr : r ∈ rules) (hHit : r.matches lib glob q = true) :
    ∃ x, Foremost lib glob q (· ∈ rules) x ∧ TopRule lib glob q rules (· = x) := by
  obtain ⟨before, x, after, hRules, hCharge, -⟩ := (topRule_true hLong).mpr ⟨r, hr, hHit⟩
  have hTop : TopRule lib glob q rules (· = x) := ⟨before, x, after, hRules, hCharge, rfl⟩
  obtain ⟨y, rfl, hForemost⟩ := hTop.foremost
  exact ⟨y, hForemost, hTop⟩

/-- Foremost rules are of one kind, and those in a trie or among the exact names have
one key. -/
theorem Foremost.same {q : Bytes} {rules : NameRule W → Prop} {r r' : NameRule W}
    (h : Foremost lib glob q rules r) (h' : Foremost lib glob q rules r') :
    r.kind = r'.kind ∧ (¬ (r.kind = .substringType ∨ r.kind = .patternType) → r.key = r'.key) := by
  have hKind : r.kind = r'.kind :=
    PatternType.rank_injective
      (le_antisymm (h.rank_le r' h'.mem h'.hit) (h'.rank_le r h.mem h.hit))
  refine ⟨hKind, fun hOther => ?_⟩
  have hHit := h.hit
  have hHit' := h'.hit
  -- two beginnings of one text that are equally long
  have hPrefix : ∀ t : Bytes, r.key <+: t → r'.key <+: t → r.key.length = r'.key.length →
      r.key = r'.key := by
    intro t ht ht' hLength
    rw [prefix_iff_eq_take.mp ht, prefix_iff_eq_take.mp ht', hLength]
  have hLength : r.kind = .suffixType ∨ r.kind = .prefixType → r.key.length = r'.key.length :=
    fun hTrie => le_antisymm
      (h'.longest (hKind ▸ hTrie) r h.mem hKind h.hit)
      (h.longest hTrie r' h'.mem hKind.symm h'.hit)
  rw [NameRule.matches] at hHit hHit'
  rw [← hKind] at hHit'
  cases hk : r.kind with
  | exactType =>
    rw [hk] at hHit hHit'
    simp only [keyMatches, decide_eq_true_eq] at hHit hHit'
    rw [← hHit, ← hHit']
  | suffixType =>
    rw [hk] at hHit hHit'
    simp only [keyMatches, decide_eq_true_eq] at hHit hHit'
    exact hPrefix _ hHit hHit' (hLength (.inl hk))
  | prefixType =>
    rw [hk] at hHit hHit'
    simp only [keyMatches, decide_eq_true_eq] at hHit hHit'
    exact hPrefix _ hHit hHit' (hLength (.inr hk))
  | substringType => exact absurd (.inl hk) hOther
  | patternType => exact absurd (.inr hk) hOther

theorem topRule_perm {q : Bytes} {rules rules' : List (NameRule W)} {p : NameRule W → Prop}
    (hTied : ¬ Tied lib glob q (· ∈ rules)) (hPerm : rules'.Perm rules)
    (h : TopRule lib glob q rules p) : TopRule lib glob q rules' p := by
  have hLong : 2 ≤ q.length := by
    obtain ⟨_, _, _, -, hCharge, -⟩ := h
    exact hCharge.long
  obtain ⟨r, hp, hForemost⟩ := h.foremost
  obtain ⟨x, hx, hTop⟩ := exists_topRule hLong (hPerm.symm.subset hForemost.mem) hForemost.hit
  -- the rule in charge now is the foremost one as well
  have hEq : x = r := by
    by_contra hNe
    exact hTied ⟨hLong, x, r, hNe, hx.congr fun _ => hPerm.symm.mem_iff, hForemost⟩
  exact hTop.imp fun y (hy : y = x) => by rwa [hy, hEq]

theorem perm_exchange {α : Type} (mid : List α) (a b : α) :
    (b :: (mid ++ [a])).Perm (a :: (mid ++ [b])) :=
  ((perm_append_singleton a mid).cons b).trans
    ((List.Perm.swap a b mid).trans ((perm_append_singleton b mid).symm.cons a))

/-- Which of two foremost rules is in charge, when one is added first and the other
last. -/
theorem top_of_ends {q : Bytes} {mid : List (NameRule W)} {first last x : NameRule W}
    (hFirst : Foremost lib glob q (· ∈ first :: (mid ++ [last])) first)
    (hLast : Foremost lib glob q (· ∈ first :: (mid ++ [last])) last)
    (h : TopRule lib glob q (first :: (mid ++ [last])) (· = x)) :
    (x.kind = .suffixType ∨ x.kind = .prefixType → x = first) ∧
      (x.kind = .substringType ∨ x.kind = .patternType → x.key = first.key) ∧
      (¬ (x.kind = .suffixType ∨ x.kind = .prefixType) → last.key = x.key → x = last) := by
  obtain ⟨y, rfl, hx⟩ := h.foremost
  obtain ⟨before, x, after, hRules, hCharge, rfl⟩ := h
  obtain ⟨hKindFirst, hKeyFirst⟩ := hx.same hFirst
  obtain ⟨hKindLast, -⟩ := hx.same hLast
  refine ⟨fun hTrie => ?_, fun hScan => ?_, fun hMap hKey => ?_⟩
  · -- the first rule for a key stays
    have hKey := hKeyFirst (by rcases hTrie with h | h <;> simp [h])
    cases before with
    | nil => exact (cons.inj hRules).1.symm
    | cons b before =>
      have hKept := hCharge.kept
      rw [NotReplaced, if_pos hTrie] at hKept
      refine absurd ⟨?_, ?_⟩ (hKept first (mem_cons.mpr (.inl (cons.inj hRules).1)))
      · exact hKindFirst.symm
      · exact hKey.symm
  · -- the first rule is the first one that matches
    have hEarliest := hCharge.chosen.earliest hScan
    rw [← hRules, find?_cons_of_pos] at hEarliest
    · exact (some.inj hEarliest).symm
    · simp [hKindFirst, hFirst.hit]
  · -- the last rule for a key replaces the others
    have hEnd : (before ++ x :: after).getLast? = some last := by
      rw [← hRules, ← cons_append, getLast?_concat]
    rcases eq_nil_or_concat after with rfl | ⟨after, z, rfl⟩
    · rw [getLast?_concat] at hEnd
      exact some.inj hEnd
    · rw [concat_eq_append] at *
      have hz : z = last := by
        rw [← cons_append, ← append_assoc, getLast?_concat] at hEnd
        exact some.inj hEnd
      have hKept := hCharge.kept
      rw [NotReplaced, if_neg hMap] at hKept
      exact absurd ⟨hKindLast.symm, hKey⟩ (hKept last (by simp [hz]))

theorem topRule_swap {q : Bytes} {mid : List (NameRule W)} {r r' x : NameRule W} (hNe : r ≠ r')
    (hr : Foremost lib glob q (· ∈ r :: (mid ++ [r'])) r)
    (hr' : Foremost lib glob q (· ∈ r :: (mid ++ [r'])) r')
    (h : TopRule lib glob q (r :: (mid ++ [r'])) (· = x)) :
    ¬ TopRule lib glob q (r' :: (mid ++ [r])) (· = x) := by
  intro h'
  have hPerm : ∀ o, o ∈ r' :: (mid ++ [r]) ↔ o ∈ r :: (mid ++ [r']) :=
    fun _ => (perm_exchange mid r r').mem_iff
  obtain ⟨hTrie, hScan, hMap⟩ := top_of_ends hr hr' h
  obtain ⟨hTrie', hScan', hMap'⟩ := top_of_ends (hr'.congr hPerm) (hr.congr hPerm) h'
  obtain ⟨y, rfl, hx⟩ := h.foremost
  obtain ⟨hKind, hKey⟩ := hx.same hr
  obtain ⟨hKind', hKey'⟩ := hx.same hr'
  by_cases hx' : y.kind = .suffixType ∨ y.kind = .prefixType
  · exact hNe ((hTrie hx').symm.trans (hTrie' hx'))
  · -- both rules have the key of the rule in charge
    have hKeys : r.key = y.key ∧ r'.key = y.key := by
      by_cases hIndirect : y.kind = .substringType ∨ y.kind = .patternType
      · exact ⟨(hScan hIndirect).symm, (hScan' hIndirect).symm⟩
      · exact ⟨(hKey hIndirect).symm, (hKey' hIndirect).symm⟩
    exact hNe ((hMap' hx' hKeys.1).symm.trans (hMap hx' hKeys.2))

end DnscryptProxy
