import DnscryptProxy.Base.LongestPrefix
import DnscryptProxy.Query.Plugins
import DnscryptProxy.Rules.Text

/-!
# The IP lists at work

`PluginBlockIP.Eval` and `PluginAllowedIP.Eval` over the structures that
`LoadIPRules` fills: exact texts, texts with a final `*`, and networks. An answer
is compared by its text; of the texts with a `*` only the longest one that the
answer begins with is looked at. The radix tree answers with the longest stored
beginning (`Base.LongestPrefix`) and the table of networks with a network that
contains the address; both are taken to be correct.

* `mem_load` — what a file loads, line by line;
* `ruleFor_isSome` — the rules the code sees: those that match and are not
  shadowed by a longer text with a `*`;
* `ip_rules_union_iff` — when the code decides as if each rule was asked;
* `exact_rule_by_address_iff` — which spellings of an address match it.
-/

namespace DnscryptProxy

open Base List Option

/-! ## Answers -/

/-- The text of a `netip.Addr` that is not valid. -/
def invalidIP : Bytes := ascii "invalid IP"

/-- The text of an answer that has an address: `Addr.String()` for an A record,
and `Addr.Unmap().String()` for an AAAA record. -/
def RR.ipStr (rr : RR) : Option Bytes :=
  if rr.rclass ≠ ClassINET then none
  else
    match rr.rdata with
    | .a addr => some (if addr.length = 4 then ipv4Text addr else invalidIP)
    | .aaaa addr => some (if addr.length = 16 then ipText addr else invalidIP)
    | _ => none

/-- The texts of the addresses of a response. -/
def Msg.ipStrs (msg : Msg) : List Bytes := msg.answer.filterMap RR.ipStr

/-! ## The plugins -/

/-- The structures that `LoadIPRules` fills. -/
abbrev IPRules := IPField → List Bytes

section Eval

-- `MatchIP`: an address is in a network
variable (inNetwork : Bytes → Bytes → Bool)

/-- The check of the longest text with a `*`: the answer ends there, or goes on
with a new field. -/
def prefixReason (prefixes : List Bytes) (ipStr : Bytes) : Option Bytes :=
  match longestPrefix prefixes ipStr with
  | none => none
  | some found =>
    if found.length = ipStr.length ∨ ipStr[found.length]? = some '.'.toUInt8 ∨
        ipStr[found.length]? = some ':'.toUInt8 then
      some (found ++ ['*'.toUInt8])
    else none

/-- The network of an answer. `ParseIP` is asked only if there are networks. -/
def networkReason (networks : List Bytes) (ipStr : Bytes) : Option Bytes :=
  if networks.length > 0 then
    match parseIP ipStr with
    | none => none
    | some ip => networks.find? fun network => inNetwork network ip
  else none

/-- The body of the loop over the answers: the reason for which one is matched. -/
def ruleFor (rules : IPRules) (ipStr : Bytes) : Option Bytes :=
  if (rules .ips).contains ipStr then some ipStr
  else
    match prefixReason (rules .prefixes) ipStr with
    | some reason => some reason
    | none => networkReason inNetwork (rules .networks) ipStr

/-- The loop over the answers, up to the first one that is matched. -/
def matchAnswers (rules : IPRules) : List RR → Option Bytes
  | [] => none
  | rr :: rest =>
    match rr.ipStr with
    | none => matchAnswers rules rest
    | some ipStr =>
      match ruleFor inNetwork rules ipStr with
      | some reason => some reason
      | none => matchAnswers rules rest

variable (rules : IPRules) (logErr : Option GoError) (ps : PluginsState) (msg : Msg)

/-- `PluginBlockIP.Eval`; `logErr` is the error of the log, if it is written. -/
def evalBlockIP : PluginsState × Option GoError :=
  if ps.whitelisted then (ps, none)
  else if msg.answer.length = 0 then (ps, none)
  else
    match matchAnswers inNetwork rules msg.answer with
    | none => (ps, none)
    | some _ => ({ ps with action := .reject, returnCode := .reject }, logErr)

/-- `PluginAllowedIP.Eval`. -/
def evalAllowedIP : PluginsState × Option GoError :=
  if msg.answer.length = 0 then (ps, none)
  else
    match matchAnswers inNetwork rules msg.answer with
    | none => (ps, none)
    | some _ => ({ ps with whitelisted := true }, logErr)

end Eval

/-! ## Rules -/

/-- What a line of the file says. -/
inductive IPRule where
  | exactText (text : Bytes)
  | wildcard (text : Bytes)
  | network (key : Bytes)
deriving Repr, DecidableEq

/-- The rule of a line, if it has no error. -/
def ipRuleOf (lib : TextLib) (line : Nat × Bytes) : Option IPRule :=
  if '/'.toUInt8 ∈ line.2 then (lib.parseCIDR line.2).map .network
  else
    match parseIPRule lib line.2 line.1 with
    | .error _ => none
    | .ok (cleanLine, trailingStar) =>
      some (if trailingStar then .wildcard cleanLine else .exactText cleanLine)

/-- The rule that a key of a structure comes from. -/
def IPField.rule : IPField → Bytes → IPRule
  | .ips => .exactText
  | .prefixes => .wildcard
  | .networks => .network

/-- The rules of a file. -/
def ipRulesOf (lib : TextLib) (content : Bytes) : List IPRule :=
  (processConfigLines lib content).filterMap (ipRuleOf lib)

/-- A rule matches the text of an address. -/
def IPRule.Matches (inNetwork : Bytes → Bytes → Bool) (s : Bytes) : IPRule → Prop
  | exactText text => s = text
  | wildcard text =>
    s = text ∨ ∃ c, (c = '.'.toUInt8 ∨ c = ':'.toUInt8) ∧ text ++ [c] <+: s
  | network key => ∃ ip, parseIP s = some ip ∧ inNetwork key ip = true

/-! ## Loading -/

theorem ipRuleOf_target (lib : TextLib) (line : Nat × Bytes) (i : IPField) (k : Bytes) :
    (ipRuleTarget lib line = some i ∧ ipRuleKey lib line = some k) ↔
      ipRuleOf lib line = some (i.rule k) := by
  unfold ipRuleTarget ipRuleKey ipRuleOf
  by_cases hSlash : '/'.toUInt8 ∈ line.2
  · simp only [if_pos hSlash]
    cases lib.parseCIDR line.2 with
    | none => simp
    | some key => cases i <;> simp [IPField.rule]
  · simp only [if_neg hSlash]
    cases parseIPRule lib line.2 line.1 with
    | error e => simp
    | ok r =>
      obtain ⟨cleanLine, trailingStar⟩ := r
      cases trailingStar <;> cases i <;> simp [IPField.rule]

theorem mem_addKey {keys : List Bytes} {key : Option Bytes} {k : Bytes} :
    k ∈ addKey keys key ↔ k ∈ keys ∨ key = some k := by
  cases key with
  | none => simp [addKey]
  | some key =>
    simp only [addKey, some.injEq]
    split
    · next hMem =>
      refine ⟨.inl, fun h => h.elim id ?_⟩
      rintro rfl
      exact hMem
    · rw [mem_append, mem_singleton, eq_comm]

theorem mem_load (lib : TextLib) (content : Bytes) (i : IPField) (k : Bytes) :
    k ∈ (ipListPlugin lib).load content i ↔ i.rule k ∈ ipRulesOf lib content := by
  have hAfter : ∀ done : List (Nat × Bytes), k ∈ (ipListPlugin lib).partAfter done i ↔
        ∃ line ∈ done, ipRuleTarget lib line = some i ∧ ipRuleKey lib line = some k := by
    intro done
    induction done using reverseRecOn with
    | nil =>
      refine iff_of_false (fun h => nomatch h) ?_
      rintro ⟨line, hLine, -⟩
      cases hLine
    | append_singleton done line ih =>
      rw [RulePlugin.partAfter_concat, RulePlugin.addTo]
      show k ∈ (if ipRuleTarget lib line = some i then _ else _) ↔ _
      by_cases hTarget : ipRuleTarget lib line = some i
      · rw [if_pos hTarget]
        show k ∈ addKey _ (ipRuleKey lib line) ↔ _
        rw [mem_addKey, ih]
        simp only [mem_append, mem_singleton, or_and_right, exists_or, exists_eq_left,
          hTarget, true_and]
      · rw [if_neg hTarget, ih]
        simp only [mem_append, mem_singleton, or_and_right, exists_or, exists_eq_left,
          hTarget, false_and, or_false]
  show k ∈ (ipListPlugin lib).partAfter (processConfigLines lib content) i ↔ _
  rw [hAfter]
  simp only [ipRuleOf_target, ipRulesOf, mem_filterMap]

/-! ## What the code sees -/

/-- The text of a wildcard rule is a beginning of what it matches. -/
theorem wildcard_boundary {text s : Bytes} (h : text <+: s) :
    (text.length = s.length ∨ s[text.length]? = some '.'.toUInt8 ∨
        s[text.length]? = some ':'.toUInt8) ↔
      (s = text ∨ ∃ c, (c = '.'.toUInt8 ∨ c = ':'.toUInt8) ∧ text ++ [c] <+: s) := by
  obtain ⟨rest, rfl⟩ := h
  have hNext : (text ++ rest)[text.length]? = rest.head? := by
    rw [getElem?_append_right (Nat.le_refl _), Nat.sub_self, head?_eq_getElem?]
  have hGoesOn : ∀ c, text ++ [c] <+: text ++ rest ↔ rest.head? = some c := by
    intro c
    rw [prefix_append_right_inj]
    cases rest with
    | nil => simp
    | cons d rest => simp [cons_prefix_cons, eq_comm]
  have hEnd : text.length = (text ++ rest).length ↔ text ++ rest = text := by simp
  rw [hNext, hEnd]
  simp only [hGoesOn]
  constructor
  · rintro (h | h | h)
    · exact .inl h
    · exact .inr ⟨_, .inl rfl, h⟩
    · exact .inr ⟨_, .inr rfl, h⟩
  · rintro (h | ⟨c, rfl | rfl, h⟩)
    · exact .inl h
    · exact .inr (.inl h)
    · exact .inr (.inr h)

theorem prefixReason_isSome {prefixes : List Bytes} {s : Bytes} :
    (prefixReason prefixes s).isSome = true ↔
      ∃ text ∈ prefixes, (∀ q ∈ prefixes, q <+: s → q.length ≤ text.length) ∧
        (s = text ∨ ∃ c, (c = '.'.toUInt8 ∨ c = ':'.toUInt8) ∧ text ++ [c] <+: s) := by
  constructor
  · intro h
    unfold prefixReason at h
    split at h
    · cases h
    · next text hFound =>
      obtain ⟨hMem, hPrefix, hMax⟩ := longestPrefix_eq_some.mp hFound
      split at h
      · next hBoundary => exact ⟨text, hMem, hMax, (wildcard_boundary hPrefix).mp hBoundary⟩
      · cases h
  · rintro ⟨text, hMem, hMax, hMatch⟩
    have hPrefix : text <+: s := by
      rcases hMatch with rfl | ⟨c, -, hc⟩
      · exact prefix_rfl
      · exact (prefix_append text [c]).trans hc
    have hFound := longestPrefix_eq_some.mpr ⟨hMem, hPrefix, hMax⟩
    rw [prefixReason, hFound]
    simp only []
    rw [if_pos ((wildcard_boundary hPrefix).mpr hMatch)]
    rfl

theorem networkReason_isSome {inNetwork : Bytes → Bytes → Bool} {networks : List Bytes}
    {s : Bytes} :
    (networkReason inNetwork networks s).isSome = true ↔
      ∃ key ∈ networks, ∃ ip, parseIP s = some ip ∧ inNetwork key ip = true := by
  unfold networkReason
  by_cases hAny : networks.length > 0
  · rw [if_pos hAny]
    cases parseIP s with
    | none => simp
    | some ip => simp [find?_isSome]
  · obtain rfl : networks = [] := length_eq_zero_iff.mp (by omega)
    simp

/-- A rule that matches, and that no longer text with a `*` hides. -/
def IPRule.Seen (inNetwork : Bytes → Bytes → Bool) (rules : List IPRule) (s : Bytes)
    (rule : IPRule) : Prop :=
  rule.Matches inNetwork s ∧
    ∀ text, rule = .wildcard text → ∀ q, .wildcard q ∈ rules → q <+: s → q.length ≤ text.length

section Seen

variable (lib : TextLib) (inNetwork : Bytes → Bytes → Bool) (content : Bytes)

theorem ruleFor_isSome (s : Bytes) :
    (ruleFor inNetwork ((ipListPlugin lib).load content) s).isSome = true ↔
      ∃ rule ∈ ipRulesOf lib content, rule.Seen inNetwork (ipRulesOf lib content) s := by
  have hOr : ∀ a b : Option Bytes, (match a with
      | some reason => some reason
      | none => b).isSome = true ↔ a.isSome = true ∨ b.isSome = true := by
    rintro (_ | _) b <;> simp
  unfold ruleFor
  by_cases hExact : s ∈ (ipListPlugin lib).load content .ips
  · rw [if_pos (contains_iff_mem.mpr hExact)]
    exact iff_of_true rfl ⟨_, (mem_load ..).mp hExact, rfl, nofun⟩
  · rw [if_neg (mt contains_iff_mem.mp hExact), hOr, prefixReason_isSome, networkReason_isSome]
    simp only [mem_load]
    constructor
    · rintro (⟨text, hMem, hMax, hMatch⟩ | ⟨key, hMem, hIn⟩)
      · refine ⟨.wildcard text, hMem, hMatch, ?_⟩
        rintro _ ⟨⟩
        exact hMax
      · exact ⟨.network key, hMem, hIn, nofun⟩
    · rintro ⟨rule, hRule, hMatch, hMax⟩
      cases rule with
      | exactText text =>
        obtain rfl : s = text := hMatch
        exact absurd ((mem_load ..).mpr hRule) hExact
      | wildcard text => exact .inl ⟨text, hRule, hMax text rfl, hMatch⟩
      | network key => exact .inr ⟨key, hRule, hMatch⟩

theorem matchAnswers_isSome (rules : IPRules) (answers : List RR) :
    (matchAnswers inNetwork rules answers).isSome = true ↔
      ∃ s ∈ answers.filterMap RR.ipStr, (ruleFor inNetwork rules s).isSome = true := by
  induction answers with
  | nil => simp [matchAnswers]
  | cons rr rest ih =>
    rw [matchAnswers, filterMap_cons]
    cases rr.ipStr with
    | none => exact ih
    | some s =>
      simp only [exists_mem_cons_iff]
      cases hRule : ruleFor inNetwork rules s with
      | some reason => simp
      | none => simpa using ih

/-! ## The rules as a union -/

/-- Some address of the response is matched by some rule of the file. -/
def Matched (msg : Msg) : Prop :=
  ∃ s ∈ msg.ipStrs, ∃ rule ∈ ipRulesOf lib content, rule.Matches inNetwork s

/-- Some address of the response is matched by a rule that no longer text with a
`*` hides. -/
def Decided (msg : Msg) : Prop :=
  ∃ s ∈ msg.ipStrs, ∃ rule ∈ ipRulesOf lib content, rule.Seen inNetwork (ipRulesOf lib content) s

theorem Decided.matched {lib : TextLib} {inNetwork : Bytes → Bytes → Bool} {content : Bytes}
    {msg : Msg} (h : Decided lib inNetwork content msg) : Matched lib inNetwork content msg := by
  obtain ⟨s, hs, rule, hRule, hSeen⟩ := h
  exact ⟨s, hs, rule, hRule, hSeen.1⟩

theorem matchAnswers_decided (msg : Msg) :
    (matchAnswers inNetwork ((ipListPlugin lib).load content) msg.answer).isSome = true ↔
      Decided lib inNetwork content msg := by
  rw [matchAnswers_isSome]
  simp only [ruleFor_isSome]
  rfl

variable (logErr : Option GoError) (ps : PluginsState) (msg : Msg)

theorem evalBlockIP_action :
    (evalBlockIP inNetwork ((ipListPlugin lib).load content) logErr ps msg).1.action = .reject ↔
      ps.action = .reject ∨ (ps.whitelisted = false ∧ Decided lib inNetwork content msg) := by
  unfold evalBlockIP
  by_cases hWhite : ps.whitelisted = true
  · rw [if_pos hWhite]
    simp [hWhite]
  rw [if_neg hWhite, ← matchAnswers_decided]
  by_cases hEmpty : msg.answer.length = 0
  · have hNil : msg.answer = [] := length_eq_zero_iff.mp hEmpty
    rw [if_pos hEmpty, hNil]
    simp [matchAnswers]
  · rw [if_neg hEmpty]
    cases matchAnswers inNetwork ((ipListPlugin lib).load content) msg.answer with
    | none => simp
    | some reason => simp [hWhite]

theorem evalAllowedIP_whitelisted :
    (evalAllowedIP inNetwork ((ipListPlugin lib).load content) logErr ps msg).1.whitelisted = true ↔
      ps.whitelisted = true ∨ Decided lib inNetwork content msg := by
  unfold evalAllowedIP
  rw [← matchAnswers_decided]
  by_cases hEmpty : msg.answer.length = 0
  · have hNil : msg.answer = [] := length_eq_zero_iff.mp hEmpty
    rw [if_pos hEmpty, hNil]
    simp [matchAnswers]
  · rw [if_neg hEmpty]
    cases matchAnswers inNetwork ((ipListPlugin lib).load content) msg.answer with
    | none => simp
    | some reason => simp

/-- Asking for less makes no difference iff what is asked for less is found anyway. -/
theorem or_iff_or_iff {p d m : Prop} (h : d → m) : (p ∨ d ↔ p ∨ m) ↔ (m → p ∨ d) := by
  constructor
  · exact fun hIff hm => hIff.mpr (.inr hm)
  · exact fun hFound => ⟨Or.imp_right h, fun hOr => hOr.elim .inl hFound⟩

/-- The lists decide as if every rule was asked, exactly if a response with a
match also has one by a rule that no longer text with a `*` hides. The block list
is not asked about a session that is on the allow list. -/
theorem ip_rules_union_iff :
    (((evalBlockIP inNetwork ((ipListPlugin lib).load content) logErr ps msg).1.action = .reject ↔
        ps.action = .reject ∨ Matched lib inNetwork content msg) ↔
      (Matched lib inNetwork content msg →
        ps.action = .reject ∨ (ps.whitelisted = false ∧ Decided lib inNetwork content msg))) ∧
    (((evalAllowedIP inNetwork ((ipListPlugin lib).load content) logErr ps msg).1.whitelisted =
          true ↔
        ps.whitelisted = true ∨ Matched lib inNetwork content msg) ↔
      (Matched lib inNetwork content msg →
        ps.whitelisted = true ∨ Decided lib inNetwork content msg)) := by
  rw [evalBlockIP_action, evalAllowedIP_whitelisted]
  exact ⟨or_iff_or_iff fun h => h.2.matched, or_iff_or_iff Decided.matched⟩

end Seen

/-- A response with one address. -/
def addressAnswer (rdata : RData) : Msg :=
  { rootAnswer with answer := [{ name := [dot], rclass := ClassINET, ttl := 60, rdata := rdata }] }

/-- A session before any plugin. -/
def newSession : PluginsState := newPluginsState defaultProxyParams .udp .udp 0

def nestedRules : Bytes := ascii "10.*\n10.1*"

/-- With `10.*` and `10.1*` the address 10.12.0.1 is matched by the first rule, but
only the second one is looked at. -/
theorem nested_wildcards_miss :
    (addressAnswer (.a [10, 12, 0, 1])).ipStrs = [ascii "10.12.0.1"] ∧
      ipRulesOf asciiText nestedRules = [.wildcard (ascii "10"), .wildcard (ascii "10.1")] ∧
      ascii "10" ++ ['.'.toUInt8] <+: ascii "10.12.0.1" ∧
      (evalBlockIP (fun _ _ => false) ((ipListPlugin asciiText).load nestedRules) none newSession
        (addressAnswer (.a [10, 12, 0, 1]))).1.action = .continue ∧
      (evalAllowedIP (fun _ _ => false) ((ipListPlugin asciiText).load nestedRules) none newSession
        (addressAnswer (.a [10, 12, 0, 1]))).1.whitelisted = false := by
  decide +kernel

/-! ## Exact rules -/

/-- The address of an answer, in sixteen bytes. -/
def RR.ip (rr : RR) : Option Bytes :=
  if rr.rclass ≠ ClassINET then none
  else
    match rr.rdata with
    | .a addr => if addr.length = 4 then some (v4InV6 ++ addr) else none
    | .aaaa addr => if addr.length = 16 then some addr else none
    | _ => none

/-- The only address of the response is `a`. -/
def Msg.OnlyAddress (msg : Msg) (a : Bytes) : Prop :=
  ∃ rr, (msg.answer.filter fun rr => rr.ipStr.isSome) = [rr] ∧ rr.ip = some a

theorem unmap_v4InV6 (addr : Bytes) : unmap (v4InV6 ++ addr) = some addr := by
  have hLength : v4InV6.length = 12 := rfl
  rw [unmap, take_left' hLength, if_pos rfl, drop_left' hLength]

theorem RR.ipStr_of_ip {rr : RR} {a : Bytes} (h : rr.ip = some a) :
    rr.ipStr = some (ipText a) ∧ a.length = 16 := by
  unfold RR.ip at h
  unfold RR.ipStr
  split at h
  · cases h
  · next hClass =>
    rw [if_neg hClass]
    cases hData : rr.rdata with
    | a addr =>
      simp only [hData] at h ⊢
      split at h
      · next hFour =>
        obtain rfl : v4InV6 ++ addr = a := some.inj h
        refine ⟨?_, by rw [length_append, hFour]; rfl⟩
        rw [if_pos hFour, ipText, unmap_v4InV6]
      · cases h
    | aaaa addr =>
      simp only [hData] at h ⊢
      split at h
      · next hSixteen =>
        obtain rfl : addr = a := some.inj h
        exact ⟨by rw [if_pos hSixteen], hSixteen⟩
      · cases h
    | hinfo cpu os => simp [hData] at h
    | txt txts => simp [hData] at h
    | raw rtype data => simp [hData] at h

theorem Msg.OnlyAddress.ipStrs {msg : Msg} {a : Bytes} (h : msg.OnlyAddress a) :
    msg.ipStrs = [ipText a] ∧ a.length = 16 := by
  obtain ⟨rr, hOnly, hIp⟩ := h
  obtain ⟨hText, hLength⟩ := RR.ipStr_of_ip hIp
  refine ⟨?_, hLength⟩
  have hFilter : msg.answer.filterMap RR.ipStr =
      (msg.answer.filter fun rr => rr.ipStr.isSome).filterMap RR.ipStr := by
    rw [filterMap_filter]
    congr 1
    funext rr
    cases rr.ipStr <;> rfl
  rw [Msg.ipStrs, hFilter, hOnly]
  simp [hText]

/-- An AAAA record for any address. -/
theorem onlyAddress_addressAnswer {a : Bytes} (h : a.length = 16) :
    (addressAnswer (.aaaa a)).OnlyAddress a := by
  refine ⟨{ name := [dot], rclass := ClassINET, ttl := 60, rdata := .aaaa a }, ?_, ?_⟩
  · rfl
  · rw [RR.ip, if_neg (by simp)]
    simp [h]

/-- The text of a rule without a final colon or period. -/
def trimRuleEnd (line : Bytes) : Bytes :=
  if line.getLast? = some ':'.toUInt8 ∨ line.getLast? = some '.'.toUInt8 then line.dropLast
  else line

theorem isGraphic_of_isAddrByte {s : Bytes} (h : ∀ c ∈ s, isAddrByte c = true) : IsGraphic s := by
  have hByte : ∀ n < 256, isAddrByte (UInt8.ofNat n) = true →
      33 ≤ UInt8.ofNat n ∧ UInt8.ofNat n ≤ 126 := by
    decide +kernel
  intro c hc
  have := hByte c.toNat c.toNat_lt
  rw [UInt8.ofNat_toNat] at this
  exact this (h c hc)

theorem splitByte_of_not_mem {sep : UInt8} {s : Bytes} (h : sep ∉ s) : splitByte sep s = [s] := by
  rw [splitByte_eq_splitOn, splitOn_of_not_mem h]

/-- A file that is one line without blanks and comments. -/
theorem processConfigLines_single {lib : TextLib} (hLib : lib.Lawful) {line : Bytes}
    (hGraphic : IsGraphic line) (hHash : '#'.toUInt8 ∉ line) (hNe : line ≠ []) :
    processConfigLines lib line = [(0, line)] := by
  have hNewline : '\n'.toUInt8 ∉ line := fun hMem => absurd (hGraphic _ hMem).1 (by decide)
  have hTrim : trimAndStripInlineComments lib line = line := by
    rw [trimAndStripInlineComments, lastIndexByte_eq_none hHash]
    exact hLib.trimSpace_eq line hGraphic
  rw [processConfigLines, splitByte_of_not_mem hNewline]
  simp [hTrim, hNe]

section Exact

variable {lib : TextLib} (hLib : lib.Lawful) {line ip : Bytes} (hIP : parseIP line = some ip)
include hLib hIP

/-- The rule of an address: its text in lower case, without a final colon. -/
theorem ipRulesOf_address :
    ipRulesOf lib line = [.exactText ((trimRuleEnd line).map lowerByte)] := by
  obtain ⟨-, hTwo, hBytes⟩ := parseIP_bytes hIP
  have hOther : ∀ c : UInt8, isAddrByte c = false → c ∉ line := by
    intro c hc hMem
    rw [hBytes c hMem] at hc
    cases hc
  have hGraphic := isGraphic_of_isAddrByte hBytes
  have hNe : line ≠ [] := by
    rintro rfl
    cases hTwo
  have hStar : decide (line.getLast? = some '*'.toUInt8) = false :=
    decide_eq_false fun hLast => hOther _ (by decide) (mem_of_getLast? hLast)
  have hTrimmed : ∀ c ∈ trimRuleEnd line, c ∈ line := by
    intro c hc
    unfold trimRuleEnd at hc
    split at hc
    · exact mem_of_mem_dropLast hc
    · exact hc
  have hTrimNe : trimRuleEnd line ≠ [] := by
    unfold trimRuleEnd
    split
    · intro hNil
      have := congrArg length hNil
      rw [length_dropLast] at this
      simp only [length_nil] at this
      omega
    · exact hNe
  have hRule : parseIPRule lib line 0 = .ok ((trimRuleEnd line).map lowerByte, false) := by
    have hLower := hLib.toLower_eq (trimRuleEnd line)
      fun c hc => (IsGraphic.isAscii hGraphic) c (hTrimmed c hc)
    unfold parseIPRule
    simp only [hStar, Bool.and_false, Bool.false_eq_true, or_false, if_false]
    rw [if_neg (by omega)]
    show (if trimRuleEnd line = [] then _ else if '*'.toUInt8 ∈ trimRuleEnd line then _
      else Except.ok (lib.toLower (trimRuleEnd line), false)) = _
    rw [if_neg hTrimNe, if_neg fun hMem => hOther _ (by decide) (hTrimmed _ hMem), hLower]
  rw [ipRulesOf, processConfigLines_single hLib hGraphic (hOther _ (by decide)) hNe]
  simp only [filterMap_cons, filterMap_nil]
  rw [ipRuleOf, if_neg (hOther _ (by decide)), hRule]
  rfl

theorem decided_address (inNetwork : Bytes → Bytes → Bool) (msg : Msg) :
    Decided lib inNetwork line msg ↔ (trimRuleEnd line).map lowerByte ∈ msg.ipStrs := by
  rw [Decided, ipRulesOf_address hLib hIP]
  constructor
  · rintro ⟨s, hs, rule, hRule, hMatch, -⟩
    obtain rfl := mem_singleton.mp hRule
    exact (show s = _ from hMatch) ▸ hs
  · intro h
    exact ⟨_, h, _, mem_singleton.mpr rfl, rfl, fun _ hEq => nomatch hEq⟩

end Exact

/-- The rule with the address `ip` rejects exactly the responses with this address. -/
def RejectsByAddress (lib : TextLib) (inNetwork : Bytes → Bytes → Bool) (logErr : Option GoError)
    (ps : PluginsState) (line ip : Bytes) : Prop :=
  ∀ msg a, Msg.OnlyAddress msg a →
    ((evalBlockIP inNetwork ((ipListPlugin lib).load line) logErr ps msg).1.action = .reject ↔
      ps.action = .reject ∨ a = ip)

/-- A rule matches its address by itself if and only if the line, in lower case and
without a final colon, is the text that Go prints for the address. -/
theorem exact_rule_by_address_iff {lib : TextLib} (hLib : lib.Lawful)
    (inNetwork : Bytes → Bytes → Bool) (logErr : Option GoError) (ps : PluginsState)
    {line ip : Bytes} (hIP : parseIP line = some ip) :
    RejectsByAddress lib inNetwork logErr ps line ip ↔ ps.action = .reject ∨
        (ps.whitelisted = false ∧ (trimRuleEnd line).map lowerByte = ipText ip) := by
  obtain ⟨hLength, -⟩ := parseIP_bytes hIP
  have hEval : ∀ msg a, Msg.OnlyAddress msg a →
      ((evalBlockIP inNetwork ((ipListPlugin lib).load line) logErr ps msg).1.action = .reject ↔
        ps.action = .reject ∨
          (ps.whitelisted = false ∧ (trimRuleEnd line).map lowerByte = ipText a)) := by
    intro msg a hOnly
    rw [evalBlockIP_action, decided_address hLib hIP, hOnly.ipStrs.1, mem_singleton]
  constructor
  · intro h
    -- the response with the address of the rule
    have hOnly := onlyAddress_addressAnswer hLength
    exact (hEval _ _ hOnly).mp ((h _ _ hOnly).mpr (.inr rfl))
  · intro h msg a hOnly
    rw [hEval msg a hOnly]
    rcases h with hAction | ⟨hWhite, hText⟩
    · exact iff_of_true (.inl hAction) (.inl hAction)
    · rw [hText]
      refine or_congr_right ?_
      constructor
      · rintro ⟨-, hEq⟩
        exact (ipText_injective hLength hOnly.ipStrs.2 hEq).symm
      · rintro rfl
        exact ⟨hWhite, rfl⟩

/-- A rule in the text that Go prints. -/
theorem exact_rule_canonical :
    RejectsByAddress asciiText (fun _ _ => false) none newSession (ascii "2001:DB8::1")
      [0x20, 0x01, 0x0d, 0xb8, 0, 0, 0, 0, 0, 0, 0, 0, 0, 0, 0, 1] :=
  (exact_rule_by_address_iff asciiText_lawful _ _ _ (by decide +kernel)).mpr
    (.inr ⟨rfl, by decide +kernel⟩)

/-- The line is a text of the address of the response, and the response passes. -/
def spellingMisses (line : String) (rdata : RData) : Bool :=
  decide ((addressAnswer rdata).answer.map RR.ip = [parseIP (ascii line)]) &&
    (parseIP (ascii line)).isSome &&
    decide ((evalBlockIP (fun _ _ => false) ((ipListPlugin asciiText).load (ascii line)) none
      newSession (addressAnswer rdata)).1.action = .continue)

/-- Four spellings of addresses that do not match them: leading zeros, zeros that
are written out, a final `::`, and an IPv4 address that is mapped into IPv6. -/
theorem other_spellings_miss :
    spellingMisses "2001:0db8::1"
        (.aaaa [0x20, 1, 0x0d, 0xb8, 0, 0, 0, 0, 0, 0, 0, 0, 0, 0, 0, 1]) = true ∧
      spellingMisses "2001:db8:0:0:0:0:0:1"
        (.aaaa [0x20, 1, 0x0d, 0xb8, 0, 0, 0, 0, 0, 0, 0, 0, 0, 0, 0, 1]) = true ∧
      spellingMisses "2001:db8::"
        (.aaaa [0x20, 1, 0x0d, 0xb8, 0, 0, 0, 0, 0, 0, 0, 0, 0, 0, 0, 0]) = true ∧
      spellingMisses "::ffff:192.0.2.1" (.a [192, 0, 2, 1]) = true := by
  decide +kernel

end DnscryptProxy
