import DnscryptProxy.Cloak.Load
import DnscryptProxy.Query.Plugins

/-!
# Answering a cloaked name

`PluginCloak.Eval` of `plugin_cloak.go`: the rule for the name of a query, the
resolution of its target if it follows one, and the answer. What is found is kept
in the entry of the rule; its kind, its target and its reverse names are not
touched (`evalAll_keeps`).
-/

namespace DnscryptProxy

open Base

/-- `PluginCloak`, as far as `Eval` uses it: the matcher, the entries its values
point to, and the TTL of the answers. -/
structure PluginCloak where
  patternMatcher : PatternMatcher Bytes
  names : CloakedNames
  ttl : UInt32

/-- What `Eval` gets from outside. -/
structure CloakEnv where
  now : Time
  /-- `resolveUsingServers` for addresses of this type -/
  resolve : Bytes → UInt16 → Except GoError (List Bytes)
  /-- `rand.Shuffle` -/
  shuffle : List RR → List RR

section Eval

variable (lib : CloakText) (glob : Bytes → Bytes → Bool)

/-- The rule that a matcher selects for a name. -/
def selectedRule (m : PatternMatcher Bytes) (qName : Bytes) : Option Bytes :=
  (m.eval lib.toTextLib glob qName).bind (·.2)

/-- The rule for a name. -/
def PluginCloak.ruleFor (plugin : PluginCloak) (qName : Bytes) : Option Bytes :=
  selectedRule lib glob plugin.patternMatcher qName

/-- The TTL that is left of what was found before, and whether there is none left. -/
def ttlLeft (ttl : UInt32) (now : Time) (lastUpdate : Option Time) : UInt32 × Bool :=
  match lastUpdate with
  | none => (ttl, false)
  | some t =>
    let elapsed := UInt32.ofNat ((now - t) / Second).toNat
    if elapsed < ttl then (ttl - elapsed, false) else (ttl, true)

/-- The time of the last update of the addresses of this type. -/
def CloakedName.lastUpdate (c : CloakedName) (qtype : UInt16) : Option Time :=
  if qtype = TypeA then c.lastUpdate4 else if qtype = TypeAAAA then c.lastUpdate6 else none

/-- The entry with the addresses that were found. -/
def CloakedName.update (c : CloakedName) (now : Time) (qtype : UInt16) (foundIPs : List Bytes) :
    CloakedName :=
  if foundIPs.length > 0 then
    let n := min 16 foundIPs.length
    if qtype = TypeA then { c with lastUpdate4 := some now, ipv4 := foundIPs.take n }
    else if qtype = TypeAAAA then { c with lastUpdate6 := some now, ipv6 := foundIPs.take n }
    else c
  else c

/-- The records of an answer. The data of a PTR record is its name. -/
def CloakedName.answer (c : CloakedName) (qname : Bytes) (qtype : UInt16) (ttl : UInt32) :
    List RR :=
  let rr (rdata : RData) : RR := { name := qname, rclass := ClassINET, ttl, rdata }
  if qtype = TypeA then c.ipv4.map fun ip => rr (.a ip)
  else if qtype = TypeAAAA then c.ipv6.map fun ip => rr (.aaaa ip)
  else if qtype = TypePTR then c.PTR.map fun ptr => rr (.raw TypePTR ptr)
  else []

/-- The session with a synthesized response. -/
def cloakSynth (ps : PluginsState) (synth : Msg) : PluginsState :=
  { ps with synthResponse := some synth, action := .synth, returnCode := .cloak }

/-- `PluginCloak.Eval`. A query has one question. -/
def PluginCloak.eval (env : CloakEnv) (plugin : PluginCloak) (ps : PluginsState) (msg : Msg) :
    PluginCloak × PluginsState :=
  match msg.question with
  | [] => (plugin, ps)
  | question :: _ =>
    let qtype := question.qtype
    let qname := question.name.bytes
    if question.qclass ≠ ClassINET ∨ qtype = TypeNS ∨ qtype = TypeSOA then (plugin, ps)
    else
      match plugin.ruleFor lib glob ps.qName with
      | none => (plugin, ps)
      | some key =>
        if qtype ≠ TypeA ∧ qtype ≠ TypeAAAA ∧ qtype ≠ TypePTR then
          (plugin, { ps with action := .reject, returnCode := .cloak })
        else
          let c := plugin.names.get key
          let ttl := ttlLeft plugin.ttl env.now (c.lastUpdate qtype)
          let synth := emptyResponseFromMessage msg
          if c.followsTarget && (decide (qtype = TypeA ∧ c.ipv4 = []) ||
              decide (qtype = TypeAAAA ∧ c.ipv6 = []) || ttl.2) then
            match env.resolve c.target qtype with
            | .error _ => (plugin, cloakSynth ps { synth with rcode := RcodeServerFailure })
            | .ok foundIPs =>
              let c := c.update env.now qtype foundIPs
              ({ plugin with names := mapAssign plugin.names key c },
                cloakSynth ps { synth with answer := env.shuffle (c.answer qname qtype ttl.1) })
          else
            (plugin,
              cloakSynth ps { synth with answer := env.shuffle (c.answer qname qtype ttl.1) })

/-- The plugin after it was asked this. -/
def PluginCloak.evalAll (plugin : PluginCloak) (calls : List (CloakEnv × PluginsState × Msg)) :
    PluginCloak :=
  calls.foldl (fun plugin c => (plugin.eval lib glob c.1 c.2.1 c.2.2).1) plugin

end Eval

/-! ## What stays -/

/-- The rules of two states are the same. -/
structure SameRules (plugin plugin' : PluginCloak) : Prop where
  patternMatcher : plugin'.patternMatcher = plugin.patternMatcher
  target : ∀ key, (plugin'.names.get key).target = (plugin.names.get key).target
  isIP : ∀ key, (plugin'.names.get key).isIP = (plugin.names.get key).isIP
  ptr : ∀ key, (plugin'.names.get key).PTR = (plugin.names.get key).PTR

theorem SameRules.refl (plugin : PluginCloak) : SameRules plugin plugin :=
  ⟨rfl, fun _ => rfl, fun _ => rfl, fun _ => rfl⟩

theorem SameRules.trans {a b c : PluginCloak} (h : SameRules a b) (h' : SameRules b c) :
    SameRules a c :=
  ⟨h'.patternMatcher.trans h.patternMatcher, fun k => (h'.target k).trans (h.target k),
    fun k => (h'.isIP k).trans (h.isIP k), fun k => (h'.ptr k).trans (h.ptr k)⟩

theorem SameRules.followsTarget {a b : PluginCloak} (h : SameRules a b) (key : Bytes) :
    (b.names.get key).followsTarget = (a.names.get key).followsTarget := by
  rw [CloakedName.followsTarget, CloakedName.followsTarget, h.target, h.isIP]

theorem update_keeps (c : CloakedName) (now : Time) (qtype : UInt16) (foundIPs : List Bytes) :
    (c.update now qtype foundIPs).target = c.target ∧
      (c.update now qtype foundIPs).isIP = c.isIP ∧ (c.update now qtype foundIPs).PTR = c.PTR := by
  unfold CloakedName.update
  split
  · split
    · exact ⟨rfl, rfl, rfl⟩
    · split <;> exact ⟨rfl, rfl, rfl⟩
  · exact ⟨rfl, rfl, rfl⟩

variable {lib : CloakText} {glob : Bytes → Bytes → Bool}

theorem eval_keeps (env : CloakEnv) (plugin : PluginCloak) (ps : PluginsState) (msg : Msg) :
    SameRules plugin (plugin.eval lib glob env ps msg).1 := by
  -- only the entry of the selected rule changes, by an update
  have hUpdate : ∀ key qtype foundIPs, SameRules plugin { plugin with
        names := mapAssign plugin.names key
          ((plugin.names.get key).update env.now qtype foundIPs) } := by
    intro key qtype foundIPs
    obtain ⟨hTarget, hIsIP, hPtr⟩ := update_keeps (plugin.names.get key) env.now qtype foundIPs
    refine ⟨rfl, fun k => ?_, fun k => ?_, fun k => ?_⟩
    all_goals
      rw [get_mapAssign]
      split
    · next hKey => rw [hTarget, hKey]
    · rfl
    · next hKey => rw [hIsIP, hKey]
    · rfl
    · next hKey => rw [hPtr, hKey]
    · rfl
  unfold PluginCloak.eval
  split
  · exact .refl plugin
  · dsimp only
    split
    · exact .refl plugin
    · split
      · exact .refl plugin
      · split
        · exact .refl plugin
        · split
          · split
            · exact .refl plugin
            · exact hUpdate _ _ _
          · exact .refl plugin

/-- The rules stay the same over any number of queries. -/
theorem evalAll_keeps (plugin : PluginCloak) (calls : List (CloakEnv × PluginsState × Msg)) :
    SameRules plugin (plugin.evalAll lib glob calls) := by
  induction calls generalizing plugin with
  | nil => exact .refl plugin
  | cons c calls ih => exact (eval_keeps c.1 plugin c.2.1 c.2.2).trans (ih _)

end DnscryptProxy
