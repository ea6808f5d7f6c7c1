import DnscryptProxy.Base.Halt
import DnscryptProxy.Dns.Name

/-!
# Errors, clocks and packet sizes

What every part of the proxy shares: Go errors as far as the code inspects
them, the wall clock, and the size limits of `common.go`.
-/

namespace DnscryptProxy

/-- The bytes of a Go string constant. -/
def ascii (s : String) : Bytes := s.toList.map Char.toUInt8

/-- The bytes of a string. -/
def utf8 (s : List Char) : Bytes := s.flatMap String.utf8EncodeChar

/-! ## Clocks -/

/-- A `time.Time`, in nanoseconds from an arbitrary origin. The zero
`time.Time` is modelled by `Option` where the code tests for it. -/
abbrev Time := Int

/-- A `time.Duration`, in nanoseconds. -/
abbrev Duration := Int

def Millisecond : Duration := 1000000
def Second : Duration := 1000000000

/-! ## Errors -/

/-- A Go `error`. `net` implements `net.Error` itself; `wrapped` is what `%w`
or an operation error builds around another one. -/
inductive GoError where
  | plain (text : String)
  | net (timeout : Bool) (text : String)
  | wrapped (text : String) (inner : GoError)
deriving Repr, DecidableEq

/-- What a call returns, unless it panics. -/
abbrev GoCall := Except (Base.Halt GoError)

/-- `neterr, ok := err.(net.Error); ok && neterr.Timeout()`: the error itself,
without unwrapping. -/
def GoError.netTimeout : GoError → Bool
  | .net timeout _ => timeout
  | _ => false

/-- `isTimeoutError`: the first `net.Error` of the chain decides. -/
def GoError.isTimeoutError : GoError → Bool
  | .plain _ => false
  | .net timeout _ => timeout
  | .wrapped _ inner => inner.isTimeoutError

/-! ## Sizes -/

def MinDNSPacketSize : Nat := 12 + 5
def MaxDNSPacketSize : Nat := 4096
def MaxDNSUDPPacketSize : Nat := 4096
def MaxDNSUDPSafePacketSize : Nat := 1252
/-- `len(ServerMagic) + NonceSize + TagSize`. -/
def ResponseOverhead : Nat := 8 + 24 + 16

def validateQuery (query : Bytes) : Bool :=
  if query.length < MinDNSPacketSize then false
  else if query.length > MaxDNSPacketSize then false
  else true

end DnscryptProxy
