import DnscryptProxy.Dns.Message
import DnscryptProxy.Base.Distinct
import DnscryptProxy.Base.IpNet

/-!
# The DNS64 plugin

`plugin_dns64.go` up to its answers: the prefixes that `Init` registers, from the
configuration or from a resolver, and `translateToIPv6`, which embeds an IPv4
address in a prefix. Accesses to the bytes of an address are checked, as they are
in Go.
-/

namespace DnscryptProxy

open Base

/-- `rfc7050WKA1`, `rfc7050WKA2`, in four bytes. -/
def rfc7050WKA1 : Bytes := [192, 0, 0, 170]
def rfc7050WKA2 : Bytes := [192, 0, 0, 171]

structure PluginDNS64 where
  pref64 : List IPNet
  dns64Resolvers : List Bytes
  ipv4Resolver : Bytes
deriving Repr, DecidableEq

/-- The fields of `Proxy` that the plugin reads. -/
structure Dns64Config where
  listenAddresses : List Bytes
  dns64Prefixes : List Bytes
  dns64Resolvers : List Bytes

/-! ## Embedding an address -/

/-- The loop of `translateToIPv6`. -/
def translateLoop (ipv4 : Bytes) : List Nat → Nat → Bytes → GoCall Bytes
  | [], _, ipv6 => .ok ipv6
  | i :: is, ipShift, ipv6 => do
    let ipShift := if ipShift + i = 8 then ipShift + 1 else ipShift
    let b ← index ipv4 i
    let ipv6 ← store ipv6 (ipShift + i) b
    translateLoop ipv4 is ipShift ipv6

/-- `make(net.IP, net.IPv6len)`, then `copy(ipv6, ip)`. -/
def copyToIPv6 (ip : Bytes) : Bytes := ip.take 16 ++ List.replicate (16 - ip.length) 0

def translateToIPv6 (ipv4 : Bytes) (pref : IPNet) : GoCall Bytes :=
  let n := (maskSize pref.mask).1
  translateLoop ipv4 (List.range 4) (n / 8) (copyToIPv6 pref.ip)

/-! ## Prefixes from a resolver -/

/-- Where a well-known address can be embedded, and the length in bytes of the prefix
in front of it, in the order of the tests. -/
def pref64Windows : List (List Nat × Nat) :=
  [([12, 13, 14, 15], 12), ([9, 10, 11, 12], 8), ([7, 9, 10, 11], 7), ([6, 7, 9, 10], 6),
    ([5, 6, 7, 9], 5), ([4, 5, 6, 7], 4)]

/-- The bytes of a window are a well-known address. -/
def isWKA (ipv6 : Bytes) (window : List Nat) : Bool :=
  let wka := window.map (ipv6.getD · 0)
  decide (wka = rfc7050WKA1 ∨ wka = rfc7050WKA2)

def prefEnd (ipv6 : Bytes) : Nat :=
  match pref64Windows.find? fun w => isWKA ipv6 w.1 with
  | some w => w.2
  | none => 0

/-- The prefix of an address in an answer. -/
def pref64Of (ipv6 : Bytes) : Option IPNet :=
  if ipv6.length = 16 then
    let stop := prefEnd ipv6
    if 0 < stop then
      some { ip := ipv6.take stop ++ List.replicate (16 - stop) 0, mask := cidrMask 16 (8 * stop) }
    else none
  else none

/-- `answer.(*dns.AAAA).AAAA.Addr.AsSlice()`, for the answers that have one. -/
def RR.aaaaAddr (rr : RR) : Option Bytes :=
  match rr.rdata with
  | .aaaa addr => some addr
  | _ => none

/-- The loop over the answers: a prefix is kept if its text is new. -/
def pref64Answers (answers : List RR) : List IPNet :=
  distinctOn IPNet.string [] ((answers.filterMap RR.aaaaAddr).filterMap pref64Of)

/-- `client.Exchange` with a resolver. -/
abbrev Exchange64 := Bytes → Except GoError (Option Msg)

def PluginDNS64.fetchPref64 (plugin : PluginDNS64) (exchange : Exchange64) (resolver : Bytes) :
    PluginDNS64 × Option GoError :=
  match exchange resolver with
  | .error err => (plugin, some err)
  | .ok none => (plugin, some (.plain "Unable to fetch Pref64"))
  | .ok (some resp) =>
    if resp.rcode ≠ RcodeSuccess then (plugin, some (.plain "Unable to fetch Pref64"))
    else
      let prefixes := pref64Answers resp.answer
      if prefixes = [] then (plugin, some (.plain "Empty Pref64 list"))
      else ({ plugin with pref64 := prefixes }, none)

/-- The loop of `refreshPref64`: up to the first resolver with prefixes. -/
def PluginDNS64.fetchFrom (plugin : PluginDNS64) (exchange : Exchange64) :
    List Bytes → PluginDNS64
  | [] => plugin
  | resolver :: resolvers =>
    match plugin.fetchPref64 exchange resolver with
    | (plugin, none) => plugin
    | (plugin, some _) => plugin.fetchFrom exchange resolvers

def PluginDNS64.refreshPref64 (plugin : PluginDNS64) (exchange : Exchange64) :
    PluginDNS64 × Option GoError :=
  let plugin := plugin.fetchFrom exchange plugin.dns64Resolvers
  if plugin.pref64 = [] then (plugin, some (.plain "Empty Pref64 list")) else (plugin, none)

/-! ## Initialisation -/

/-- The loop of `Init` over the configured prefixes. -/
def PluginDNS64.registerPrefixes (plugin : PluginDNS64) :
    List Bytes → PluginDNS64 × Option GoError
  | [] => (plugin, none)
  | prefStr :: rest =>
    match parseCIDR prefStr with
    | none => (plugin, some (.plain ("invalid CIDR address: " ++ Bytes.text prefStr)))
    | some (_, pref) =>
      if 96 < (maskSize pref.mask).1 then
        (plugin, some (.plain "DNS64 prefixes must be /96 or shorter"))
      else PluginDNS64.registerPrefixes { plugin with pref64 := plugin.pref64 ++ [pref] } rest

/-- `Init`, on a new plugin. -/
def PluginDNS64.init (exchange : Exchange64) (proxy : Dns64Config) :
    PluginDNS64 × Option GoError :=
  let plugin : PluginDNS64 := { pref64 := [], dns64Resolvers := [], ipv4Resolver := [] }
  match proxy.listenAddresses with
  | [] =>
    (plugin, some (.plain
      "At least one listening IP address must be configured for the DNS64 plugin to work"))
  | ipv4Resolver :: _ =>
    let plugin := { plugin with ipv4Resolver := ipv4Resolver }
    if proxy.dns64Prefixes ≠ [] then plugin.registerPrefixes proxy.dns64Prefixes
    else if proxy.dns64Resolvers ≠ [] then
      PluginDNS64.refreshPref64 { plugin with dns64Resolvers := proxy.dns64Resolvers } exchange
    else (plugin, none)

end DnscryptProxy
