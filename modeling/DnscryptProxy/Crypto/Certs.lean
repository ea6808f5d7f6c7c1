import DnscryptProxy.Crypto.Box
import DnscryptProxy.Dns.Message

/-!
# DNSCrypt certificates

The keys of `crypto.go` and the certificate selection of
`dnscrypt_certs.go`. The curve and the signature scheme are parameters.
-/

namespace DnscryptProxy

/-! ## Keys -/

/-- The operations of the curve, on 32-byte strings. -/
structure Curve where
  /-- `curve25519.ScalarBaseMult`: the public key of a secret key -/
  scalarBaseMult : Bytes → Bytes
  /-- `xsecretbox.SharedKey`: secret key, public key of the server -/
  xSharedKey : Bytes → Bytes → Except GoError Bytes
  /-- `box.Precompute`: public key of the server, secret key -/
  precompute : Bytes → Bytes → Bytes

def zeroKey : Bytes := List.replicate 32 0

/-- `ComputeSharedKey`; a weak key is replaced by `random` bytes. -/
def computeSharedKey (curve : Curve) (random : Bytes) (construction : CryptoConstruction)
    (secretKey serverPk : Bytes) : Bytes :=
  if isClassicDNSCryptConstruction construction = false then zeroKey
  else if construction = .xChacha20Poly1305 then
    match curve.xSharedKey secretKey serverPk with
    | .ok sharedKey => sharedKey
    | .error _ => random
  else
    let sharedKey := curve.precompute serverPk secretKey
    if sharedKey.all (fun b => decide (b = 0)) then random else sharedKey

/-! ## TXT records -/

def isDigit (b : UInt8) : Bool := decide (48 ≤ b ∧ b ≤ 57)

def dddToByte (a b c : UInt8) : Option UInt8 :=
  let n := (a - 48).toNat * 100 + (b - 48).toNat * 10 + (c - 48).toNat
  if n > 255 then none else some (UInt8.ofNat n)

/-- The character after a backslash. -/
def unescape (c : UInt8) : UInt8 :=
  if c = 116 then 9 else if c = 114 then 13 else if c = 110 then 10 else c

def packTXTRR : Bytes → Bytes
  | [] => []
  | [c] => if c = 92 then [] else [c]
  | [c, d] => if c = 92 then [unescape d] else c :: packTXTRR [d]
  | [c, d, e] => if c = 92 then unescape d :: packTXTRR [e] else c :: packTXTRR [d, e]
  | c :: d :: e :: f :: rest =>
    if c ≠ 92 then c :: packTXTRR (d :: e :: f :: rest)
    else if isDigit d && isDigit e && isDigit f then (dddToByte d e f).toList ++ packTXTRR rest
    else unescape d :: packTXTRR (e :: f :: rest)

/-! ## Certificates -/

def CertMagic : Bytes := [0x44, 0x4e, 0x53, 0x43]
def ClientMagicLen : Nat := 8

/-- `binary.BigEndian.Uint16` and `Uint32`. -/
def bigEndian (b : Bytes) : Nat := b.foldl (fun n c => 256 * n + c.toNat) 0

def pqProfileExtension : Bytes :=
  [0x50, 0x51, 0x44, 0x01, 0x00, 0x03, 0x01, 0x01, 0x04, 0xc0, 0x04, 0x60]

def pqCertContext (binCert : Bytes) : Bytes :=
  "DNSCrypt-PQ-v1".toUTF8.toList ++ subBytes binCert 4 6 ++ subBytes binCert 6 8 ++
    subBytes binCert 72 1288 ++ subBytes binCert 1288 1296 ++ subBytes binCert 1296 1300 ++
    subBytes binCert 1300 1304 ++ subBytes binCert 1304 1308 ++ subBytes binCert 1308 1320

structure CertInfo where
  serverPk : Bytes
  sharedKey : Bytes
  magicQuery : Bytes
  construction : CryptoConstruction
  forwardSecurity : Bool
  pqPublicKey : Bytes
  pqCertContext : Bytes
deriving Repr, DecidableEq

/-- `CertInfo{CryptoConstruction: UndefinedConstruction}`. -/
def CertInfo.none : CertInfo where
  serverPk := zeroKey
  sharedKey := zeroKey
  magicQuery := List.replicate ClientMagicLen 0
  construction := .undefinedConstruction
  forwardSecurity := false
  pqPublicKey := []
  pqCertContext := []

/-- The place of a construction in the declaration, which `<` compares. -/
def CryptoConstruction.rank : CryptoConstruction → Nat
  | .undefinedConstruction => 0
  | .xSalsa20Poly1305 => 1
  | .xChacha20Poly1305 => 2
  | .xWingPQ => 3

/-- What the selection of a certificate depends on. -/
structure CertEnv where
  /-- `ed25519.Verify`: key, message, signature -/
  verify : Bytes → Bytes → Bytes → Bool
  curve : Curve
  /-- the client's secret key, and the random bytes that replace a weak key -/
  secretKey : Bytes
  random : Bytes
  pqDNSCrypt : Bool
  certIgnoreTimestamp : Bool
  /-- the clock, in seconds, as a `uint32` -/
  now : Nat

/-- The construction of a certificate, from its version field. -/
def certConstruction (env : CertEnv) (binCert : Bytes) : Option CryptoConstruction :=
  let esVersion := bigEndian (subBytes binCert 4 6)
  if esVersion = 1 then some .xSalsa20Poly1305
  else if esVersion = 2 then some .xChacha20Poly1305
  else if esVersion = 3 then
    if env.pqDNSCrypt = false ∨ binCert.length < 1320 then none else some .xWingPQ
  else none

/-- A certificate that was accepted for its form, with the serial number and
the dates. -/
structure Cert where
  binCert : Bytes
  construction : CryptoConstruction
  serial : Nat
  tsBegin : Nat
  tsEnd : Nat
deriving Repr, DecidableEq

/-- The checks that do not depend on the other certificates. -/
def parseCert (env : CertEnv) (pk : Bytes) (rr : RR) : Option Cert :=
  match rr.rdata with
  | .txt txts =>
    let binCert := packTXTRR txts.flatten
    if binCert.length < 124 ∨ binCert.take 4 ≠ CertMagic then none
    else
      match certConstruction env binCert with
      | none => none
      | some construction =>
        let isPQ := decide (construction = .xWingPQ)
        -- everything from byte 72 on is signed, so also what follows
        if env.verify pk (binCert.drop 72) (subBytes binCert 8 72) = false then none
        else if isPQ ∧ (subBytes binCert 1308 1320 ≠ pqProfileExtension ∨
            subBytes binCert 4 6 ≠ subBytes (subBytes binCert 1308 1320) 4 6) then none
        else
          let serialOff := if isPQ then 1296 else 112
          let cert : Cert :=
            { binCert := binCert
              construction := construction
              serial := bigEndian (subBytes binCert serialOff (serialOff + 4))
              tsBegin := bigEndian (subBytes binCert (serialOff + 4) (serialOff + 8))
              tsEnd := bigEndian (subBytes binCert (serialOff + 8) (serialOff + 12)) }
          if cert.tsBegin ≥ cert.tsEnd then none
          else if env.certIgnoreTimestamp = false ∧ (env.now > cert.tsEnd ∨ env.now < cert.tsBegin)
          then none
          else some cert
  | _ => none

/-- The keys of an accepted certificate. -/
def Cert.info (env : CertEnv) (cert : Cert) : CertInfo :=
  let forwardSecurity := decide (cert.tsEnd - cert.tsBegin ≤ 86400 * 7)
  if cert.construction = .xWingPQ then
    { CertInfo.none with
      construction := cert.construction
      forwardSecurity := forwardSecurity
      pqPublicKey := subBytes cert.binCert 72 1288
      pqCertContext := DnscryptProxy.pqCertContext cert.binCert
      magicQuery := subBytes cert.binCert 1288 1296 }
  else
    let serverPk := subBytes cert.binCert 72 104
    { CertInfo.none with
      construction := cert.construction
      forwardSecurity := forwardSecurity
      serverPk := serverPk
      sharedKey := computeSharedKey env.curve env.random cert.construction env.secretKey serverPk
      magicQuery := subBytes cert.binCert 104 112 }

/-- The loop over the answers: the certificate so far, and its serial number. -/
def selectCert (env : CertEnv) (pk : Bytes) : List RR → CertInfo → Nat → CertInfo
  | [], certInfo, _ => certInfo
  | rr :: rest, certInfo, highestSerial =>
    match parseCert env pk rr with
    | none => selectCert env pk rest certInfo highestSerial
    | some cert =>
      -- the highest serial number wins, and among equal ones the later construction
      if cert.serial < highestSerial then selectCert env pk rest certInfo highestSerial
      else if cert.serial = highestSerial ∧ cert.construction.rank < certInfo.construction.rank then
        selectCert env pk rest certInfo highestSerial
      else selectCert env pk rest (cert.info env) cert.serial

/-- What `FetchCurrentDNSCryptCert` makes of the answers. -/
def currentCert (env : CertEnv) (pk : Bytes) (answers : List RR) : Except GoError CertInfo :=
  let certInfo := selectCert env pk answers CertInfo.none 0
  if certInfo.construction = .undefinedConstruction then
    .error (.plain "No usable certificate found")
  else .ok certInfo

end DnscryptProxy
