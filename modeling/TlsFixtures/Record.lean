import TlsFixtures.Literal
import TlsFixtures.Variant

/-! Records harvested from captures. Both hello variants carry the same fields; a certificate has no
transport of its own. -/
namespace TlsFixtures

/-- A hello message and the fingerprint expected of it. -/
structure HelloRecord where
  /-- File name of the capture. -/
  sourceFile : String
  frameIndex : UInt64
  /-- The handshake message from its type byte on. -/
  payload : List UInt8
  /-- Transport the handshake was seen on. -/
  protocolTag : String
  /-- Empty where the dissector computed none. -/
  fingerprint : String
  deriving DecidableEq, Repr

/-- A DER certificate and the fingerprint expected of it. -/
structure CertificateRecord where
  sourceFile : String
  frameIndex : UInt64
  payload : List UInt8
  fingerprint : String
  deriving DecidableEq, Repr

/-- The records that fixtures of a variant hold. -/
abbrev Variant.Record : Variant → Type
  | .ja4 => HelloRecord
  | .ja4s => HelloRecord
  | .ja4x => CertificateRecord

/-- Tag of handshakes carried over TCP. -/
def tcpTag : String := "t"

def HelloRecord.literals (r : HelloRecord) : List Literal :=
  [.text r.sourceFile, .word r.frameIndex, .bytes r.payload, .text r.protocolTag, .text r.fingerprint]

def CertificateRecord.literals (r : CertificateRecord) : List Literal :=
  [.text r.sourceFile, .word r.frameIndex, .bytes r.payload, .text r.fingerprint]

/-- Values in the order of the fields of the variant's layout. -/
def Variant.literals : (v : Variant) → v.Record → List Literal
  | .ja4 => HelloRecord.literals
  | .ja4s => HelloRecord.literals
  | .ja4x => CertificateRecord.literals

end TlsFixtures
