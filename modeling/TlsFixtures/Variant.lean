/-! The three fingerprints that fixtures are made for, and the shape of the test file of each: the struct it declares
for a record, the table of records, and the function under test. -/
namespace TlsFixtures

inductive Variant where
  /-- Client fingerprint, over a ClientHello. -/
  | ja4
  /-- Server fingerprint, over a ServerHello. -/
  | ja4s
  /-- Certificate fingerprint, over a DER certificate. -/
  | ja4x
  deriving DecidableEq, Repr

namespace Variant

/-- Every variant, in the order in which outputs are generated. -/
def all : List Variant := [.ja4, .ja4s, .ja4x]

/-- The place of a variant in that order. -/
def rank : Variant → Nat
  | .ja4 => 0
  | .ja4s => 1
  | .ja4x => 2

def label : Variant → String
  | .ja4 => "JA4"
  | .ja4s => "JA4S"
  | .ja4x => "JA4X"

end Variant

/-- A field of the generated struct: its name and its type as written there. -/
structure FieldDeclaration where
  name : String
  typeText : String
  deriving DecidableEq, Repr

structure Layout where
  /-- Fingerprint name in failure messages. -/
  label : String
  recordType : String
  table : String
  testName : String
  oracle : String
  fallible : Bool
  payloadField : String
  fields : List FieldDeclaration
  deriving DecidableEq, Repr

namespace Layout

def textType : String := "&'static str"
def wordType : String := "u64"
def bytesType : String := "&'static [u8]"

def helloFields : List FieldDeclaration := [
  ⟨"file", textType⟩, ⟨"index", wordType⟩, ⟨"hello", bytesType⟩, ⟨"protocol", textType⟩,
  ⟨"fingerprint", textType⟩]

def certificateFields : List FieldDeclaration := [
  ⟨"file", textType⟩, ⟨"index", wordType⟩, ⟨"cert", bytesType⟩, ⟨"fingerprint", textType⟩]

end Layout

def Variant.layout (v : Variant) : Layout :=
  match v with
  | .ja4 => ⟨v.label, "Ja4Record", "JA4_RECORDS", "ja4_records", "ja4", true, "hello", Layout.helloFields⟩
  | .ja4s =>
    ⟨v.label, "Ja4sRecord", "JA4S_RECORDS", "ja4s_records", "ja4s", true, "hello", Layout.helloFields⟩
  | .ja4x =>
    ⟨v.label, "Ja4xRecord", "JA4X_RECORDS", "ja4x_records", "ja4x", false, "cert",
      Layout.certificateFields⟩

end TlsFixtures
