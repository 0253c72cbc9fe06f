import TlsFixtures.Record

/-! Text of a generated test file: a header that declares the record struct and a test over the table, one
struct literal a record in the order given, and a footer that closes the table. The text depends on the
records, their order and the module path of the function under test, and on nothing else. -/
namespace TlsFixtures.FixtureFile

/-- Each line with its line feed. -/
def joinLines (lines : List String) : String := String.join (lines.map (· ++ "\n"))

def mismatch (layout : Layout) : String :=
  "failures.push(format!(\"\x7bname\x7d: expected " ++ layout.label ++
    "=\x7b\x7d, got=\x7bfingerprint\x7d\", record.fingerprint));"

/-- The comparison of one record; a fallible function may fail where no fingerprint is expected. -/
def comparison (layout : Layout) : List String :=
  if layout.fallible then [
    "\t\tmatch " ++ layout.oracle ++ "(record." ++ layout.payloadField ++ ") \x7b",
    "\t\t\tOk(fingerprint) => \x7b",
    "\t\t\t\tif !record.fingerprint.is_empty() && fingerprint != record.fingerprint \x7b",
    "\t\t\t\t\t" ++ mismatch layout,
    "\t\t\t\t\x7d",
    "\t\t\t\x7d",
    "\t\t\tErr(err) => \x7b",
    "\t\t\t\tif !record.fingerprint.is_empty() \x7b",
    "\t\t\t\t\tfailures.push(format!(\"\x7bname\x7d: unexpected error: \x7berr\x7d\"));",
    "\t\t\t\t\x7d",
    "\t\t\t\x7d",
    "\t\t\x7d"]
  else [
    "\t\tlet fingerprint = " ++ layout.oracle ++ "(record." ++ layout.payloadField ++ ");",
    "\t\tif !record.fingerprint.is_empty() && fingerprint != record.fingerprint \x7b",
    "\t\t\t" ++ mismatch layout,
    "\t\t\x7d"]

def structLines (layout : Layout) : List String :=
  ["#[allow(dead_code)]", "#[derive(Debug)]", "struct " ++ layout.recordType ++ " \x7b"] ++
    layout.fields.map (fun field => "\t" ++ field.name ++ ": " ++ field.typeText ++ ",") ++
    ["\x7d"]

def testLines (layout : Layout) : List String :=
  ["#[test]",
    "fn " ++ layout.testName ++ "() \x7b",
    "\tlet mut failures = Vec::new();",
    "\tfor record in " ++ layout.table ++ " \x7b",
    "\t\tlet name = format!(\"\x7b\x7d - \x7b\x7d\", record.file, record.index);"] ++
  comparison layout ++
  ["\t\x7d",
    "\tassert!(",
    "\t\tfailures.is_empty(),",
    "\t\t\"\x7b\x7d of \x7b\x7d " ++ layout.label ++ " records failed:\\n\x7b\x7d\",",
    "\t\tfailures.len(),",
    "\t\t" ++ layout.table ++ ".len(),",
    "\t\tfailures.join(\"\\n\")",
    "\t);",
    "\x7d"]

def preamble : String :=
  joinLines ["// @generated by ja4-fixtures from packet captures. Do not edit by hand.", ""] ++ "use "

/-- What stands between the module path and the first record. -/
def declarations (layout : Layout) : String :=
  joinLines (["::" ++ layout.oracle ++ ";", ""] ++ structLines layout ++ [""] ++ testLines layout ++
    ["", "#[rustfmt::skip]",
      "static " ++ layout.table ++ ": &[" ++ layout.recordType ++ "] = &["])

def header (layout : Layout) (oraclePath : String) : String :=
  preamble ++ oraclePath ++ declarations layout

def fieldLine (field : FieldDeclaration) (value : Literal) : String :=
  "\t\t" ++ field.name ++ ": " ++ value.render ++ ","

/-- Fields and values are paired in order; what one list has more of than the other is left out. -/
def recordLiteral (layout : Layout) (values : List Literal) : String :=
  joinLines (["\t" ++ layout.recordType ++ " \x7b"] ++ layout.fields.zipWith fieldLine values ++ ["\t\x7d,"])

def footer : String := joinLines ["];"]

def render (v : Variant) (records : List v.Record) (oraclePath : String) : String :=
  header v.layout oraclePath ++
    String.join (records.map fun r => recordLiteral v.layout (v.literals r)) ++ footer

end TlsFixtures.FixtureFile
