import TlsFixtures.Ek.Frame
import TlsFixtures.Error

/-! EK documents, one a line. A document is an object, of whose members only `layers` is looked at, or an
array of exactly that one value; members that are not looked at need only be well formed. Blank lines and
documents without layers hold no frame. -/
namespace TlsFixtures.Ek

/-- Arrays and objects that may lie in one another below the document itself. -/
def layersDepth : Nat := Json.depthLimit - 1

/-- Members of the layers object, or nothing where it is null. -/
def layers? : Json.Tree → Option (Option (List (String × Json)))
  | .null => some none
  | .object members => do
    let value ← Json.Tree.value? layersDepth (.object members)
    return value.members?
  | _ => none

/-- The trees under the key `layers`; every key has to be a proper string. -/
def layersMembers? : List (List Json.Piece × Json.Tree) → Option (List Json.Tree)
  | [] => some []
  | (key, tree) :: rest => do
    let key ← Json.string? key
    let found ← layersMembers? rest
    return if key = "layers" then tree :: found else found

/-- The layers of a document; a member that is repeated makes it none. -/
def documentLayers? : Json.Tree → Option (Option (List (String × Json)))
  | .object members => do
    match ← layersMembers? members with
    | [] => return none
    | [tree] => layers? tree
    | _ => none
  | .array [tree] => layers? tree
  | _ => none

def frameOfLine? (line : List Char) : Except DissectionFault (Option EkFrame) :=
  match Text.trim line with
  | [] => .ok none
  | text =>
    match (Json.Tree.ofText? text).bind documentLayers? with
    | none => .error .invalidDocument
    | some none => .ok none
    | some (some layers) =>
      match EkFrame.ofLayers? layers with
      | some frame => .ok (some frame)
      | none => .error .noFrameNumber

end TlsFixtures.Ek
