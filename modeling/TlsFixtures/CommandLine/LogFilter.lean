import TlsFixtures.Event

/-! Which events reach the log. A filter is a list of directives; an event is judged by the one with the
longest target that its own target begins with, and passes if it is at least as severe. Directives about spans
are not described, since no event lies in one. -/
namespace TlsFixtures.CommandLine

structure Directive where
  /-- Empty for all targets. -/
  target : String
  /-- The least level that passes, if any does. -/
  least : Option Level
  deriving DecidableEq, Repr

abbrev LogFilter := List Directive

namespace LogFilter

/-- Level words in any case, or the numbers of levels; `off` is the level that nothing reaches. -/
def level? (word : String) : Option (Option Level) :=
  match word.toLower with
  | "off" | "0" => some none
  | "error" | "1" => some (some .error)
  | "warn" | "2" => some (some .warn)
  | "info" | "3" => some (some .info)
  | "debug" | "4" => some (some .debug)
  | "trace" | "5" => some (some .trace)
  | _ => none

/-- A level for everything, a target with a level, or a target alone, of which everything passes. -/
def directive? (text : String) : Option Directive :=
  let chars := text.toList
  let target := String.ofList (chars.takeWhile (· ≠ '='))
  match chars.dropWhile (· ≠ '=') with
  | [] =>
    match level? text with
    | some least => some ⟨"", least⟩
    | none => some ⟨text, some .trace⟩
  | [_] => if target.isEmpty then none else some ⟨target, some .trace⟩
  | _ :: word => if target.isEmpty then none else (level? (String.ofList word)).map (⟨target, ·⟩)

/-- Directives between commas, the empty ones passed over. Where there is no other, only errors pass. -/
def ofText? (text : String) : Option LogFilter :=
  match (text.splitOn ",").filter (!·.isEmpty) with
  | [] => some [⟨"", some .error⟩]
  | directives => directives.mapM directive?

def ofVerbosity : Nat → LogFilter
  | 0 => [⟨"", some .warn⟩]
  | 1 => [⟨"", some .info⟩]
  | 2 => [⟨"", some .debug⟩]
  | _ => [⟨"", some .trace⟩]

def concerns (event : Event) (d : Directive) : Bool := d.target.toList.isPrefixOf event.target.toList

/-- The directive with the longest target among those that concern the event. -/
def decisive? (filter : LogFilter) (event : Event) : Option Directive :=
  (filter.filter (concerns event)).foldl
    (fun best d =>
      match best with
      | some b => if d.target.length < b.target.length then some b else some d
      | none => some d)
    none

def passes (filter : LogFilter) (event : Event) : Bool :=
  match (filter.decisive? event).bind Directive.least with
  | some least => least.severity ≤ event.level.severity
  | none => false

end LogFilter
end TlsFixtures.CommandLine
