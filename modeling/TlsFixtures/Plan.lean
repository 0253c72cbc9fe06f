import TlsFixtures.Variant

/-! What one run is to do: for each variant at most one output, in generation order, and at least one input. -/
namespace TlsFixtures

/-- An invocation that is refused before any input is touched. -/
inductive UsageError where
  | noOutputs
  | noInputs
  deriving DecidableEq, Repr

namespace UsageError

def message : UsageError → String
  | noOutputs => "please specify at least one output file with --ja4, --ja4s or --ja4x"
  | noInputs => "no PCAP files provided"

def exitStatus : UsageError → UInt8
  | noOutputs => 1
  | noInputs => 2

end UsageError

structure Plan where
  outputs : List (Variant × String)
  inputs : List String
  deriving DecidableEq, Repr

namespace Plan

/-- Puts a request before the first one of its own or a later variant. -/
def insertByVariant (request : Variant × String) : List (Variant × String) → List (Variant × String)
  | [] => [request]
  | first :: rest =>
    if request.1.rank ≤ first.1.rank then request :: first :: rest
    else first :: insertByVariant request rest

/-- Requests in generation order; those of one variant stay in the order in which they were made. -/
def sortByVariant (requests : List (Variant × String)) : List (Variant × String) :=
  requests.foldr insertByVariant []

/-- One output for each requested variant, in generation order. Of the requests of a variant, which sorting has
brought together, the first from behind is kept. -/
def orderedOutputs (requests : List (Variant × String)) : List (Variant × String) :=
  ((sortByVariant requests).reverse.eraseRepsBy fun a b => a.1 == b.1).reverse

/-- The plan for a list of requests in any order; missing outputs are reported before missing inputs. -/
def ofRequests (requests : List (Variant × String)) (inputs : List String) : Except UsageError Plan :=
  match orderedOutputs requests, inputs with
  | [], _ => .error .noOutputs
  | _, [] => .error .noInputs
  | outputs, inputs => .ok ⟨outputs, inputs⟩

end Plan
end TlsFixtures
