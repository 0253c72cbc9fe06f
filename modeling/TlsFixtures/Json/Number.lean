import TlsFixtures.Decimal.Shortest
import TlsFixtures.Json.Token

/-! Numbers of JSON. A number without fraction and exponent that a signed or an unsigned 64-bit word holds is
an integer; every other number, and minus zero, is a binary64. Digits are gathered while they fit an unsigned
word; those that do not fit only scale the number, and a number beyond the finite range is refused. -/
namespace TlsFixtures.Json

inductive Number where
  | integer (n : Int)
  | decimal (negative : Bool) (magnitude : Decimal.Binary64)
  deriving DecidableEq, Repr

namespace NumberText

def wordBound : Nat := Nat.pow 2 64

/-- Digits gathered so far: the number is `significand × 10 ^ exponent`, but for digits left out once the
word was full. -/
structure Gathered where
  significand : Nat
  exponent : Int
  full : Bool
  deriving DecidableEq, Repr

namespace Gathered

/-- A digit before the point: one that is left out still counts as a place. -/
def wholeDigit (g : Gathered) (d : Nat) : Gathered :=
  if !g.full && g.significand * 10 + d < wordBound then { g with significand := g.significand * 10 + d }
  else { g with exponent := g.exponent + 1, full := true }

/-- A digit after the point: one that is left out changes nothing. -/
def fractionDigit (g : Gathered) (d : Nat) : Gathered :=
  if !g.full && g.significand * 10 + d < wordBound then
    { g with significand := g.significand * 10 + d, exponent := g.exponent - 1 }
  else { g with full := true }

def ofWhole (digits : List Nat) : Gathered := digits.foldl wholeDigit ⟨0, 0, false⟩

/-- Gathering starts afresh after the point: a later digit may fit where an earlier one did not. -/
def withFraction (g : Gathered) (digits : List Nat) : Gathered :=
  digits.foldl fractionDigit { g with full := false }

end Gathered

def ofDigits (digits : List Nat) : Nat := digits.foldl (fun n d => n * 10 + d) 0

def exponentValue : Option (Bool × List Nat) → Int
  | none => 0
  | some (true, digits) => -(ofDigits digits : Int)
  | some (false, digits) => ofDigits digits

def decimal? (n : NumberText) (g : Gathered) : Option Number :=
  (Decimal.Binary64.ofParts? g.significand (g.exponent + exponentValue n.exponent)).map
    (Number.decimal n.negative)

def value? (n : NumberText) : Option Number :=
  let g := Gathered.ofWhole n.whole
  match n.fraction with
  | some digits => n.decimal? (g.withFraction digits)
  | none =>
    if n.exponent.isSome || g.full then n.decimal? g
    else if !n.negative then some (.integer g.significand)
    else if 0 < g.significand ∧ g.significand ≤ Nat.pow 2 63 then some (.integer (-(g.significand : Int)))
    else n.decimal? g

end NumberText

namespace Number

/-- Positional from a hundred-thousandth up to sixteen places, a whole number closed by a zero place, and
exponents with their sign. -/
def style : Decimal.Style := ⟨-5, 15, ".0", "e", "+"⟩

def text : Number → String
  | integer n => n.repr
  | decimal negative magnitude =>
    (if negative then "-" else "") ++ style.render (Decimal.Shortest.digits magnitude)

end Number
end TlsFixtures.Json
