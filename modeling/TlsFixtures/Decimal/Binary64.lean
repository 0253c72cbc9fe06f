/-! Finite magnitudes of binary floating point with 53 significant bits, in exact arithmetic. All of them are
whole multiples of 2^-1074, so a magnitude is the number of these units; rounding is to the nearest
multiple that 53 bits can hold, a tie going to the even one. -/
namespace TlsFixtures.Decimal

def unitsPerOne : Nat := Nat.pow 2 1074

/-- The nearest whole number to `num / den`; a half goes to the even neighbour. -/
def roundDiv (num den : Nat) : Nat :=
  let quotient := num / den
  let twice := 2 * (num % den)
  if twice < den ∨ (twice = den ∧ quotient % 2 = 0) then quotient else quotient + 1

structure Binary64 where
  units : Nat
  deriving DecidableEq, Repr

namespace Binary64

def spacing (units : Nat) : Nat := Nat.pow 2 (units.log2 - 52)

/-- `num / den` units rounded to 53 bits, without a limit above. -/
def round (num den : Nat) : Binary64 :=
  let step := spacing (num / den)
  ⟨roundDiv num (den * step) * step⟩

def isFinite (x : Binary64) : Bool := x.units < Nat.pow 2 1024 * unitsPerOne

def ofNat (n : Nat) : Binary64 := round (n * unitsPerOne) 1

def mul (x y : Binary64) : Binary64 := round (x.units * y.units) unitsPerOne

def div (x y : Binary64) : Binary64 := round (x.units * unitsPerOne) y.units

/-- The largest power of ten that is taken in one step. -/
def stepLimit : Nat := 308

/-- Division by `10 ^ k`, one rounding for each step; nothing is left to divide at zero. -/
def divPow10 (x : Binary64) (k : Nat) : Binary64 :=
  if x.units = 0 then x
  else if k ≤ stepLimit then x.div (ofNat (Nat.pow 10 k))
  else divPow10 (x.div (ofNat (Nat.pow 10 stepLimit))) (k - stepLimit)
termination_by k
decreasing_by simp_all [stepLimit]; omega

/-- `significand × 10 ^ exponent` by one rounding of each factor and one of the result, as long as the
magnitude stays finite. -/
def ofParts? (significand : Nat) (exponent : Int) : Option Binary64 :=
  let x := ofNat significand
  if exponent < 0 then some (x.divPow10 exponent.natAbs)
  else if x.units = 0 then some x
  else if exponent.natAbs ≤ stepLimit then
    let y := x.mul (ofNat (Nat.pow 10 exponent.natAbs))
    if y.isFinite then some y else none
  else none

end Binary64
end TlsFixtures.Decimal
