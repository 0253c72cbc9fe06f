import TlsFixtures.Decimal.Binary64

/-! The fewest digits that read back. Around a magnitude lies the interval of reals that round to it, its
ends included when the magnitude is an even multiple of its spacing. On the grids of 1, 2, … digits the
two grid points beside the value are tested; the first grid with a point inside the interval gives the
digits, of two points the nearer, and of two equally near the even one. -/
namespace TlsFixtures.Decimal

/-- `coefficient × 10 ^ exponent`. -/
structure Digits where
  coefficient : Nat
  exponent : Int
  deriving DecidableEq, Repr

namespace Shortest

/-- Magnitudes times this power of ten are at least 4, also the least positive one. -/
def leadShift : Nat := 324

/-- Every grid of at most 17 digits is a whole multiple of 10 to minus this. -/
def gridShift : Nat := 341

/-- `d` such that the magnitude lies in `[10 ^ (d - 325), 10 ^ (d - 324))`. -/
def lead (x : Binary64) : Nat :=
  (Nat.toDigits 10 (x.units * Nat.pow 10 leadShift / unitsPerOne)).length

/-- The distance to the end of the interval below, in quarters of a unit: half a spacing, but a quarter of
one where the spacing halves below `x`. -/
def quartersBelow (x : Binary64) : Nat :=
  let step := Binary64.spacing x.units
  if 1 < step ∧ x.units = Nat.pow 2 52 * step then step else 2 * step

def quartersAbove (x : Binary64) : Nat := 2 * Binary64.spacing x.units

/-- Whether `point`, in quarters of a unit times `10 ^ gridShift`, rounds to `x`. -/
def roundsTo (x : Binary64) (point : Nat) : Bool :=
  let low := (4 * x.units - quartersBelow x) * Nat.pow 10 gridShift
  let high := (4 * x.units + quartersAbove x) * Nat.pow 10 gridShift
  if x.units / Binary64.spacing x.units % 2 = 0 then low ≤ point && point ≤ high
  else low < point && point < high

/-- The grid of `count` digits: its spacing, in units times `10 ^ gridShift`. -/
def grid (x : Binary64) (count : Nat) : Nat := Nat.pow 10 (lead x + 17 - count) * unitsPerOne

/-- The coefficient on the grid of `count` digits, if one there rounds to `x`. -/
def coefficient? (x : Binary64) (count : Nat) : Option Nat :=
  let step := grid x count
  let value := x.units * Nat.pow 10 gridShift
  let below := value / step
  match roundsTo x (4 * (below * step)), roundsTo x (4 * ((below + 1) * step)) with
  | true, true => some (roundDiv value step)
  | true, false => some below
  | false, true => some (below + 1)
  | false, false => none

/-- Digits on the grid of `count` digits. The upper neighbour of nines alone is a one further to the left. -/
def onGrid (x : Binary64) (count coefficient : Nat) : Digits :=
  let exponent := (lead x : Int) - (leadShift + count : Nat)
  if coefficient = Nat.pow 10 count then ⟨1, exponent + count⟩ else ⟨coefficient, exponent⟩

/-- The first of `counts` whose grid has such a coefficient. -/
def firstDigits? (x : Binary64) (counts : List Nat) : Option Digits :=
  counts.findSome? fun count => (coefficient? x count).map (onGrid x count)

/-- Seventeen digits always suffice. -/
def digits (x : Binary64) : Digits :=
  if x.units = 0 then ⟨0, 0⟩
  else (firstDigits? x ((List.range 17).map (· + 1))).getD ⟨0, 0⟩

end Shortest

/-- How digits become text: which exponents of the leading digit are written positionally, what closes a
whole number, and how an exponent is marked and signed. -/
structure Style where
  lowest : Int
  highest : Int
  wholeMark : String
  exponentMark : String
  plusSign : String
  deriving DecidableEq, Repr

namespace Style

def zeros (n : Nat) : List Char := List.replicate n '0'

/-- Digits with the point after the first `point` places, which may lie outside of them. -/
def positional (style : Style) (digits : List Char) (point : Int) : String :=
  if point ≤ 0 then String.ofList ('0' :: '.' :: zeros point.natAbs ++ digits)
  else
    let whole := point.natAbs
    if digits.length ≤ whole then
      String.ofList (digits ++ zeros (whole - digits.length)) ++ style.wholeMark
    else String.ofList (digits.take whole ++ '.' :: digits.drop whole)

def scientific (style : Style) (digits : List Char) (exponent : Int) : String :=
  let fraction := digits.drop 1
  String.ofList (digits.take 1 ++ if fraction.isEmpty then [] else '.' :: fraction) ++
    style.exponentMark ++ (if exponent < 0 then "-" else style.plusSign) ++ exponent.natAbs.repr

def render (style : Style) (d : Digits) : String :=
  let digits := Nat.toDigits 10 d.coefficient
  let point := (digits.length : Int) + d.exponent
  let leading := point - 1
  if style.lowest ≤ leading ∧ leading ≤ style.highest then style.positional digits point
  else style.scientific digits leading

end Style
end TlsFixtures.Decimal
