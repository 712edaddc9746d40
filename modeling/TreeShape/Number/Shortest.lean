import TreeShape.Number.Double
/- The shortest decimal digits that read back as a given double, and their text. -/
namespace TreeShape

structure Decimal where
  coefficient : Nat
  exponent : Int
  deriving DecidableEq

namespace Decimal

def ratio (d : Decimal) : Ratio :=
  match d.exponent with
  | .ofNat power => ⟨d.coefficient * powerOfTen power, 1⟩
  | .negSucc power => ⟨d.coefficient, powerOfTen (power + 1)⟩

/-- Moves up to `fuel` trailing zeros of the coefficient into the exponent. -/
def trim : Nat → Decimal → Decimal
  | 0, d => d
  | fuel + 1, d =>
    if d.coefficient % 10 = 0 then trim fuel ⟨d.coefficient / 10, d.exponent + 1⟩ else d

end Decimal

namespace Double

/-- The reals that round to a positive double, as multiples of a quarter of its last binary place:
the double lies at `middle`, and the ends count exactly when its significand is even. -/
structure RoundingInterval where
  low : Nat
  middle : Nat
  high : Nat
  closed : Bool
  place : Int

/-- The gap below a power of two is half as wide as the gap above it. -/
def roundingInterval (x : Double) : RoundingInterval :=
  let narrow := x.significand = powerOfTwo 52 ∧ leastExponent < x.exponent
  { low := if narrow then 4 * x.significand - 1 else 4 * x.significand - 2
    middle := 4 * x.significand
    high := 4 * x.significand + 2
    closed := x.significand % 2 = 0
    place := x.exponent - 2 }

def RoundingInterval.contains (i : RoundingInterval) (d : Decimal) : Bool :=
  let r := d.ratio.scale (-i.place)
  let low := i.low * r.denominator
  let high := i.high * r.denominator
  if i.closed then low ≤ r.numerator && r.numerator ≤ high
  else low < r.numerator && r.numerator < high

/-- The largest `e` with `10 ^ e` at most the fraction. -/
def log10 (r : Ratio) : Int :=
  if r.denominator ≤ r.numerator then
    ((Nat.toDigits 10 (r.numerator / r.denominator)).length : Int) - 1
  else
    let places := (Nat.toDigits 10 (r.denominator / r.numerator)).length
    if r.denominator ≤ r.numerator * powerOfTen (places - 1) then 1 - (places : Int)
    else -(places : Int)

/-- The decimal with `digits` digits that lies in the interval and nearest to the double, of two
equally near ones the even one. -/
def nearestDecimal? (x : Double) (i : RoundingInterval) (magnitude : Int) (digits : Nat) :
    Option Decimal :=
  let exponent := magnitude - digits + 1
  let r := x.ratio
  let onGrid : Ratio := match exponent with
    | .ofNat power => ⟨r.numerator, r.denominator * powerOfTen power⟩
    | .negSucc power => ⟨r.numerator * powerOfTen (power + 1), r.denominator⟩
  let coefficient := onGrid.numerator / onGrid.denominator
  let nearest := roundQuotient onGrid.numerator onGrid.denominator
  let other := if nearest = coefficient then coefficient + 1 else coefficient
  if i.contains ⟨nearest, exponent⟩ then some ⟨nearest, exponent⟩
  else if i.contains ⟨other, exponent⟩ then some ⟨other, exponent⟩
  else none

/-- The fewest digits that read back as the double, up to its sign, and of those the nearest. -/
def shortest (x : Double) : Decimal :=
  if x.isZero then ⟨0, 0⟩
  else
    let i := x.roundingInterval
    let magnitude := log10 x.ratio
    let found := (List.range' 1 17).findSome? (x.nearestDecimal? i magnitude)
    (found.getD ⟨0, 0⟩).trim 17

end Double

structure DecimalFormat where
  leastPositional : Int
  greatestPositional : Int

namespace DecimalFormat

def zeros (n : Nat) : String := String.ofList (List.replicate n '0')

/-- An exponent always carries its sign. -/
def exponentText (e : Int) : String := if e < 0 then s!"e{e}" else s!"e+{e}"

/-- A decimal with at least one digit on each side of the point, or with an exponent after one
digit and the others, if any. -/
def text (f : DecimalFormat) (d : Decimal) : String :=
  let digits := Nat.toDigits 10 d.coefficient
  let leading : Int := d.exponent + digits.length - 1
  if leading < f.leastPositional ∨ f.greatestPositional < leading then
    let fraction := digits.drop 1
    let point := if fraction.isEmpty then "" else "."
    String.ofList (digits.take 1) ++ point ++ String.ofList fraction ++ exponentText leading
  else if leading < 0 then
    "0." ++ zeros ((-leading).toNat - 1) ++ String.ofList digits
  else
    let whole := leading.toNat + 1
    let fraction := digits.drop whole
    String.ofList (digits.take whole) ++ zeros (whole - digits.length) ++ "." ++
      (if fraction.isEmpty then "0" else String.ofList fraction)

end DecimalFormat

end TreeShape
