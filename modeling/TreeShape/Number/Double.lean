import TreeShape.Number.Power
/- Finite binary floating-point numbers with a 53-bit significand, computed in exact integers.
Every operation is rounded once, to the nearest such number, a half to the even neighbour. -/
namespace TreeShape

/-- A finite double: `significand * 2 ^ exponent`, negated when `negative` (zero too has a sign). -/
structure Double where
  negative : Bool
  significand : Nat
  exponent : Int
  deriving DecidableEq

/-- The quotient rounded to the nearest whole number, a half to the even neighbour. -/
def roundQuotient (numerator denominator : Nat) : Nat :=
  let quotient := numerator / denominator
  let remainder := numerator % denominator
  if 2 * remainder < denominator then quotient
  else if denominator < 2 * remainder then quotient + 1
  else quotient + quotient % 2

/-- A positive fraction `numerator / denominator`. -/
structure Ratio where
  numerator : Nat
  denominator : Nat

def Ratio.scale (r : Ratio) : Int → Ratio
  | .ofNat power => ⟨r.numerator * powerOfTwo power, r.denominator⟩
  | .negSucc power => ⟨r.numerator, r.denominator * powerOfTwo (power + 1)⟩

/-- The largest `e` with `2 ^ e` at most the fraction. -/
def Ratio.log2 (r : Ratio) : Int :=
  let guess : Int := (r.numerator.log2 : Int) - r.denominator.log2
  let scaled := r.scale (-guess)
  if scaled.numerator < scaled.denominator then guess - 1 else guess

namespace Double

def leastExponent : Int := -1074

def greatestExponent : Int := 971

def zero (negative : Bool) : Double := ⟨negative, 0, leastExponent⟩

/-- The double nearest to a fraction; none when that lies beyond the largest double. -/
def ofRatio? (negative : Bool) (r : Ratio) : Option Double :=
  if r.numerator = 0 then some (zero negative)
  else
    let exponent := max leastExponent (r.log2 - 52)
    let scaled := r.scale (-exponent)
    let rounded := roundQuotient scaled.numerator scaled.denominator
    let result : Double :=
      if rounded = powerOfTwo 53 then ⟨negative, powerOfTwo 52, exponent + 1⟩
      else ⟨negative, rounded, exponent⟩
    if greatestExponent < result.exponent then none else some result

def ofNat? (n : Nat) : Option Double := ofRatio? false ⟨n, 1⟩

def isZero (x : Double) : Bool := x.significand == 0

def mul? (x y : Double) : Option Double :=
  ofRatio? (x.negative != y.negative)
    (Ratio.scale ⟨x.significand * y.significand, 1⟩ (x.exponent + y.exponent))

/-- The quotient, rounded; none when it is too large or the divisor is zero. -/
def div? (x y : Double) : Option Double :=
  if y.isZero then none
  else ofRatio? (x.negative != y.negative)
    (Ratio.scale ⟨x.significand, y.significand⟩ (x.exponent - y.exponent))

def ratio (x : Double) : Ratio := Ratio.scale ⟨x.significand, 1⟩ x.exponent

/-- The double nearest to `significand * 10 ^ exponent`; none when that is too large.

Numbers of more than 310 digits before the point are too large and those that start more than
350 digits after it round to zero, so no larger power of ten is ever formed. -/
def ofDecimal? (negative : Bool) (significand : Nat) (exponent : Int) : Option Double :=
  if significand = 0 then some (zero negative)
  else
    let digits : Int := (Nat.toDigits 10 significand).length
    if 310 < digits + exponent then none
    else if digits + exponent < -350 then some (zero negative)
    else match exponent with
      | .ofNat power => ofRatio? negative ⟨significand * powerOfTen power, 1⟩
      | .negSucc power => ofRatio? negative ⟨significand, powerOfTen (power + 1)⟩

end Double

end TreeShape
