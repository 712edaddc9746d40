import TreeShape.Json.Basic
import TreeShape.Json.Reader
import TreeShape.Yaml.Tag
/- What a scalar stands for: null, a truth value, a number or its own text. -/
namespace TreeShape

namespace Yaml

/-- Digits of a base, at least one. -/
def natOfDigits? (base : Nat) (cs : List Char) : Option Nat :=
  if cs.isEmpty then none
  else do
    let digits ← cs.mapM Json.hexValue?
    if digits.all (· < base) then return digits.foldl (fun n d => n * base + d) 0 else none

def magnitude? : List Char → Option Nat
  | '0' :: 'x' :: cs => natOfDigits? 16 cs
  | '0' :: 'o' :: cs => natOfDigits? 8 cs
  | '0' :: 'b' :: cs => natOfDigits? 2 cs
  | cs => natOfDigits? 10 cs

def splitSign : List Char → Bool × List Char
  | '-' :: cs => (true, cs)
  | '+' :: cs => (false, cs)
  | cs => (false, cs)

/-- Several digits of which the first is zero are no number. -/
def isPadded (digits : List Char) : Bool :=
  1 < digits.length && digits.head? = some '0' && digits.all Char.isDigit

def integer? (cs : List Char) : Option Int :=
  let (negative, digits) := splitSign cs
  if isPadded digits then none
  else (magnitude? digits).map fun n => if negative then -(n : Int) else n

/-- A decimal number after its sign: digits with at most one point among them, and an exponent. -/
def decimal? (negative : Bool) (cs : List Char) : Option Double :=
  let (whole, rest) := Json.spanDigits cs
  let (fraction, rest) := match rest with
    | '.' :: rest => Json.spanDigits rest
    | rest => ([], rest)
  let significand := (whole ++ fraction).foldl (fun n d => n * 10 + d) 0
  if whole.isEmpty ∧ fraction.isEmpty then none
  else match rest with
    | [] => Double.ofDecimal? negative significand (-(fraction.length : Int))
    | c :: rest =>
      if c = 'e' ∨ c = 'E' then
        let (down, rest) := splitSign rest
        let (digits, rest) := Json.spanDigits rest
        let places : Int := (digits.foldl (fun n d => n * 10 + d) 0 : Nat)
        if digits.isEmpty ∨ ¬rest.isEmpty then none
        else Double.ofDecimal? negative significand
          ((if down then -places else places) - fraction.length)
      else none

def nullWords : List String := ["~", "null", "Null", "NULL"]

def trueWords : List String := ["true", "True", "TRUE"]

def falseWords : List String := ["false", "False", "FALSE"]

def truth? (text : String) : Option Bool :=
  if trueWords.contains text then some true
  else if falseWords.contains text then some false
  else none

/-- Infinities and what is no number have no JSON form but null. -/
def unboundedWords : List String :=
  [".inf", ".Inf", ".INF", "+.inf", "+.Inf", "+.INF", "-.inf", "-.Inf", "-.INF", ".nan", ".NaN",
    ".NAN"]

/-- A double, if the text is one; one without bounds becomes null. -/
def float? (text : String) : Option Json :=
  if unboundedWords.contains text then some .null
  else
    let (negative, digits) := splitSign text.toList
    (decimal? negative digits).map fun x => .number (.double x)

/-- Whole numbers beyond 64 bits but within 128 are refused; larger ones are doubles. -/
def plainInteger? (value : Int) : Option Json :=
  if -(powerOfTwo 63 : Int) ≤ value ∧ value < powerOfTwo 64 then some (.number (.int value))
  else none

/-- The value of a plain scalar; none if it is a number that is refused. -/
def plainValue? (text : String) : Option Json :=
  if text.isEmpty || nullWords.contains text then some .null
  else match truth? text with
    | some b => some (.bool b)
    | none =>
      let cs := text.toList
      let other : Json :=
        if isPadded (splitSign cs).2 then .string text else (float? text).getD (.string text)
      match integer? cs with
      | none => some other
      | some value =>
        if -(powerOfTwo 127 : Int) ≤ value ∧ value < powerOfTwo 128 then plainInteger? value
        else some other

/-- The value of a scalar with a tag, which must fit the tag, however the scalar is written. -/
def taggedValue? (tag : Tag) (text : String) : Option Json :=
  match tag with
  | .null => if nullWords.contains text then some .null else none
  | .bool => (truth? text).map .bool
  | .int => (integer? text.toList).bind plainInteger?
  | .float => float? text
  | .other => some (.string text)
  | .custom => none

/-- The value of a scalar, which may have a tag or be plain. -/
def scalarValue? (tag : Option Tag) (plain : Bool) (text : String) : Option Json :=
  match tag with
  | some tag => taggedValue? tag text
  | none => if plain then plainValue? text else some (.string text)

end Yaml

end TreeShape
