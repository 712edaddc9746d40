import TreeShape.Toml.Value
import TreeShape.Toml.Text
/- Numbers, dates and times as values in TOML. -/
namespace TreeShape

namespace Toml

def digits? (base : Nat) : List Char → Option (List Nat × List Char)
  | [] => none
  | c :: rest =>
    match (Json.hexValue? c).filter (· < base) with
    | none => none
    | some d =>
      match rest with
      | '_' :: next =>
        match digits? base next with
        | some (ds, rest) => some (d :: ds, rest)
        | none => some ([d], rest)
      | next =>
        match digits? base next with
        | some (ds, rest) => some (d :: ds, rest)
        | none => some ([d], rest)

def ofDigits (base : Nat) (digits : List Nat) : Nat := digits.foldl (fun n d => n * base + d) 0

def integer64? (value : Int) : Option Value :=
  if -(powerOfTwo 63 : Int) ≤ value ∧ value < powerOfTwo 63 then some (.integer value) else none

def splitSign : List Char → Bool × List Char
  | '-' :: cs => (true, cs)
  | '+' :: cs => (false, cs)
  | cs => (false, cs)

def word? (word : String) (cs : List Char) : Option (List Char) :=
  let w := word.toList
  if cs.take w.length = w then some (cs.drop w.length) else none

/-- A float; one that is too large is infinite, which only a negative one may be. -/
def float? (negative : Bool) (significand : Nat) (exponent : Int) : Option Value :=
  match Double.ofDecimal? negative significand exponent with
  | some x => some (.float (some x))
  | none => if negative then some (.float none) else none

def exponent? (cs : List Char) : Option (Int × List Char) := do
  let (down, rest) := splitSign cs
  let (digits, rest) ← digits? 10 rest
  let n : Int := ofDigits 10 digits
  return (if down then -n else n, rest)

/-- What follows the whole part of a decimal number: a fraction, an exponent, both or nothing. -/
def decimal? (negative : Bool) (whole : List Nat) (cs : List Char) :
    Option (Value × List Char) := do
  let n := ofDigits 10 whole
  let fraction : Option (List Nat × List Char) := match cs with
    | '.' :: rest => digits? 10 rest
    | _ => none
  let (more, rest) := fraction.getD ([], cs)
  let scale : Int := -(more.length : Int)
  let significand := more.foldl (fun n d => n * 10 + d) n
  match rest with
  | c :: after =>
    if c = 'e' ∨ c = 'E' then
      let (exponent, rest) ← exponent? after
      return (← float? negative significand (exponent + scale), rest)
    else if fraction.isSome then return (← float? negative significand scale, rest)
    else return (← integer64? (if negative then -(n : Int) else n), rest)
  | [] =>
    if fraction.isSome then return (← float? negative significand scale, [])
    else return (← integer64? (if negative then -(n : Int) else n), [])

/-- A number with a base sign, a decimal number or one of the words `inf` and `nan`. -/
def number? (cs : List Char) : Option (Value × List Char) :=
  let (negative, unsigned) := splitSign cs
  let based (base : Nat) (rest : List Char) : Option (Value × List Char) := do
    let (digits, rest) ← digits? base rest
    return (← integer64? (ofDigits base digits), rest)
  match cs with
  | '0' :: 'x' :: rest => based 16 rest
  | '0' :: 'o' :: rest => based 8 rest
  | '0' :: 'b' :: rest => based 2 rest
  | _ =>
    match word? "inf" unsigned, word? "nan" unsigned with
    | some rest, _ => some (.float none, rest)
    | none, some rest => some (.float none, rest)
    | none, none =>
      match unsigned with
      | '0' :: rest => decimal? negative [0] rest
      | _ => (digits? 10 unsigned).bind fun (whole, rest) => decimal? negative whole rest

def datetime? (cs : List Char) : Option (Value × List Char) :=
  (skipDatetime? cs).map fun rest =>
    (.datetime (String.ofList (cs.take (cs.length - rest.length))), rest)

end Toml

end TreeShape
