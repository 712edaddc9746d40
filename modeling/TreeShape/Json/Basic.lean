import TreeShape.Number.Shortest
import TreeShape.Json.Entries
/- JSON values: what a tree looks like before anything is known about its shape. -/
namespace TreeShape

/-- A JSON number, kept apart by how it was written: whole numbers within 64 bits are exact. -/
inductive Number where
  | int (value : Int)
  | double (value : Double)
  deriving DecidableEq

/-- A JSON value; the fields of an object are listed in the order in which they are written. -/
inductive Json where
  | null
  | bool (value : Bool)
  | number (value : Number)
  | string (value : String)
  | array (items : List Json)
  | object (fields : List (String × Json))
  deriving BEq, Inhabited

namespace Json

/-- The number of values of an unsigned 64-bit word. -/
def wordLimit : Nat := powerOfTwo 64

/-- What a value is, as far as a message says it. -/
inductive Kind where
  | null
  | boolean
  | fractional
  | number
  | string
  | array
  | object
  deriving DecidableEq

namespace Kind

def describe : Kind → String
  | null => "null"
  | boolean => "a boolean"
  | fractional => "a fractional number"
  | number => "a number"
  | string => "a string"
  | array => "an array"
  | object => "an object"

end Kind

def kind : Json → Kind
  | .null => .null
  | .bool _ => .boolean
  | .number (.double _) => .fractional
  | .number (.int _) => .number
  | .string _ => .string
  | .array _ => .array
  | .object _ => .object

def isNull : Json → Bool
  | .null => true
  | _ => false

def nat (n : Nat) : Json := .number (.int n)

/-- The value as a natural number of at most 64 bits. -/
def word? : Json → Option Nat
  | .number (.int (.ofNat n)) => if n < wordLimit then some n else none
  | _ => none

/-- The value under a key that is there and not null. -/
def present? (key : String) (fields : List (String × Json)) : Option Json :=
  match Entries.get? key fields with
  | none => none
  | some .null => none
  | some value => some value

end Json

end TreeShape
