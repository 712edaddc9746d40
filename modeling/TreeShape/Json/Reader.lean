import TreeShape.Json.Basic
/- Reading JSON text. A reader takes the characters left and returns those it leaves behind. -/
namespace TreeShape

namespace Json

/-- Why a text is not JSON: it ends too early, or it goes wrong before its end. -/
inductive ReadError where
  | ended
  | malformed
  deriving DecidableEq

def faultAt : List Char → ReadError
  | [] => .ended
  | _ :: _ => .malformed

def isBlank (c : Char) : Bool := c = ' ' || c = '\t' || c = '\n' || c = '\r'

def skipBlanks (cs : List Char) : List Char := cs.dropWhile isBlank

def spanDigits (cs : List Char) : List Nat × List Char :=
  ((cs.takeWhile Char.isDigit).map fun c => c.toNat - '0'.toNat, cs.dropWhile Char.isDigit)

/-- Appends digits to a significand as long as it stays within 64 bits. -/
def appendDigits : Nat → List Nat → Nat × List Nat
  | significand, [] => (significand, [])
  | significand, d :: ds =>
    if significand * 10 + d < wordLimit then appendDigits (significand * 10 + d) ds
    else (significand, d :: ds)

def powerOfTen? (n : Nat) : Option Double := Double.ofNat? (powerOfTen n)

/-- Divides by a power of ten, at most `10 ^ 308` at a time, rounding each quotient. -/
def scaleDown? (x : Double) (places : Nat) : Option Double :=
  if x.isZero then some x
  else if places ≤ 308 then (powerOfTen? places).bind x.div?
  else ((powerOfTen? 308).bind x.div?).bind fun y => scaleDown? y (places - 308)
termination_by places

/-- The double for `significand * 10 ^ exponent`: the significand and the product or quotient are
rounded in turn. None stands for a number that is too large. -/
def scaled? (significand : Nat) (exponent : Int) : Option Double :=
  (Double.ofNat? significand).bind fun x =>
    match exponent with
    | .ofNat places =>
      if places ≤ 308 then (powerOfTen? places).bind x.mul?
      else if x.isZero then some x
      else none
    | .negSucc places => scaleDown? x (places + 1)

/-- A number with a point, an exponent or too many digits. -/
def readDouble (negative : Bool) (significand : Nat) (exponent : Int) (rest : List Char) :
    Except ReadError (Number × List Char) :=
  match scaled? significand exponent with
  | some x => .ok (.double { x with negative }, rest)
  | none => .error .malformed

def readSign : List Char → Bool × List Char
  | '+' :: rest => (false, rest)
  | '-' :: rest => (true, rest)
  | cs => (false, cs)

def readExponent (negative : Bool) (significand : Nat) (exponent : Int) (cs : List Char) :
    Except ReadError (Number × List Char) :=
  match cs with
  | c :: rest =>
    if c = 'e' ∨ c = 'E' then
      let (down, rest) := readSign rest
      let (digits, rest) := spanDigits rest
      if digits.isEmpty then .error (faultAt rest)
      else
        let places : Int := (digits.foldl (fun n d => n * 10 + d) 0 : Nat)
        readDouble negative significand
          (if down then exponent - places else exponent + places) rest
    else readDouble negative significand exponent cs
  | [] => readDouble negative significand exponent cs

/-- A whole number: exact within 64 bits, a double otherwise; minus zero is a double. -/
def wholeNumber (negative : Bool) (n : Nat) (rest : List Char) :
    Except ReadError (Number × List Char) :=
  if negative then
    if n = 0 ∨ powerOfTwo 63 < n then readDouble true n 0 rest else .ok (.int (-n), rest)
  else .ok (.int n, rest)

/-- A number after its sign. Digits that do not fit into 64 bits any more are dropped: before the
point they count as zeros, after it not at all. -/
def readNumber (negative : Bool) (cs : List Char) : Except ReadError (Number × List Char) :=
  let (whole, rest) := spanDigits cs
  match whole with
  | [] => .error (faultAt rest)
  | 0 :: _ :: _ => .error .malformed
  | _ =>
    let (significand, dropped) := appendDigits 0 whole
    let exponent : Int := dropped.length
    match rest with
    | '.' :: rest =>
      let (fraction, rest) := spanDigits rest
      if fraction.isEmpty then .error (faultAt rest)
      else
        let (significand, ignored) := appendDigits significand fraction
        readExponent negative significand
          (exponent - ((fraction.length - ignored.length : Nat) : Int)) rest
    | c :: _ =>
      if c = 'e' ∨ c = 'E' ∨ ¬dropped.isEmpty then readExponent negative significand exponent rest
      else wholeNumber negative significand rest
    | [] =>
      if dropped.isEmpty then wholeNumber negative significand []
      else readDouble negative significand exponent []

def hexValue? (c : Char) : Option Nat :=
  if '0' ≤ c ∧ c ≤ '9' then some (c.toNat - '0'.toNat)
  else if 'a' ≤ c ∧ c ≤ 'f' then some (c.toNat - 'a'.toNat + 10)
  else if 'A' ≤ c ∧ c ≤ 'F' then some (c.toNat - 'A'.toNat + 10)
  else none

/-- Four digits of base sixteen; a text with fewer than four bytes left has ended. -/
def readUnit : List Char → Except ReadError (Nat × List Char)
  | a :: b :: c :: d :: rest =>
    match hexValue? a, hexValue? b, hexValue? c, hexValue? d with
    | some a, some b, some c, some d => .ok (((a * 16 + b) * 16 + c) * 16 + d, rest)
    | _, _, _, _ => .error .malformed
  | cs => if (String.ofList cs).utf8ByteSize < 4 then .error .ended else .error .malformed

/-- The second half of a surrogate pair. -/
def readTrailing (leading : Nat) : List Char → Except ReadError (Char × List Char)
  | '\\' :: 'u' :: rest => do
    let (trailing, rest) ← readUnit rest
    if 0xDC00 ≤ trailing ∧ trailing ≤ 0xDFFF then
      return (Char.ofNat (0x10000 + (leading - 0xD800) * 0x400 + (trailing - 0xDC00)), rest)
    else .error .malformed
  | ['\\'] => .error .ended
  | cs => .error (faultAt cs)

def readEscape : List Char → Except ReadError (Char × List Char)
  | [] => .error .ended
  | c :: rest =>
    match c with
    | '"' => .ok ('"', rest)
    | '\\' => .ok ('\\', rest)
    | '/' => .ok ('/', rest)
    | 'b' => .ok ('\x08', rest)
    | 'f' => .ok ('\x0c', rest)
    | 'n' => .ok ('\n', rest)
    | 'r' => .ok ('\r', rest)
    | 't' => .ok ('\t', rest)
    | 'u' => do
      let (unit, rest) ← readUnit rest
      if 0xDC00 ≤ unit ∧ unit ≤ 0xDFFF then .error .malformed
      else if 0xD800 ≤ unit ∧ unit ≤ 0xDBFF then readTrailing unit rest
      else return (Char.ofNat unit, rest)
    | _ => .error .malformed

/-- The characters up to the closing quote; each step eats at least one character, so that the
number of characters left is fuel enough. -/
def readChars : Nat → List Char → List Char → Except ReadError (String × List Char)
  | _, _, [] => .error .ended
  | 0, _, _ :: _ => .error .malformed
  | fuel + 1, done, c :: rest =>
    if c = '"' then .ok (String.ofList done.reverse, rest)
    else if c = '\\' then do
      let (c, rest) ← readEscape rest
      readChars fuel (c :: done) rest
    else if c.toNat < 32 then .error .malformed
    else readChars fuel (c :: done) rest

def readString (cs : List Char) : Except ReadError (String × List Char) := readChars cs.length [] cs

def readWord (value : Json) : List Char → List Char → Except ReadError (Json × List Char)
  | [], cs => .ok (value, cs)
  | _ :: _, [] => .error .ended
  | w :: ws, c :: cs => if w = c then readWord value ws cs else .error .malformed

mutual

/-- A value that may hold `depth` more levels of arrays and objects. -/
def readValue : Nat → Nat → List Char → Except ReadError (Json × List Char)
  | 0, _, _ => .error .malformed
  | fuel + 1, depth, cs =>
    match skipBlanks cs with
    | [] => .error .ended
    | '"' :: rest => (readString rest).map fun (s, rest) => (.string s, rest)
    | '[' :: rest =>
      match depth with
      | 0 => .error .malformed
      | depth + 1 =>
        match skipBlanks rest with
        | ']' :: rest => .ok (.array [], rest)
        | rest => readItems fuel depth [] rest
    | '\x7b' :: rest =>
      match depth with
      | 0 => .error .malformed
      | depth + 1 =>
        match skipBlanks rest with
        | '\x7d' :: rest => .ok (.object [], rest)
        | rest => readFields fuel depth [] rest
    | '-' :: rest => (readNumber true rest).map fun (n, rest) => (.number n, rest)
    | 'n' :: rest => readWord .null "ull".toList rest
    | 't' :: rest => readWord (.bool true) "rue".toList rest
    | 'f' :: rest => readWord (.bool false) "alse".toList rest
    | c :: rest =>
      if c.isDigit then (readNumber false (c :: rest)).map fun (n, rest) => (.number n, rest)
      else .error .malformed

def readItems : Nat → Nat → List Json → List Char → Except ReadError (Json × List Char)
  | 0, _, _, _ => .error .malformed
  | fuel + 1, depth, done, cs => do
    let (item, rest) ← readValue fuel depth cs
    match skipBlanks rest with
    | ',' :: rest => readItems fuel depth (item :: done) rest
    | ']' :: rest => return (.array (item :: done).reverse, rest)
    | rest => .error (faultAt rest)

/-- A field and those after it; of several values under one key the last is kept. -/
def readFields : Nat → Nat → List (String × Json) → List Char → Except ReadError (Json × List Char)
  | 0, _, _, _ => .error .malformed
  | fuel + 1, depth, done, cs => do
    match skipBlanks cs with
    | '"' :: rest =>
      let (key, rest) ← readString rest
      match skipBlanks rest with
      | ':' :: rest =>
        let (value, rest) ← readValue fuel depth rest
        let fields := Entries.insert key value done
        match skipBlanks rest with
        | ',' :: rest => readFields fuel depth fields rest
        | '\x7d' :: rest => return (.object fields, rest)
        | rest => .error (faultAt rest)
      | rest => .error (faultAt rest)
    | rest => .error (faultAt rest)

end

/-- The deepest nesting of arrays and objects that is read. -/
def depthLimit : Nat := 127

def ofText (text : String) : Except ReadError Json := do
  let cs := text.toList
  let (value, rest) ← readValue (2 * cs.length + 2) depthLimit cs
  if (skipBlanks rest).isEmpty then return value else .error .malformed

end Json

end TreeShape
