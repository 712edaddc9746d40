/- Dates and times as they are written in TOML. -/
namespace TreeShape

namespace Toml

def fixedDigits? (count : Nat) (cs : List Char) : Option (Nat × List Char) :=
  let digits := cs.take count
  if digits.length = count ∧ digits.all Char.isDigit then
    some (digits.foldl (fun n c => n * 10 + (c.toNat - '0'.toNat)) 0, cs.drop count)
  else none

def char? (c : Char) : List Char → Option (List Char)
  | d :: rest => if c = d then some rest else none
  | [] => none

def daysInMonth (year month : Nat) : Nat :=
  if month = 2 then
    if year % 4 = 0 ∧ (year % 100 ≠ 0 ∨ year % 400 = 0) then 29 else 28
  else if month ∈ [4, 6, 9, 11] then 30
  else 31

def date? (cs : List Char) : Option (List Char) := do
  let (year, rest) ← fixedDigits? 4 cs
  let (month, rest) ← fixedDigits? 2 (← char? '-' rest)
  let (day, rest) ← fixedDigits? 2 (← char? '-' rest)
  if 1 ≤ month ∧ month ≤ 12 ∧ 1 ≤ day ∧ day ≤ daysInMonth year month then return rest else none

def clock? (cs : List Char) : Option (List Char) := do
  let (hour, rest) ← fixedDigits? 2 cs
  let (minute, rest) ← fixedDigits? 2 (← char? ':' rest)
  if hour < 24 ∧ minute < 60 then return rest else none

def time? (cs : List Char) : Option (List Char) := do
  let (second, rest) ← fixedDigits? 2 (← char? ':' (← clock? cs))
  if 60 < second then none
  else match rest with
    | '.' :: fraction =>
      return if fraction.head?.any Char.isDigit then fraction.dropWhile Char.isDigit else rest
    | rest => return rest

def skipOffset : List Char → List Char
  | 'Z' :: rest => rest
  | 'z' :: rest => rest
  | '+' :: rest => (clock? rest).getD ('+' :: rest)
  | '-' :: rest => (clock? rest).getD ('-' :: rest)
  | cs => cs

/-- Passes a date, a time, or both with or without an offset. -/
def skipDatetime? (cs : List Char) : Option (List Char) :=
  match date? cs with
  | some (c :: rest) =>
    if c = 'T' ∨ c = 't' ∨ c = ' ' then
      match time? rest with
      | some rest => some (skipOffset rest)
      | none => some (c :: rest)
    else some (c :: rest)
  | some [] => some []
  | none => time? cs

def isDatetime (text : String) : Bool := skipDatetime? text.toList == some []

end Toml

end TreeShape
