import TreeShape.Toml.Document
import TreeShape.Text.Case
/- Values of settings before they are given a type, and how later ones are laid over earlier. -/
namespace TreeShape

/-- A value of a setting. One that is absent fills a list up to an item that was set. -/
inductive Setting where
  | absent
  | boolean (value : Bool)
  | integer (value : Int)
  | float (value : Option Double)
  | string (value : String)
  | list (items : List Setting)
  | table (entries : List (String × Setting))
  deriving Inhabited

namespace Setting

mutual

def ofToml : Toml.Value → Setting
  | .boolean value => .boolean value
  | .integer value => .integer value
  | .float value => .float value
  | .string text => .string text
  | .datetime text => .string text
  | .array items => .list (ofTomlItems items)
  | .table entries => .table (ofTomlEntries entries)
termination_by structural value => value

def ofTomlItems : List Toml.Value → List Setting
  | [] => []
  | value :: rest => ofToml value :: ofTomlItems rest
termination_by structural items => items

def ofTomlEntries : List (String × Toml.Value) → List (String × Setting)
  | [] => []
  | (key, value) :: rest => Entries.insert key (ofToml value) (ofTomlEntries rest)
termination_by structural entries => entries

end

/-- Keys are compared in small letters; the Kelvin sign is a capital `k`. -/
def lowerKey (key : String) : String :=
  Text.lower (String.ofList (key.toList.map fun c => if c = '\u212a' then 'k' else c))

def entries : Setting → List (String × Setting)
  | .table entries => entries
  | _ => []

mutual

/-- Sets a key. A table is laid over what the key has, and all else replaces it. -/
def put (key : String) : Setting → List (String × Setting) → List (String × Setting)
  | .table incoming, target =>
    let present := (Entries.get? (lowerKey key) target).getD (.table [])
    Entries.insert (lowerKey key) (overlay incoming present) target
  | value, target => Entries.insert (lowerKey key) value target
termination_by structural value => value

/-- Lays entries over a value; where there is one to lay, the value becomes a table. -/
def overlay : List (String × Setting) → Setting → Setting
  | [], present => present
  | (key, value) :: rest, present => overlay rest (.table (put key value present.entries))
termination_by structural incoming => incoming

end

def items : Setting → List Setting
  | .list items => items
  | _ => []

/-- The place of an item; an index below zero counts from the end. -/
def place (index : Int) (length : Nat) : Nat :=
  if index < 0 then (index + length).toNat else index.toNat

/-- Replaces an item, in a list long enough to have it. -/
def replaceItem (place : Nat) (value : Setting) (items : List Setting) : List Setting :=
  items.take place ++ List.replicate (place - items.length) .absent ++
    value :: items.drop (place + 1)

/-- A step in the path to a setting: to a key of a table, or to an item of a list. -/
inductive Step where
  | key (name : String)
  | item (index : Int)
  deriving DecidableEq

/-- Sets the value that a path leads to. What lies on the way becomes a table, or a list. At its end
a table is laid over what a key has, but replaces an item. -/
def putAt (value : Setting) : List Step → Setting → Setting
  | [], _ => value
  | [.key name], present => .table (put name value present.entries)
  | .key name :: rest, present =>
    let inner := (Entries.get? (lowerKey name) present.entries).getD .absent
    .table (Entries.insert (lowerKey name) (putAt value rest inner) present.entries)
  | .item index :: rest, present =>
    let place := place index present.items.length
    let inner := present.items[place]?.getD .absent
    .list (replaceItem place (putAt value rest inner) present.items)

def isNameCharacter (c : Char) : Bool := c.isAlphanum || c = '_' || c = '-' || c = ' '

/-- The number between the brackets of a step to an item, and what follows them. -/
def index? (cs : List Char) : Option (Int × List Char) :=
  let blank (c : Char) : Bool := c = ' ' || c = '\t'
  let cs := cs.dropWhile blank
  let (negative, cs) := match cs with
    | '-' :: rest => (true, rest)
    | cs => (false, cs)
  let (digits, rest) := Json.spanDigits cs
  let n := digits.foldl (fun n d => n * 10 + d) 0
  match rest.dropWhile blank with
  | ']' :: rest =>
    let tooLarge := if negative then powerOfTwo 63 < n else powerOfTwo 63 ≤ n
    if digits.isEmpty ∨ tooLarge then none
    else some (if negative then -(n : Int) else n, rest)
  | _ => none

def steps? : Nat → List Char → Option (List Step)
  | _, [] => some []
  | 0, _ => none
  | fuel + 1, '.' :: rest =>
    let name := rest.takeWhile isNameCharacter
    if name.isEmpty then none
    else (steps? fuel (rest.dropWhile isNameCharacter)).map (.key (String.ofList name) :: ·)
  | fuel + 1, '[' :: rest => do
    let (index, rest) ← index? rest
    return .item index :: (← steps? fuel rest)
  | _, _ => none

def path? (text : String) : Option (List Step) :=
  let cs := text.toList
  let name := cs.takeWhile isNameCharacter
  if name.isEmpty then none
  else (steps? cs.length (cs.dropWhile isNameCharacter)).map (.key (String.ofList name) :: ·)

/-- Lays one entry at the top level of a file over the settings so far. A key that reads as a path
is taken for one. -/
def layEntry (settings : Setting) (entry : String × Setting) : Setting :=
  match path? entry.1 with
  | some path => putAt entry.2 path settings
  | none => .table (put entry.1 entry.2 settings.entries)

def layFile (settings : Setting) (file : List (String × Setting)) : Setting :=
  file.foldl layEntry settings

end Setting

end TreeShape
