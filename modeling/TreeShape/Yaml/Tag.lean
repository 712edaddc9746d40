import TreeShape.Json.Reader
import TreeShape.Yaml.Cursor
/- Tags, which tell the type of a node, and the directives before a document, which tell the version
of the notation and what the handles of tags stand for. -/
namespace TreeShape

namespace Yaml

/-- Characters of a tag; some may end a node between brackets, and only stand in a closed tag. -/
def isTagCharacter (closed : Bool) (c : Char) : Bool :=
  isNameCharacter c ||
    c ∈ [';', '/', '?', ':', '@', '&', '=', '+', '$', '.', '!', '~', '*', '\'', '(', ')'] ||
    closed && c ∈ [',', '[', ']']

/-- An octet that is written as a percent sign and two digits of base sixteen. -/
def escapedOctet? : List Char → Option Nat
  | '%' :: high :: low :: _ => do return 16 * (← Json.hexValue? high) + (← Json.hexValue? low)
  | _ => none

/-- How many octets of UTF-8 follow a first one. -/
def followers? (octet : Nat) : Option Nat :=
  if octet < 128 then some 0
  else if octet / 32 = 6 then some 1
  else if octet / 16 = 14 then some 2
  else if octet / 8 = 30 then some 3
  else none

/-- The octets of a tag from a character on, of which `left` still belong to the character
before. -/
def tagFrom (closed : Bool) : Nat → Nat → Cursor → Option (List UInt8 × Cursor)
  | 0, _, _ => none
  | fuel + 1, left, c =>
    match c.rest with
    | '%' :: _ => do
      let octet ← escapedOctet? c.rest
      let left ← if left = 0 then followers? octet
        else if octet / 64 = 2 then some (left - 1) else none
      let (octets, after) ← tagFrom closed fuel left (c.drop 3)
      return (octet.toUInt8 :: octets, after)
    | x :: _ =>
      if left ≠ 0 then none
      else if isTagCharacter closed x then do
        let (octets, after) ← tagFrom closed fuel 0 (c.drop 1)
        return (x.toNat.toUInt8 :: octets, after)
      else some ([], c)
    | [] => if left = 0 then some ([], c) else none

/-- The octets of a tag up to one that is zero. -/
def tagOctets? (closed : Bool) (c : Cursor) : Option (List UInt8 × Cursor) :=
  (tagFrom closed (c.rest.length + 1) 0 c).map fun (octets, after) =>
    (octets.takeWhile (· ≠ 0), after)

/-- The octets of a tag that has at least one character. -/
def someTagOctets? (closed : Bool) (c : Cursor) : Option (List UInt8 × Cursor) :=
  if c.rest.head?.any fun x => x = '%' || isTagCharacter closed x then tagOctets? closed c else none

/-- A handle with its name, which may be empty, between two marks. -/
def namedHandle? (c : Cursor) : Option (String × Cursor) :=
  match c.rest with
  | '!' :: rest =>
    let name := rest.takeWhile isNameCharacter
    if (rest.drop name.length).head? = some '!' then
      some (String.ofList ('!' :: name ++ ['!']), c.drop (name.length + 2))
    else none
  | _ => none

def utf8 (text : String) : List UInt8 := text.toUTF8.data.toList

/-- A tag as it is written: its handle, empty if it has none, and the octets after the handle. -/
structure WrittenTag where
  handle : String
  octets : List UInt8
  deriving DecidableEq

def writtenTag? (c : Cursor) : Option (WrittenTag × Cursor) :=
  if c.rest.take 2 = ['!', '<'] then do
    let (octets, after) ← someTagOctets? true (c.drop 2)
    if after.rest.head? = some '>' then return (⟨"", octets⟩, after.drop 1) else none
  else match namedHandle? c with
    | some (handle, c) => do
      let (octets, after) ← someTagOctets? false c
      return (⟨handle, octets⟩, after)
    | none => do
      let (octets, after) ← tagOctets? false (c.drop 1)
      return (if octets.isEmpty then ⟨"", utf8 "!"⟩ else ⟨"!", octets⟩, after)

inductive Directive where
  | version (major minor : Nat)
  | handle (name : String) (octets : List UInt8)
  deriving DecidableEq

def versionNumber? (c : Cursor) : Option (Nat × Cursor) :=
  let digits := c.rest.takeWhile Char.isDigit
  if digits.isEmpty ∨ 9 < digits.length then none
  else some (digits.foldl (fun n d => n * 10 + (d.toNat - '0'.toNat)) 0, c.drop digits.length)

def versionDirective? (c : Cursor) : Option (Directive × Cursor) := do
  let (major, c) ← versionNumber? c
  if c.rest.head? = some '.' then
    let (minor, c) ← versionNumber? (c.drop 1)
    return (.version major minor, c)
  else none

def handleDirective? (c : Cursor) : Option (Directive × Cursor) := do
  let (handle, c) ← match namedHandle? c with
    | some found => some found
    | none => if c.rest.head? = some '!' then some ("!", c.drop 1) else none
  if c.rest.head?.any isBlank then
    let (octets, c) ← someTagOctets? true (c.skip isBlank)
    if endsWord c.rest then return (.handle handle octets, c) else none
  else none

/-- A directive and the rest of its line, which may only be a comment. -/
def directive? (c : Cursor) : Option (Directive × Cursor) := do
  let name := (c.rest.drop 1).takeWhile isNameCharacter
  let c := c.drop (name.length + 1)
  let (directive, c) ←
    if ¬endsWord c.rest then none
    else if name = "YAML".toList then versionDirective? (c.skip isBlank)
    else if name = "TAG".toList then handleDirective? (c.skip isBlank)
    else none
  let c := c.skip isBlank
  let c := if c.rest.head? = some '#' then c.skipLine else c
  if c.rest.head?.all isBreak then return (directive, c.next) else none

namespace Directive

def version? : Directive → Option (Nat × Nat)
  | version major minor => some (major, minor)
  | handle _ _ => none

def handle? : Directive → Option (String × List UInt8)
  | version _ _ => none
  | handle name octets => some (name, octets)

end Directive

/-- What handles stand for where no directive tells it. -/
def defaultHandles : List (String × List UInt8) :=
  [("", []), ("!", utf8 "!"), ("!!", utf8 "tag:yaml.org,2002:")]

/-- What handles stand for after directives, of which one may tell a version, and one for each
handle what it stands for. -/
def handles? (directives : List Directive) : Option (List (String × List UInt8)) :=
  let versions := directives.filterMap Directive.version?
  let told := directives.filterMap Directive.handle?
  if versions ∈ [[], [(1, 1)], [(1, 2)]] ∧ (told.map (·.1)).Nodup then some (told ++ defaultHandles)
  else none

/-- A tag without a handle: the octets that its handle stands for come first. -/
def WrittenTag.resolve? (tag : WrittenTag) (handles : List (String × List UInt8)) :
    Option WrittenTag :=
  (handles.lookup tag.handle).map fun octets => ⟨"", octets ++ tag.octets⟩

/-- The types that tags tell apart. A custom one is known to its document only, so that no JSON
value has it. -/
inductive Tag where
  | null
  | bool
  | int
  | float
  | other
  | custom
  deriving DecidableEq

namespace Tag

def known : List (List UInt8 × Tag) :=
  [(utf8 "tag:yaml.org,2002:null", null), (utf8 "tag:yaml.org,2002:bool", bool),
    (utf8 "tag:yaml.org,2002:int", int), (utf8 "tag:yaml.org,2002:float", float)]

/-- The type that octets name; custom ones that are no text are passed over. -/
def ofOctets? (octets : List UInt8) : Option Tag :=
  if (utf8 "!").isPrefixOf octets then (String.fromUTF8? ⟨octets.toArray⟩).map fun _ => custom
  else some ((known.lookup octets).getD other)

end Tag

end Yaml

end TreeShape
