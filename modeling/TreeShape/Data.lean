import TreeShape.Json.Basic
import TreeShape.ShapeError
/- Information that tools attach to a node under keys of their own choice. -/
namespace TreeShape

/-- The key that no tool may use. -/
def reservedKey : String := "space"

/-- Values under keys in increasing order. -/
structure Data where
  entries : List (String × Json)
  deriving BEq

namespace Data

def empty : Data := ⟨[]⟩

def isReserved (key : String) : Bool := key == reservedKey

def get? (d : Data) (key : String) : Option Json := Entries.get? key d.entries

def contains (d : Data) (key : String) : Bool := Entries.contains key d.entries

def size (d : Data) : Nat := d.entries.length

def isEmpty (d : Data) : Bool := d.entries.isEmpty

def keys (d : Data) : List String := Entries.keys d.entries

/-- Sets a value, and answers the one that it replaces; the reserved key is refused. The data
afterwards come with either answer. -/
def insert (d : Data) (key : String) (value : Json) : Except ShapeError (Option Json) × Data :=
  if isReserved key then (.error (.reservedDataKey key), d)
  else (.ok (d.get? key), ⟨Entries.insert key value d.entries⟩)

/-- Sets a value, and passes over the one that it replaces. -/
def insertWith (d : Data) (key : String) (value : Json) : Except ShapeError Unit × Data :=
  let (answer, changed) := d.insert key value
  (answer.map fun _ => (), changed)

/-- Drops a key, and gives the value that it had. -/
def erase (d : Data) (key : String) : Option Json × Data :=
  (d.get? key, ⟨Entries.erase key d.entries⟩)

/-- The reserved key must not be there. -/
def validate (d : Data) : Except ShapeError Unit :=
  if d.contains reservedKey then .error (.reservedDataKey reservedKey) else .ok ()

def ofEntries (entries : List (String × Json)) : Except ShapeError Data := do
  let data : Data := ⟨Entries.ofList entries⟩
  data.validate
  return data

def toJson (d : Data) : Json := .object d.entries

end Data

end TreeShape
