import TreeShape.Number.Double
import TreeShape.Json.Entries
import TreeShape.Toml.Datetime
/- What a TOML text says. -/
namespace TreeShape

namespace Toml

/-- A value; a float without a number is infinite or no number at all. -/
inductive Value where
  | string (text : String)
  | integer (value : Int)
  | float (value : Option Double)
  | boolean (value : Bool)
  | datetime (text : String)
  | array (items : List Value)
  | table (entries : List (String × Value))
  deriving Inhabited

/-- How a table came to be: by a header or as the whole text, because a header went through it, or
by a dotted key. -/
inductive Origin where
  | header
  | implied
  | dotted
  deriving DecidableEq

inductive Item where
  | value (value : Value)
  | table (origin : Origin) (entries : List (String × Item))
  | tables (last : List (String × Item)) (earlier : List (List (String × Item)))

abbrev Items := List (String × Item)

/-- Sets a key in its place; a new key comes last. -/
def setItem (key : String) (item : Item) : Items → Items
  | [] => [(key, item)]
  | (k, old) :: rest => if k = key then (key, item) :: rest else (k, old) :: setItem key item rest

/-- Changes the table that a path leads to; missing tables on the way are made, and of an array of
tables the last is entered. Dotted keys do not enter a table that has a header. -/
def alter? (dotted : Bool) (change : Origin → Items → Option Items) :
    List String → Origin → Items → Option Items
  | [], origin, items => change origin items
  | key :: rest, _, items =>
    match Entries.get? key items with
    | none => do
      let origin := if dotted then Origin.dotted else .implied
      let inner ← alter? dotted change rest origin []
      return setItem key (.table origin inner) items
    | some (.value _) => none
    | some (.table origin inner) =>
      if dotted ∧ origin = .header then none
      else do
        let inner ← alter? dotted change rest origin inner
        return setItem key (.table origin inner) items
    | some (.tables last earlier) => do
      let last ← alter? dotted change rest .header last
      return setItem key (.tables last earlier) items

/-- Sets a key that has no value yet. Behind dots it must stand in a table made by dots. -/
def assign? (path : List String) (key : String) (value : Value) (items : Items) : Option Items :=
  alter? true
    (fun origin items =>
      if (¬path.isEmpty ∧ origin ≠ .dotted) ∨ Entries.contains key items then none
      else some (setItem key (.value value) items))
    path .header items

def assignUnder? (header path : List String) (key : String) (value : Value) (items : Items) :
    Option Items :=
  alter? false (fun _ items => assign? path key value items) header .header items

/-- Opens a table by its header, which is done once for each table. A table that a header went
through before is now counted as the last one. -/
def openTable? (path : List String) (key : String) (items : Items) : Option Items :=
  alter? false
    (fun _ items =>
      match Entries.get? key items with
      | none => some (setItem key (.table .header []) items)
      | some (.table .implied inner) =>
        some (setItem key (.table .header inner) (Entries.erase key items))
      | some _ => none)
    path .header items

/-- Opens a new table at the end of an array of tables. -/
def openElement? (path : List String) (key : String) (items : Items) : Option Items :=
  alter? false
    (fun _ items =>
      match Entries.get? key items with
      | none => some (setItem key (.tables [] []) items)
      | some (.tables last earlier) =>
        some (setItem key (.tables [] (last :: earlier)) items)
      | some _ => none)
    path .header items

mutual

def Item.toValue : Item → Value
  | .value value => value
  | .table _ entries => .table (toEntries entries)
  | .tables last earlier => .array (toTables earlier [.table (toEntries last)])
termination_by structural item => item

def toEntries : List (String × Item) → List (String × Value)
  | [] => []
  | (key, item) :: rest => (key, item.toValue) :: toEntries rest
termination_by structural entries => entries

/-- The earlier tables, of which the latest comes first, in order before the later ones. -/
def toTables : List (List (String × Item)) → List Value → List Value
  | [], later => later
  | entries :: earlier, later => toTables earlier (.table (toEntries entries) :: later)
termination_by structural earlier => earlier

end

/-- The key that marks a table as the form of a date or time. -/
def datetimeKey : String := "$__toml_private_datetime"

def marked? : List (String × Value) → Option Value
  | (key, value) :: _ => if key = datetimeKey then some value else none
  | [] => none

def Value.datetime? : Value → Option Value
  | .string text => if isDatetime text then some (.datetime text) else none
  | _ => none

mutual

/-- Puts a date or time in the place of each table that starts with the mark, whatever else the
table holds; none if there is no date or time after a mark. -/
def Value.resolve? : Value → Option Value
  | .array items => (resolveItems? items).map .array
  | .table entries =>
    match marked? entries with
    | some value => value.datetime?
    | none => (resolveEntries? entries).map .table
  | value => some value
termination_by structural value => value

def resolveItems? : List Value → Option (List Value)
  | [] => some []
  | value :: rest => do return (← value.resolve?) :: (← resolveItems? rest)
termination_by structural items => items

def resolveEntries? : List (String × Value) → Option (List (String × Value))
  | [] => some []
  | (key, value) :: rest => do return (key, ← value.resolve?) :: (← resolveEntries? rest)
termination_by structural entries => entries

end

end Toml

end TreeShape
