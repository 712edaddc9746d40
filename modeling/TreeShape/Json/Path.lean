import TreeShape.Json.Basic
/- Paths into a JSON value: what they lead to and how they are written. -/
namespace TreeShape

/-- One step down: to a field or to an item. -/
inductive Step where
  | key (name : String)
  | index (position : Nat)
  deriving DecidableEq

abbrev Path := List Step

namespace Step

def text : Step → String
  | key name => "." ++ name
  | index position => "[" ++ toString position ++ "]"

end Step

/-- The steps one after the other, from the root `$`. -/
def Path.text (path : Path) : String := "$" ++ String.join (path.map Step.text)

namespace Json

def step? : Json → Step → Option Json
  | .object fields, .key name => Entries.get? name fields
  | .array items, .index position => items[position]?
  | _, _ => none

def get? (value : Json) : Path → Option Json
  | [] => some value
  | step :: rest => (value.step? step).bind fun below => below.get? rest

theorem get?_append (value : Json) (path more : Path) :
    value.get? (path ++ more) = (value.get? path).bind fun below => below.get? more := by
  induction path generalizing value with
  | nil => rfl
  | cons step rest ih =>
    simp only [List.cons_append, get?]
    cases value.step? step with
    | none => rfl
    | some below => exact ih below

end Json

end TreeShape
