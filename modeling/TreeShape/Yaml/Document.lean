import TreeShape.Yaml.Node
import TreeShape.Yaml.Plain
/- From the tree of a YAML document to a JSON value: aliases are replaced by what they refer to and
plain scalars by what they stand for. -/
namespace TreeShape

namespace Yaml

/-- The anchors of a document so far. An anchor gets the number of the names known before it, so
that after a name has been used again two anchors can share a number; the number then belongs to
the later of the two. -/
structure Anchors where
  numbers : List (String × Nat)
  latest : List (Nat × Nat)
  nodes : List (Nat × Node Nat)
  count : Nat

namespace Anchors

def empty : Anchors := ⟨[], [], [], 0⟩

/-- Meets an anchor: gives the place of its node among the anchored ones. -/
def meet (a : Anchors) (name : String) : Nat × Anchors :=
  let number := a.numbers.length
  let others := a.numbers.filter fun entry => entry.1 != name
  (a.count,
    { a with
      numbers := (name, number) :: others
      latest := (number, a.count) :: a.latest
      count := a.count + 1 })

def keep (a : Anchors) (place : Nat) (node : Node Nat) : Anchors :=
  { a with nodes := (place, node) :: a.nodes }

def number? (a : Anchors) (name : String) : Option Nat := a.numbers.lookup name

def node? (a : Anchors) (number : Nat) : Option (Node Nat) :=
  (a.latest.lookup number).bind fun place => a.nodes.lookup place

/-- Meets the anchor of a node, if it has one, before the node is linked by `link`. -/
def around? (anchor : Option String)
    (link : Anchors → Option (Node Nat × Anchors)) (a : Anchors) : Option (Node Nat × Anchors) :=
  match anchor with
  | none => link a
  | some name => do
    let (place, a) := a.meet name
    let (node, a) ← link a
    return (node, a.keep place node)

end Anchors

namespace Node

mutual

/-- Replaces the names in aliases by the numbers that they stand for at that point. -/
def link : Node String → Anchors → Option (Node Nat × Anchors)
  | .scalar anchor tag plain text, a =>
    a.around? anchor fun a => some (.scalar none tag plain text, a)
  | .sequence anchor tag items, a =>
    a.around? anchor fun a =>
      (linkItems items a).map fun (items, a) => (.sequence none tag items, a)
  | .mapping anchor tag entries, a =>
    a.around? anchor fun a =>
      (linkEntries entries a).map fun (entries, a) => (.mapping none tag entries, a)
  | .alias name, a => (a.number? name).map fun number => (.alias number, a)
termination_by structural node => node

def linkItems : List (Node String) → Anchors → Option (List (Node Nat) × Anchors)
  | [], a => some ([], a)
  | item :: rest, a => do
    let (item, a) ← link item a
    let (items, a) ← linkItems rest a
    return (item :: items, a)
termination_by structural items => items

def linkEntries : List (Node String × Node String) → Anchors →
    Option (List (Node Nat × Node Nat) × Anchors)
  | [], a => some ([], a)
  | (key, value) :: rest, a => do
    let (key, a) ← link key a
    let (value, a) ← link value a
    let (entries, a) ← linkEntries rest a
    return ((key, value) :: entries, a)
termination_by structural entries => entries

end

mutual

/-- Scalars and aliases count once, lists and maps twice and with what is in them. -/
def weight {ρ : Type} : Node ρ → Nat
  | .scalar _ _ _ _ => 1
  | .alias _ => 1
  | .sequence _ _ items => weightItems items + 2
  | .mapping _ _ entries => weightEntries entries + 2
termination_by structural node => node

def weightItems {ρ : Type} : List (Node ρ) → Nat
  | [] => 0
  | item :: rest => weight item + weightItems rest
termination_by structural items => items

def weightEntries {ρ : Type} : List (Node ρ × Node ρ) → Nat
  | [] => 0
  | (key, value) :: rest => weight key + weight value + weightEntries rest
termination_by structural entries => entries

end

end Node

/-- What is needed to follow aliases, and how often they may be followed. -/
structure Expansion where
  node? : Nat → Option (Node Nat)
  limit : Nat

namespace Expansion

/-- A node that is no alias, and the number of aliases followed by then. -/
def follow? (e : Expansion) (node : Node Nat) (followed : Nat) : Option (Node Nat × Nat) :=
  match node with
  | .alias number =>
    if e.limit ≤ followed then none else (e.node? number).map fun node => (node, followed + 1)
  | node => some (node, followed)

def key? (e : Expansion) (node : Node Nat) (followed : Nat) : Option (String × Nat) := do
  match ← e.follow? node followed with
  | (.scalar _ _ _ text, followed) => some (text, followed)
  | _ => none

/-- The JSON value of a node that may hold `depth` more levels of lists and maps. A tag decides on
the value of a scalar; of lists and maps only those with a custom tag have no value. -/
def value? (e : Expansion) : Nat → Node Nat → Nat → Option (Json × Nat)
  | depth, node, followed => do
    let (node, followed) ← e.follow? node followed
    match depth, node with
    | _, .scalar _ tag plain text =>
      (scalarValue? tag plain text).map fun value => (value, followed)
    | depth + 1, .sequence _ tag items =>
      if tag = some .custom then none
      else
        let (items, followed) ← items.foldlM
          (fun (done, followed) item =>
            (e.value? depth item followed).map fun (item, followed) => (item :: done, followed))
          ([], followed)
        return (.array items.reverse, followed)
    | depth + 1, .mapping _ tag entries =>
      if tag = some .custom then none
      else
        let (fields, followed) ← entries.foldlM
          (fun (fields, followed) entry => do
            let (key, followed) ← e.key? entry.1 followed
            let (value, followed) ← e.value? depth entry.2 followed
            return (Entries.insert key value fields, followed))
          ([], followed)
        return (.object fields, followed)
    | _, _ => none
termination_by structural depth => depth

end Expansion

/-- The deepest nesting of lists and maps that is read. -/
def depthLimit : Nat := 128

/-- The value of the only document of a text. Aliases may be followed a hundred times as often as
the document is long. -/
def ofText? (text : String) : Option Json := do
  let tree ← Node.ofTokens? (← tokens? text)
  let (node, anchors) ← tree.link .empty
  let (value, _) ← Expansion.value? ⟨anchors.node?, 100 * node.weight⟩ depthLimit node 0
  return value

end Yaml

end TreeShape
