import TreeShape.Toml.Scalar
/- Reading a whole TOML text. -/
namespace TreeShape

namespace Toml

mutual

/-- A value that may hold `depth` more levels of arrays and inline tables. -/
def value? : Nat → Nat → List Char → Option (Value × List Char)
  | 0, _, _ => none
  | fuel + 1, depth, cs =>
    match cs with
    | [] => none
    | c :: rest =>
      if c = '"' ∨ c = '\'' then (string? cs).map fun (s, rest) => (.string s, rest)
      else if c = '[' then
        match depth with
        | 0 => none
        | depth + 1 => (items? fuel depth rest).map fun (items, rest) => (.array items, rest)
      else if c = '\x7b' then
        match depth with
        | 0 => none
        | depth + 1 =>
          match skipBlanks rest with
          | '\x7d' :: rest => some (.table [], rest)
          | rest =>
            (pairs? fuel depth [] rest).map fun (items, rest) => (.table (toEntries items), rest)
      else
        match word? "true" cs, word? "false" cs with
        | some rest, _ => some (.boolean true, rest)
        | none, some rest => some (.boolean false, rest)
        | none, none => (datetime? cs).or (number? cs)

def items? : Nat → Nat → List Char → Option (List Value × List Char)
  | 0, _, _ => none
  | fuel + 1, depth, cs =>
    match skipLines cs.length cs with
    | ']' :: rest => some ([], rest)
    | cs => do
      let (item, rest) ← value? fuel depth cs
      match skipLines rest.length rest with
      | ',' :: rest =>
        let (items, rest) ← items? fuel depth rest
        return (item :: items, rest)
      | ']' :: rest => return ([item], rest)
      | _ => none

def pairs? : Nat → Nat → Items → List Char → Option (Items × List Char)
  | 0, _, _, _ => none
  | fuel + 1, depth, done, cs => do
    let (path, key, rest) ← key? keyLimit cs
    let (value, rest) ← value? fuel depth (skipBlanks (← char? '=' rest))
    let items ← assign? path key value done
    match skipBlanks rest with
    | ',' :: rest => pairs? fuel depth items rest
    | '\x7d' :: rest => return (items, rest)
    | _ => none

end

/-- The greatest number of arrays and inline tables inside one another. -/
def depthLimit : Nat := 79

/-- The lines of a text from one on; `header` is the path of the table that they belong to. -/
def lines? : Nat → List String → Items → List Char → Option Items
  | 0, _, _, _ => none
  | fuel + 1, header, items, cs =>
    match skipLines cs.length cs with
    | [] => some items
    | '[' :: '[' :: rest => do
      let (path, key, rest) ← key? keyLimit rest
      let rest ← endLine? (← char? ']' (← char? ']' rest))
      lines? fuel (path ++ [key]) (← openElement? path key items) rest
    | '[' :: rest => do
      let (path, key, rest) ← key? keyLimit rest
      let rest ← endLine? (← char? ']' rest)
      lines? fuel (path ++ [key]) (← openTable? path key items) rest
    | cs => do
      let (path, key, rest) ← key? keyLimit cs
      let rest := skipBlanks (← char? '=' rest)
      let (value, rest) ← value? (rest.length + 1) depthLimit rest
      lines? fuel header (← assignUnder? header path key value items) (← endLine? rest)

/-- The entries of a text at its top level, which is a table. A byte order mark before it does not
count. -/
def ofText? (text : String) : Option (List (String × Value)) :=
  let cs := text.toList
  let cs := if cs.head? = some '\uFEFF' then cs.drop 1 else cs
  let items := lines? (cs.length + 1) [] [] cs
  match items.bind fun items => (Value.table (toEntries items)).resolve? with
  | some (.table entries) => some entries
  | _ => none

end Toml

end TreeShape
