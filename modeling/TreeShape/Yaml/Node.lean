import TreeShape.Yaml.Token
/- The tree that the tokens of a document describe. -/
namespace TreeShape

namespace Yaml

/-- A scalar, a list or a map, each with its anchor and its tag, or a reference to an anchored
one. -/
inductive Node (ρ : Type) where
  | scalar (anchor : Option String) (tag : Option Tag) (plain : Bool) (text : String)
  | sequence (anchor : Option String) (tag : Option Tag) (items : List (Node ρ))
  | mapping (anchor : Option String) (tag : Option Tag) (entries : List (Node ρ × Node ρ))
  | alias (target : ρ)

namespace Node

/-- What stands where nothing is written. -/
def absent : Node String := .scalar none none true ""

/-- Nothing is written in a block before these tokens. -/
def endsBlockValue : List Token → Bool
  | .key :: _ | .value :: _ | .blockEnd :: _ => true
  | _ => false

/-- Nothing is written in brackets before these tokens. -/
def endsFlowValue : List Token → Bool
  | .flowEntry :: _ | .flowSequenceEnd :: _ | .flowMappingEnd :: _ => true
  | _ => false

/-- The comma between the entries of a bracket; there is none before the first. -/
def comma? (first : Bool) : List Token → Option (List Token)
  | .flowEntry :: rest => if first then none else some rest
  | ts => if first then some ts else none

/-- What is written before a node: an anchor, and the octets of a tag. -/
structure Properties where
  anchor : Option String
  octets : Option (List UInt8)

namespace Properties

def tag (p : Properties) : Option Tag := p.octets.bind Tag.ofOctets?

/-- The tag of a scalar that is written out; one that has no name does not count. -/
def scalarTag (p : Properties) : Option Tag := if p.octets = some (utf8 "!") then none else p.tag

/-- An anchor and a tag may stand in either order. -/
def span : List Token → Properties × List Token
  | .anchor name :: .tag tag :: rest => (⟨some name, some tag.octets⟩, rest)
  | .tag tag :: .anchor name :: rest => (⟨some name, some tag.octets⟩, rest)
  | .anchor name :: rest => (⟨some name, none⟩, rest)
  | .tag tag :: rest => (⟨none, some tag.octets⟩, rest)
  | ts => (⟨none, none⟩, ts)

end Properties

mutual

/-- A node. `block` tells that it may be a block, and `indentless` that a list may stand at the
column of its key. The fuel bounds the depth of the recursion. -/
def read (block indentless : Bool) : Nat → List Token → Option (Node String × List Token)
  | 0, _ => none
  | _ + 1, .alias name :: rest => some (.alias name, rest)
  | fuel + 1, ts =>
    let (properties, ts) := Properties.span ts
    readContent block indentless fuel properties ts

def readContent (block indentless : Bool) :
    Nat → Properties → List Token → Option (Node String × List Token)
  | 0, _, _ => none
  | fuel + 1, p, ts =>
    match ts with
    | .scalar plain text :: rest => some (.scalar p.anchor p.scalarTag plain text, rest)
    | .flowSequenceStart :: rest =>
      (readFlowItems true fuel rest).map fun (items, rest) => (.sequence p.anchor p.tag items, rest)
    | .flowMappingStart :: rest =>
      (readFlowEntries true fuel rest).map fun (entries, rest) =>
        (.mapping p.anchor p.tag entries, rest)
    | _ =>
      match ts, block, indentless with
      | .blockEntry :: _, _, true =>
        (readIndentless fuel ts).map fun (items, rest) => (.sequence p.anchor p.tag items, rest)
      | .blockSequenceStart :: rest, true, _ =>
        (readItems fuel rest).map fun (items, rest) => (.sequence p.anchor p.tag items, rest)
      | .blockMappingStart :: rest, true, _ =>
        (readEntries fuel rest).map fun (entries, rest) => (.mapping p.anchor p.tag entries, rest)
      | _, _, _ =>
        if p.anchor.isSome || p.octets.isSome then some (.scalar p.anchor p.tag true "", ts)
        else none

def readBlockValue : Nat → List Token → Option (Node String × List Token)
  | 0, _ => none
  | fuel + 1, ts => if endsBlockValue ts then some (absent, ts) else read true true fuel ts

def readFlowValue : Nat → List Token → Option (Node String × List Token)
  | 0, _ => none
  | fuel + 1, ts => if endsFlowValue ts then some (absent, ts) else read false false fuel ts

def readItems : Nat → List Token → Option (List (Node String) × List Token)
  | fuel + 1, .blockEntry :: rest => do
    let (item, rest) ← match rest with
      | .blockEntry :: _ | .blockEnd :: _ => some (absent, rest)
      | _ => read true false fuel rest
    let (items, rest) ← readItems fuel rest
    return (item :: items, rest)
  | _, .blockEnd :: rest => some ([], rest)
  | _, _ => none

def readIndentless : Nat → List Token → Option (List (Node String) × List Token)
  | 0, _ => none
  | fuel + 1, .blockEntry :: rest => do
    let (item, rest) ← match rest with
      | .blockEntry :: _ | .key :: _ | .value :: _ | .blockEnd :: _ => some (absent, rest)
      | _ => read true false fuel rest
    let (items, rest) ← readIndentless fuel rest
    return (item :: items, rest)
  | _, ts => some ([], ts)

def readEntries : Nat → List Token → Option (List (Node String × Node String) × List Token)
  | fuel + 1, .key :: rest => do
    let (key, rest) ← readBlockValue fuel rest
    let (value, rest) ← match rest with
      | .value :: rest => readBlockValue fuel rest
      | _ => some (absent, rest)
    let (entries, rest) ← readEntries fuel rest
    return ((key, value) :: entries, rest)
  | _, .blockEnd :: rest => some ([], rest)
  | _, _ => none

/-- The items between square brackets; a key makes a map of one entry. If nothing is written for
the key, the token after it is lost. -/
def readFlowItems (first : Bool) : Nat → List Token → Option (List (Node String) × List Token)
  | 0, _ => none
  | _, .flowSequenceEnd :: rest => some ([], rest)
  | fuel + 1, ts => do
    match ← comma? first ts with
    | .flowSequenceEnd :: rest => some ([], rest)
    | .key :: rest =>
      let (key, rest) ← match rest with
        | .value :: rest | .flowEntry :: rest | .flowSequenceEnd :: rest => some (absent, rest)
        | _ => read false false fuel rest
      let (value, rest) ← match rest with
        | .value :: rest => readFlowValue fuel rest
        | _ => some (absent, rest)
      let (items, rest) ← readFlowItems false fuel rest
      return (.mapping none none [(key, value)] :: items, rest)
    | ts =>
      let (item, rest) ← read false false fuel ts
      let (items, rest) ← readFlowItems false fuel rest
      return (item :: items, rest)

/-- The entries between braces; a node without a colon is a key without a value. -/
def readFlowEntries (first : Bool) :
    Nat → List Token → Option (List (Node String × Node String) × List Token)
  | 0, _ => none
  | _, .flowMappingEnd :: rest => some ([], rest)
  | fuel + 1, ts => do
    match ← comma? first ts with
    | .flowMappingEnd :: rest => some ([], rest)
    | .key :: rest =>
      let (key, rest) ← match rest with
        | .value :: _ | .flowEntry :: _ | .flowMappingEnd :: _ => some (absent, rest)
        | _ => read false false fuel rest
      let (value, rest) ← match rest with
        | .value :: rest => readFlowValue fuel rest
        | _ => some (absent, rest)
      let (entries, rest) ← readFlowEntries false fuel rest
      return ((key, value) :: entries, rest)
    | ts =>
      let (key, rest) ← read false false fuel ts
      let (entries, rest) ← readFlowEntries false fuel rest
      return ((key, absent) :: entries, rest)

end

def spanDirectives : List Token → List Directive × List Token
  | .directive directive :: rest =>
    let (directives, rest) := spanDirectives rest
    (directive :: directives, rest)
  | ts => ([], ts)

/-- Puts what its handle stands for into a tag, if the handle stands for anything. -/
def resolve? (handles : List (String × List UInt8)) : Token → Option Token
  | .tag tag => (tag.resolve? handles).map .tag
  | t => some t

/-- The node of the only document of a text, which must be marked as one after directives; a text
without any document holds nothing. -/
def ofTokens? (ts : List Token) : Option (Node String) := do
  let (directives, ts) := spanDirectives ts
  let ts ← ts.mapM (resolve? (← handles? directives))
  let fuel := 4 * ts.length + 4
  let (node, rest) ← match ts, directives with
    | [], [] => some (absent, [])
    | .documentStart :: rest, _ =>
      match rest with
      | [] | .documentStart :: _ | .documentEnd :: _ => some (absent, rest)
      | _ => read true false fuel rest
    | ts, [] => read true false fuel ts
    | _, _ => none
  if (rest.dropWhile (· = .documentEnd)).isEmpty then return node else none

end Node

end Yaml

end TreeShape
