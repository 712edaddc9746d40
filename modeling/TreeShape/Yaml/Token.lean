import TreeShape.Yaml.Scalar
import TreeShape.Yaml.Tag
/- The tokens of a YAML text. Indentation turns into tokens that open and close blocks, and a key
is only known as one when its colon is met. -/
namespace TreeShape

namespace Yaml

inductive Token where
  | documentStart
  | documentEnd
  | blockSequenceStart
  | blockMappingStart
  | blockEnd
  | flowSequenceStart
  | flowSequenceEnd
  | flowMappingStart
  | flowMappingEnd
  | blockEntry
  | flowEntry
  | key
  | value
  | directive (directive : Directive)
  | anchor (name : String)
  | tag (tag : WrittenTag)
  | alias (name : String)
  | scalar (plain : Bool) (text : String)
  deriving DecidableEq

/-- A token that becomes a key if a colon follows on its line; `index` tokens stand before it. -/
structure OpenKey where
  required : Bool
  index : Nat
  line : Nat
  column : Nat
  bytes : Nat

/-- How far a text has been cut into tokens. `keys` has an entry for each open bracket and one for
the text around them; the innermost comes first. -/
structure Layout where
  cursor : Cursor
  tokens : List Token
  indent : Int
  outer : List Int
  keyAllowed : Bool
  keys : List (Option OpenKey)

namespace Layout

def inFlow (s : Layout) : Bool := 1 < s.keys.length

def emit (s : Layout) (t : Token) : Layout := { s with tokens := t :: s.tokens }

def emitAt (s : Layout) (index : Nat) (t : Token) : Layout :=
  let later := s.tokens.length - index
  { s with tokens := s.tokens.take later ++ t :: s.tokens.drop later }

def advance (s : Layout) (n : Nat) : Layout := { s with cursor := s.cursor.drop n }

/-- Gives up the open key; a required one must have had its colon by now. -/
def dropKey? (s : Layout) : Option Layout :=
  match s.keys with
  | some key :: rest => if key.required then none else some { s with keys := none :: rest }
  | _ => some s

/-- Takes the next token for a key, where one may stand. -/
def openKey? (s : Layout) : Option Layout :=
  if s.keyAllowed then do
    let key : OpenKey :=
      { required := !s.inFlow && s.indent = s.cursor.column
        index := s.tokens.length
        line := s.cursor.line
        column := s.cursor.column
        bytes := s.cursor.bytes }
    let s ← s.dropKey?
    return { s with keys := some key :: s.keys.drop 1 }
  else some s

/-- A key stands on one line with its colon, and starts at most 1024 bytes before it. -/
def isStale (c : Cursor) (key : OpenKey) : Bool :=
  key.line < c.line || key.bytes + 1024 < c.bytes

/-- Gives up the keys that the cursor has left behind. -/
def dropStaleKeys? (s : Layout) : Option Layout := do
  let keys ← s.keys.mapM fun
    | some key =>
      if isStale s.cursor key then if key.required then none else some none else some (some key)
    | none => some none
  return { s with keys }

/-- Opens a block at a column that lies further right than the current block. -/
def indentTo (s : Layout) (column : Nat) (index : Nat) (t : Token) : Layout :=
  if ¬s.inFlow ∧ s.indent < column then
    { s.emitAt index t with indent := column, outer := s.indent :: s.outer }
  else s

/-- Closes blocks until the current one lies no further right than a column. -/
def unindentFrom : List Int → Int → Layout → Layout
  | [], _, s => s
  | indent :: outer, column, s =>
    if column < s.indent then unindentFrom outer column { s.emit .blockEnd with indent, outer }
    else s

def unindentTo (s : Layout) (column : Int) : Layout :=
  if s.inFlow then s else unindentFrom s.outer column s

/-- Passes blanks, comments and line breaks, and on each line a byte order mark that opens it. Tabs
count as blanks where no key may start, and outside brackets a key may start on every new line. -/
def skipToToken : Nat → Layout → Layout
  | 0, s => s
  | fuel + 1, s =>
    let tabs := s.inFlow || !s.keyAllowed
    let c := s.cursor.skipMark.skip fun x => x = ' ' || tabs && x = '\t'
    let c := if c.rest.head? = some '#' then c.skipLine else c
    if c.rest.head?.any isBreak then
      skipToToken fuel { s with cursor := c.next, keyAllowed := s.keyAllowed || !s.inFlow }
    else { s with cursor := c }

/-- A mark that starts or ends a document closes all blocks. -/
def documentMark? (s : Layout) (t : Token) : Option Layout := do
  let s ← (s.unindentTo (-1)).dropKey?
  return { (s.emit t).advance 3 with keyAllowed := false }

def openBracket? (s : Layout) (t : Token) : Option Layout := do
  let s ← s.openKey?
  return { (s.emit t).advance 1 with keyAllowed := true, keys := none :: s.keys }

def closeBracket? (s : Layout) (t : Token) : Option Layout := do
  let s ← s.dropKey?
  let keys := if s.inFlow then s.keys.drop 1 else s.keys
  return { (s.emit t).advance 1 with keyAllowed := false, keys }

def flowEntry? (s : Layout) : Option Layout := do
  let s ← s.dropKey?
  return { (s.emit .flowEntry).advance 1 with keyAllowed := true }

/-- A sign that stands for itself opens a block around it, where one may open. -/
def blockSign? (s : Layout) (block t : Token) (keyAllowed : Bool) : Option Layout :=
  if ¬s.inFlow ∧ ¬s.keyAllowed then none
  else do
    let s ← (s.indentTo s.cursor.column s.tokens.length block).dropKey?
    return { (s.emit t).advance 1 with keyAllowed }

def blockEntry? (s : Layout) : Option Layout := s.blockSign? .blockSequenceStart .blockEntry true

/-- A question mark tells that a key of any kind follows. -/
def key? (s : Layout) : Option Layout := s.blockSign? .blockMappingStart .key !s.inFlow

/-- A colon makes the open key a key, and opens a block mapping before the first one. -/
def value? (s : Layout) : Option Layout :=
  match s.keys with
  | some key :: rest =>
    let s := (s.emitAt key.index .key).indentTo key.column key.index .blockMappingStart
    some { (s.emit .value).advance 1 with keyAllowed := false, keys := none :: rest }
  | _ => s.blockSign? .blockMappingStart .value !s.inFlow

def name? (c : Cursor) : Option (String × Cursor) :=
  let after := c.skip isNameCharacter
  let name := c.rest.take (c.rest.length - after.rest.length)
  let delimited := endsWord after.rest ||
    after.rest.head?.any fun x => x ∈ ['?', ':', ',', ']', '\x7d', '%', '@', '\x60']
  if name.isEmpty || !delimited then none else some (String.ofList name, after)

def reference? (s : Layout) (token : String → Token) : Option Layout := do
  let s ← s.openKey?
  let (name, cursor) ← name? (s.cursor.drop 1)
  return { s.emit (token name) with keyAllowed := false, cursor }

def tag? (s : Layout) : Option Layout := do
  let s ← s.openKey?
  let (tag, cursor) ← writtenTag? s.cursor
  if endsWord cursor.rest ∨ s.inFlow ∧ cursor.rest.head? = some ',' then
    return { s.emit (.tag tag) with keyAllowed := false, cursor }
  else none

/-- A directive closes all blocks, as a mark of a document does. -/
def directive? (s : Layout) : Option Layout := do
  let s ← (s.unindentTo (-1)).dropKey?
  let (directive, cursor) ← Yaml.directive? s.cursor
  return { s.emit (.directive directive) with keyAllowed := false, cursor }

def blockScalar? (s : Layout) (folding : Bool) : Option Layout := do
  let s ← s.dropKey?
  let scalar ← block? folding s.indent s.cursor
  return { s.emit (.scalar false scalar.text) with keyAllowed := true, cursor := scalar.after }

def quotedScalar? (s : Layout) (double : Bool) : Option Layout := do
  let s ← s.openKey?
  let scalar ← quoted? double s.cursor
  return { s.emit (.scalar false scalar.text) with keyAllowed := false, cursor := scalar.after }

/-- A plain scalar; a key may follow it if it ended at a line break. -/
def plainScalar? (s : Layout) : Option Layout := do
  let s ← s.openKey?
  let scalar ← plain? s.inFlow s.indent s.cursor
  return { s.emit (.scalar true scalar.text) with
    keyAllowed := scalar.broken, cursor := scalar.after }

def isIndicator (c : Char) : Bool :=
  c ∈ ['-', '?', ':', ',', '[', ']', '\x7b', '\x7d', '#', '&', '*', '!', '|', '>', '\'', '"', '%',
    '@', '\x60']

/-- The token that starts at the cursor. -/
def token? (s : Layout) : Option Layout :=
  if s.cursor.column = 0 ∧ s.cursor.rest.head? = some '%' then s.directive?
  else if s.cursor.atMark '-' then s.documentMark? .documentStart
  else if s.cursor.atMark '.' then s.documentMark? .documentEnd
  else match s.cursor.rest with
    | [] => none
    | x :: rest =>
      let alone := endsWord rest
      match x with
      | '[' => s.openBracket? .flowSequenceStart
      | '\x7b' => s.openBracket? .flowMappingStart
      | ']' => s.closeBracket? .flowSequenceEnd
      | '\x7d' => s.closeBracket? .flowMappingEnd
      | ',' => s.flowEntry?
      | '*' => s.reference? .alias
      | '&' => s.reference? .anchor
      | '!' => s.tag?
      | '\'' => s.quotedScalar? false
      | '"' => s.quotedScalar? true
      | '-' => if alone then s.blockEntry? else s.plainScalar?
      | ':' => if s.inFlow ∨ alone then s.value? else s.plainScalar?
      | '?' => if s.inFlow ∨ alone then s.key? else s.plainScalar?
      | '|' => if s.inFlow then none else s.blockScalar? false
      | '>' => if s.inFlow then none else s.blockScalar? true
      | x => if isIndicator x ∨ isBlank x then none else s.plainScalar?

/-- Cuts the rest of a text into tokens; each step passes at least one character. -/
def run : Nat → Layout → Option (List Token)
  | 0, _ => none
  | fuel + 1, s => do
    let s ← (skipToToken (s.cursor.rest.length + 1) s).dropStaleKeys?
    if s.cursor.atEnd then
      let s ← (s.unindentTo (-1)).dropKey?
      return s.tokens.reverse
    else
      let s ← (s.unindentTo s.cursor.column).token?
      run fuel s

end Layout

def tokens? (text : String) : Option (List Token) :=
  let cs := text.toList
  if cs.all isAllowed then
    (Layout.mk ⟨unifyBreaks cs, 0, 0, 0⟩ [] (-1) [] true [none]).run (cs.length + 1)
  else none

end Yaml

end TreeShape
