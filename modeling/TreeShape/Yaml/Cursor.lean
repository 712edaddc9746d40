/- A place in a YAML text: the characters left, with line, column and bytes of the line. -/
namespace TreeShape

namespace Yaml

/-- Characters that a YAML text may hold. -/
def isAllowed (c : Char) : Bool :=
  c = '\t' || c = '\n' || c = '\r' || c = '\u0085' || (' ' ≤ c && c ≤ '~') ||
    ('\u00a0' ≤ c && c ≤ '\uFFFD') || 0x10000 ≤ c.toNat

/-- Writes a carriage return, alone or before a line feed, and a next-line as a line feed. -/
def unifyBreaks : List Char → List Char
  | [] => []
  | '\r' :: '\n' :: rest => '\n' :: unifyBreaks rest
  | c :: rest => (if c = '\r' ∨ c = '\u0085' then '\n' else c) :: unifyBreaks rest

/-- Line breaks, of which only the line feed is ever folded. -/
def isBreak (c : Char) : Bool := c = '\n' || c = '\u2028' || c = '\u2029'

def isBlank (c : Char) : Bool := c = ' ' || c = '\t'

/-- Characters of the names of anchors, handles and directives. -/
def isNameCharacter (c : Char) : Bool := c.isAlphanum || c = '_' || c = '-'

/-- Whether a word ends here. -/
def endsWord : List Char → Bool
  | [] => true
  | c :: _ => isBlank c || isBreak c

/-- Characters left, the line they start on and the column, both counted from zero. `bytes` is the
column again, with each character counted as often as it has bytes in UTF-8. -/
structure Cursor where
  rest : List Char
  line : Nat
  column : Nat
  bytes : Nat

namespace Cursor

def next (c : Cursor) : Cursor :=
  match c.rest with
  | [] => c
  | x :: rest =>
    if isBreak x then ⟨rest, c.line + 1, 0, 0⟩
    else ⟨rest, c.line, c.column + 1, c.bytes + x.utf8Size⟩

def drop (c : Cursor) (n : Nat) : Cursor :=
  ⟨c.rest.drop n, c.line, c.column + n,
    (c.rest.take n).foldl (fun bytes x => bytes + x.utf8Size) c.bytes⟩

def skip (c : Cursor) (p : Char → Bool) : Cursor := c.drop (c.rest.takeWhile p).length

/-- Passes a byte order mark that opens a line. -/
def skipMark (c : Cursor) : Cursor :=
  if c.column = 0 ∧ c.rest.head? = some '\uFEFF' then c.drop 1 else c

def skipLine (c : Cursor) : Cursor := c.skip fun x => !isBreak x

def atEnd (c : Cursor) : Bool := c.rest.isEmpty

/-- Whether three equal characters, and nothing else of that word, open the line. -/
def atMark (c : Cursor) (mark : Char) : Bool :=
  c.column == 0 && c.rest.take 3 == [mark, mark, mark] && endsWord (c.rest.drop 3)

/-- Whether a line opens with the start or the end of a document. -/
def atDocumentMark (c : Cursor) : Bool := c.atMark '-' || c.atMark '.'

end Cursor

end Yaml

end TreeShape
