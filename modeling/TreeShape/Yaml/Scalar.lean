import TreeShape.Yaml.Cursor
import TreeShape.Json.Reader
/- The text of scalars: plain, between quotes and in blocks, with their lines folded. -/
namespace TreeShape

namespace Yaml

/-- Text read so far, last character first, and the white space after it, which is kept, folded
or dropped according to what follows. -/
structure Folded where
  text : List Char
  blanks : List Char
  broken : Bool
  lead : List Char
  breaks : List Char

namespace Folded

def empty : Folded := ⟨[], [], false, [], []⟩

/-- A space or tab; at the start of a line it is dropped. -/
def blank (f : Folded) (c : Char) : Folded :=
  if f.broken then f else { f with blanks := c :: f.blanks }

/-- A line break, which drops the blanks before it. -/
def lineBreak (f : Folded) (c : Char) : Folded :=
  if f.broken then { f with breaks := c :: f.breaks }
  else { f with blanks := [], broken := true, lead := [c] }

/-- Takes the white space into the text: one line feed becomes a space, and of several the first
is dropped. -/
def join (f : Folded) : Folded :=
  let text :=
    if f.broken then
      if f.lead = ['\n'] then
        if f.breaks.isEmpty then ' ' :: f.text else f.breaks ++ f.text
      else f.breaks ++ f.lead ++ f.text
    else f.blanks ++ f.text
  ⟨text, [], false, [], []⟩

def push (f : Folded) (c : Char) : Folded := { f with text := c :: f.text }

def result (f : Folded) : String := String.ofList f.text.reverse

end Folded

/-- A scalar's text, whether a line break followed it, and where it ended. -/
structure ScalarText where
  text : String
  broken : Bool
  after : Cursor

/-- Characters with a meaning of their own between brackets. -/
def isFlowIndicator (c : Char) : Bool :=
  c = ',' || c = '[' || c = ']' || c = '\x7b' || c = '\x7d'

/-- Whether a plain scalar ends before the characters; none if a colon stands badly. -/
def endsPlain? (flow : Bool) (cs : List Char) : Option Bool :=
  match cs with
  | ':' :: rest =>
    if endsWord rest then some true
    else if flow ∧ rest.head?.any (fun c => isFlowIndicator c || c = '?') then none
    else some false
  | c :: _ => some (flow && isFlowIndicator c)
  | [] => some true

/-- A plain scalar from a character on. `least` is the column that its further lines must reach
outside brackets, and `start` tells that a word would start here. -/
def plainFrom (flow : Bool) (least : Int) : Nat → Bool → Folded → Cursor → Option ScalarText
  | 0, _, _, _ => none
  | fuel + 1, start, f, c =>
    let stop := some ⟨f.result, f.broken, c⟩
    match c.rest with
    | [] => stop
    | x :: _ =>
      if isBlank x then
        if f.broken ∧ c.column < least ∧ x = '\t' then none
        else plainFrom flow least fuel true (f.blank x) c.next
      else if isBreak x then plainFrom flow least fuel true (f.lineBreak x) c.next
      else if start ∧ (¬flow ∧ c.column < least ∨ c.atDocumentMark ∨ x = '#') then stop
      else match endsPlain? flow c.rest with
        | none => none
        | some true => stop
        | some false => plainFrom flow least fuel false (f.join.push x) c.next

def plain? (flow : Bool) (indent : Int) (c : Cursor) : Option ScalarText :=
  plainFrom flow (indent + 1) (c.rest.length + 1) false .empty c

def escapedCharacter? : Char → Option Char
  | '0' => some '\x00'
  | 'a' => some '\x07'
  | 'b' => some '\x08'
  | 't' => some '\t'
  | '\t' => some '\t'
  | 'n' => some '\n'
  | 'v' => some '\x0b'
  | 'f' => some '\x0c'
  | 'r' => some '\r'
  | 'e' => some '\x1b'
  | ' ' => some ' '
  | '"' => some '"'
  | '/' => some '/'
  | '\\' => some '\\'
  | 'N' => some '\u0085'
  | '_' => some '\u00a0'
  | 'L' => some '\u2028'
  | 'P' => some '\u2029'
  | _ => none

/-- The number of digits of base sixteen that follow a letter after a backslash. -/
def codeLength? : Char → Option Nat
  | 'x' => some 2
  | 'u' => some 4
  | 'U' => some 8
  | _ => none

def codeCharacter? (digits : List Char) : Option Char := do
  let values ← digits.mapM Json.hexValue?
  let code := values.foldl (fun n d => n * 16 + d) 0
  if code.isValidChar then return Char.ofNat code else none

def escape? (c : Cursor) : Option (Char × Cursor) :=
  match c.rest with
  | [] => none
  | x :: rest =>
    match codeLength? x with
    | some length => do
      let digits := rest.take length
      if digits.length < length then none
      else return (← codeCharacter? digits, c.drop (length + 1))
    | none => (escapedCharacter? x).map fun y => (y, c.drop 1)

/-- A scalar between quotes, from a character after the opening one. A document may neither start
nor end inside. -/
def quotedFrom (double : Bool) : Nat → Folded → Cursor → Option ScalarText
  | 0, _, _ => none
  | fuel + 1, f, c =>
    if c.atDocumentMark then none
    else match c.rest with
      | [] => none
      | '\'' :: rest =>
        if double then quotedFrom double fuel (f.join.push '\'') c.next
        else if rest.head? = some '\'' then quotedFrom double fuel (f.join.push '\'') (c.drop 2)
        else some ⟨f.join.result, false, c.next⟩
      | '"' :: _ =>
        if double then some ⟨f.join.result, false, c.next⟩
        else quotedFrom double fuel (f.join.push '"') c.next
      | '\\' :: rest =>
        if double then
          if rest.head?.any isBreak then
            quotedFrom double fuel { f.join with broken := true } c.next.next
          else do
            let (x, after) ← escape? c.next
            quotedFrom double fuel (f.join.push x) after
        else quotedFrom double fuel (f.join.push '\\') c.next
      | x :: _ =>
        if isBlank x then quotedFrom double fuel (f.blank x) c.next
        else if isBreak x then quotedFrom double fuel (f.lineBreak x) c.next
        else quotedFrom double fuel (f.join.push x) c.next

def quoted? (double : Bool) (c : Cursor) : Option ScalarText :=
  quotedFrom double (c.rest.length + 1) .empty c.next

/-- What becomes of the line breaks at the end of a block scalar. -/
inductive Chomping where
  | strip
  | clip
  | keep
  deriving DecidableEq

def chomping? : Char → Option Chomping
  | '-' => some .strip
  | '+' => some .keep
  | _ => none

def increment? (c : Char) : Option Nat :=
  if '1' ≤ c ∧ c ≤ '9' then some (c.toNat - '0'.toNat) else none

/-- The signs after `|` or `>`, in either order: chomping and indentation. -/
def blockHeader (c : Cursor) : Chomping × Option Nat × Cursor :=
  match c.rest with
  | [] => (.clip, none, c)
  | x :: rest =>
    match chomping? x, increment? x with
    | some chomping, _ =>
      match rest.head?.bind increment? with
      | some increment => (chomping, some increment, c.drop 2)
      | none => (chomping, none, c.drop 1)
    | none, some increment =>
      match rest.head?.bind chomping? with
      | some chomping => (chomping, some increment, c.drop 2)
      | none => (.clip, some increment, c.drop 1)
    | none, none => (.clip, none, c)

/-- Blank lines of a block scalar: their breaks, last first, the widest column met and where the
next line with text starts. Lines are blank up to `indent`, or throughout if it is not known. -/
def blankLines (indent : Option Nat) : Nat → Nat → List Char → Cursor →
    Option (List Char × Nat × Cursor)
  | 0, _, _, _ => none
  | fuel + 1, widest, breaks, c =>
    let inside (column : Nat) : Bool := indent.all (column < ·)
    match c.rest with
    | x :: _ =>
      if x = ' ' ∧ inside c.column then blankLines indent fuel widest breaks c.next
      else if x = '\t' ∧ inside c.column then none
      else if isBreak x then
        blankLines indent fuel (max widest c.column) (x :: breaks) c.next
      else some (breaks, max widest c.column, c)
    | [] => some (breaks, max widest c.column, c)

/-- The lines of a block scalar. The text is kept last character first; `lead` is the break of the
line before, `breaks` those of the blank lines since, and `indented` tells that the line before
started with a blank. -/
def blockLines (folding : Bool) (indent : Nat) :
    Nat → List Char → List Char → List Char → Bool → Cursor →
      Option (List Char × List Char × List Char × Cursor)
  | 0, _, _, _, _, _ => none
  | fuel + 1, text, lead, breaks, indented, c =>
    if c.column = indent ∧ ¬c.atEnd then do
      let startsBlank := c.rest.head?.any isBlank
      let text :=
        if folding ∧ lead = ['\n'] ∧ ¬indented ∧ ¬startsBlank then
          if breaks.isEmpty then ' ' :: text else breaks ++ text
        else breaks ++ lead ++ text
      let after := c.skipLine
      let line := c.rest.take (c.rest.length - after.rest.length)
      let (breaks, _, next) ←
        blankLines (some indent) (c.rest.length + 1) 0 [] after.next
      blockLines folding indent fuel (line.reverse ++ text) (after.rest.take 1) breaks startsBlank
        next
    else some (text, lead, breaks, c)

def block? (folding : Bool) (outer : Int) (c : Cursor) : Option ScalarText := do
  let (chomping, increment, c) := blockHeader c.next
  let c := c.skip isBlank
  let c := if c.rest.head? = some '#' then c.skipLine else c
  if ¬ c.rest.head?.all isBreak then none
  else
    let c := c.next
    let fuel := c.rest.length + 1
    let known : Option Nat := increment.map fun n => outer.toNat + n
    let (breaks, widest, c) ← blankLines known fuel 0 [] c
    let indent := known.getD (max widest (max (outer + 1).toNat 1))
    let (text, lead, breaks, c) ← blockLines folding indent fuel [] [] breaks false c
    let tail := match chomping with
      | .strip => []
      | .clip => lead
      | .keep => breaks ++ lead
    return ⟨String.ofList (tail ++ text).reverse, false, c⟩

end Yaml

end TreeShape
