import TreeShape.Json.Reader
/- Strings, keys, blanks and comments in TOML. A reader takes the characters left and returns those
it leaves behind. -/
namespace TreeShape

namespace Toml

def isBlank (c : Char) : Bool := c = ' ' || c = '\t'

def skipBlanks (cs : List Char) : List Char := cs.dropWhile isBlank

/-- Characters that may stand in comments and, delimiters apart, in strings on one line. -/
def isPrintable (c : Char) : Bool := c = '\t' || (' ' ≤ c && c ≤ '~') || 0x80 ≤ c.toNat

/-- A line break, which is a line feed with or without a carriage return before it. -/
def lineBreak? : List Char → Option (List Char)
  | '\n' :: rest => some rest
  | '\r' :: '\n' :: rest => some rest
  | _ => none

def skipComment : List Char → List Char
  | '#' :: rest => rest.dropWhile isPrintable
  | cs => cs

/-- The end of a line after blanks and a comment, or the end of the text. -/
def endLine? (cs : List Char) : Option (List Char) :=
  match skipComment (skipBlanks cs) with
  | [] => some []
  | cs => lineBreak? cs

def skipLines : Nat → List Char → List Char
  | 0, cs => cs
  | fuel + 1, cs =>
    let cs := skipBlanks cs
    match endLine? cs with
    | some [] => []
    | some rest => skipLines fuel rest
    | none => cs

/-- The character with a code of so many digits of base sixteen. -/
def codePoint? (digits : Nat) (cs : List Char) : Option (Char × List Char) := do
  let code := cs.take digits
  if code.length < digits then none
  else
    let n := (← code.mapM Json.hexValue?).foldl (fun n d => n * 16 + d) 0
    if n.isValidChar then return (Char.ofNat n, cs.drop digits) else none

def escape? : List Char → Option (Char × List Char)
  | [] => none
  | c :: rest =>
    match c with
    | 'b' => some ('\x08', rest)
    | 't' => some ('\t', rest)
    | 'n' => some ('\n', rest)
    | 'f' => some ('\x0c', rest)
    | 'r' => some ('\r', rest)
    | '"' => some ('"', rest)
    | '\\' => some ('\\', rest)
    | 'u' => codePoint? 4 rest
    | 'U' => codePoint? 8 rest
    | _ => none

/-- A string on one line after its opening quote; backslashes count between double quotes only. -/
def lineString? (quote : Char) : Nat → List Char → List Char → Option (String × List Char)
  | 0, _, _ => none
  | _, _, [] => none
  | fuel + 1, done, c :: rest =>
    if c = quote then some (String.ofList done.reverse, rest)
    else if c = '\\' ∧ quote = '"' then do
      let (c, rest) ← escape? rest
      lineString? quote fuel (c :: done) rest
    else if isPrintable c then lineString? quote fuel (c :: done) rest
    else none

/-- A string over several lines after its opening quotes. Up to two quotes may stand before the
closing three, and a backslash at the end of a line joins it to the next text. -/
def blockString? (quote : Char) : Nat → List Char → List Char → Option (String × List Char)
  | 0, _, _ => none
  | _, _, [] => none
  | fuel + 1, done, c :: rest =>
    if c = quote then
      let quotes := 1 + (rest.takeWhile (· = quote)).length
      if quotes < 3 then blockString? quote fuel (c :: done) rest
      else
        let inside := min (quotes - 3) 2
        some (String.ofList (List.replicate inside quote ++ done).reverse, rest.drop (inside + 2))
    else if c = '\\' ∧ quote = '"' then
      match lineBreak? (skipBlanks rest) with
      | some rest => blockString? quote fuel done (skipBreaks rest.length rest)
      | none => do
        let (c, rest) ← escape? rest
        blockString? quote fuel (c :: done) rest
    else match lineBreak? (c :: rest) with
      | some rest => blockString? quote fuel ('\n' :: done) rest
      | none => if isPrintable c then blockString? quote fuel (c :: done) rest else none
where
  skipBreaks : Nat → List Char → List Char
    | 0, cs => cs
    | fuel + 1, cs =>
      match lineBreak? (skipBlanks cs) with
      | some rest => skipBreaks fuel rest
      | none => skipBlanks cs

/-- A string of any of the four kinds, from its first quote. -/
def string? (cs : List Char) : Option (String × List Char) :=
  match cs with
  | [] => none
  | quote :: rest =>
    if quote = '"' ∨ quote = '\'' then
      if rest.take 2 = [quote, quote] then
        let text := rest.drop 2
        blockString? quote (text.length + 1) [] ((lineBreak? text).getD text)
      else lineString? quote (rest.length + 1) [] rest
    else none

def isBareKey (c : Char) : Bool := c.isAlphanum || c = '_' || c = '-'

/-- A key without dots: bare, or a string on one line. -/
def simpleKey? (cs : List Char) : Option (String × List Char) :=
  match cs with
  | [] => none
  | c :: rest =>
    if c = '"' ∨ c = '\'' then lineString? c (rest.length + 1) [] rest
    else
      let name := cs.takeWhile isBareKey
      if name.isEmpty then none else some (String.ofList name, cs.dropWhile isBareKey)

/-- Keys with dots and blanks between them: those before the last, and the last. -/
def key? : Nat → List Char → Option (List String × String × List Char)
  | 0, _ => none
  | fuel + 1, cs => do
    let (name, rest) ← simpleKey? (skipBlanks cs)
    match skipBlanks rest with
    | '.' :: rest =>
      let (path, last, rest) ← key? fuel rest
      return (name :: path, last, rest)
    | rest => return ([], name, rest)

/-- The greatest number of dotted parts of a key. -/
def keyLimit : Nat := 79

end Toml

end TreeShape
