namespace SparseCache.Toml

/-! The smallest parts of a TOML text.

A reader takes the text and yields what it read together with the rest, or
nothing if the text is not of the form.
-/

abbrev Reader (α : Type) := List Char → Option (α × List Char)

def isBlank (c : Char) : Bool := c == ' ' || c == '\t'

/-- What may stand in a comment and between quotes: no control character but
the tab. -/
def isText (c : Char) : Bool := c == '\t' || (decide (' ' ≤ c) && c != '\x7f')

def isBareKey (c : Char) : Bool := c.isAlphanum || c == '-' || c == '_'

def skipBlank (text : List Char) : List Char := text.dropWhile isBlank

/-- The text after a line break, if it starts with one. -/
def newline? : List Char → Option (List Char)
  | '\n' :: rest => some rest
  | '\r' :: '\n' :: rest => some rest
  | _ => none

/-- The text after the end of a line, which the end of the text is too. -/
def lineEnd? : List Char → Option (List Char)
  | [] => some []
  | text => newline? text

/-- The text after blanks, a comment and the end of the line. -/
def restOfLine? (text : List Char) : Option (List Char) :=
  match skipBlank text with
  | '#' :: comment => lineEnd? (comment.dropWhile isText)
  | rest => lineEnd? rest

def skipLines : List Char → List Char
  | '\n' :: rest => skipLines rest
  | '\r' :: '\n' :: rest => skipLines rest
  | c :: rest => if isBlank c then skipLines rest else c :: rest
  | [] => []

/-- Skips blanks, line breaks and comments, as between the values of an array. -/
def skipFiller (inComment : Bool) : List Char → List Char
  | '\n' :: rest => skipFiller false rest
  | '\r' :: '\n' :: rest => skipFiller false rest
  | c :: rest =>
    if inComment then if isText c then skipFiller true rest else c :: rest
    else if isBlank c then skipFiller false rest
    else if c == '#' then skipFiller true rest
    else c :: rest
  | [] => []

/-! ### Strings -/

def isHexDigit (c : Char) : Bool :=
  c.isDigit || (decide ('a' ≤ c ∧ c ≤ 'f')) || decide ('A' ≤ c ∧ c ≤ 'F')

def digitValue (c : Char) : Nat :=
  if c.isDigit then c.toNat - '0'.toNat
  else if 'a' ≤ c then c.toNat - 'a'.toNat + 10
  else c.toNat - 'A'.toNat + 10

def valueOf (base : Nat) (digits : List Char) : Nat :=
  digits.foldl (fun n c => n * base + digitValue c) 0

def codePoint (count : Nat) : Reader Char := fun text =>
  let digits := text.take count
  let code := valueOf 16 digits
  if digits.length = count ∧ digits.all isHexDigit ∧ code.isValidChar then
    some (Char.ofNat code, text.drop count)
  else none

def escape : Reader Char
  | 'b' :: rest => some ('\x08', rest)
  | 't' :: rest => some ('\t', rest)
  | 'n' :: rest => some ('\n', rest)
  | 'f' :: rest => some ('\x0c', rest)
  | 'r' :: rest => some ('\r', rest)
  | '"' :: rest => some ('"', rest)
  | '\\' :: rest => some ('\\', rest)
  | 'u' :: rest => codePoint 4 rest
  | 'U' :: rest => codePoint 8 rest
  | _ => none

/-- A text in double quotes, after the first.  `fuel` bounds the characters
left; `read` has those read so far, newest first. -/
def basicAfter : Nat → List Char → Reader String
  | 0, _, _ => none
  | _ + 1, _, [] => none
  | fuel + 1, read, c :: rest =>
    if c == '"' then some (String.ofList read.reverse, rest)
    else if c == '\\' then
      match escape rest with
      | some (escaped, rest) => basicAfter fuel (escaped :: read) rest
      | none => none
    else if isText c then basicAfter fuel (c :: read) rest
    else none

/-- A text in single quotes, after the first. -/
def literalAfter : List Char → Reader String
  | _, [] => none
  | read, c :: rest =>
    if c == '\'' then some (String.ofList read.reverse, rest)
    else if isText c then literalAfter (c :: read) rest
    else none

/-- Quotes that a text over several lines holds or ends with: three of them end
it, and up to two more in front of those belong to it. -/
def closing (quote : Char) (text : List Char) : Nat × Bool :=
  let run := (text.takeWhile (· == quote)).length
  if run < 3 then (run, false) else (min run 5 - 3, true)

/-- A text over several lines in triple quotes, after the first.  Escapes count
where `escapes` says so, and a backslash at the end of a line takes the blank
space after it along. -/
def manyLinesAfter (quote : Char) (escapes : Bool) : Nat → List Char → Reader String
  | 0, _, _ => none
  | _ + 1, _, [] => none
  | fuel + 1, read, c :: rest =>
    if c == quote then
      let (quotes, closes) := closing quote (c :: rest)
      let read := List.replicate quotes quote ++ read
      if closes then some (String.ofList read.reverse, (c :: rest).drop (quotes + 3))
      else manyLinesAfter quote escapes fuel read ((c :: rest).drop quotes)
    else if escapes && c == '\\' then
      match newline? (skipBlank rest) with
      | some rest => manyLinesAfter quote escapes fuel read (skipLines rest)
      | none =>
        match escape rest with
        | some (escaped, rest) => manyLinesAfter quote escapes fuel (escaped :: read) rest
        | none => none
    else if isText c then manyLinesAfter quote escapes fuel (c :: read) rest
    else match newline? (c :: rest) with
      | some rest => manyLinesAfter quote escapes fuel ('\n' :: read) rest
      | none => none

/-- A line break right after the opening quotes does not count. -/
def manyLines (quote : Char) (escapes : Bool) : Reader String := fun text =>
  let text := (newline? text).getD text
  manyLinesAfter quote escapes (text.length + 1) [] text

def quotedText : Reader String
  | '"' :: '"' :: '"' :: rest => manyLines '"' true rest
  | '"' :: rest => basicAfter (rest.length + 1) [] rest
  | '\'' :: '\'' :: '\'' :: rest => manyLines '\'' false rest
  | '\'' :: rest => literalAfter [] rest
  | _ => none

/-! ### Keys -/

def simpleKey : Reader String
  | '"' :: rest => basicAfter (rest.length + 1) [] rest
  | '\'' :: rest => literalAfter [] rest
  | text =>
    match text.takeWhile isBareKey with
    | [] => none
    | key => some (String.ofList key, text.dropWhile isBareKey)

def keyParts : Nat → Reader (List String)
  | 0, _ => none
  | fuel + 1, text => do
    let (part, rest) ← simpleKey (skipBlank text)
    match skipBlank rest with
    | '.' :: rest =>
      let (parts, rest) ← keyParts fuel rest
      some (part :: parts, rest)
    | rest => some ([part], rest)

/-- Keys have fewer parts than this, and values are nested less deeply. -/
def depthLimit : Nat := 80

/-- A dotted key: the parts before the last, and the last. -/
def dottedKey : Reader (List String × String) := fun text => do
  let (parts, rest) ← keyParts (text.length + 1) text
  let last ← parts.getLast?
  if parts.length < depthLimit then some ((parts.dropLast, last), rest) else none

end SparseCache.Toml
