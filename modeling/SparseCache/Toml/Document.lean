import SparseCache.Toml.Item

namespace SparseCache.Toml

/-! Values, and the document they make up. -/

/-- Items of an array after its opening bracket, a comma between any two and
maybe one after the last.  `fuel` bounds their number. -/
def arrayAfter (value : Reader Item) : Nat → Reader (List Item)
  | 0, _ => none
  | fuel + 1, text =>
    match skipFiller false text with
    | ']' :: rest => some ([], rest)
    | text => do
      let (item, rest) ← value text
      match skipFiller false rest with
      | ']' :: rest => some ([item], rest)
      | ',' :: rest =>
        (arrayAfter value fuel rest).map fun (items, rest) => (item :: items, rest)
      | _ => none

/-- A key and its value.  Blanks around them are skipped. -/
def pair (value : Reader Item) : Reader ((List String × String) × Item) := fun text => do
  let (key, rest) ← dottedKey text
  let (item, rest) ← value (skipBlank (← after? '=' rest))
  some ((key, item), skipBlank rest)

/-- Pairs of a table in one line, with a comma between any two.  They join
`entries`, and `fuel` bounds their number. -/
def pairsAfter (value : Reader Item) : Nat → Entries → Reader Entries
  | 0, _, _ => none
  | fuel + 1, entries, text => do
    let (((path, key), item), rest) ← pair value text
    let entries ← entries.put? key item path true
    match rest with
    | '\x7d' :: rest => some (entries, rest)
    | ',' :: rest => pairsAfter value fuel entries rest
    | _ => none

/-- A table in one line, after its opening brace. -/
def inlineAfter (value : Reader Item) : Reader Entries := fun text =>
  match skipBlank text with
  | '\x7d' :: rest => some ([], rest)
  | _ => pairsAfter value (text.length + 1) [] text

def scalar? : Reader Item
  | 't' :: 'r' :: 'u' :: 'e' :: rest => some (.boolean true, rest)
  | 'f' :: 'a' :: 'l' :: 's' :: 'e' :: rest => some (.boolean false, rest)
  | text =>
    let reading {α : Type} (read : Reader α) (item : α → Item) : Option (Item × List Char) :=
      (read text).map fun (value, rest) => (item value, rest)
    reading quotedText .text <|> reading moment? .moment <|>
      reading floating? .floating <|> reading integer? .integer

/-- A value, with others inside at most `nesting` deep. -/
def valueWithin : Nat → Reader Item
  | 0, '[' :: _ => none
  | 0, '\x7b' :: _ => none
  | nesting + 1, '[' :: rest =>
    (arrayAfter (valueWithin nesting) (rest.length + 1) rest).map fun (items, rest) =>
      (.array items, rest)
  | nesting + 1, '\x7b' :: rest =>
    (inlineAfter (valueWithin nesting) rest).map fun (entries, rest) => (.inline entries, rest)
  | _, text => scalar? text

def value : Reader Item := valueWithin (depthLimit - 1)

/-! ### Documents -/

/-- What has been read of a document, and the table that pairs go into. -/
structure Draft where
  root : Entries
  header : List String

namespace Draft

def blank : Draft := ⟨[], []⟩

def put? (draft : Draft) (path : List String) (key : String) (item : Item) : Option Draft := do
  let root ← draft.root.change? (Entries.put? key item path true) draft.header
  some { draft with root }

def openTable? (draft : Draft) (path : List String) (key : String) : Option Draft := do
  let root ← draft.root.change? (Entries.openTable? key) path
  some ⟨root, path ++ [key]⟩

def openElement? (draft : Draft) (path : List String) (key : String) : Option Draft := do
  let root ← draft.root.change? (Entries.openElement? key) path
  some ⟨root, path ++ [key]⟩

/-- Takes up the header in brackets that the text starts with. -/
def header? (draft : Draft) : List Char → Option (Draft × List Char)
  | '[' :: '[' :: rest => do
    let ((path, key), rest) ← dottedKey rest
    let rest ← after? ']' (← after? ']' rest)
    some (← draft.openElement? path key, rest)
  | '[' :: rest => do
    let ((path, key), rest) ← dottedKey rest
    let rest ← after? ']' rest
    some (← draft.openTable? path key, rest)
  | _ => none

def pair? (draft : Draft) (text : List Char) : Option (Draft × List Char) := do
  let (((path, key), item), rest) ← pair value text
  some (← draft.put? path key item, rest)

/-- Takes up one line, which may end in a comment. -/
def line? (draft : Draft) (text : List Char) : Option (Draft × List Char) :=
  match restOfLine? text with
  | some rest => some (draft, rest)
  | none => do
    let text := skipBlank text
    let (draft, rest) ← if text.head? = some '[' then draft.header? text else draft.pair? text
    some (draft, ← restOfLine? rest)

/-- Takes up lines, `fuel` of them at most, to the end of the text. -/
def lines? : Nat → Draft → List Char → Option Draft
  | _, draft, [] => some draft
  | 0, _, _ => none
  | fuel + 1, draft, text => do
    let (draft, rest) ← draft.line? text
    lines? fuel draft rest

end Draft

/-- The entries of a document.  A byte order mark may stand in front. -/
def document? (text : String) : Option Entries :=
  let characters := match text.toList with
    | '\ufeff' :: rest => rest
    | characters => characters
  (Draft.lines? (characters.length + 1) .blank characters).map Draft.root

end SparseCache.Toml
