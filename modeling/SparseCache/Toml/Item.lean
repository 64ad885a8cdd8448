import SparseCache.Toml.Number
import SparseCache.Toml.Moment

namespace SparseCache.Toml

/-! What a TOML document holds, and where keys may still be added. -/

/-- How a table came about, which decides who may add to it. -/
inductive Origin
  /-- It has a header of its own. -/
  | header
  /-- A header of one of its subtables names it. -/
  | implied
  /-- A dotted key names it. -/
  | dotted
deriving DecidableEq, Repr

inductive Item
  | text (value : String)
  | integer (value : Int)
  | floating (value : Floating)
  | boolean (value : Bool)
  | moment (value : Moment)
  | array (items : List Item)
  /-- A table written in one line, to which nothing can be added. -/
  | inline (entries : List (String × Item))
  | table (origin : Origin) (entries : List (String × Item))
  /-- The tables of repeated headers. -/
  | tables (elements : List (List (String × Item)))

abbrev Entries := List (String × Item)

namespace Entries

def get? (entries : Entries) (key : String) : Option Item := entries.lookup key

def replace (entries : Entries) (key : String) (item : Item) : Entries :=
  entries.map fun entry => if entry.1 == key then (key, item) else entry

/-- Adds a key that must be new. -/
def add? (entries : Entries) (key : String) (item : Item) : Option Entries :=
  match entries.get? key with
  | none => some (entries ++ [(key, item)])
  | some _ => none

def changeLast? (change : Entries → Option Entries) : List Entries → Option (List Entries)
  | [] => none
  | [last] => (change last).map ([·])
  | element :: elements => (changeLast? change elements).map (element :: ·)

/-- Adds an item under a dotted key, `path` before its last part.  Tables on the
way are made, or were made by another dotted key; `takes` tells whether the
table at hand may take the item itself. -/
def put? (key : String) (item : Item) : List String → Bool → Entries → Option Entries
  | [], takes, entries => if takes then entries.add? key item else none
  | part :: path, _, entries =>
    match entries.get? part with
    | none => do
      let inner ← put? key item path true []
      entries.add? part (.table .dotted inner)
    | some (.table .header _) => none
    | some (.table origin inner) => do
      let inner ← put? key item path (origin == .dotted) inner
      some (entries.replace part (.table origin inner))
    | some (.tables elements) => do
      let elements ← changeLast? (put? key item path false) elements
      some (entries.replace part (.tables elements))
    | some _ => none

/-- Changes the table below `part`, which a header names on its way. -/
def within? (part : String) (change : Entries → Option Entries) (entries : Entries) :
    Option Entries :=
  match entries.get? part with
  | none => do
    let inner ← change []
    entries.add? part (.table .implied inner)
  | some (.table origin inner) => do
    let inner ← change inner
    some (entries.replace part (.table origin inner))
  | some (.tables elements) => do
    let elements ← changeLast? change elements
    some (entries.replace part (.tables elements))
  | some _ => none

def change? (change : Entries → Option Entries) : List String → Entries → Option Entries
  | [], entries => change entries
  | part :: path, entries => within? part (change? change path) entries

/-- Opens the table of a header.  No table is opened twice. -/
def openTable? (key : String) (entries : Entries) : Option Entries :=
  match entries.get? key with
  | none => entries.add? key (.table .header [])
  | some (.table .implied inner) => some (entries.replace key (.table .header inner))
  | some _ => none

/-- Opens one more table of a repeated header. -/
def openElement? (key : String) (entries : Entries) : Option Entries :=
  match entries.get? key with
  | none => entries.add? key (.tables [[]])
  | some (.tables elements) => some (entries.replace key (.tables (elements ++ [[]])))
  | some _ => none

end Entries

end SparseCache.Toml
