import SparseCache.Text.Quoted

namespace SparseCache

/-! How a file is to be opened, as a word of flags.

Bits without a meaning are kept: they take part in every operation on words and
show in the description, but never decide how a file is opened.
-/

structure OpenFlags where
  bits : Int32
deriving DecidableEq

namespace OpenFlags

def readOnly : OpenFlags := ⟨0⟩
def writeOnly : OpenFlags := ⟨1⟩
def readWrite : OpenFlags := ⟨2⟩
def append : OpenFlags := ⟨1024⟩
def truncate : OpenFlags := ⟨512⟩
def create : OpenFlags := ⟨64⟩
def exclusive : OpenFlags := ⟨128⟩

/-- The flags with a meaning, in the order in which they are named. -/
def named : List (String × OpenFlags) :=
  [("RDONLY", readOnly), ("WRONLY", writeOnly), ("RDWR", readWrite), ("APPEND", append),
    ("TRUNC", truncate), ("CREAT", create), ("EXCL", exclusive)]

def union (a b : OpenFlags) : OpenFlags := ⟨a.bits ||| b.bits⟩
def inter (a b : OpenFlags) : OpenFlags := ⟨a.bits &&& b.bits⟩
def diff (a b : OpenFlags) : OpenFlags := ⟨a.bits &&& ~~~ b.bits⟩
def toggle (a b : OpenFlags) : OpenFlags := ⟨a.bits ^^^ b.bits⟩

/-- All flags with a meaning. -/
def all : OpenFlags := named.foldl (fun flags (_, flag) => flags.union flag) readOnly

/-- The meaningful flags among `flags`. -/
def known (flags : OpenFlags) : OpenFlags := flags.inter all

/-- The meaningful flags not among `flags`. -/
def complement (flags : OpenFlags) : OpenFlags := all.diff flags

def isEmpty (flags : OpenFlags) : Bool := flags.bits == 0

def contains (flags part : OpenFlags) : Bool := (flags.inter part).bits == part.bits

def intersects (flags others : OpenFlags) : Bool := !(flags.inter others).isEmpty

def isAll (flags : OpenFlags) : Bool := flags.contains all

/-- The word, if every bit of it has a meaning. -/
def checked? (bits : Int32) : Option OpenFlags :=
  if (diff ⟨bits⟩ all).isEmpty then some ⟨bits⟩ else none

def isWritable (flags : OpenFlags) : Bool := flags.intersects (writeOnly.union readWrite)

/-- The flags that are set in `flags` and what remains once they are named.  A
flag without bits is never named. -/
def naming (flags : OpenFlags) : List String × OpenFlags :=
  named.foldl
    (fun (names, rest) (name, flag) =>
      if !flag.isEmpty && flags.contains flag && rest.intersects flag then
        (names ++ [name], rest.diff flag)
      else (names, rest))
    ([], flags)

def names (flags : OpenFlags) : List String := flags.naming.1

/-- A word in hexadecimal; the sign is the highest of its bits. -/
def hexWord (bits : Int32) : String := "0x" ++ Text.hexDigits bits.toUInt32.toNat

def describe (flags : OpenFlags) : String :=
  let (names, rest) := flags.naming
  let shown := if rest.isEmpty then names else names ++ [hexWord rest.bits]
  let text := if flags.isEmpty then hexWord 0 else " | ".intercalate shown
  "OpenFlags(" ++ text ++ ")"

end OpenFlags

end SparseCache
