import SparseCache.Bytes

namespace SparseCache.Text

/-! Reading bytes as UTF-8 without giving up on the first bad one.

`segments` splits a byte string into characters and ill-formed parts.  An
ill-formed part is as long as some well-formed character could have started
with it, and one byte long if none could; nothing is lost.
-/

inductive Segment
  | char (c : Char)
  | illFormed (bytes : Bytes)
deriving DecidableEq, Repr

/-- A character whose first bytes have been read: those bytes, newest first,
its code so far, how many bytes are owed and the bounds of the next one. -/
structure Prefixed where
  read : Bytes
  code : Nat
  owed : Nat
  least : UInt8
  greatest : UInt8

/-- What a byte opens that no other byte of its character precedes. -/
def opens (b : UInt8) : Option Prefixed :=
  let after (mask owed : Nat) (least greatest : UInt8) : Option Prefixed :=
    some ⟨[b], b.toNat % mask, owed, least, greatest⟩
  if b < 0x80 then after 0x80 0 0x80 0xBF
  else if b < 0xC2 then none
  else if b < 0xE0 then after 0x20 1 0x80 0xBF
  else if b = 0xE0 then after 0x10 2 0xA0 0xBF
  else if b = 0xED then after 0x10 2 0x80 0x9F
  else if b < 0xF0 then after 0x10 2 0x80 0xBF
  else if b = 0xF0 then after 0x08 3 0x90 0xBF
  else if b < 0xF4 then after 0x08 3 0x80 0xBF
  else if b = 0xF4 then after 0x08 3 0x80 0x8F
  else none

/-- The segments finished by a byte that starts afresh, and what it opens. -/
def openSegment (b : UInt8) : List Segment × Option Prefixed :=
  match opens b with
  | none => ([.illFormed [b]], none)
  | some p => if p.owed = 0 then ([.char (Char.ofNat p.code)], none) else ([], some p)

def segmentsAfter : Option Prefixed → Bytes → List Segment
  | none, [] => []
  | some p, [] => [.illFormed p.read.reverse]
  | none, b :: rest =>
    let (finished, opened) := openSegment b
    finished ++ segmentsAfter opened rest
  | some p, b :: rest =>
    if p.least ≤ b ∧ b ≤ p.greatest then
      let code := p.code * 64 + b.toNat % 64
      if p.owed = 1 then .char (Char.ofNat code) :: segmentsAfter none rest
      else segmentsAfter (some ⟨b :: p.read, code, p.owed - 1, 0x80, 0xBF⟩) rest
    else
      let (finished, opened) := openSegment b
      .illFormed p.read.reverse :: (finished ++ segmentsAfter opened rest)

def segments (bytes : Bytes) : List Segment := segmentsAfter none bytes

def Segment.char? : Segment → Option Char
  | .char c => some c
  | .illFormed _ => none

/-- The text of well-formed bytes. -/
def decode? (bytes : Bytes) : Option String :=
  ((segments bytes).mapM Segment.char?).map String.ofList

/-- The text with U+FFFD in place of each ill-formed part. -/
def decodeLossy (bytes : Bytes) : String :=
  String.ofList ((segments bytes).map fun segment => segment.char?.getD '\uFFFD')

end SparseCache.Text
