import SparseCache.Bytes
import SparseCache.Span

namespace SparseCache

/-! The bytes of a sparse local file.

A file is a size and the writes that made it, newest first.  What no write
reached reads as zero, so a file of any size costs only what was written to it.
`byteAt` is the semantic view: every operation is described by the bytes it
changes.
-/

/-- Lengths of local files stay below this. -/
def lengthLimit : Nat := 0x8000000000000000

/-- Bytes that one write put at `start`. -/
structure Patch where
  start : Nat
  bytes : Bytes
deriving DecidableEq, Repr

namespace Patch

def find? (patch : Patch) (p : Nat) : Option UInt8 :=
  if patch.start ≤ p then patch.bytes[p - patch.start]? else none

/-- The part of the patch below `bound`. -/
def cut (bound : Nat) (patch : Patch) : Patch :=
  ⟨patch.start, patch.bytes.take (bound - patch.start)⟩

/-- Lays the part of the patch that falls on `window`, which shows the offsets
from `origin` on, over it. -/
def paint (origin : Nat) (window : Array UInt8) (patch : Patch) : Array UInt8 :=
  let visible := patch.bytes.drop (origin - patch.start)
  let here := patch.start - origin
  (visible.foldl (fun (at', shown) byte => (at' + 1, shown.setIfInBounds at' byte))
    (here, window)).2

end Patch

structure Content where
  size : Nat
  patches : List Patch
deriving DecidableEq, Repr

namespace Content

def zeros (size : Nat) : Content := ⟨size, []⟩

instance : Inhabited Content := ⟨zeros 0⟩

/-- The byte at `p`, zero where nothing was written. -/
def byteAt (content : Content) (p : Nat) : UInt8 :=
  (content.patches.findSome? (·.find? p)).getD 0

/-- Puts `bytes` at `start`, growing the file if they reach past its end.
Writing nothing changes nothing. -/
def write (content : Content) (start : Nat) (bytes : Bytes) : Content :=
  if bytes.isEmpty then content
  else ⟨max content.size (start + bytes.length), ⟨start, bytes⟩ :: content.patches⟩

/-- Sets the size.  Bytes cut off are gone: growing again shows zeros. -/
def resize (content : Content) (size : Nat) : Content :=
  ⟨size, content.patches.map (·.cut size)⟩

/-- The bytes of `s`, one for each offset of it. -/
def read (content : Content) (s : Span) : Bytes :=
  (content.patches.foldr (fun patch window => patch.paint s.lo window)
    (Array.replicate s.length 0)).toList

def bytes (content : Content) : Bytes := content.read ⟨0, content.size⟩

end Content

end SparseCache
