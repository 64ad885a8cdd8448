namespace SparseCache

/-! Byte strings, as the lists the rest of the development reasons about. -/

abbrev Bytes := List UInt8

namespace Bytes

/-- The bytes of the UTF-8 form of `text`. -/
def ofString (text : String) : Bytes := text.toUTF8.toList

/-- `bytes` cut into chunks of `step` bytes, the last one shorter if need be.
`fuel` bounds the number of chunks. -/
def chunksOf (step : Nat) : Nat → Bytes → List Bytes
  | _, [] => []
  | 0, _ => []
  | fuel + 1, bytes => bytes.take step :: chunksOf step fuel (bytes.drop step)

def chunks (step : Nat) (bytes : Bytes) : List Bytes := chunksOf step bytes.length bytes

end Bytes

end SparseCache
