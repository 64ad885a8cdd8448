import SparseCache.Text.GraphemeExtend
import SparseCache.Text.Unprintable
import SparseCache.Text.Utf8

namespace SparseCache.Text

/-! Texts and names between double quotes, with everything escaped that would
not show or could be taken for the end. -/

def hexDigits (n : Nat) : String := String.ofList (Nat.toDigits 16 n)

/-- `n` as two upper-case hexadecimal digits. -/
def hexByte (n : UInt8) : String :=
  let digit (d : Nat) : Char := "0123456789ABCDEF".toList.getD d '0'
  String.ofList [digit (n.toNat / 16), digit (n.toNat % 16)]

/-- Characters with a short escape are named by it; those that do not print or
attach to their neighbour are given by their code point. -/
def escapeChar (c : Char) : String :=
  match c with
  | '\x00' => "\\0"
  | '\t' => "\\t"
  | '\r' => "\\r"
  | '\n' => "\\n"
  | '\\' => "\\\\"
  | '"' => "\\\""
  | c =>
    if isGraphemeExtend c || isUnprintable c then
      "\\u\x7b" ++ hexDigits c.toNat ++ "\x7d"
    else c.toString

def quote (text : String) : String :=
  "\"" ++ String.join (text.toList.map escapeChar) ++ "\""

/-- A file name in quotes.  Bytes that are no text are given one by one. -/
def quoteName (name : Bytes) : String :=
  let one : Segment → String
    | .char c => escapeChar c
    | .illFormed bytes => String.join (bytes.map fun b => "\\x" ++ hexByte b)
  "\"" ++ String.join ((segments name).map one) ++ "\""

end SparseCache.Text
