import SparseCache.Toml.Lexeme

namespace SparseCache.Toml

/-! Whole and floating numbers. -/

inductive Floating
  /-- The number with these digits, times ten to the `power`. -/
  | decimal (negative : Bool) (digits : List Char) (power : Int)
  | infinite (negative : Bool)
  | notANumber
deriving DecidableEq, Repr

namespace Floating

/-- Halfway between the largest finite double and the next power of two. -/
def overflowBound : Nat := 1 <<< 1024 - 1 <<< 970

/-- Whether the nearest double is positive infinity.  The number of digits tells
for all but the decimals of 309 places, so that no power needs to be computed
that the text is too short to hold. -/
def overflows : Floating → Bool
  | .decimal false digits power =>
    let digits := digits.dropWhile (· == '0')
    let places := digits.length + power
    if digits.isEmpty || decide (places < 309) then false
    else if 309 < places then true
    else decide (overflowBound * Nat.pow 10 (-power).toNat
      ≤ valueOf 10 digits * Nat.pow 10 power.toNat)
  | _ => false

end Floating

/-- Digits after a first one.  A single underscore may stand between two. -/
def moreDigits (isDigit : Char → Bool) : Reader (List Char)
  | '_' :: c :: rest =>
    if isDigit c then
      (moreDigits isDigit rest).map fun (digits, rest) => (c :: digits, rest)
    else none
  | ['_'] => none
  | c :: rest =>
    if isDigit c then
      (moreDigits isDigit rest).map fun (digits, rest) => (c :: digits, rest)
    else some ([], c :: rest)
  | [] => some ([], [])

def digitsOf (isDigit : Char → Bool) : Reader (List Char)
  | c :: rest =>
    if isDigit c then
      (moreDigits isDigit rest).map fun (digits, rest) => (c :: digits, rest)
    else none
  | [] => none

def decimalDigits : Reader (List Char) := digitsOf Char.isDigit

/-- Digits without a leading zero, or just zero. -/
def wholeDigits : Reader (List Char)
  | '0' :: rest => some (['0'], rest)
  | text => decimalDigits text

/-- Whether a minus sign stands in front, and what follows the sign. -/
def sign : List Char → Bool × List Char
  | '+' :: rest => (false, rest)
  | '-' :: rest => (true, rest)
  | text => (false, text)

/-- The digits after the point; none without a point. -/
def fraction : Reader (List Char)
  | '.' :: rest => decimalDigits rest
  | text => some ([], text)

/-- The power of ten; zero if none is given. -/
def exponent : Reader Int
  | c :: rest =>
    if c == 'e' || c == 'E' then
      let (negative, rest) := sign rest
      (decimalDigits rest).map fun (digits, rest) =>
        let size : Int := valueOf 10 digits
        (if negative then -size else size, rest)
    else some (0, c :: rest)
  | [] => some (0, [])

/-- A number with a point, a power or both. -/
def decimal? : Reader Floating := fun text => do
  let (negative, unsigned) := sign text
  let (whole, afterWhole) ← wholeDigits unsigned
  let (places, afterPlaces) ← fraction afterWhole
  let (power, rest) ← exponent afterPlaces
  let number := Floating.decimal negative (whole ++ places) (power - places.length)
  let isWhole := !afterWhole.head?.any fun c => c == '.' || c == 'e' || c == 'E'
  if isWhole || number.overflows then none else some (number, rest)

/-- `inf` and `nan`, with or without a sign. -/
def named? : Reader Floating := fun text =>
  match sign text with
  | (negative, 'i' :: 'n' :: 'f' :: rest) => some (.infinite negative, rest)
  | (_, 'n' :: 'a' :: 'n' :: rest) => some (.notANumber, rest)
  | _ => none

def floating? : Reader Floating := fun text => decimal? text <|> named? text

/-- Whole numbers are those of 64 bits. -/
def inRange (n : Int) : Bool := decide (-0x8000000000000000 ≤ n ∧ n < 0x8000000000000000)

/-- A whole number in the given base, after the mark of the base. -/
def basedAfter (base : Nat) (isDigit : Char → Bool) : Reader Int := fun text => do
  let (digits, rest) ← digitsOf isDigit text
  let n : Int := valueOf base digits
  if inRange n then some (n, rest) else none

def integer? : Reader Int
  | '0' :: 'x' :: rest => basedAfter 16 isHexDigit rest
  | '0' :: 'o' :: rest => basedAfter 8 (fun c => decide ('0' ≤ c ∧ c ≤ '7')) rest
  | '0' :: 'b' :: rest => basedAfter 2 (fun c => c == '0' || c == '1') rest
  | text => do
    let (negative, unsigned) := sign text
    let (digits, rest) ← wholeDigits unsigned
    let size : Int := valueOf 10 digits
    let n := if negative then -size else size
    if inRange n then some (n, rest) else none

end SparseCache.Toml
