import SparseCache.Toml.Lexeme

namespace SparseCache.Toml

/-! Dates and times of day. -/

def isLeapYear (year : Nat) : Bool :=
  year % 4 == 0 && (year % 100 != 0 || year % 400 == 0)

def daysInMonth (year month : Nat) : Nat :=
  if month = 2 then if isLeapYear year then 29 else 28
  else if month = 4 ∨ month = 6 ∨ month = 9 ∨ month = 11 then 30
  else 31

structure Date where
  year : Nat
  month : Nat
  day : Nat
deriving DecidableEq, Repr

def Date.isValid (date : Date) : Bool :=
  decide (1 ≤ date.month ∧ date.month ≤ 12 ∧
    1 ≤ date.day ∧ date.day ≤ daysInMonth date.year date.month)

/-- A time of day.  A minute may have a leap second. -/
structure Clock where
  hour : Nat
  minute : Nat
  second : Nat
  /-- The digits of the part of a second. -/
  part : List Char
deriving DecidableEq, Repr

def Clock.isValid (clock : Clock) : Bool :=
  decide (clock.hour < 24 ∧ clock.minute < 60 ∧ clock.second ≤ 60)

inductive Moment
  | date (date : Date)
  | clock (clock : Clock)
  /-- A date with a time of day and, where it is known, the distance from
  universal time in minutes. -/
  | both (date : Date) (clock : Clock) (offset : Option Int)
deriving DecidableEq, Repr

/-- A number of just `count` digits. -/
def fixedDigits (count : Nat) : Reader Nat := fun text =>
  let digits := text.take count
  if digits.length = count ∧ digits.all Char.isDigit then
    some (valueOf 10 digits, text.drop count)
  else none

def after? (c : Char) : List Char → Option (List Char)
  | d :: rest => if d == c then some rest else none
  | [] => none

def date? : Reader Date := fun text => do
  let (year, rest) ← fixedDigits 4 text
  let (month, rest) ← fixedDigits 2 (← after? '-' rest)
  let (day, rest) ← fixedDigits 2 (← after? '-' rest)
  let date : Date := ⟨year, month, day⟩
  if date.isValid then some (date, rest) else none

def hourMinute? : Reader (Nat × Nat) := fun text => do
  let (hour, rest) ← fixedDigits 2 text
  let (minute, rest) ← fixedDigits 2 (← after? ':' rest)
  if hour < 24 ∧ minute < 60 then some ((hour, minute), rest) else none

def clock? : Reader Clock := fun text => do
  let ((hour, minute), rest) ← hourMinute? text
  let (second, rest) ← fixedDigits 2 (← after? ':' rest)
  let part := match after? '.' rest with
    | some rest => rest.takeWhile Char.isDigit
    | none => []
  let clock : Clock := ⟨hour, minute, second, part⟩
  if clock.isValid then
    some (clock, if part.isEmpty then rest else rest.drop (part.length + 1))
  else none

/-- The distance from universal time; none where the text gives none. -/
def offset? : Reader (Option Int)
  | 'Z' :: rest => some (some 0, rest)
  | 'z' :: rest => some (some 0, rest)
  | '+' :: rest => do
    let ((hour, minute), rest) ← hourMinute? rest
    some (some (hour * 60 + minute), rest)
  | '-' :: rest => do
    let ((hour, minute), rest) ← hourMinute? rest
    some (some (-(hour * 60 + minute)), rest)
  | text => some (none, text)

/-- A time of day in a text that starts with the separator between it and a date. -/
def clockAfterDate? : Reader (Clock × Option Int)
  | c :: rest =>
    if c == 'T' || c == 't' || c == ' ' then do
      let (clock, rest) ← clock? rest
      let (offset, rest) ← offset? rest
      some ((clock, offset), rest)
    else none
  | [] => none

def moment? : Reader Moment := fun text =>
  match date? text with
  | some (date, rest) =>
    match clockAfterDate? rest with
    | some ((clock, offset), rest) => some (.both date clock offset, rest)
    | none => some (.date date, rest)
  | none => (clock? text).map fun (clock, rest) => (.clock clock, rest)

end SparseCache.Toml
