import Semicolon.Text.Digits

/-!
# TOML dates and times

A date, a time, or a date and a time with a `T` or a blank between them, to which the distance
from UTC may be added.  Seconds may be left out.
-/

namespace Semicolon.Toml.Datetime

/-- A number of exactly `count` digits, and what follows it. -/
def number? (count : Nat) (token : Text) : Option (Nat × Text) :=
  let digits := token.take count
  if digits.length = count && digits.all Char.isDigit then
    some (Text.ofDigits 10 digits, token.drop count)
  else none

/-- The character `c`, and what follows it. -/
def mark? (c : Char) : Text → Option Text
  | first :: rest => if first = c then some rest else none
  | [] => none

/-- Whether the year has a twenty-ninth of February. -/
def isLeap (year : Nat) : Bool :=
  year % 4 = 0 && (year % 100 ≠ 0 || year % 400 = 0)

/-- The number of days in a month. -/
def daysIn (year month : Nat) : Nat :=
  if month = 2 then if isLeap year then 29 else 28
  else if month = 4 || month = 6 || month = 9 || month = 11 then 30
  else 31

/-- What follows a date. -/
def afterDate? (token : Text) : Option Text := do
  let (year, rest) ← number? 4 token
  let rest ← mark? '-' rest
  let (month, rest) ← number? 2 rest
  let rest ← mark? '-' rest
  let (day, rest) ← number? 2 rest
  if 1 ≤ month && month ≤ 12 && 1 ≤ day && day ≤ daysIn year month then some rest else none

/-- What follows a fraction of a second, which may be missing. -/
def afterFraction? : Text → Option Text
  | '.' :: rest =>
    if (rest.takeWhile Char.isDigit).isEmpty then none else some (rest.dropWhile Char.isDigit)
  | rest => some rest

/-- What follows the seconds, which may be missing. -/
def afterSeconds? : Text → Option Text
  | ':' :: rest => do
    let (second, rest) ← number? 2 rest
    if second ≤ 60 then afterFraction? rest else none
  | rest => some rest

/-- What follows a time. -/
def afterTime? (token : Text) : Option Text := do
  let (hour, rest) ← number? 2 token
  let rest ← mark? ':' rest
  let (minute, rest) ← number? 2 rest
  if hour ≤ 23 && minute ≤ 59 then afterSeconds? rest else none

/-- Whether the text is empty or a distance from UTC. -/
def isOffset : Text → Bool
  | [] => true
  | ['Z'] => true
  | ['z'] => true
  | sign :: rest =>
    (sign == '+' || sign == '-') &&
      match (do
        let (hour, rest) ← number? 2 rest
        let rest ← mark? ':' rest
        let (minute, rest) ← number? 2 rest
        return (hour, minute, rest) : Option (Nat × Nat × Text)) with
      | some (hour, minute, []) => hour ≤ 23 && minute ≤ 59
      | _ => false

/-- Whether the text is a date, a time, or both. -/
def isDatetime (token : Text) : Bool :=
  match afterDate? token with
  | some [] => true
  | some (between :: rest) =>
    (between == 'T' || between == 't' || between == ' ') &&
      match afterTime? rest with
      | some offset => isOffset offset
      | none => false
  | none => afterTime? token == some []

end Semicolon.Toml.Datetime
