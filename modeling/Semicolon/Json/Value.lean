import Semicolon.Text.Basic

/-!
# JSON values and how they are written

A value is written on one line, or with each element and member on a line of its own, indented
by two blanks for every level.  Empty arrays and objects are written without a line break.

In strings the quote, the backslash and the control characters below U+0020 are escaped;
everything else stands for itself.

## Main definitions

* `Json.Value`
* `Json.Value.write`
-/

namespace Semicolon.Json

/-- A JSON value. -/
inductive Value
  | null
  | boolean (value : Bool)
  /-- The number `mantissa · 10 ^ exponent`. -/
  | number (mantissa exponent : Int)
  | string (text : Text)
  | array (elements : List Value)
  | object (members : List (Text × Value))

/-- How a value is laid out. -/
inductive Layout
  /-- On one line. -/
  | compact
  /-- On a line for every element and member. -/
  | indented
  deriving DecidableEq, Repr

/-! ## Strings -/

/-- The last two digits of an escape by number. -/
def hexPair (value : Nat) : Text :=
  [Nat.digitChar (value / 16), Nat.digitChar (value % 16)]

/-- How a character is written in a string. -/
def escapeChar (c : Char) : Text :=
  if c = '\x22' then ['\\', '\x22']
  else if c = '\\' then ['\\', '\\']
  else if c = '\x08' then ['\\', 'b']
  else if c = '\x0c' then ['\\', 'f']
  else if c = '\n' then ['\\', 'n']
  else if c = '\r' then ['\\', 'r']
  else if c = '\t' then ['\\', 't']
  else if c.toNat < 0x20 then ['\\', 'u', '0', '0'] ++ hexPair c.toNat
  else [c]

/-- A string between quotes. -/
def writeString (text : Text) : Text :=
  '\x22' :: text.flatMap escapeChar ++ ['\x22']

/-! ## Numbers -/

/-- The digits of a number with the last `places` of them after the point. -/
def writePlaces (value places : Nat) : Text :=
  let digits := Nat.toDigits 10 value
  let padded := List.replicate (places + 1 - digits.length) '0' ++ digits
  padded.take (padded.length - places) ++ '.' :: padded.drop (padded.length - places)

/-- The digits of a number, with a point after the first unless it is the only one, and the power of
ten of the first digit. -/
def writeScientific (value : Nat) (exponent : Int) : Text :=
  let digits := Nat.toDigits 10 value
  let power := exponent + (digits.length - 1 : Nat)
  digits.take 1 ++ (if digits.length = 1 then [] else '.' :: digits.drop 1) ++
    'e' :: ((if power < 0 then ['-'] else []) ++ Nat.toDigits 10 power.natAbs)

/-- A number.  A negative exponent says how many digits stand after the point, unless too many of
them were zeros. -/
def writeNumber (mantissa exponent : Int) : Text :=
  let sign := if mantissa < 0 then ['-'] else []
  let zeros := -exponent - (Nat.toDigits 10 mantissa.natAbs).length
  if exponent = 0 then sign ++ Nat.toDigits 10 mantissa.natAbs
  else if exponent < 0 && zeros < 5 then sign ++ writePlaces mantissa.natAbs exponent.natAbs
  else sign ++ writeScientific mantissa.natAbs exponent

/-! ## Values -/

/-- What stands before an element or member at a level. -/
def Layout.newLine (layout : Layout) (level : Nat) : Text :=
  match layout with
  | compact => []
  | indented => '\n' :: List.replicate (2 * level) ' '

/-- What stands between a key and its value. -/
def Layout.colon : Layout → Text
  | compact => [':']
  | indented => [':', ' ']

mutual

/-- Writes a value that stands at the given level. -/
def Value.write (layout : Layout) (level : Nat) : Value → Text
  | .null => "null".toList
  | .boolean value => if value then "true".toList else "false".toList
  | .number mantissa exponent => writeNumber mantissa exponent
  | .string text => writeString text
  | .array [] => ['[', ']']
  | .array (first :: rest) =>
    '[' :: layout.newLine (level + 1) ++ first.write layout (level + 1) ++
      writeElements layout (level + 1) rest ++ layout.newLine level ++ [']']
  | .object [] => ['\x7b', '\x7d']
  | .object ((key, value) :: rest) =>
    '\x7b' :: layout.newLine (level + 1) ++ writeString key ++ layout.colon ++
      value.write layout (level + 1) ++ writeMembers layout (level + 1) rest ++
      layout.newLine level ++ ['\x7d']

/-- Writes the elements after the first. -/
def writeElements (layout : Layout) (level : Nat) : List Value → Text
  | [] => []
  | element :: rest =>
    ',' :: layout.newLine level ++ element.write layout level ++ writeElements layout level rest

/-- Writes the members after the first. -/
def writeMembers (layout : Layout) (level : Nat) : List (Text × Value) → Text
  | [] => []
  | (key, value) :: rest =>
    ',' :: layout.newLine level ++ writeString key ++ layout.colon ++ value.write layout level ++
      writeMembers layout level rest

end

end Semicolon.Json
