import Semicolon.Text.Digits

/-!
# TOML numbers

Digits may be grouped by single underscores.  Decimal numbers have no leading zeros; the other
bases have a lower-case mark and no sign.

A word passes for a number before its value is known.  Of an integer with groups only the
characters beside the underscores are looked at, and they may be hexadecimal digits; and a mark of
a base may stand without digits.  Such a word is a number without a value, which can be passed over
but not used.  Nor is it asked whether a number fits into a machine word before it is used.

## Main definitions

* `Toml.Number`: what a word that passes for a number stands for.
* `Toml.Number.read?`
-/

namespace Semicolon.Toml

/-- What a word that passes for a number stands for. -/
inductive Number
  | integer (value : Int)
  /-- A floating-point number, and whether it is not too large for a double. -/
  | float (finite : Bool)
  /-- It has no value. -/
  | unreadable
  deriving DecidableEq, Repr

namespace Number

/-! ## Groups of digits -/

/-- Whether every underscore stands between two characters that satisfy `isDigit`. -/
def isGrouped (isDigit : Char → Bool) (token : Text) : Bool :=
  let groups := token.splitOn '_'
  (groups.drop 1).all (·.head?.any isDigit) && groups.dropLast.all (·.getLast?.any isDigit)

/-- The digits of a group, without the underscores that stand between two of them. -/
def digits? (isDigit : Char → Bool) (token : Text) : Option Text :=
  let groups := token.splitOn '_'
  if groups.all fun group => !group.isEmpty && group.all isDigit then some groups.flatten
  else none

/-- Decimal digits without a leading zero. -/
def decimal? (token : Text) : Option Text := do
  let digits ← digits? Char.isDigit token
  if digits.length ≠ 1 && digits.head? = some '0' then none else some digits

/-- A sign, which may be missing, and the rest. -/
def splitSign : Text → Bool × Text
  | '+' :: rest => (false, rest)
  | '-' :: rest => (true, rest)
  | rest => (false, rest)

/-! ## Integers -/

/-- Whether an integer fits into 128 bits, with or without a sign. -/
def fits (value : Int) : Bool :=
  -↑(Nat.pow 2 127) ≤ value && value < ↑(Nat.pow 2 128)

/-- The integer with the given digits after the mark of its base.  Without digits it has no
value. -/
def based? (base : Nat) (isDigit : Char → Bool) (token : Text) : Option Number :=
  if token.isEmpty then some .unreadable
  else (digits? isDigit token).map fun digits => .integer ↑(Text.ofDigits base digits)

/-- A decimal integer that has groups. -/
def grouped? (negative : Bool) (token : Text) : Option Number :=
  if token.head? = some '0' || !isGrouped Text.isHexDigit token then none
  else
    match decimal? token with
    | some digits =>
      let size : Int := ↑(Text.ofDigits 10 digits)
      some (.integer (if negative then -size else size))
    | none => some .unreadable

/-- A decimal integer without groups. -/
def ungrouped? (negative : Bool) (token : Text) : Option Number :=
  (decimal? token).map fun digits =>
    let size : Int := ↑(Text.ofDigits 10 digits)
    .integer (if negative then -size else size)

/-! ## Floating-point numbers -/

/-- Whether `coefficient · 10 ^ exponent` rounds to a double.  The bound lies half a unit above
the largest one. -/
def isFinite (coefficient : Nat) (exponent : Int) : Bool :=
  let size : Int := (Nat.toDigits 10 coefficient).length + exponent
  let bound := (Nat.pow 2 54 - 1) * Nat.pow 2 970
  if coefficient = 0 || size < 300 then true
  else if 320 < size then false
  else if 0 ≤ exponent then coefficient * Nat.pow 10 exponent.toNat < bound
  else coefficient < bound * Nat.pow 10 (-exponent).toNat

/-- An exponent: a sign, which may be missing, and digits. -/
def exponent? (token : Text) : Option Int := do
  let (negative, rest) := splitSign token
  let digits ← digits? Char.isDigit rest
  return if negative then -↑(Text.ofDigits 10 digits) else ↑(Text.ofDigits 10 digits)

/-- The text before and after the first character that satisfies `p`. -/
def cutAt (p : Char → Bool) (token : Text) : Text × Option Text :=
  match token.dropWhile (!p ·) with
  | [] => (token, none)
  | _ :: after => (token.takeWhile (!p ·), some after)

/-- A floating-point number without its sign.  A fraction or an exponent is needed. -/
def float? (token : Text) : Option Number :=
  let (mantissa, exponentPart) := cutAt (fun c => c == 'e' || c == 'E') token
  let (wholePart, fractionPart) := cutAt (· == '.') mantissa
  let exponent := match exponentPart with
    | none => some 0
    | some part => exponent? part
  let fraction := match fractionPart with
    | none => some []
    | some part => digits? Char.isDigit part
  match decimal? wholePart, fraction, exponent with
  | some whole, some fraction, some exponent =>
    if exponentPart.isSome || fractionPart.isSome then
      some (.float
        (isFinite (Text.ofDigits 10 (whole ++ fraction)) (exponent - fraction.length)))
    else none
  | _, _, _ => none

/-! ## Words -/

/-- The characters by which a floating-point number is told from an integer. -/
def marksFloat (c : Char) : Bool :=
  c == '.' || c == 'e' || c == 'E'

/-- A decimal number without its sign.  What follows its first digits tells its kind; after a
hyphen or a colon it would be a date or a time. -/
def unsigned? (negative : Bool) (token : Text) : Option Number :=
  match token.dropWhile Char.isDigit with
  | [] => ungrouped? negative token
  | mark :: rest =>
    if mark == '-' || mark == ':' || (mark :: rest).contains ' ' then none
    else if (mark :: rest).any marksFloat then float? token
    else if mark == '_' then grouped? negative token
    else none

/-- What a word stands for that passes for a number. -/
def read? (word : Text) : Option Number :=
  match word with
  | '0' :: 'x' :: digits => based? 16 Text.isHexDigit digits
  | '0' :: 'o' :: digits => based? 8 (fun c => '0' ≤ c && c ≤ '7') digits
  | '0' :: 'b' :: digits => based? 2 (fun c => c == '0' || c == '1') digits
  | _ =>
    let (negative, token) := splitSign word
    if token = "inf".toList || token = "nan".toList then some (.float true)
    else unsigned? negative token

end Number

end Semicolon.Toml
