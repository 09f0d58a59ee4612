import Semicolon.Text.Digits

/-!
# Numerals

The spellings of numbers that a token may have.  Each check reads its token from the left: a
maximal run of digits is taken, and a smaller check looks at what follows.  Taking the maximal
run is right because nothing that may follow a run of digits begins with a digit.

Digits and letters are the ASCII ones.
-/

namespace Semicolon.Numeral

/-- One or more digits, then a rest that `accepts` takes. -/
def digitsThen (accepts : Text → Bool) (token : Text) : Bool :=
  !(token.takeWhile Char.isDigit).isEmpty && accepts (token.dropWhile Char.isDigit)

/-- Nothing more, or the imaginary marker and nothing more. -/
def endsImaginary (rest : Text) : Bool :=
  rest == [] || rest == ['i']

/-- What follows an optional sign. -/
def afterSign : Text → Text
  | '+' :: rest => rest
  | '-' :: rest => rest
  | rest => rest

/-- An optional exponent, then an optional imaginary marker, and nothing more. -/
def endsExponent : Text → Bool
  | 'e' :: rest => digitsThen endsImaginary (afterSign rest)
  | 'E' :: rest => digitsThen endsImaginary (afterSign rest)
  | rest => endsImaginary rest

/-- Digits and an optional imaginary marker. -/
def isInteger (token : Text) : Bool :=
  digitsThen endsImaginary token

/-- `0x` or `0X` and one or more hexadecimal digits. -/
def isHex : Text → Bool
  | '0' :: 'x' :: digits => !digits.isEmpty && digits.all Text.isHexDigit
  | '0' :: 'X' :: digits => !digits.isEmpty && digits.all Text.isHexDigit
  | _ => false

/-- A point, an optional fraction, an optional exponent and an optional imaginary marker. -/
def endsFraction : Text → Bool
  | '.' :: rest => endsExponent (rest.dropWhile Char.isDigit)
  | _ => false

/-- Digits and a point, with an optional fraction, exponent and imaginary marker. -/
def isDecimalFloat (token : Text) : Bool :=
  digitsThen endsFraction token

/-- Digits with an optional exponent and imaginary marker. -/
def isExponentNumber (token : Text) : Bool :=
  digitsThen endsExponent token

/-- A point and digits, with an optional exponent and imaginary marker. -/
def isLeadingDotFloat : Text → Bool
  | '.' :: rest => digitsThen endsExponent rest
  | _ => false

end Semicolon.Numeral
