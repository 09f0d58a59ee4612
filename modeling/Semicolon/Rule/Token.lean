import Semicolon.Rule.Numeral

/-!
# Token rules

A line whose last word is an operand or one of four keywords ends a statement.  Each rule
accepts a set of whole tokens.  Two pairs of rules overlap, every keyword is an identifier and
every plain integer is a number without an exponent, and the order of `TokenRule.all` decides
which of the two is reported.
-/

namespace Semicolon

/-- A kind of token that ends a statement when it is the last word of a line. -/
inductive TokenRule
  | reservedWord
  | identifier
  | integer
  | hexLiteral
  | decimalFloat
  | exponentNumber
  | leadingDotFloat
  | doubleQuotedString
  | rawString
  deriving DecidableEq, Repr

namespace TokenRule

/-- The keywords that end a statement. -/
def reservedWords : List String :=
  ["break", "continue", "fallthrough", "return"]

/-- Every token rule, in the order in which they are tried. -/
def all : List TokenRule :=
  [reservedWord, identifier, integer, hexLiteral, decimalFloat, exponentNumber,
    leadingDotFloat, doubleQuotedString, rawString]

/-- The name under which the rule is counted and listed. -/
def name : TokenRule → String
  | reservedWord => "reserved-word"
  | identifier => "identifier"
  | integer => "integer"
  | hexLiteral => "hex-literal"
  | decimalFloat => "decimal-float"
  | exponentNumber => "exponent-number"
  | leadingDotFloat => "leading-dot-float"
  | doubleQuotedString => "double-quoted-string"
  | rawString => "raw-string"

/-- What the rule accepts, in a few words. -/
def description : TokenRule → String
  | reservedWord => "break, continue, fallthrough or return"
  | identifier => "identifier such as `x`, `_tmp` or `value2`"
  | integer => "integer literal, optionally imaginary (`42`, `7i`)"
  | hexLiteral => "hexadecimal literal (`0xFF`, `0X1a`)"
  | decimalFloat => "float with a decimal point (`1.`, `3.14e-2i`)"
  | exponentNumber => "number with an exponent (`1e9`, `6E+2i`)"
  | leadingDotFloat => "float starting with a dot (`.5`, `.25e3`)"
  | doubleQuotedString => "double-quoted string (`\"hello\"`)"
  | rawString => "backtick raw string (`` `raw` ``)"

/-- A letter or an underscore. -/
def startsIdentifier (c : Char) : Bool :=
  c.isAlpha || c == '_'

/-- A letter, a digit or an underscore. -/
def continuesIdentifier (c : Char) : Bool :=
  c.isAlphanum || c == '_'

/-- A letter or underscore followed by letters, digits and underscores. -/
def isIdentifier : Text → Bool
  | first :: rest => startsIdentifier first && rest.all continuesIdentifier
  | [] => false

/-- The token begins and ends with `quote`.  Two characters are needed, so that one quote does
not count for both ends; what stands between is not looked at. -/
def isQuotedBy (quote : Char) (token : Text) : Bool :=
  2 ≤ token.length && token.head? == some quote && token.getLast? == some quote

/-- Whether the rule accepts the whole token. -/
def accepts : TokenRule → Text → Bool
  | reservedWord, token => reservedWords.any (·.toList == token)
  | identifier, token => isIdentifier token
  | integer, token => Numeral.isInteger token
  | hexLiteral, token => Numeral.isHex token
  | decimalFloat, token => Numeral.isDecimalFloat token
  | exponentNumber, token => Numeral.isExponentNumber token
  | leadingDotFloat, token => Numeral.isLeadingDotFloat token
  | doubleQuotedString, token => isQuotedBy '\x22' token
  | rawString, token => isQuotedBy '\x60' token

/-- The first rule that accepts the token. -/
def find? (token : Text) : Option TokenRule :=
  all.find? (·.accepts token)

theorem mem_all (rule : TokenRule) : rule ∈ all := by
  cases rule <;> decide

end TokenRule

end Semicolon
