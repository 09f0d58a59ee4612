import Semicolon.Text.Basic

/-!
# Suffixes that end a statement

Some punctuation ends a statement wherever it stands at the very end of a line.  It is looked
for on the line as it is, blanks included, so `f(x) ` with a trailing blank has none.
-/

namespace Semicolon

/-- Punctuation that ends a statement when a line ends with it. -/
inductive Suffix
  | increment
  | decrement
  | closeParen
  | closeBracket
  | closeBrace
  deriving DecidableEq, Repr

namespace Suffix

/-- Every suffix, in the order in which they are tried. -/
def all : List Suffix :=
  [increment, decrement, closeParen, closeBracket, closeBrace]

/-- The characters that make the suffix. -/
def text : Suffix → Text
  | increment => ['+', '+']
  | decrement => ['-', '-']
  | closeParen => [')']
  | closeBracket => [']']
  | closeBrace => ['\x7d']

/-- The name under which the suffix is counted and listed. -/
def name : Suffix → String
  | increment => "increment"
  | decrement => "decrement"
  | closeParen => "close-paren"
  | closeBracket => "close-bracket"
  | closeBrace => "close-brace"

/-- Whether the line ends with the suffix. -/
def endsLine (suffix : Suffix) (line : Text) : Bool :=
  suffix.text.isSuffixOf line

/-- The first suffix the line ends with. -/
def find? (line : Text) : Option Suffix :=
  all.find? (·.endsLine line)

theorem mem_all (suffix : Suffix) : suffix ∈ all := by
  cases suffix <;> decide

theorem endsLine_iff {suffix : Suffix} {line : Text} :
    suffix.endsLine line ↔ suffix.text <:+ line :=
  List.isSuffixOf_iff_suffix

end Suffix

end Semicolon
