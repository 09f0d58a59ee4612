import Semicolon.Rule.Token

/-!
# The grammars of tokens

What each token rule accepts, said by the parts of the token.  A token is in the grammar of a
rule if it can be cut into the parts that the rule asks for.
-/

namespace Semicolon.Grammar

/-- Any number of characters that satisfy `p`. -/
def Run (p : Char → Bool) (text : Text) : Prop :=
  ∀ c ∈ text, p c = true

/-- One or more digits. -/
def Digits (text : Text) : Prop :=
  text ≠ [] ∧ Run Char.isDigit text

/-- A sign, or nothing. -/
def Sign (text : Text) : Prop :=
  text = [] ∨ text = ['+'] ∨ text = ['-']

/-- An exponent, or nothing. -/
def Exponent (text : Text) : Prop :=
  text = [] ∨ ∃ mark sign digits, (mark = 'e' ∨ mark = 'E') ∧ Sign sign ∧ Digits digits ∧
    text = mark :: sign ++ digits

/-- The imaginary marker, or nothing. -/
def Imaginary (text : Text) : Prop :=
  text = [] ∨ text = ['i']

/-- The tokens that a rule is meant to accept. -/
def Derives : TokenRule → Text → Prop
  | .reservedWord, token => ∃ word ∈ TokenRule.reservedWords, token = word.toList
  | .identifier, token => ∃ first rest, TokenRule.startsIdentifier first = true ∧
      Run TokenRule.continuesIdentifier rest ∧ token = first :: rest
  | .integer, token => ∃ digits marker, Digits digits ∧ Imaginary marker ∧ token = digits ++ marker
  | .hexLiteral, token => ∃ mark digits, (mark = 'x' ∨ mark = 'X') ∧ digits ≠ [] ∧
      Run Text.isHexDigit digits ∧ token = '0' :: mark :: digits
  | .decimalFloat, token => ∃ whole fraction exponent marker, Digits whole ∧
      Run Char.isDigit fraction ∧ Exponent exponent ∧ Imaginary marker ∧
      token = whole ++ '.' :: fraction ++ exponent ++ marker
  | .exponentNumber, token => ∃ whole exponent marker, Digits whole ∧ Exponent exponent ∧
      Imaginary marker ∧ token = whole ++ exponent ++ marker
  | .leadingDotFloat, token => ∃ fraction exponent marker, Digits fraction ∧ Exponent exponent ∧
      Imaginary marker ∧ token = '.' :: fraction ++ exponent ++ marker
  | .doubleQuotedString, token => ∃ inner, token = '\x22' :: inner ++ ['\x22']
  | .rawString, token => ∃ inner, token = '\x60' :: inner ++ ['\x60']

end Semicolon.Grammar
