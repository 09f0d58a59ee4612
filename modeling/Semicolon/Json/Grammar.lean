import Semicolon.Json.Value
import Semicolon.Rule.Grammar
import Semicolon.Text.Digits

/-!
# The grammar of JSON

Which texts stand for which values, said by the parts of the texts.  White space may stand around
values, keys and the signs between them, but neither in a number nor between a string and its
quotes, where it would be part of the string.

## Main definitions

* `Json.Spells`: what stands between the quotes of a string.
* `Json.Numeral`: numbers.
* `Json.Denotes`: values without white space around them.
* `Json.Document`: values with it.
-/

namespace Semicolon.Json

open Grammar (Digits)

/-- White space. -/
def Space (text : Text) : Prop :=
  ∀ c ∈ text, c = ' ' ∨ c = '\t' ∨ c = '\n' ∨ c = '\r'

/-! ## Strings -/

/-- The letters that may follow a backslash, each with the character that it stands for. -/
def shortForms : List (Char × Char) :=
  [('\x22', '\x22'), ('\\', '\\'), ('/', '/'), ('b', '\x08'), ('f', '\x0c'), ('n', '\n'),
    ('r', '\r'), ('t', '\t')]

/-- Hexadecimal digits, and the number that they stand for. -/
def Hexadecimal (digits : Text) (number : Nat) : Prop :=
  (∀ c ∈ digits, Text.isHexDigit c = true) ∧ Text.ofDigits 16 digits = number

/-- What is written between quotes for a string. -/
inductive Spells : Text → Text → Prop
  | nil : Spells [] []
  /-- A character stands for itself unless it is a quote, a backslash or a control character. -/
  | plain {c : Char} {written text : Text} (hquote : c ≠ '\x22') (hbackslash : c ≠ '\\')
    (hcontrol : 0x20 ≤ c.toNat) (h : Spells written text) : Spells (c :: written) (c :: text)
  /-- A backslash and a letter. -/
  | short {letter c : Char} {written text : Text} (hletter : (letter, c) ∈ shortForms)
    (h : Spells written text) : Spells ('\\' :: letter :: written) (c :: text)
  /-- A character by its number. -/
  | number {w x y z c : Char} {written text : Text} (hnumber : Hexadecimal [w, x, y, z] c.toNat)
    (h : Spells written text) : Spells ('\\' :: 'u' :: w :: x :: y :: z :: written) (c :: text)
  /-- A character above the first plane by two surrogates. -/
  | pair {p q r s w x y z c : Char} {high low : Nat} {written text : Text}
    (hhigh : Hexadecimal [p, q, r, s] high) (hlow : Hexadecimal [w, x, y, z] low)
    (hhighRange : 0xd800 ≤ high ∧ high < 0xdc00) (hlowRange : 0xdc00 ≤ low ∧ low ≤ 0xdfff)
    (hcode : c.toNat = 0x10000 + (high - 0xd800) * 0x400 + (low - 0xdc00))
    (h : Spells written text) :
    Spells ('\\' :: 'u' :: p :: q :: r :: s :: '\\' :: 'u' :: w :: x :: y :: z :: written)
      (c :: text)

/-! ## Numbers -/

/-- A fraction or nothing, and its digits. -/
inductive Fraction : Text → Text → Prop
  | absent : Fraction [] []
  | present {digits : Text} (hdigits : Digits digits) : Fraction ('.' :: digits) digits

/-- An integer with a sign that may be missing. -/
inductive Signed : Text → Int → Prop
  | unsigned {digits : Text} (hdigits : Digits digits) : Signed digits (Text.ofDigits 10 digits)
  | plus {digits : Text} (hdigits : Digits digits) :
    Signed ('+' :: digits) (Text.ofDigits 10 digits)
  | minus {digits : Text} (hdigits : Digits digits) :
    Signed ('-' :: digits) (-(Text.ofDigits 10 digits : Int))

/-- An exponent or nothing, and its value. -/
inductive Exponent : Text → Int → Prop
  | absent : Exponent [] 0
  | present {mark : Char} {written : Text} {value : Int} (hmark : mark = 'e' ∨ mark = 'E')
    (h : Signed written value) : Exponent (mark :: written) value

/-- A number without its sign, its mantissa and its exponent.  A whole part of several digits does
not begin with a zero. -/
inductive Magnitude : Text → Nat → Int → Prop
  | mk {whole fraction digits exponent : Text} {power : Int} (hwhole : Digits whole)
    (hzero : whole.head? = some '0' → whole = ['0']) (hfraction : Fraction fraction digits)
    (hexponent : Exponent exponent power) :
    Magnitude (whole ++ fraction ++ exponent) (Text.ofDigits 10 (whole ++ digits))
      (power - digits.length)

/-- A number, its mantissa and its exponent. -/
inductive Numeral : Text → Int → Int → Prop
  | positive {written : Text} {mantissa : Nat} {exponent : Int}
    (h : Magnitude written mantissa exponent) : Numeral written mantissa exponent
  | negative {written : Text} {mantissa : Nat} {exponent : Int}
    (h : Magnitude written mantissa exponent) : Numeral ('-' :: written) (-mantissa) exponent

/-! ## Values -/

mutual

/-- What is written for a value. -/
inductive Denotes : Text → Value → Prop
  | null : Denotes "null".toList .null
  | isTrue : Denotes "true".toList (.boolean true)
  | isFalse : Denotes "false".toList (.boolean false)
  | number {written : Text} {mantissa exponent : Int} (h : Numeral written mantissa exponent) :
    Denotes written (.number mantissa exponent)
  | string {written text : Text} (h : Spells written text) :
    Denotes ('\x22' :: written ++ ['\x22']) (.string text)
  | emptyArray {space : Text} (h : Space space) : Denotes ('[' :: space ++ [']']) (.array [])
  | array {written : Text} {elements : List Value} (h : Elements written elements) :
    Denotes ('[' :: written ++ [']']) (.array elements)
  | emptyObject {space : Text} (h : Space space) :
    Denotes ('\x7b' :: space ++ ['\x7d']) (.object [])
  | object {written : Text} {members : List (Text × Value)} (h : Members written members) :
    Denotes ('\x7b' :: written ++ ['\x7d']) (.object members)

/-- What is written for one or more elements. -/
inductive Elements : Text → List Value → Prop
  | last {before written after : Text} {value : Value} (hbefore : Space before)
    (hvalue : Denotes written value) (hafter : Space after) :
    Elements (before ++ written ++ after) [value]
  | more {before written after others : Text} {value : Value} {rest : List Value}
    (hbefore : Space before) (hvalue : Denotes written value) (hafter : Space after)
    (hrest : Elements others rest) :
    Elements (before ++ written ++ after ++ ',' :: others) (value :: rest)

/-- What is written for one or more members. -/
inductive Members : Text → List (Text × Value) → Prop
  | last {written : Text} {key : Text} {value : Value} (hmember : Member written key value) :
    Members written [(key, value)]
  | more {written others : Text} {key : Text} {value : Value} {rest : List (Text × Value)}
    (hmember : Member written key value) (hrest : Members others rest) :
    Members (written ++ ',' :: others) ((key, value) :: rest)

/-- What is written for a member. -/
inductive Member : Text → Text → Value → Prop
  | mk {before spelled between start written after key : Text} {value : Value}
    (hbefore : Space before) (hkey : Spells spelled key) (hbetween : Space between)
    (hstart : Space start) (hvalue : Denotes written value) (hafter : Space after) :
    Member (before ++ '\x22' :: spelled ++ '\x22' :: between ++ ':' :: start ++ written ++ after)
      key value

end

/-- A value with white space around it. -/
def Document (text : Text) (value : Value) : Prop :=
  ∃ before written after, Space before ∧ Denotes written value ∧ Space after ∧
    text = before ++ written ++ after

end Semicolon.Json
