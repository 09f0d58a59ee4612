import Semicolon.Json.Value
import Semicolon.Text.Digits

/-!
# Reading JSON

A reader for the whole of JSON.  Each step of a reader takes at least one character, so the
length of a text is always enough steps to read it.

## Main definitions

* `Json.parse?`: the value that a text holds.
-/

namespace Semicolon.Json

/-- What follows white space. -/
def skipSpace (text : Text) : Text :=
  text.dropWhile fun c => c == ' ' || c == '\t' || c == '\n' || c == '\r'

/-! ## Strings -/

/-- The character that a letter after a backslash stands for. -/
def shortEscape? (c : Char) : Option Char :=
  if c = '\x22' then some '\x22'
  else if c = '\\' then some '\\'
  else if c = '/' then some '/'
  else if c = 'b' then some '\x08'
  else if c = 'f' then some '\x0c'
  else if c = 'n' then some '\n'
  else if c = 'r' then some '\r'
  else if c = 't' then some '\t'
  else none

/-- The number that four hexadecimal digits stand for. -/
def unit? (digits : Text) : Option Nat :=
  if digits.all Text.isHexDigit then some (Text.ofDigits 16 digits) else none

/-- The rest of a string after `read`, whose last character comes first, and what follows the
closing quote.  Two escapes by number that are surrogates make one character. -/
def stringFrom? (read : Text) : Text → Option (Text × Text)
  | [] => none
  | '\x22' :: rest => some (read.reverse, rest)
  | '\\' :: 'u' :: a :: b :: c :: d :: rest =>
    match unit? [a, b, c, d] with
    | none => none
    | some high =>
      if high < 0xd800 || 0xdfff < high then stringFrom? (Char.ofNat high :: read) rest
      else
        match rest with
        | '\\' :: 'u' :: e :: f :: g :: h :: rest =>
          match unit? [e, f, g, h] with
          | none => none
          | some low =>
            if high < 0xdc00 && 0xdc00 ≤ low && low ≤ 0xdfff then
              stringFrom?
                (Char.ofNat (0x10000 + (high - 0xd800) * 0x400 + (low - 0xdc00)) :: read) rest
            else none
        | _ => none
  | '\\' :: letter :: rest =>
    match shortEscape? letter with
    | some c => stringFrom? (c :: read) rest
    | none => none
  | c :: rest => if c = '\\' || c.toNat < 0x20 then none else stringFrom? (c :: read) rest

/-- A string after its opening quote. -/
def string? (text : Text) : Option (Text × Text) :=
  stringFrom? [] text

/-! ## Numbers -/

/-- A run of one or more digits, and the rest. -/
def digits? (text : Text) : Option (Text × Text) :=
  let digits := text.takeWhile Char.isDigit
  if digits.isEmpty then none else some (digits, text.dropWhile Char.isDigit)

/-- The digits after a point, if there is one, and the rest. -/
def fraction? : Text → Option (Text × Text)
  | '.' :: rest => digits? rest
  | rest => some ([], rest)

/-- A number with a sign that may be missing, and the rest. -/
def signed? : Text → Option (Int × Text)
  | '-' :: rest => (digits? rest).map fun (ds, rest) => (-↑(Text.ofDigits 10 ds), rest)
  | '+' :: rest => (digits? rest).map fun (ds, rest) => (↑(Text.ofDigits 10 ds), rest)
  | rest => (digits? rest).map fun (ds, rest) => (↑(Text.ofDigits 10 ds), rest)

/-- The exponent, if there is one, and the rest. -/
def exponent? : Text → Option (Int × Text)
  | 'e' :: rest => signed? rest
  | 'E' :: rest => signed? rest
  | rest => some (0, rest)

/-- A number without its sign: digits without leading zeros, a fraction and an exponent. -/
def unsigned? (text : Text) : Option (Nat × Int × Text) := do
  let (whole, rest) ← digits? text
  if 1 < whole.length && whole.head? = some '0' then none
  else
    let (fraction, rest) ← fraction? rest
    let (exponent, rest) ← exponent? rest
    return (Text.ofDigits 10 (whole ++ fraction), exponent - fraction.length, rest)

/-- A number. -/
def number? : Text → Option (Value × Text)
  | '-' :: rest => (unsigned? rest).map fun (n, e, rest) => (.number (-↑n) e, rest)
  | text => (unsigned? text).map fun (n, e, rest) => (.number ↑n e, rest)

/-! ## Values -/

/-- What follows `word` at the front of a text. -/
def afterWord? (word text : Text) : Option Text :=
  if word.isPrefixOf text then some (text.drop word.length) else none

mutual

/-- A value, after white space. -/
def value? : Nat → Text → Option (Value × Text)
  | 0, _ => none
  | steps + 1, text =>
    match skipSpace text with
    | '\x22' :: rest => (string? rest).map fun (read, rest) => (.string read, rest)
    | '[' :: rest =>
      match skipSpace rest with
      | ']' :: rest => some (.array [], rest)
      | rest => (elements? steps rest).map fun (read, rest) => (.array read, rest)
    | '\x7b' :: rest =>
      match skipSpace rest with
      | '\x7d' :: rest => some (.object [], rest)
      | rest => (members? steps rest).map fun (read, rest) => (.object read, rest)
    | rest =>
      match afterWord? "null".toList rest, afterWord? "true".toList rest,
        afterWord? "false".toList rest with
      | some rest, _, _ => some (.null, rest)
      | _, some rest, _ => some (.boolean true, rest)
      | _, _, some rest => some (.boolean false, rest)
      | _, _, _ => number? rest

/-- One or more elements and the closing bracket. -/
def elements? : Nat → Text → Option (List Value × Text)
  | 0, _ => none
  | steps + 1, text =>
    match value? steps text with
    | none => none
    | some (element, rest) =>
      match skipSpace rest with
      | ']' :: rest => some ([element], rest)
      | ',' :: rest => (elements? steps rest).map fun (read, rest) => (element :: read, rest)
      | _ => none

/-- One or more members and the closing brace. -/
def members? : Nat → Text → Option (List (Text × Value) × Text)
  | 0, _ => none
  | steps + 1, text =>
    match skipSpace text with
    | '\x22' :: rest =>
      match string? rest with
      | none => none
      | some (key, rest) =>
        match skipSpace rest with
        | ':' :: rest =>
          match value? steps rest with
          | none => none
          | some (value, rest) =>
            match skipSpace rest with
            | '\x7d' :: rest => some ([(key, value)], rest)
            | ',' :: rest =>
              (members? steps rest).map fun (read, rest) => ((key, value) :: read, rest)
            | _ => none
        | _ => none
    | _ => none

end

/-- The value that a text holds, with white space around it. -/
def parse? (text : Text) : Option Value :=
  match value? (2 * text.length + 1) text with
  | some (value, rest) => if (skipSpace rest).isEmpty then some value else none
  | none => none

end Semicolon.Json
