import Semicolon.Text.Digits

/-!
# TOML strings

A string stands between quotes.  Between double quotes a backslash begins an escape; between
single quotes every character stands for itself.  Three quotes make a string of several lines.

A string is read in two steps: its end is found, and then what lies before it is decoded.

## Main definitions

* `Toml.Quoted.Style`: the two kinds of quotes.
* `Toml.Quoted.Style.splitLine`, `Toml.Quoted.Style.splitLines`: the end of a string.
* `Toml.Quoted.Style.decodeLine?`, `Toml.Quoted.Style.decodeLines?`: what a string stands for.
-/

namespace Semicolon.Toml.Quoted

/-- The double quote. -/
def double : Char := '\x22'

/-- The single quote. -/
def single : Char := '\x27'

/-- The characters that may stand in a document: no control characters but the tab. -/
def isAllowed (c : Char) : Bool :=
  c == '\t' || (0x20 ≤ c.toNat && c.toNat ≠ 0x7f)

/-- A blank. -/
def isBlank (c : Char) : Bool :=
  c == ' ' || c == '\t'

/-- The two characters of line breaks. -/
def isBreak (c : Char) : Bool :=
  c == '\n' || c == '\r'

/-- The two kinds of quotes. -/
inductive Style
  /-- Double quotes, with escapes. -/
  | basic
  /-- Single quotes, without escapes. -/
  | literal
  deriving DecidableEq, Repr

namespace Style

/-- The quote. -/
def quote : Style → Char
  | basic => double
  | literal => single

/-- The style of a quote. -/
def ofQuote? (c : Char) : Option Style :=
  [basic, literal].find? (·.quote == c)

/-! ## The end of a string -/

/-- How many characters stand together at the front of a string: a backslash and what it keeps
from ending the string, or else one. -/
def unitLength (style : Style) : Text → Nat
  | '\\' :: c :: _ => if style = basic && (c = '\\' || c = double) then 2 else 1
  | _ => 1

/-- The body of a string up to its quote or the end of the line, whether the quote is there, and
the rest.  Characters in `skip` belong to the body whatever they are. -/
def splitLineFrom (style : Style) (skip : Nat) (read : Text) : Text → Text × Bool × Text
  | [] => (read.reverse, false, [])
  | c :: rest =>
    match skip with
    | more + 1 => splitLineFrom style more (c :: read) rest
    | 0 =>
      if c = style.quote then (read.reverse, true, rest)
      else if c = '\n' then (read.reverse, false, c :: rest)
      else splitLineFrom style (style.unitLength (c :: rest) - 1) (c :: read) rest

/-- The body of a string after its opening quote, whether it is closed, and the rest. -/
def splitLine (style : Style) (text : Text) : Text × Bool × Text :=
  style.splitLineFrom 0 [] text

/-- The body of a string up to its three quotes, whether they are there, and the rest.  One or two
more quotes right after them belong to the body. -/
def splitLinesFrom (style : Style) (skip : Nat) (read : Text) : Text → Text × Bool × Text
  | [] => (read.reverse, false, [])
  | c :: rest =>
    match skip with
    | more + 1 => splitLinesFrom style more (c :: read) rest
    | 0 =>
      if c = style.quote && [c, c].isPrefixOf rest then
        let after := rest.drop 2
        let extra := (after.take 2).takeWhile (· == c)
        (read.reverse ++ extra, true, after.drop extra.length)
      else splitLinesFrom style (style.unitLength (c :: rest) - 1) (c :: read) rest

/-- The body of a string after its three opening quotes, whether it is closed, and the rest. -/
def splitLines (style : Style) (text : Text) : Text × Bool × Text :=
  style.splitLinesFrom 0 [] text

end Style

/-! ## Escapes -/

/-- The character that a letter after a backslash stands for. -/
def shortEscape? (c : Char) : Option Char :=
  if c = 'b' then some '\x08'
  else if c = 't' then some '\t'
  else if c = 'n' then some '\n'
  else if c = 'f' then some '\x0c'
  else if c = 'r' then some '\r'
  else if c = 'e' then some '\x1b'
  else if c = double then some double
  else if c = '\\' then some '\\'
  else none

/-- The number of hexadecimal digits after a backslash and the given letter. -/
def escapeLength? (c : Char) : Option Nat :=
  if c = 'x' then some 2
  else if c = 'u' then some 4
  else if c = 'U' then some 8
  else none

/-- The character with a hexadecimal number. -/
def numbered? (digits : Text) : Option Char :=
  let value := Text.ofDigits 16 digits
  if digits.all Text.isHexDigit && (value < 0xd800 || (0xdfff < value && value < 0x110000)) then
    some (Char.ofNat value)
  else none

/-- Decodes escapes.  `pending` digits of a numbered character are still to come, after those in
`number`; `skipping` says that a backslash at the end of a line was read, after which blanks and
line breaks do not count. -/
def unescape? (pending : Nat) (number : Text) (skipping : Bool) : Text → Option Text
  | [] => if pending = 0 then some [] else none
  | c :: rest =>
    match pending with
    | more + 1 =>
      if more = 0 then do
        let decoded ← numbered? (number ++ [c])
        return decoded :: (← unescape? 0 [] false rest)
      else unescape? more (number ++ [c]) false rest
    | 0 =>
      if skipping && (isBlank c || isBreak c) then unescape? 0 [] true rest
      else if c = '\\' then
        match rest with
        | [] => none
        | letter :: rest =>
          match escapeLength? letter, shortEscape? letter with
          | some length, _ => unescape? length [] false rest
          | none, some decoded => do return decoded :: (← unescape? 0 [] false rest)
          | none, none =>
            if ((letter :: rest).dropWhile isBlank).head?.any isBreak then
              unescape? 0 [] true rest
            else none
      else do return c :: (← unescape? 0 [] false rest)

/-! ## What a string stands for -/

/-- Whether a text of several lines has only characters that may stand in a document, and no
carriage return without a line feed. -/
def hasOnlyLines : Text → Bool
  | '\r' :: '\n' :: rest => hasOnlyLines rest
  | c :: rest => (isAllowed c || c == '\n') && hasOnlyLines rest
  | [] => true

/-- Drops a line break right after the opening quotes. -/
def trimStart : Text → Text
  | '\n' :: rest => rest
  | '\r' :: '\n' :: rest => rest
  | rest => rest

namespace Style

/-- Decodes the escapes, if there are any in this style. -/
def unescape? (style : Style) (body : Text) : Option Text :=
  match style with
  | basic => Quoted.unescape? 0 [] false body
  | literal => some body

/-- What a string on one line stands for. -/
def decodeLine? (style : Style) (body : Text) : Option Text :=
  if body.all isAllowed then style.unescape? body else none

/-- What a string of several lines stands for.  Line breaks stay as they are. -/
def decodeLines? (style : Style) (body : Text) : Option Text :=
  if hasOnlyLines body then style.unescape? (trimStart body) else none

end Style

end Semicolon.Toml.Quoted
