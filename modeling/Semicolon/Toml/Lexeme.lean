import Semicolon.Toml.Quoted

/-!
# TOML lexemes

A key or a plain value as it stands in a document.  Where a lexeme ends can be seen without
knowing what it means: a string ends with its quotes, or where no more of it can come, and a word
ends before a character that has a meaning of its own.  So the structure of a document can be
found before any lexeme is decoded.

## Main definitions

* `Toml.Lexeme`
* `Toml.Lexeme.quoted?`: the string at the front of a text.
* `Toml.Lexeme.word`, `Toml.Lexeme.bareKey`: the words at the front of a text.
-/

namespace Semicolon.Toml

/-- How a lexeme is written. -/
inductive Spelling
  /-- Without quotes. -/
  | bare
  /-- A string on one line. -/
  | line (style : Quoted.Style)
  /-- A string of several lines. -/
  | lines (style : Quoted.Style)
  deriving DecidableEq, Repr

/-- A key or a plain value as it stands in a document. -/
structure Lexeme where
  spelling : Spelling
  /-- What stands between the quotes, or the whole word. -/
  body : Text
  /-- Whether the quotes are closed. -/
  closed : Bool
  /-- The document from the lexeme on. -/
  start : Text
  deriving DecidableEq, Repr

namespace Lexeme

/-- The string at the front of a text, if one begins there, and the rest. -/
def quoted? (text : Text) : Option (Lexeme × Text) :=
  match text with
  | [] => none
  | first :: rest =>
    match Quoted.Style.ofQuote? first with
    | none => none
    | some style =>
      if [first, first].isPrefixOf rest then
        let (body, closed, after) := style.splitLines (rest.drop 2)
        some (⟨.lines style, body, closed, text⟩, after)
      else
        let (body, closed, after) := style.splitLine rest
        some (⟨.line style, body, closed, text⟩, after)

/-- The characters that end a word: those that divide a document. -/
def endsWord (c : Char) : Bool :=
  c == '\n' || c == '\r' || c == '#' || c == ',' || c == '=' || c == '[' || c == ']' ||
    c == '\x7b' || c == '\x7d'

/-- The characters that do not continue a word after blanks. -/
def standsApart (c : Char) : Bool :=
  c == '.' || c == Quoted.double || c == Quoted.single

/-- The rest of a word after `blanks`, which belong to it only if it goes on after them. -/
def wordFrom (blanks : Text) : Text → Text
  | [] => []
  | c :: rest =>
    if endsWord c then []
    else if Quoted.isBlank c then wordFrom (blanks ++ [c]) rest
    else if !blanks.isEmpty && standsApart c then []
    else blanks ++ c :: wordFrom [] rest

/-- The word at the front of a text and the rest.  Blanks may stand inside it, as they do between
a date and a time. -/
def word (text : Text) : Lexeme × Text :=
  let body := wordFrom [] text
  (⟨.bare, body, true, text⟩, text.drop body.length)

/-- The key without quotes at the front of a text and the rest. -/
def bareKey (text : Text) : Lexeme × Text :=
  let body := text.takeWhile fun c => !(endsWord c || Quoted.isBlank c || c == '.')
  (⟨.bare, body, true, text⟩, text.drop body.length)

/-- The text that a string stands for. -/
def string? (lexeme : Lexeme) : Option Text :=
  if !lexeme.closed then none
  else
    match lexeme.spelling with
    | .bare => none
    | .line style => style.decodeLine? lexeme.body
    | .lines style => style.decodeLines? lexeme.body

end Lexeme

end Semicolon.Toml
