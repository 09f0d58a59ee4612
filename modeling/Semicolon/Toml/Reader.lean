import Semicolon.Toml.Lexeme

/-!
# The structure of TOML values

A reader takes a text and gives what it has read and the rest, or refuses the document.  It looks
at the structure alone: keys and plain values are left as the lexemes they are.

Arrays and inline tables nest, at most `maxNesting` deep.  A reader of nested terms is given a
number of steps; every step takes a character, so the length of the text is always enough.

## Main definitions

* `Toml.Refusal`: why a document is refused.
* `Toml.Term`: a value that is not decoded yet.
* `Toml.keyPath`: reads a dotted key.
* `Toml.term`: reads a term.
-/

namespace Semicolon.Toml

/-- Why a document is refused. -/
inductive Refusal
  /-- Something is wrong at the place where `rest` is left of the document. -/
  | malformed (rest : Text) (reason : String)
  /-- A dotted key has too many parts. -/
  | longKey
  deriving DecidableEq, Repr

/-- Refuses the document at the place where `rest` is left. -/
def refuse {α : Type} (rest : Text) (reason : String) : Except Refusal α :=
  .error (.malformed rest reason)

/-- A value that is not decoded yet. -/
inductive Term
  | plain (lexeme : Lexeme)
  | array (elements : List Term)
  | table (entries : List (List Lexeme × Term))

/-! ## Space -/

/-- What follows blanks. -/
def skipBlanks (text : Text) : Text :=
  text.dropWhile Quoted.isBlank

/-- What follows a comment, which may be missing: the line break after it, or nothing. -/
def skipComment : Text → Except Refusal Text
  | '#' :: rest =>
    match rest.dropWhile Quoted.isAllowed with
    | [] => .ok []
    | '\n' :: after => .ok ('\n' :: after)
    | '\r' :: '\n' :: after => .ok ('\r' :: '\n' :: after)
    | after => refuse after "invalid character in comment"
  | rest => .ok rest

/-- What follows a line break. -/
def lineBreak? : Text → Option Text
  | '\n' :: rest => some rest
  | '\r' :: '\n' :: rest => some rest
  | _ => none

/-- What follows blanks, comments and line breaks. -/
def skipSpace : Nat → Text → Except Refusal Text
  | 0, text => .ok text
  | steps + 1, text => do
    let rest ← skipComment (skipBlanks text)
    match lineBreak? rest with
    | some rest => skipSpace steps rest
    | none => .ok rest

/-- What follows the end of a line: blanks, a comment and a line break, or the end of the
text. -/
def endLine (text : Text) : Except Refusal Text := do
  let rest ← skipComment (skipBlanks text)
  match rest, lineBreak? rest with
  | [], _ => .ok []
  | _, some after => .ok after
  | _, none => refuse rest "expected a line break"

/-! ## Keys -/

/-- A key without dots.  It may be missing, which shows when it is decoded. -/
def key (text : Text) : Lexeme × Text :=
  (Lexeme.quoted? text).getD (Lexeme.bareKey text)

/-- A dotted key and what follows the blanks after it.  No line break may stand between its
parts. -/
def keyPath : Nat → Text → List Lexeme × Text
  | 0, text => ([], text)
  | steps + 1, text =>
    let (first, rest) := key text
    match skipBlanks rest with
    | '.' :: rest =>
      let (path, rest) := keyPath steps (skipBlanks rest)
      (first :: path, rest)
    | rest => ([first], rest)

/-! ## Terms -/

/-- How deep arrays and inline tables may nest. -/
def maxNesting : Nat := 80

/-- A value that is neither an array nor an inline table. -/
def plain (text : Text) : Except Refusal (Term × Text) :=
  match Lexeme.quoted? text with
  | some (lexeme, rest) => .ok (.plain lexeme, rest)
  | none =>
    let (lexeme, rest) := Lexeme.word text
    if lexeme.body.isEmpty then refuse text "expected a value" else .ok (.plain lexeme, rest)

/-- The term for a value that is missing. -/
def missing (text : Text) : Term :=
  .plain ⟨.bare, [], true, text⟩

mutual

/-- A term, inside `depth` arrays and inline tables. -/
def term : Nat → Nat → Text → Except Refusal (Term × Text)
  | 0, _, text => refuse text "expected a value"
  | steps + 1, depth, text =>
    match text with
    | '[' :: rest => do
      if depth = maxNesting then refuse text "nested too deeply"
      else
        let (elements, rest) ← elementsOf steps (depth + 1) [] (← skipSpace steps rest)
        return (.array elements, rest)
    | '\x7b' :: rest => do
      if depth = maxNesting then refuse text "nested too deeply"
      else
        let (entries, rest) ← entriesOf steps (depth + 1) [] (← skipSpace steps rest)
        return (.table entries, rest)
    | _ => plain text

/-- The elements of an array after those in `read`, the last of which comes first, and its
closing bracket.  A comma may follow the last element. -/
def elementsOf : Nat → Nat → List Term → Text → Except Refusal (List Term × Text)
  | 0, _, _, text => refuse text "unclosed array"
  | steps + 1, depth, read, text =>
    match text with
    | ']' :: rest => .ok (read.reverse, rest)
    | _ => do
      let (element, rest) ← term steps depth text
      let rest ← skipSpace steps rest
      match rest with
      | ']' :: rest => .ok ((element :: read).reverse, rest)
      | ',' :: rest => elementsOf steps depth (element :: read) (← skipSpace steps rest)
      | _ => refuse rest "expected a comma or a closing bracket"

/-- The entries of an inline table after those in `read`, the last of which comes first, and its
closing brace.  Lines may be broken before and after the equals sign, and a comma may follow the
last entry. -/
def entriesOf : Nat → Nat → List (List Lexeme × Term) → Text →
    Except Refusal (List (List Lexeme × Term) × Text)
  | 0, _, _, text => refuse text "unclosed inline table"
  | steps + 1, depth, read, text =>
    match text with
    | '\x7d' :: rest => .ok (read.reverse, rest)
    | _ => do
      let (path, rest) := keyPath steps text
      let afterKey ← skipSpace steps rest
      match afterKey with
      | '=' :: rest =>
        let (entry, rest) ← term steps depth (← skipSpace steps rest)
        let rest ← skipSpace steps rest
        match rest with
        | '\x7d' :: rest => .ok (((path, entry) :: read).reverse, rest)
        | ',' :: rest => entriesOf steps depth ((path, entry) :: read) (← skipSpace steps rest)
        | _ => refuse rest "expected a comma or a closing brace"
      | _ => refuse afterKey "expected an equals sign"

end

end Semicolon.Toml
