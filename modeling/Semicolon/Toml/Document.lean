import Semicolon.Toml.Content

/-!
# TOML documents

A document is a list of statements: headers of tables and of elements of arrays, and keys with
their values.  First the structure of the whole document is read.  Then the statements are decoded
one after the other, and the table is put together from them.

## Main definitions

* `Toml.Statement`
* `Toml.statements`: the statements of a text.
* `Toml.parse`: the table that a text describes.
-/

namespace Semicolon.Toml

/-- A statement. -/
inductive Statement
  /-- `[path]` -/
  | table (path : List Lexeme)
  /-- `[[path]]` -/
  | element (path : List Lexeme)
  /-- `path = value` -/
  | assign (path : List Lexeme) (value : Term)

/-- The value of a statement.  It may be missing, which shows when it is decoded. -/
def statementValue (steps : Nat) (text : Text) : Except Refusal (Term × Text) :=
  match text with
  | [] => .ok (missing text, text)
  | c :: _ =>
    if c == '#' || Quoted.isBreak c then .ok (missing text, text) else term steps 0 text

/-- One statement, without the end of its line. -/
def statement (steps : Nat) (text : Text) : Except Refusal (Statement × Text) :=
  match text with
  | '[' :: '[' :: rest =>
    match keyPath steps (skipBlanks rest) with
    | (path, ']' :: ']' :: rest) => .ok (.element path, rest)
    | (_, rest) => refuse rest "expected `]]`"
  | '[' :: rest =>
    match keyPath steps (skipBlanks rest) with
    | (path, ']' :: rest) => .ok (.table path, rest)
    | (_, rest) => refuse rest "expected `]`"
  | _ =>
    match keyPath steps text with
    | (path, '=' :: rest) => do
      let (value, rest) ← statementValue steps (skipBlanks rest)
      return (.assign path value, rest)
    | (_, rest) => refuse rest "expected an equals sign"

/-- The statements of a text after those in `read`, the last of which comes first.  There are at
most `lines` of them, and the reader of each is given `steps` steps. -/
def statementsFrom (steps : Nat) (read : List Statement) :
    Nat → Text → Except Refusal (List Statement)
  | 0, _ => .ok read.reverse
  | lines + 1, text => do
    let start ← skipSpace steps text
    if start.isEmpty then return read.reverse
    else
      let (next, rest) ← statement steps start
      statementsFrom steps (next :: read) lines (← endLine rest)

/-- The text without a byte order mark at its front. -/
def skipMark : Text → Text
  | '\ufeff' :: rest => rest
  | text => text

/-- The statements of a text. -/
def statements (text : Text) : Except Refusal (List Statement) :=
  statementsFrom (2 * text.length + 2) [] (text.length + 1) (skipMark text)

/-- The table that statements make, given the table that the ones before have made and the header
under which they stand. -/
def build (header : List Text) (entries : Entries) : List Statement → Except Refusal Entries
  | [] => .ok entries
  | .table path :: rest => do
    let keys ← keys path
    build keys (← noConflict path (entries.declare keys)) rest
  | .element path :: rest => do
    let keys ← keys path
    build keys (← noConflict path (entries.declareElement keys)) rest
  | .assign path term :: rest => do
    let keys ← keys path
    let value ← term.decode
    build header (← noConflict path (entries.assignUnder header keys value)) rest

/-- The table that a text describes. -/
def parse (text : Text) : Except Refusal Entries := do
  build [] [] (← statements text)

/-! ## Places -/

/-- The line and the column, both from one, at which `rest` is left of the text. -/
def position (text rest : Text) : Nat × Nat :=
  let before := text.take (text.length - rest.length)
  let line := before.count '\n' + 1
  (line, (before.reverse.takeWhile (· != '\n')).length + 1)

/-- The parts of a key that can be decoded. -/
def decodedKeys (path : List Lexeme) : List Text :=
  path.filterMap Lexeme.key?

/-- Where the statements last say something about the key `path`: the document from the statement
on whose full path and `path` begin alike. -/
def place (path : List Text) (header : List Text) (found : Text) : List Statement → Text
  | [] => found
  | .table named :: rest | .element named :: rest =>
    let keys := decodedKeys named
    place path keys (if keys.isPrefixOf path then startOf named found else found) rest
  | .assign named _ :: rest =>
    let full := header ++ decodedKeys named
    let touches := full.isPrefixOf path || path.isPrefixOf full
    place path header (if touches then startOf named found else found) rest

end Semicolon.Toml
