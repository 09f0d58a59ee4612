import Semicolon.Toml.Datetime
import Semicolon.Toml.Reader
import Semicolon.Toml.Value

/-!
# The content of TOML values

Terms are decoded from the left to the right, so that of several faults the first one is reported:
the parts of a key, their number, the value, and then whether the key may be given at all.

## Main definitions

* `Toml.keys`: the parts of a dotted key.
* `Toml.Term.decode`: the value that a term stands for.
-/

namespace Semicolon.Toml

/-- Refuses the document at the lexeme. -/
def Lexeme.refuse {α : Type} (lexeme : Lexeme) (reason : String) : Except Refusal α :=
  Toml.refuse lexeme.start reason

/-! ## Keys -/

/-- The characters of a key without quotes. -/
def isBareKey (c : Char) : Bool :=
  c.isAlphanum || c == '_' || c == '-'

/-- The key that a lexeme stands for.  A string of several lines is no key. -/
def Lexeme.key? (lexeme : Lexeme) : Option Text :=
  match lexeme.spelling with
  | .bare =>
    if !lexeme.body.isEmpty && lexeme.body.all isBareKey then some lexeme.body else none
  | .line _ => lexeme.string?
  | .lines _ => none

/-- The key that a lexeme stands for. -/
def Lexeme.key (lexeme : Lexeme) : Except Refusal Text :=
  match lexeme.key? with
  | some key => .ok key
  | none => lexeme.refuse "invalid key"

/-- How many parts a dotted key may have. -/
def maxKeys : Nat := 80

/-- The parts of a dotted key. -/
def keys (path : List Lexeme) : Except Refusal (List Text) := do
  let keys ← path.mapM Lexeme.key
  if maxKeys < keys.length then .error .longKey else .ok keys

/-! ## Values -/

/-- The value that a word stands for. -/
def wordValue? (word : Text) : Option Value :=
  if word = "true".toList then some (.boolean true)
  else if word = "false".toList then some (.boolean false)
  else
    match Number.read? word with
    | some (.integer value) => some (.integer value)
    | some (.float finite) => some (.float word finite)
    | some .unreadable => some (.unreadable word)
    | none => if Datetime.isDatetime word then some (.datetime word) else none

/-- The value that a lexeme stands for. -/
def Lexeme.value? (lexeme : Lexeme) : Option Value :=
  match lexeme.spelling with
  | .bare => wordValue? lexeme.body
  | _ => lexeme.string?.map .string

/-- The value that a lexeme stands for. -/
def Lexeme.value (lexeme : Lexeme) : Except Refusal Value :=
  match lexeme.value? with
  | some value => .ok value
  | none => lexeme.refuse "invalid value"

/-- Where a key begins. -/
def startOf (path : List Lexeme) (otherwise : Text) : Text :=
  (path.head?.map (·.start)).getD otherwise

/-- Refuses the document at a key because of a conflict. -/
def noConflict {α : Type} (path : List Lexeme) : Except Conflict α → Except Refusal α
  | .ok a => .ok a
  | .error conflict => refuse (startOf path []) conflict.message

mutual

/-- The value that a term stands for. -/
def Term.decode : Term → Except Refusal Value
  | .plain lexeme => lexeme.value
  | .array elements => (decodeElements elements).map (.array false)
  | .table entries => (decodeEntries [] entries).map (.table .inline)

/-- The values that terms stand for. -/
def decodeElements : List Term → Except Refusal (List Value)
  | [] => .ok []
  | first :: rest => do return (← first.decode) :: (← decodeElements rest)

/-- Adds the entries of an inline table to those in `held`. -/
def decodeEntries (held : Entries) : List (List Lexeme × Term) → Except Refusal Entries
  | [] => .ok held
  | (path, entry) :: rest => do
    let keys ← keys path
    let value ← entry.decode
    decodeEntries (← noConflict path (held.assign keys value)) rest

end

end Semicolon.Toml
