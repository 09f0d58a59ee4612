import Semicolon.Toml.Number

/-!
# TOML values

A document is a table: keys with their values, in the order in which they were given.  A table
remembers how it came about, because that decides what may still be added to it.

## Main definitions

* `Toml.Value`, `Toml.Entries`
* `Toml.Entries.assign`, `Toml.Entries.declare`, `Toml.Entries.declareElement`: what the three
  kinds of statement do to a table.
-/

namespace Semicolon.Toml

/-- How a table came about. -/
inductive TableKind
  /-- It stands on the way to a table with a header of its own. -/
  | implied
  /-- It stands on the way of a dotted key. -/
  | dotted
  /-- It has a header. -/
  | declared
  /-- It was written between braces and is complete. -/
  | inline
  deriving DecidableEq, Repr

/-- A value. -/
inductive Value
  | string (text : Text)
  | integer (value : Int)
  /-- A floating-point number, as it was written, and whether a double can hold it. -/
  | float (literal : Text) (finite : Bool)
  /-- A number without a value, as it was written. -/
  | unreadable (literal : Text)
  | boolean (value : Bool)
  /-- A date, a time, or both, as it was written. -/
  | datetime (literal : Text)
  /-- A list of values.  One that was made by headers may get further tables. -/
  | array (byHeaders : Bool) (elements : List Value)
  | table (kind : TableKind) (entries : List (Text × Value))

/-- Keys and their values. -/
abbrev Entries := List (Text × Value)

mutual

/-- Whether all numbers in a value can be read and held by a machine. -/
def Value.fits : Value → Bool
  | .integer value => Number.fits value
  | .float _ finite => finite
  | .unreadable _ => false
  | .array _ elements => elementsFit elements
  | .table _ entries => entriesFit entries
  | _ => true

/-- Whether all numbers in a list of values can be read and held by a machine. -/
def elementsFit : List Value → Bool
  | [] => true
  | first :: rest => first.fits && elementsFit rest

/-- Whether all numbers in a table can be read and held by a machine. -/
def entriesFit : List (Text × Value) → Bool
  | [] => true
  | (_, first) :: rest => first.fits && entriesFit rest

end

/-- Why a statement cannot be added to what was said before. -/
inductive Conflict
  | duplicateKey (key : Text)
  | notExtensible (key : Text)
  deriving DecidableEq, Repr

/-- The conflict in words. -/
def Conflict.message : Conflict → String
  | duplicateKey key => s!"duplicate key `{String.ofList key}`"
  | notExtensible key => s!"cannot extend `{String.ofList key}`"

namespace Entries

/-- The value of a key. -/
def get? (entries : Entries) (key : Text) : Option Value :=
  entries.lookup key

/-- Gives a key a value, in the place of its old one if it had one. -/
def put (key : Text) (value : Value) : Entries → Entries
  | [] => [(key, value)]
  | (other, old) :: rest =>
    if other = key then (key, value) :: rest else (other, old) :: put key value rest

/-- Changes the table that a path of keys leads to.  Tables that are missing on the way are made,
with the kind `made`; of an array of tables the last one is meant.  A dotted key does not lead
into a table that has a header of its own. -/
def update (made : TableKind) :
    List Text → (TableKind → Entries → Except Conflict Entries) → TableKind → Entries →
      Except Conflict Entries
  | [], change, kind, entries => change kind entries
  | key :: path, change, _, entries =>
    match entries.get? key with
    | none => do
      let inner ← update made path change made []
      return entries.put key (.table made inner)
    | some (.table kind inner) =>
      if kind = .inline || (made = .dotted && kind = .declared) then .error (.notExtensible key)
      else do
        let inner ← update made path change kind inner
        return entries.put key (.table kind inner)
    | some (.array true elements) =>
      match elements.getLast? with
      | some (.table kind inner) => do
        let inner ← update made path change kind inner
        return entries.put key (.array true (elements.dropLast ++ [.table kind inner]))
      | _ => .error (.notExtensible key)
    | some _ => .error (.notExtensible key)

/-- Adds a key that must be new. -/
def add (key : Text) (value : Value) (entries : Entries) : Except Conflict Entries :=
  match entries.get? key with
  | none => .ok (entries ++ [(key, value)])
  | some _ => .error (.duplicateKey key)

/-- Gives the dotted key `path` a value.  The last of several keys may only be added to a table
that dotted keys have made. -/
def assign (path : List Text) (value : Value) (entries : Entries) : Except Conflict Entries :=
  match path.getLast? with
  | none => .ok entries
  | some key =>
    update .dotted path.dropLast (fun kind inner =>
      if 1 < path.length && kind ≠ .dotted then .error (.duplicateKey key)
      else inner.add key value) .declared entries

/-- Declares the table `path`.  A table is declared once, and not after dotted keys made it. -/
def declare (path : List Text) (entries : Entries) : Except Conflict Entries :=
  match path.getLast? with
  | none => .ok entries
  | some key =>
    update .implied path.dropLast (fun _ inner =>
      match inner.get? key with
      | none => .ok (inner ++ [(key, .table .declared [])])
      | some (.table .implied held) => .ok (inner.put key (.table .declared held))
      | some _ => .error (.duplicateKey key)) .declared entries

/-- Declares one more table in the array `path`. -/
def declareElement (path : List Text) (entries : Entries) : Except Conflict Entries :=
  match path.getLast? with
  | none => .ok entries
  | some key =>
    update .implied path.dropLast (fun _ inner =>
      match inner.get? key with
      | none => .ok (inner ++ [(key, .array true [.table .declared []])])
      | some (.array true elements) =>
        .ok (inner.put key (.array true (elements ++ [.table .declared []])))
      | some _ => .error (.duplicateKey key)) .declared entries

/-- Gives the key `path` a value in the table that was declared as `header`. -/
def assignUnder (header path : List Text) (value : Value) (entries : Entries) :
    Except Conflict Entries :=
  update .implied header (fun _ inner => inner.assign path value) .declared entries

end Entries

end Semicolon.Toml
