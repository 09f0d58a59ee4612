import Semicolon.Text.Basic

/-!
# Paths

A path is kept as it was written.  Its components are what it is compared by: repeated and
trailing separators do not count, nor does a `.` after the first component, while a leading `.`
and every `..` do.

## Main definitions

* `Path.components`
* `Path.le`: the order of paths, component by component.
* `Path.same`: equality up to the spelling of separators and inner dots.
* `Path.pieces`: the names a path is walked by.
-/

namespace Semicolon

/-- A path, as it was written. -/
structure Path where
  spelling : Text
  deriving DecidableEq, Repr

namespace Path

/-- The path written as the given string. -/
def ofString (spelling : String) : Path := ⟨spelling.toList⟩

/-- The path as it was written. -/
def display (path : Path) : String := String.ofList path.spelling

/-- Whether the path starts at the root of the file system. -/
def isAbsolute (path : Path) : Bool :=
  path.spelling.head? == some '/'

/-- Whether the path ends with a separator. -/
def endsWithSeparator (path : Path) : Bool :=
  path.spelling.getLast? == some '/'

/-- The parts between separators, without the empty ones. -/
def pieces (path : Path) : List Text :=
  (path.spelling.splitOn '/').filter (!·.isEmpty)

/-- `path` followed by `name`, with a separator between them unless there is one.  An absolute
name stands for itself. -/
def join (path : Path) (name : Text) : Path :=
  if name.head? == some '/' then ⟨name⟩
  else if path.spelling.isEmpty || path.endsWithSeparator then ⟨path.spelling ++ name⟩
  else ⟨path.spelling ++ '/' :: name⟩

/-! ## Components -/

/-- A component of a path. -/
inductive Component
  /-- The root of the file system. -/
  | root
  /-- A leading `.`. -/
  | here
  /-- A `..`. -/
  | up
  /-- A name. -/
  | name (name : Text)
  deriving DecidableEq, Repr

/-- The component a piece stands for. -/
def Component.ofPiece (piece : Text) : Component :=
  if piece = ['.'] then .here
  else if piece = ['.', '.'] then .up
  else .name piece

/-- The components of a path. -/
def components (path : Path) : List Component :=
  let inner := fun pieces : List Text =>
    (pieces.map Component.ofPiece).filter (· != .here)
  if path.isAbsolute then .root :: inner path.pieces
  else
    match path.pieces with
    | [] => []
    | first :: rest => Component.ofPiece first :: inner rest

/-- A list of numbers by which components are compared: the root first, then `.`, then `..`,
then names by their characters. -/
def Component.key : Component → List Nat
  | root => [0]
  | here => [1]
  | up => [2]
  | name text => 3 :: text.map Char.toNat

/-- A list by which paths are compared. -/
def key (path : Path) : List (List Nat) :=
  path.components.map Component.key

/-- The order of paths: component by component. -/
def le (path other : Path) : Bool :=
  Text.lexLe (Text.lexLe fun a b => decide (a ≤ b)) path.key other.key

/-- Whether two paths have the same components. -/
def same (path other : Path) : Bool :=
  path.components == other.components

end Path

end Semicolon
