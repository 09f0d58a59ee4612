import Semicolon.Files.Tree
import Semicolon.Glob.Pattern

/-!
# Paths matched by a pattern

A pattern is cut at its separators, and its pieces are walked through the tree one after the
other.  A piece without wildcards is followed without looking at the names around it; any other
is compared with the names in the folder.

A pattern that starts at `.` gives names without a leading `./`.

## Main definitions

* `Glob.parse?`
* `Glob.paths`
-/

namespace Semicolon

namespace Glob

/-- A component of a pattern. -/
inductive Piece
  /-- A name without wildcards. -/
  | literal (name : Text)
  /-- A pattern for one name. -/
  | wild (tokens : List Token)
  /-- `**` -/
  | anyDepth
  deriving DecidableEq, Repr

/-- The character a token stands for, if it is only one. -/
def Token.char? : Token → Option Char
  | .char c => some c
  | _ => none

/-- The piece that the tokens of a component make. -/
def Piece.ofTokens (tokens : List Token) : Piece :=
  match tokens.mapM Token.char? with
  | some name => .literal name
  | none => if tokens = [.anyDepth] then .anyDepth else .wild tokens

/-- Whether the piece accepts a name. -/
def Piece.accepts : Piece → Text → Bool
  | .literal expected, name => name == expected
  | .wild tokens, name => Glob.accepts tokens name
  | .anyDepth, _ => false

/-- Neighbouring `**` stand for the same as one. -/
def collapse : List Piece → List Piece
  | .anyDepth :: .anyDepth :: rest => collapse (.anyDepth :: rest)
  | piece :: rest => piece :: collapse rest
  | [] => []

/-- The pieces between separators; a separator at the end begins no further piece. -/
def split (pattern : Text) : List Text :=
  let pieces := pattern.splitOn '/'
  if pieces.getLast? == some [] then pieces.dropLast else pieces

end Glob

/-- A pattern that is ready to be walked. -/
structure Glob where
  /-- Where the walk begins. -/
  start : Path
  pieces : List Glob.Piece
  /-- A pattern that ends with a separator names folders. -/
  foldersOnly : Bool
  deriving DecidableEq, Repr

namespace Glob

/-- The path of the working directory. -/
def here : Path := ⟨['.']⟩

/-- The root of the file system. -/
def root : Path := ⟨['/']⟩

/-- Reads a pattern, if it is one as a whole and in each of its components.  The walk begins at
the root for an absolute pattern, and at the working directory for any other. -/
def parse? (pattern : Text) : Option Glob := do
  let _ ← tokens? pattern
  let absolute := (Path.mk pattern).isAbsolute
  let components ← (split (if absolute then pattern.drop 1 else pattern)).mapM tokens?
  return {
    start := if absolute then root else here
    pieces := collapse (components.map Piece.ofTokens)
    foldersOnly := (Path.mk pattern).endsWithSeparator }

/-! ## Walking -/

/-- The path of `name` seen from `path`.  From the working directory it is the bare name. -/
def follow (path : Path) (name : Text) : Path :=
  if path.same here then ⟨name⟩ else path.join name

/-- The paths of all names in the folder that `path` names. -/
def children (tree : FileTree) (path : Path) : List (Text × Path) :=
  match tree.locate path with
  | .ok place =>
    if tree.isFolder place then (tree.names place).map fun name => (name, follow path name)
    else []
  | .error _ => []

/-- The paths of everything below `path`, at most `levels` deep. -/
def descendants (tree : FileTree) : Nat → Path → List (Text × Path)
  | 0, _ => []
  | levels + 1, path =>
    (children tree path).flatMap fun child => child :: descendants tree levels child.2

/-- The entries `..` and `.` of a folder, which come before its names.  They are matched only by a
pattern that begins with a dot. -/
def dotEntries (tokens : List Token) (path : Path) : List Path :=
  if tokens.head? = some (.char '.') then
    ([['.', '.'], ['.']].filter (Glob.accepts tokens)).map path.join
  else []

/-- The paths that the pieces lead to from `path`. -/
def walk (tree : FileTree) : List Piece → Path → List Path
  | [], path => [path]
  | .literal name :: rest, path =>
    let next := follow path name
    let reached :=
      if name = ['.'] || name = ['.', '.'] then tree.isFolderAt path else tree.existsAt next
    if reached then walk tree rest next else []
  | .wild tokens :: rest, path =>
    if tree.isFolderAt path then
      let named := (children tree path).filter fun child => Glob.accepts tokens child.1
      (dotEntries tokens path ++ named.map (·.2)).flatMap (walk tree rest)
    else []
  | [.anyDepth], path =>
    ((descendants tree (tree.depth + 1) path).map (·.2)).filter tree.isFolderAt
  | .anyDepth :: next :: rest, path =>
    ((descendants tree (tree.depth + 1) path).filter fun child => next.accepts child.1).flatMap
      fun child => walk tree rest child.2

/-- The paths that a pattern matches. -/
def paths (tree : FileTree) (glob : Glob) : List Path :=
  (walk tree glob.pieces glob.start).filter fun path =>
    !glob.foldersOnly || tree.isFolderAt path

end Glob

end Semicolon
