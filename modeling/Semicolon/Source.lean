import Semicolon.Glob.Walk
import Semicolon.Input

/-!
# Sources

The inputs of a command are named by paths, by patterns and by `-` for standard input.  Naming
nothing means standard input.  Files come in ascending order, each once, after standard input.

What the names stand for depends on two questions that a file system answers: whether a path is that
of a regular file, and which paths a pattern matches.

## Main definitions

* `Source`
* `Lookup`: the answers of a file system, and `FileTree.lookup`: those of a tree.
* `Source.resolve`: the sources that a list of names stands for.
-/

namespace Semicolon

/-- How names are looked up in a file system. -/
structure Lookup where
  /-- Whether the path is that of a regular file. -/
  isFile : Path → Bool
  /-- The paths that a pattern matches, if it is one. -/
  matches? : String → Option (List Path)

/-- How names are looked up in a tree. -/
def FileTree.lookup (tree : FileTree) : Lookup where
  isFile := tree.isFile
  matches? pattern := (Glob.parse? pattern.toList).map (·.paths tree)

/-- Where a document comes from. -/
inductive Source
  | standardInput
  | file (path : Path)
  deriving DecidableEq, Repr

namespace Source

/-- The name under which a document is reported. -/
def name : Source → String
  | standardInput => "<stdin>"
  | file path => path.display

/-- The path of a file. -/
def path? : Source → Option Path
  | standardInput => none
  | file path => some path

/-- The input behind a source. -/
def input (stdin : Bytes) : Source → Input
  | standardInput => .stream [stdin] none
  | file path => .file path

/-- The pattern that stands for standard input. -/
def standardInputPattern : String := "-"

/-- The files that one name stands for. -/
def filesNamed (lookup : Lookup) (pattern : String) : Except Cause (List Path) :=
  if pattern = standardInputPattern then .ok []
  else if Glob.isPattern pattern.toList then
    match lookup.matches? pattern with
    | some paths => .ok (paths.filter lookup.isFile)
    | none => .error (.invalidPattern pattern)
  else if lookup.isFile (.ofString pattern) then .ok [.ofString pattern]
  else .error (.fileNotFound pattern)

/-- Keeps the first of neighbouring paths with the same components. -/
def dedup : List Path → List Path
  | first :: second :: rest =>
    if first.same second then dedup (first :: rest) else first :: dedup (second :: rest)
  | paths => paths
termination_by paths => paths.length

/-- The sources that a list of names stands for. -/
def resolve (lookup : Lookup) (patterns : List String) : Except Cause (List Source) :=
  if patterns.isEmpty then .ok [standardInput]
  else do
    let files := (← patterns.mapM (filesNamed lookup)).flatten
    let stdin := patterns.contains standardInputPattern
    if files.isEmpty && !stdin then .error .noFiles
    else
      let sources := (dedup (files.mergeSort Path.le)).map file
      return if stdin then standardInput :: sources else sources

end Source

end Semicolon
