import Semicolon.Report
import Semicolon.Source

/-!
# What a command works on

A command reads and writes files, reads standard input and writes to standard output.  It may
fail, and then what was written before stays written.

Two things that a command meets with are neither in files nor in its arguments: how long it takes
to process a document, and whether workers can be had for it.  Both are answers that the world has
for every source, and a command cannot change them.
-/

namespace Semicolon

/-- Everything a command can see and change. -/
structure World where
  tree : FileTree
  stdin : Bytes := []
  /-- What was written to standard output. -/
  stdout : Text := []
  /-- The time that the document of a source takes. -/
  time : Source → Json.Value := fun _ => Report.milliseconds 0
  /-- Why no workers can be had for the document of a source, if so. -/
  poolFailure? : Source → Option String := fun _ => none

/-- A computation that works on the world and may fail. -/
abbrev Run := ExceptT Failure (StateM World)

namespace Run

/-- Stops with a failure. -/
def fail {α : Type} (failure : Failure) : Run α := throw failure

/-- The result, or a failure. -/
def ofExcept {α : Type} : Except Failure α → Run α
  | .ok a => pure a
  | .error failure => fail failure

/-- Writes to standard output. -/
def print (text : Text) : Run Unit :=
  modify fun world => { world with stdout := world.stdout ++ text }

/-- Writes a line to standard output. -/
def printLine (line : String) : Run Unit :=
  print (line.toList ++ ['\n'])

/-- The sources that a list of names stands for. -/
def sources (patterns : List String) : Run (List Source) := do
  let world ← get
  ofExcept ((Source.resolve world.tree.lookup patterns).mapError .of)

/-- The text of a source.  The context of a failure names the source. -/
def textOf (context : String) (source : Source) : Run Text := do
  let world ← get
  ofExcept (((source.input world.stdin).read world.tree).mapError fun error =>
    (Failure.of (.input error)).within s!"{context} {source.name}")

/-- Writes a file. -/
def writeFile (context : String) (path : Path) (content : Bytes) : Run Unit := do
  let world ← get
  match world.tree.write path content with
  | .ok tree => set { world with tree }
  | .error error => fail ((Failure.of (.file error)).within s!"{context}{path.display}")

end Run

end Semicolon
