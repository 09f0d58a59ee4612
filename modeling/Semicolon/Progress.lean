/-!
# Progress

A run over several files keeps count of the files it has finished and of the terminators it has
inserted.
-/

namespace Semicolon

/-- How far a run has come. -/
structure Progress where
  /-- Whether progress is shown. -/
  shown : Bool
  /-- The number of files, once it is known and shown. -/
  files? : Option Nat := none
  /-- The number of files that were finished while progress was shown. -/
  finished : Nat := 0
  /-- The number of terminators inserted so far. -/
  terminated : Nat := 0
  deriving DecidableEq, Repr

namespace Progress

/-- Something that happens in a run. -/
inductive Step
  /-- The number of files becomes known. -/
  | start (files : Nat)
  /-- A file is finished. -/
  | file (name : String) (terminated : Nat)
  /-- The run ends. -/
  | finish
  deriving DecidableEq, Repr

/-- The progress after a step.  Terminators are counted whether or not progress is shown. -/
def step (progress : Progress) : Step → Progress
  | .start files => if progress.shown then { progress with files? := some files } else progress
  | .file _ terminated =>
    { progress with
      finished := if progress.files?.isSome then progress.finished + 1 else progress.finished
      terminated := progress.terminated + terminated }
  | .finish => progress

/-- The progress after each of the steps. -/
def history (progress : Progress) : List Step → List Progress
  | [] => []
  | step :: rest => progress.step step :: history (progress.step step) rest

end Progress

end Semicolon
