import Semicolon.Text.Basic

/-!
# Settings

How lines are handed to the renderer: in one pass, in chunks, or in chunks only once a document
has enough lines.  No setting changes what is written.

## Main definitions

* `Mode`: the three ways, and `Mode.parse` reads their names in any case.
* `Settings`: mode, number of workers, threshold and chunk size, with `Settings.check`.
* `Dispatch`: what a mode comes down to for a given number of lines.
-/

namespace Semicolon

/-- Why settings are refused. -/
inductive SettingsError
  | unknownMode (name : String)
  | zeroChunkLines
  | zeroThreads
  deriving DecidableEq, Repr

/-- The error in words. -/
def SettingsError.message : SettingsError → String
  | unknownMode name =>
    s!"unknown execution mode '{name}' (expected sequential, parallel or adaptive)"
  | zeroChunkLines => "chunk_lines must be greater than zero"
  | zeroThreads => "threads must be greater than zero"

/-! ## Modes -/

/-- How lines are handed out. -/
inductive Mode
  /-- In one pass. -/
  | sequential
  /-- In chunks. -/
  | parallel
  /-- In chunks once there are enough lines. -/
  | adaptive
  deriving DecidableEq, Repr

namespace Mode

/-- Every mode. -/
def all : List Mode := [sequential, parallel, adaptive]

/-- The name of the mode. -/
def name : Mode → String
  | sequential => "sequential"
  | parallel => "parallel"
  | adaptive => "adaptive"

/-- The mode with exactly this name. -/
def ofName? (name : String) : Option Mode :=
  all.find? (·.name == name)

/-- The mode with this name in any case.  The error quotes the name in lower case. -/
def parse (name : String) : Except SettingsError Mode :=
  match ofName? (Text.lowercase name) with
  | some mode => .ok mode
  | none => .error (.unknownMode (Text.lowercase name))

@[simp] theorem ofName?_name (mode : Mode) : ofName? mode.name = some mode := by
  cases mode <;> decide

end Mode

/-- How the lines of one document were handed out. -/
inductive Dispatch
  | sequential
  | parallel
  deriving DecidableEq, Repr

/-- The name of the dispatch, which is that of the mode that always leads to it. -/
def Dispatch.name : Dispatch → String
  | sequential => Mode.sequential.name
  | parallel => Mode.parallel.name

/-! ## Settings -/

/-- How documents are processed. -/
structure Settings where
  mode : Mode := .adaptive
  /-- The number of workers; `none` is one for each processor. -/
  threads : Option Nat := none
  /-- The number of lines from which the adaptive mode works in chunks. -/
  parallelThreshold : Nat := 10000
  /-- The number of lines in a chunk. -/
  chunkLines : Nat := 4096
  deriving DecidableEq, Repr

namespace Settings

/-- One pass and one worker. -/
def sequential : Settings := { mode := .sequential, threads := some 1 }

/-- Always in chunks. -/
def parallel : Settings := { mode := .parallel }

/-- What is wrong with the settings: the chunk size is looked at before the workers. -/
def error? (settings : Settings) : Option SettingsError :=
  if settings.chunkLines = 0 then some .zeroChunkLines
  else if settings.threads = some 0 then some .zeroThreads
  else none

/-- The settings, if nothing is wrong with them. -/
def check (settings : Settings) : Except SettingsError Settings :=
  match settings.error? with
  | some error => .error error
  | none => .ok settings

/-- How a document of `count` lines is handed out. -/
def dispatch (settings : Settings) (count : Nat) : Dispatch :=
  match settings.mode with
  | .sequential => .sequential
  | .parallel => .parallel
  | .adaptive => if settings.parallelThreshold ≤ count then .parallel else .sequential

/-- One setting to change. -/
inductive Change
  | mode (mode : Mode)
  | threads (count : Option Nat)
  | parallelThreshold (lines : Nat)
  | chunkLines (lines : Nat)
  deriving DecidableEq, Repr

/-- The settings with one of them changed. -/
def change (settings : Settings) : Change → Settings
  | .mode mode => { settings with mode }
  | .threads count => { settings with threads := count }
  | .parallelThreshold lines => { settings with parallelThreshold := lines }
  | .chunkLines lines => { settings with chunkLines := lines }

/-- The settings at the start and after each of the changes, checked each time. -/
def history (settings : Settings) : List Change → List (Except SettingsError Settings)
  | [] => [settings.check]
  | change :: rest => settings.check :: history (settings.change change) rest

end Settings

end Semicolon
