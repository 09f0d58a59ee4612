import Semicolon.Command.Arguments

/-!
# The program

A command line and a world give an exit status, what is written to standard error, and the world
that is left.  The status is zero if all went well, one if the command failed, and two if the
command line was not understood.
-/

namespace Semicolon

/-- How the program ends. -/
structure Exit where
  status : Nat
  /-- What is said on standard error. -/
  complaint? : Option String
  world : World

namespace Program

/-- The name and the version of the program. -/
def version : String := "autosemi 0.1.0\n"

/-- What is said about a command line that is not understood. -/
def usage : String :=
  "error: invalid arguments\n\nUsage: autosemi <process|explain|list|generate-config|validate> " ++
    "[OPTIONS]"

/-- Runs the program. -/
def run (args : List String) (world : World) : Exit :=
  match Request.parse? args with
  | none => ⟨2, some usage, world⟩
  | some .version => ⟨0, none, { world with stdout := world.stdout ++ version.toList }⟩
  | some (.command command) =>
    match command.outcome world with
    | (none, after) => ⟨0, none, after⟩
    | (some failure, after) => ⟨1, some s!"Error: {failure.message}", after⟩

end Program

end Semicolon
