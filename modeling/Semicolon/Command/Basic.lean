import Semicolon.Command.Job
import Semicolon.Command.Listing
import Semicolon.Command.Template
import Semicolon.Explanation

/-!
# Commands

The five commands of the program.  A command works on a world and leaves a world behind, with or
without a failure.

## Main definitions

* `Command`
* `Command.run`
* `Command.outcome`: the world after a command, and whether it failed.
-/

namespace Semicolon

/-- A command. -/
inductive Command
  /-- Terminates the statements of documents. -/
  | process (job : Job)
  /-- Says for each line which rule fired. -/
  | explain (inputs : List String) (terminatedOnly : Bool)
  /-- Lists rules or formats. -/
  | list (listing : Listing)
  /-- Writes a configuration file to begin with. -/
  | generateConfig (output : Path)
  /-- Checks a configuration file. -/
  | validate (config : Path)
  deriving DecidableEq, Repr

namespace Command

/-! ## Explain -/

/-- Explains one source.  With several sources each has a header, and a blank line stands between
them. -/
def explainSource (terminatedOnly headers first : Bool) (source : Source) : Run Unit := do
  let text ← Run.textOf "Failed to read" source
  if headers then
    if !first then Run.printLine ""
    Run.printLine s!"==> {source.name} <=="
  Run.print (Semicolon.explain terminatedOnly text)

/-- Explains sources one after the other. -/
def explainSources (terminatedOnly headers first : Bool) : List Source → Run Unit
  | [] => pure ()
  | source :: rest => do
    explainSource terminatedOnly headers first source
    explainSources terminatedOnly headers false rest

/-! ## Generating a configuration -/

/-- Writes the template and says what to do with it. -/
def runGenerateConfig (output : Path) : Run Unit := do
  Run.printLine "Generating configuration template..."
  Run.printLine s!"  Output file: {output.display}"
  Run.writeFile "Failed to write to " output (Utf8.encode template.toList)
  Run.printLine "✓ Configuration template generated successfully!"
  Run.printLine ""
  Run.printLine "Next steps:"
  Run.printLine "1. Edit the configuration file to tune processing"
  Run.printLine "2. Validate your configuration:"
  Run.printLine s!"   autosemi validate --config {output.display}"
  Run.printLine "3. Use it for processing:"
  Run.printLine s!"   autosemi process -i main.go --config {output.display}"

/-! ## Validating a configuration -/

/-- The configuration in a file and the settings it gives. -/
def check (tree : FileTree) (path : Path) : Except Failure (Config × Settings) := do
  let config ← Config.load tree path
  let settings ← config.settings.mapError Job.badConfig
  return (config, settings)

/-- Says whether a configuration file can be used, and how. -/
def runValidate (path : Path) : Run Unit := do
  Run.printLine s!"Validating configuration: {path.display}"
  match check (← get).tree path with
  | .ok (config, settings) =>
    Run.printLine "✓ Configuration is valid!"
    Run.printLine s!"  Execution mode: {settings.mode.name}"
    Run.printLine s!"  Output format: {config.defaultFormat}"
    let threads := match settings.threads with
      | some count => String.ofList (Nat.toDigits 10 count)
      | none => "auto"
    Run.printLine s!"  Worker threads: {threads}"
  | .error failure =>
    Run.printLine "✗ Configuration is invalid!"
    Run.printLine s!"  Error: {failure.message}"
    Run.fail (.of (.rejected failure.message))

/-! ## Running -/

/-- Runs a command. -/
def run : Command → Run Unit
  | process job => do
    let _ ← job.run
    pure ()
  | explain inputs terminatedOnly => do
    let sources ← Run.sources inputs
    explainSources terminatedOnly (1 < sources.length) true sources
  | list listing => Run.print listing.text
  | generateConfig output => runGenerateConfig output
  | validate config => runValidate config

/-- Whether a command may read standard input. -/
def readsStandardInput : Command → Bool
  | process job => job.inputs.isEmpty || job.inputs.contains Source.standardInputPattern
  | explain inputs _ => inputs.isEmpty || inputs.contains Source.standardInputPattern
  | _ => false

/-- The failure of a command, if it failed, and the world it leaves. -/
def outcome (command : Command) (world : World) : Option Failure × World :=
  match (command.run.run world : Except Failure Unit × World) with
  | (.ok _, after) => (none, after)
  | (.error failure, after) => (some failure, after)

end Command

end Semicolon
