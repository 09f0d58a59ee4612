import Semicolon.Command.Basic
import Semicolon.Command.Options

/-!
# The command line

The first word names the command, or asks for the version.  What follows are the options of the
command.  A command line that is not understood asks for nothing.

## Main definitions

* `Request`: what a command line asks for.
* `Request.parse?`
-/

namespace Semicolon

/-- What a command line asks for. -/
inductive Request
  | version
  | command (asked : Command)
  deriving DecidableEq, Repr

namespace Request

/-! ## Values -/

/-- A path, which must not be empty. -/
def path? (value : String) : Option Path :=
  if value.isEmpty then none else some (.ofString value)

/-- A number of 64 bits: digits, with a plus sign that may be missing. -/
def size? (value : String) : Option Nat :=
  let digits := match value.toList with
    | '+' :: rest => rest
    | rest => rest
  if !digits.isEmpty && digits.all Char.isDigit then
    let number := Text.ofDigits 10 digits
    if number < Nat.pow 2 64 then some number else none
  else none

/-- The value of an option that may be missing but must not be wrong. -/
def optional? {α : Type} (read : String → Option α) : Option String → Option (Option α)
  | none => some none
  | some value => (read value).map some

/-! ## Commands -/

/-- The option for inputs. -/
def inputSpec : OptionSpec :=
  { long := "input", short? := some 'i', takesValue := true, repeatable := true }

/-- The option for an output file. -/
def outputSpec : OptionSpec :=
  { long := "output", short? := some 'o', takesValue := true }

/-- The option for a configuration file. -/
def configSpec : OptionSpec :=
  { long := "config", short? := some 'c', takesValue := true }

/-- The options of the process command. -/
def processSpecs : List OptionSpec :=
  [inputSpec, outputSpec, configSpec,
    { long := "format", short? := some 'f', takesValue := true },
    { long := "in-place", short? := none, takesValue := false },
    { long := "parallel", short? := some 'p', takesValue := false },
    { long := "threads", short? := some 't', takesValue := true },
    { long := "quiet", short? := some 'q', takesValue := false },
    { long := "verbose", short? := some 'v', takesValue := false, repeatable := true }]

/-- The options of the explain command. -/
def explainSpecs : List OptionSpec :=
  [inputSpec, { long := "terminated-only", short? := some 't', takesValue := false }]

/-- The process command.  It writes to a file or in place, but not both. -/
def process? (words : List String) : Option Command := do
  let given ← OptionSpec.parse? processSpecs words
  let output? ← optional? path? (GivenOption.value? given "output")
  let config? ← optional? path? (GivenOption.value? given "config")
  let format? ← optional? OutputFormat.ofName? (GivenOption.value? given "format")
  let threads? ← optional? size? (GivenOption.value? given "threads")
  let inPlace := GivenOption.has given "in-place"
  if inPlace && output?.isSome then none
  else
    some (.process {
      inputs := GivenOption.values given "input"
      output?
      format?
      inPlace
      parallel := GivenOption.has given "parallel"
      threads?
      config?
      quiet := GivenOption.has given "quiet"
      verbosity := GivenOption.count given "verbose" })

/-- The explain command. -/
def explain? (words : List String) : Option Command := do
  let given ← OptionSpec.parse? explainSpecs words
  return .explain (GivenOption.values given "input") (GivenOption.has given "terminated-only")

/-- The command with one option, a path that has to be given. -/
def onePath? (spec : OptionSpec) (command : Path → Command) (words : List String) :
    Option Command := do
  let given ← OptionSpec.parse? [spec] words
  return command (← path? (← GivenOption.value? given spec.long))

/-- The list command, whose listing is a word of its own. -/
def list? : List String → Option Command
  | [] => none
  | name :: rest => do
    let listing ← Listing.ofName? name
    let _ ← OptionSpec.parse? [] rest
    return .list listing

/-! ## Requests -/

/-- Whether a word asks for the version: `--version`, or a word of short options that begins with
`-V`. -/
def isVersion (word : String) : Bool :=
  word == "--version" || ['-', 'V'].isPrefixOf word.toList

/-- What a command line asks for, if it is understood. -/
def parse? : List String → Option Request
  | [] => none
  | word :: rest =>
    if isVersion word then some .version
    else
      let command? :=
        if word = "process" then process? rest
        else if word = "explain" then explain? rest
        else if word = "list" then list? rest
        else if word = "generate-config" then onePath? outputSpec .generateConfig rest
        else if word = "validate" then onePath? configSpec .validate rest
        else none
      command?.map .command

/-- Whether answering the request may need standard input. -/
def readsStandardInput : Request → Bool
  | .version => false
  | .command asked => asked.readsStandardInput

end Request

end Semicolon
