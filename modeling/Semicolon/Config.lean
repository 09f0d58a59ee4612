import Semicolon.Error
import Semicolon.Toml.Document

/-!
# Configuration

A configuration has three sections, `processing`, `output` and `performance`.  Sections and keys
that are missing have default values, and those that are not known are passed over.  Values are
kept as they were written; `Config.error?` says what is wrong with them.

## Main definitions

* `Config`
* `Config.ofToml`: the configuration that a table describes.
* `Config.TableReader`: how texts become tables, and `Config.toml`: how TOML documents do.
* `Config.parse`: the configuration in a text, if nothing is wrong with it.
* `Config.settings`: the settings for processing.
-/

namespace Semicolon

/-! ## Output formats -/

/-- How processed documents are written. -/
inductive OutputFormat
  /-- The transformed text. -/
  | text
  /-- A report of each document. -/
  | json
  deriving DecidableEq, Repr

namespace OutputFormat

/-- Every format. -/
def all : List OutputFormat := [text, json]

/-- The name of the format. -/
def name : OutputFormat → String
  | text => "text"
  | json => "json"

/-- What the format holds, in a few words. -/
def description : OutputFormat → String
  | text => "Transformed source text"
  | json => "JSON array of documents with statistics"

/-- The format with exactly this name. -/
def ofName? (name : String) : Option OutputFormat :=
  all.find? (·.name == name)

end OutputFormat

/-! ## Configurations -/

/-- The values of a configuration file. -/
structure Config where
  executionMode : String := "adaptive"
  defaultFormat : String := "text"
  prettyJson : Bool := true
  parallelThresholdLines : Nat := 10000
  chunkLines : Nat := 4096
  /-- The number of workers; zero is one for each processor. -/
  workerThreads : Nat := 0
  deriving DecidableEq, Repr

namespace Config

/-- The mode that is named, in any case. -/
def mode (config : Config) : Except ConfigError Mode :=
  (Mode.parse config.executionMode).mapError .settings

/-- The format that is named, in any case. -/
def format (config : Config) : Except ConfigError OutputFormat :=
  match OutputFormat.ofName? (Text.lowercase config.defaultFormat) with
  | some format => .ok format
  | none => .error (.unknownFormat config.defaultFormat)

/-- The number of workers, if one is given. -/
def threads? (config : Config) : Option Nat :=
  if config.workerThreads = 0 then none else some config.workerThreads

/-- The settings for processing, if nothing is wrong with them. -/
def settings (config : Config) : Except ConfigError Settings := do
  let mode ← config.mode
  let settings : Settings :=
    { mode
      threads := config.threads?
      parallelThreshold := config.parallelThresholdLines
      chunkLines := config.chunkLines }
  settings.check.mapError .settings

/-- What is wrong with a configuration: the mode is looked at first, then the format, then the
settings as a whole. -/
def error? (config : Config) : Option ConfigError :=
  match (do let _ ← config.mode; let _ ← config.format; let _ ← config.settings :
      Except ConfigError Unit) with
  | .ok _ => none
  | .error error => some error

/-! ## Reading -/

/-- A value that does not have the type of its key. -/
structure Mismatch where
  path : List Text
  expected : String
  deriving DecidableEq, Repr

/-- The values of a section, by key or by position. -/
inductive Section
  | keyed (entries : Toml.Entries)
  | positional (elements : List Toml.Value)

/-- The section that a value describes.  An array gives the values in order, and a date none. -/
def Section.ofValue? : Option Toml.Value → Option Section
  | none => some (.keyed [])
  | some (.table _ entries) => some (.keyed entries)
  | some (.array _ elements) => some (.positional elements)
  | some (.datetime _) => some (.keyed [])
  | some _ => none

/-- The value of the key that comes at `index` in its section. -/
def Section.get? (index : Nat) (key : String) : Section → Option Toml.Value
  | .keyed entries => entries.get? key.toList
  | .positional elements => elements[index]?

/-- The text of a string. -/
def asString : Toml.Value → Option String
  | .string text => some (String.ofList text)
  | _ => none

/-- A truth value. -/
def asBoolean : Toml.Value → Option Bool
  | .boolean value => some value
  | _ => none

/-- An integer from zero to the largest of 64 bits. -/
def asSize : Toml.Value → Option Nat
  | .integer value => if 0 ≤ value && value < ↑(Nat.pow 2 64) then some value.toNat else none
  | _ => none

/-- The value of a field, or its default if it is missing. -/
def field {α : Type} (group : String) (fields : Section) (index : Nat) (key : String)
    (expected : String) (read : Toml.Value → Option α) (default : α) : Except Mismatch α :=
  match fields.get? index key with
  | none => .ok default
  | some value =>
    match read value with
    | some a => .ok a
    | none => .error ⟨[group.toList, key.toList], expected⟩

/-- A section of a table. -/
def sectionOf (entries : Toml.Entries) (group : String) : Except Mismatch Section :=
  match Section.ofValue? (entries.get? group.toList) with
  | some fields => .ok fields
  | none => .error ⟨[group.toList], "a table"⟩

/-- The configuration that a table describes. -/
def ofToml (entries : Toml.Entries) : Except Mismatch Config := do
  let standard : Config := {}
  let processing ← sectionOf entries "processing"
  let output ← sectionOf entries "output"
  let performance ← sectionOf entries "performance"
  let size := fun index key (default : Nat) =>
    field "performance" performance index key "an integer that is not negative" asSize default
  return {
    executionMode := ← field "processing" processing 0 "execution_mode" "a string" asString
      standard.executionMode
    defaultFormat := ← field "output" output 0 "default_format" "a string" asString
      standard.defaultFormat
    prettyJson := ← field "output" output 1 "pretty_json" "a boolean" asBoolean
      standard.prettyJson
    parallelThresholdLines := ← size 0 "parallel_threshold_lines"
      standard.parallelThresholdLines
    chunkLines := ← size 1 "chunk_lines" standard.chunkLines
    workerThreads := ← size 2 "worker_threads" standard.workerThreads }

/-- The names of the sections. -/
def sections : List String := ["processing", "output", "performance"]

/-- Whether every number that is looked at can be read and held by a machine.  A section that is
an array is looked at only as far as it has keys, and the values there have types of their own. -/
def numbersFit (entries : Toml.Entries) : Bool :=
  entries.all fun (key, value) =>
    match value with
    | .array _ elements => sections.any (·.toList == key) || Toml.elementsFit elements
    | other => other.fits

/-- The error at the place where `rest` is left of the text. -/
def malformedAt (text rest : Text) (reason : String) : ConfigError :=
  let (line, column) := Toml.position text rest
  .malformed line column reason

/-- The error because of which a text is refused. -/
def refused (text : Text) : Toml.Refusal → ConfigError
  | .malformed rest reason => malformedAt text rest reason
  | .longKey => .longKey

/-- How texts are read as tables. -/
structure TableReader where
  /-- The table that a text describes. -/
  table : Text → Except ConfigError Toml.Entries
  /-- The error because of a value of the wrong type in a text that has a table. -/
  mismatched : Text → Mismatch → ConfigError

/-- Texts are read as TOML documents. -/
def toml : TableReader where
  table text := do
    let entries ← (Toml.parse text).mapError (refused text)
    if numbersFit entries then .ok entries
    else .error (malformedAt text text "a number cannot be used")
  mismatched text mismatch :=
    let place := match Toml.statements text with
      | .ok statements => Toml.place mismatch.path [] text statements
      | .error _ => text
    malformedAt text place s!"expected {mismatch.expected}"

/-- The configuration in a text, whether or not its values make sense. -/
def read (reader : TableReader) (text : Text) : Except ConfigError Config := do
  let entries ← reader.table text
  (ofToml entries).mapError (reader.mismatched text)

/-- The configuration in a text, if nothing is wrong with it. -/
def parseBy (reader : TableReader) (text : Text) : Except ConfigError Config := do
  let config ← read reader text
  match config.error? with
  | some error => .error error
  | none => .ok config

/-- The configuration in a TOML document, if nothing is wrong with it. -/
def parse : Text → Except ConfigError Config := parseBy toml

/-- The configuration in a file. -/
def load (tree : FileTree) (path : Path) : Except Failure Config :=
  let unreadable := fun cause : Cause =>
    (Failure.of cause).within s!"Failed to read config file: {path.display}"
  match tree.read path with
  | .error error => .error (unreadable (.file error))
  | .ok bytes =>
    match Utf8.decode bytes with
    | .error _ => .error (unreadable .configNotText)
    | .ok text =>
      (parse text).mapError fun error =>
        (Failure.of (.configuration error)).within s!"Invalid config file: {path.display}"

end Config

end Semicolon
