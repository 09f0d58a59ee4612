import Semicolon.Files.Tree
import Semicolon.Settings
import Semicolon.Text.Quoted
import Semicolon.Text.Utf8

/-!
# Failures

A failure has a cause and, from the outside in, the contexts in which it happened.  Causes fall
into categories, and the text of a cause begins with the heading of its category.

## Main definitions

* `Category`: what kind of thing went wrong.
* `InputError`, `ConfigError`, `ProcessError`: the causes of their parts of the program.
* `Cause`: any of them.
* `Failure`: a cause in its contexts.
-/

namespace Semicolon

/-- What kind of thing went wrong. -/
inductive Category
  | io
  | encoding
  | settings
  | threadPool
  | fileNotFound
  | invalidPattern
  | configuration
  | processing
  deriving DecidableEq, Repr

/-- The words before the details. -/
def Category.heading : Category → String
  | io => "I/O error: "
  | encoding => "encoding error: "
  | settings => "invalid configuration: "
  | threadPool => "thread pool error: "
  | fileNotFound => "File not found: "
  | invalidPattern => "Invalid file pattern: "
  | configuration => "Configuration error: "
  | processing => "Processing error: "

/-- A failure of this category with these details. -/
def Category.describe (category : Category) (details : String) : String :=
  category.heading ++ details

/-! ## Causes -/

/-- Where bytes came from. -/
inductive Origin
  | memory
  | file (path : Path)
  | stream
  deriving DecidableEq, Repr

/-- Why an input gives no text. -/
inductive InputError
  | unreadableFile (path : Path) (error : FileError)
  | brokenStream (reason : String)
  | notUtf8 (origin : Origin) (defect : Utf8.Defect)
  deriving DecidableEq, Repr

namespace InputError

/-- The category of the error. -/
def category : InputError → Category
  | unreadableFile _ _ => .io
  | brokenStream _ => .io
  | notUtf8 _ _ => .encoding

/-- A path between quotes. -/
def quoted (path : Path) : String :=
  String.ofList (Text.quote path.spelling)

/-- The error in words. -/
def details : InputError → String
  | unreadableFile path error => s!"Failed to read file {quoted path}: {error.message}"
  | brokenStream reason => s!"Failed to read from stream: {reason}"
  | notUtf8 .memory defect => s!"Invalid UTF-8: {defect.message}"
  | notUtf8 (.file path) defect => s!"Invalid UTF-8 in {quoted path}: {defect.message}"
  | notUtf8 .stream defect => s!"Invalid UTF-8 from stream: {defect.message}"

end InputError

/-- Why a configuration is refused. -/
inductive ConfigError
  /-- The text is no TOML, or a value has the wrong type. -/
  | malformed (line column : Nat) (reason : String)
  /-- A dotted key has too many parts. -/
  | longKey
  | settings (error : SettingsError)
  | unknownFormat (name : String)
  deriving DecidableEq, Repr

/-- The error in words. -/
def ConfigError.details : ConfigError → String
  | malformed line column reason =>
    s!"TOML parse error at line {line}, column {column}: {reason}"
  | longKey => "recursion limit\n"
  | settings error => Category.settings.describe error.message
  | unknownFormat name => s!"unknown output format '{name}' (expected text or json)"

/-- Why inputs are not processed although they were found. -/
inductive ProcessError
  | standardInputInPlace
  | jsonInPlace
  | outputIsInput (path : Path)
  deriving DecidableEq, Repr

/-- The error in words. -/
def ProcessError.details : ProcessError → String
  | standardInputInPlace => "--in-place requires file inputs, not stdin"
  | jsonInPlace => "--in-place only writes text output"
  | outputIsInput path =>
    s!"output file {path.display} is also an input; use --in-place to rewrite it"

/-- What went wrong. -/
inductive Cause
  | input (error : InputError)
  | settings (error : SettingsError)
  /-- No workers can be had. -/
  | threadPool (reason : String)
  | fileNotFound (pattern : String)
  | invalidPattern (pattern : String)
  | configuration (error : ConfigError)
  | processing (error : ProcessError)
  | noFiles
  | file (error : FileError)
  /-- A configuration file is no text. -/
  | configNotText
  /-- A configuration was found wanting; the text is that of the whole failure. -/
  | rejected (failure : String)
  deriving DecidableEq, Repr

namespace Cause

/-- The category of the cause, if it has one. -/
def category? : Cause → Option Category
  | input error => some error.category
  | settings _ => some .settings
  | threadPool _ => some .threadPool
  | fileNotFound _ => some .fileNotFound
  | invalidPattern _ => some .invalidPattern
  | configuration _ => some .configuration
  | processing _ => some .processing
  | noFiles => none
  | file _ => none
  | configNotText => none
  | rejected _ => none

/-- The cause in words, without the heading of its category. -/
def details : Cause → String
  | input error => error.details
  | settings error => error.message
  | threadPool reason => reason
  | fileNotFound pattern => pattern
  | invalidPattern pattern => pattern
  | configuration error => error.details
  | processing error => error.details
  | noFiles => "No files found matching the provided patterns"
  | file error => error.message
  | configNotText => "stream did not contain valid UTF-8"
  | rejected failure => s!"Validation failed: {failure}"

/-- The cause in words. -/
def message (cause : Cause) : String :=
  match cause.category? with
  | some category => category.describe cause.details
  | none => cause.details

end Cause

/-! ## Failures -/

/-- A cause and the contexts around it, the outermost first. -/
structure Failure where
  contexts : List String := []
  cause : Cause
  deriving DecidableEq, Repr

namespace Failure

/-- A cause without contexts. -/
def of (cause : Cause) : Failure := { cause }

/-- The failure with one more context around it. -/
def within (failure : Failure) (context : String) : Failure :=
  { failure with contexts := context :: failure.contexts }

/-- The contexts and the cause in words. -/
def message (failure : Failure) : String :=
  String.intercalate ": " (failure.contexts ++ [failure.cause.message])

end Failure

end Semicolon
