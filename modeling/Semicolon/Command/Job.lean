import Semicolon.Command.World
import Semicolon.Config
import Semicolon.Progress

/-!
# Jobs

A job is what the process command is asked to do.  Documents are read one after the other,
processed, and written: as text as soon as each is done, as JSON all at the end.  They go to
standard output, to a file that is emptied first, or back to where they came from.

Nothing is written before the configuration is read, the sources are found, and it is sure that
the output is none of them.  A run keeps count of the documents and of their terminators.

## Main definitions

* `Job`
* `Job.settings`: what the configuration and the job ask for together.
* `Job.eachDocument`: one document after the other.
* `Job.run`
-/

namespace Semicolon

/-- What the process command is asked to do. -/
structure Job where
  inputs : List String := []
  output? : Option Path := none
  format? : Option OutputFormat := none
  inPlace : Bool := false
  parallel : Bool := false
  threads? : Option Nat := none
  config? : Option Path := none
  /-- Neither progress nor a log. -/
  quiet : Bool := false
  /-- How much is logged. -/
  verbosity : Nat := 0
  deriving DecidableEq, Repr

namespace Job

/-! ## Settings -/

/-- The settings of the configuration with those of the job over them. -/
def settings (job : Job) (config : Config) : Except ConfigError Settings := do
  let base ← config.settings
  let mode := if job.parallel then Mode.parallel else base.mode
  let threads := if job.threads?.isSome then job.threads? else base.threads
  ({ base with mode, threads } : Settings).check.mapError .settings

/-- The configuration that the job names, or the default one. -/
def config (job : Job) (tree : FileTree) : Except Failure Config :=
  match job.config? with
  | some path => Config.load tree path
  | none => .ok {}

/-- The format that the job names, or else the configuration. -/
def format (job : Job) (config : Config) : Except ConfigError OutputFormat :=
  match job.format? with
  | some format => .ok format
  | none => config.format

/-- A failure of the configuration. -/
def badConfig (error : ConfigError) : Failure := .of (.configuration error)

/-- A failure of the process as a whole. -/
def refusal (error : ProcessError) : Failure := .of (.processing error)

/-! ## Documents -/

/-- The failure to have workers for a source. -/
def unstaffed (source : Source) (reason : String) : Failure :=
  (Failure.of (.threadPool reason)).within s!"Failed to process {source.name}"

/-- Processes the text of a source.  Workers are needed only if its lines are handed out to them. -/
def processed (world : World) (settings : Settings) (source : Source) (text : Text) :
    Except Failure Report :=
  let result := Transformation.ofText settings text
  match result.dispatch, world.poolFailure? source with
  | .parallel, some reason => .error (unstaffed source reason)
  | _, _ => .ok { source := source.name.toList, result, time := world.time source }

/-- Reads and processes a source. -/
def document (settings : Settings) (source : Source) : Run Report := do
  let text ← Run.textOf "Failed to process" source
  Run.ofExcept (processed (← get) settings source text)

/-- The progress of a job before its first source.  It is shown for several sources. -/
def startProgress (job : Job) (sources : List Source) : Progress :=
  ({ shown := !job.quiet && 1 < sources.length } : Progress).step (.start sources.length)

/-- The progress after a document. -/
def advance (progress : Progress) (source : Source) (report : Report) : Progress :=
  progress.step (.file source.name report.result.tally.terminated)

/-- Processes sources one after the other and hands each report on before the next source. -/
def eachDocument (settings : Settings) (handOn : Source → Report → Run Unit) :
    Progress → List Source → Run (List Report × Progress)
  | progress, [] => pure ([], progress)
  | progress, source :: rest => do
    let report ← document settings source
    handOn source report
    let (reports, after) ← eachDocument settings handOn (advance progress source report) rest
    return (report :: reports, after)

/-! ## Output -/

/-- Where the output goes: to a place in the tree, or to standard output. -/
abbrev Sink := Option Location

/-- Adds text to what the sink holds. -/
def emit (sink : Sink) (text : Text) : Run Unit :=
  match sink with
  | none => Run.print text
  | some place => modify fun world =>
    let held := (world.tree.content? place).getD []
    { world with tree := world.tree.put place (held ++ Utf8.encode text) }

/-- What is written for one document.  Reports are kept until the end. -/
def writeDocument (sink : Sink) (format : OutputFormat) (report : Report) : Run Unit :=
  match format with
  | .text => emit sink report.result.text
  | .json => pure ()

/-- What is written after the last document. -/
def writeEnd (layout : Json.Layout) (sink : Sink) (format : OutputFormat) (reports : List Report) :
    Run Unit :=
  match format with
  | .text => pure ()
  | .json => emit sink (Report.writeAll layout reports)

/-- Writes the documents of sources in the given format. -/
def writeDocuments (job : Job) (settings : Settings) (layout : Json.Layout) (sink : Sink)
    (sources : List Source) (format : OutputFormat) : Run Progress := do
  let (reports, progress) ← eachDocument settings (fun _ => writeDocument sink format)
    (job.startProgress sources) sources
  writeEnd layout sink format reports
  return progress.step .finish

/-- The first source that the output path names too, in whatever spelling. -/
def aliasOf? (tree : FileTree) (output : Path) (sources : List Source) : Option Path :=
  match tree.locate output with
  | .error _ => none
  | .ok place =>
    (sources.filterMap Source.path?).find? fun path =>
      match tree.locate path with
      | .ok other => other == place
      | .error _ => false

/-- Refuses an output that is one of the sources. -/
def checkOutput (output : Path) (sources : List Source) : Run Unit := do
  match aliasOf? (← get).tree output sources with
  | some path => Run.fail (refusal (.outputIsInput path))
  | none => pure ()

/-- Refuses an output that is one of the sources, if there is an output. -/
def checkApart (job : Job) (sources : List Source) : Run Unit :=
  match job.output? with
  | some output => checkOutput output sources
  | none => pure ()

/-- Makes or empties the output file. -/
def openOutput (path : Path) : Run Location := do
  let world ← get
  match world.tree.target path with
  | .ok place =>
    set { world with tree := world.tree.put place [] }
    return place
  | .error error =>
    Run.fail ((Failure.of (.file error)).within
      s!"Failed to create output file: {path.display}")

/-- The sink for the output. -/
def openSink (job : Job) : Run Sink :=
  match job.output? with
  | some path => some <$> openOutput path
  | none => pure none

/-- How JSON is laid out. -/
def layout (config : Config) : Json.Layout :=
  if config.prettyJson then .indented else .compact

/-- Processes sources into a sink. -/
def produce (job : Job) (config : Config) (settings : Settings) (sources : List Source) :
    Run Progress := do
  job.checkApart sources
  let format ← Run.ofExcept ((job.format config).mapError badConfig)
  let sink ← job.openSink
  job.writeDocuments settings (layout config) sink sources format

/-! ## In place -/

/-- Writes a document back to its file. -/
def writeBack (source : Source) (report : Report) : Run Unit :=
  match source.path? with
  | some path => Run.writeFile "Failed to write file: " path (Utf8.encode report.result.text)
  | none => pure ()

/-- Processes files in place.  Standard input has no place, and a report would not be a source
text. -/
def runInPlace (job : Job) (settings : Settings) (sources : List Source) : Run Progress :=
  if sources.contains .standardInput then Run.fail (refusal .standardInputInPlace)
  else if job.format? = some .json then Run.fail (refusal .jsonInPlace)
  else do
    let files := sources.filter (·.path?.isSome)
    let (_, progress) ← eachDocument settings writeBack (job.startProgress sources) files
    return progress.step .finish

/-! ## The command -/

/-- Runs the command.  Settings are checked as those of the job, and once more before they are
used. -/
def run (job : Job) : Run Progress := do
  let config ← Run.ofExcept (job.config (← get).tree)
  let merged ← Run.ofExcept ((job.settings config).mapError badConfig)
  let settings ← Run.ofExcept (merged.check.mapError fun error => .of (.settings error))
  let sources ← Run.sources job.inputs
  if job.inPlace then job.runInPlace settings sources
  else job.produce config settings sources

end Job

end Semicolon
