import Semicolon.Proofs.Failing

/-!
# Validating a configuration and working with it

A configuration is judged when it is read: a file whose mode, format or settings cannot be used is
refused there and then.  The command that validates a file and the jobs that name it read it in the
same way, so they refuse the same files, for the same reason, whatever else a job asks for.  Once a
file is accepted, the flags of a job can only choose another mode and another number of workers, and
all that can still be wrong with the settings is a number of workers that is zero.

## Main definitions

* `Job.Configured`: everything that a job takes from its configuration can be had.
* `Job.perform`: what is left to do then.

## Main statements

* `Config.error?_of_load`: a configuration that was read has no error.
* `Config.settings_eq_ok_iff`, `Job.settings_eq_ok_iff`: the settings, field by field.
* `Job.Configured.exec_run`: what a job does whose configuration was accepted.
* `Job.failsOnly_perform`: no later failure is one of the configuration.
-/

namespace Semicolon

open Run

/-! ## Configurations that can be used -/

namespace Config

variable {config : Config}

theorem error?_eq_none_iff :
    config.error? = none ↔
      (∃ mode, config.mode = .ok mode) ∧ (∃ format, config.format = .ok format) ∧
        ∃ settings, config.settings = .ok settings := by
  unfold error?
  cases config.mode with
  | error error => simp [bind, Except.bind]
  | ok mode =>
    cases config.format with
    | error error => simp [bind, Except.bind]
    | ok format => cases config.settings <;> simp [bind, Except.bind, pure, Except.pure]

/-- A text gives the configuration that is read from it, if nothing is wrong with that. -/
theorem parseBy_eq_ok_iff {reader : TableReader} {text : Text} :
    parseBy reader text = .ok config ↔ read reader text = .ok config ∧ config.error? = none := by
  rw [parseBy, bind_eq_ok_iff]
  constructor
  · rintro ⟨found, hread, hjudged⟩
    cases herror : found.error? with
    | some error => simp [herror] at hjudged
    | none =>
      obtain rfl : found = config := by simpa [herror] using hjudged
      exact ⟨hread, herror⟩
  · rintro ⟨hread, herror⟩
    exact ⟨config, hread, by simp [herror]⟩

/-- **A configuration that was read has no error.** -/
theorem error?_of_load {tree : FileTree} {path : Path} (h : load tree path = .ok config) :
    config.error? = none := by
  have hparse : ∃ text, parse text = .ok config := by
    unfold load at h
    split at h
    · simp at h
    · split at h
      · simp at h
      · next text _ => exact ⟨text, mapError_eq_ok_iff.1 h⟩
  obtain ⟨text, hparse⟩ := hparse
  exact (parseBy_eq_ok_iff.1 hparse).2

theorem threads?_ne_some_zero : config.threads? ≠ some 0 := by
  unfold threads?
  split
  · simp
  · next hzero => simpa using hzero

/-- The settings have the mode that is named and the numbers that are given. -/
theorem settings_eq_ok_iff {settings : Settings} :
    config.settings = .ok settings ↔
      ∃ mode, config.mode = .ok mode ∧ config.chunkLines ≠ 0 ∧
        settings = ⟨mode, config.threads?, config.parallelThresholdLines, config.chunkLines⟩ := by
  rw [Config.settings, bind_eq_ok_iff]
  simp only [mapError_eq_ok_iff, Settings.check_eq_ok_iff]
  constructor
  · rintro ⟨mode, hmode, heq, hchunk, -⟩
    exact ⟨mode, hmode, hchunk, heq⟩
  · rintro ⟨mode, hmode, hchunk, heq⟩
    exact ⟨mode, hmode, heq, hchunk, threads?_ne_some_zero⟩

end Config

/-! ## The settings of a job -/

namespace Job

variable {job : Job} {world : World} {config : Config} {settings : Settings}
  {format : OutputFormat}

/-- The settings of a job are those of the configuration, but for the mode and the workers that the
job asks for. -/
theorem settings_eq_ok_iff :
    job.settings config = .ok settings ↔
      ∃ mode, config.mode = .ok mode ∧ config.chunkLines ≠ 0 ∧
        job.threads?.or config.threads? ≠ some 0 ∧
        settings = ⟨if job.parallel then .parallel else mode, job.threads?.or config.threads?,
          config.parallelThresholdLines, config.chunkLines⟩ := by
  have hthreads : (if job.threads?.isSome then job.threads? else config.threads?) =
      job.threads?.or config.threads? := by
    cases job.threads? <;> simp
  rw [Job.settings, bind_eq_ok_iff]
  simp only [Config.settings_eq_ok_iff, mapError_eq_ok_iff, Settings.check_eq_ok_iff]
  constructor
  · rintro ⟨base, ⟨mode, hmode, hchunk, rfl⟩, heq, -, hzero⟩
    rw [hthreads] at heq hzero
    exact ⟨mode, hmode, hchunk, hzero, heq⟩
  · rintro ⟨mode, hmode, hchunk, hzero, heq⟩
    refine ⟨_, ⟨mode, hmode, hchunk, rfl⟩, ?_⟩
    rw [hthreads]
    exact ⟨heq, hchunk, hzero⟩

/-- All that a job takes from its configuration can be had: the configuration, the settings, which
pass the check that is made before they are used, and the format that is written by default. -/
structure Configured (job : Job) (tree : FileTree) (config : Config) (settings : Settings)
    (format : OutputFormat) : Prop where
  config_eq : job.config tree = .ok config
  settings_eq : job.settings config = .ok settings
  check_eq : settings.check = .ok settings
  format_eq : config.format = .ok format

/-- **Every configuration that can be read can be worked with**, unless the job itself asks for no
workers. -/
theorem exists_configured (hthreads : job.threads? ≠ some 0)
    (h : job.config world.tree = .ok config) (herror : config.error? = none) :
    ∃ settings format, job.Configured world.tree config settings format := by
  obtain ⟨-, ⟨format, hformat⟩, ⟨base, hbase⟩⟩ := Config.error?_eq_none_iff.1 herror
  obtain ⟨mode, hmode, hchunk, -⟩ := Config.settings_eq_ok_iff.1 hbase
  have hzero : job.threads?.or config.threads? ≠ some 0 := by
    cases hgiven : job.threads? with
    | none => simpa using Config.threads?_ne_some_zero
    | some count => simpa [hgiven] using hthreads
  refine ⟨_, format, h, settings_eq_ok_iff.2 ⟨mode, hmode, hchunk, hzero, rfl⟩, ?_, hformat⟩
  exact Settings.check_eq_ok_iff.2 ⟨rfl, hchunk, hzero⟩

/-- What a job does once it has its configuration. -/
def perform (job : Job) (config : Config) (settings : Settings) (format : OutputFormat) :
    Run Progress := do
  let sources ← Run.sources job.inputs
  if job.inPlace then job.runInPlace settings sources
  else
    job.checkApart sources
    let sink ← job.openSink
    job.writeDocuments settings (layout config) sink sources (job.format?.getD format)

/-- **A job whose configuration was accepted goes on to its sources**, and never comes back to the
configuration. -/
theorem Configured.exec_run (h : job.Configured world.tree config settings format) :
    exec job.run world = exec (job.perform config settings format) world := by
  have hformat : (job.format config).mapError badConfig = .ok (job.format?.getD format) := by
    apply mapError_eq_ok_iff.2
    unfold Job.format
    cases job.format? with
    | none => exact h.format_eq
    | some given => rfl
  have hproduce (sources : List Source) : job.produce config settings sources = (do
      job.checkApart sources
      let sink ← job.openSink
      job.writeDocuments settings (layout config) sink sources (job.format?.getD format)) := by
    simp [produce, hformat, Run.ofExcept]
  rw [exec_run_of_settings h.config_eq h.settings_eq]
  simp only [hproduce, perform]

end Job

/-! ## Validating -/

namespace Command

variable {world : World} {path : Path}

/-- A job that failed was stopped by its failure. -/
theorem exec_of_outcome_process {job : Job} {failure : Failure}
    (h : ((process job).outcome world).1 = some failure) :
    (exec job.run world).1 = .error failure := by
  rw [outcome_process] at h
  rcases hexec : exec job.run world with ⟨result, after⟩
  rw [hexec] at h
  cases result with
  | ok _ => simp at h
  | error other => simpa using h

/-- What is checked after reading never fails. -/
theorem check_eq_error_iff {tree : FileTree} {failure : Failure} :
    check tree path = .error failure ↔ Config.load tree path = .error failure := by
  unfold check
  cases hload : Config.load tree path with
  | error other => simp [bind, Except.bind]
  | ok config =>
    obtain ⟨-, -, ⟨settings, hsettings⟩⟩ :=
      Config.error?_eq_none_iff.1 (Config.error?_of_load hload)
    simp [hsettings, Except.mapError, bind, Except.bind, pure, Except.pure]

/-- **A file is found valid if it can be read**, and otherwise the whole failure is reported. -/
theorem failure?_validate (path : Path) (world : World) :
    ((validate path).outcome world).1 =
      match Config.load world.tree path with
      | .ok _ => none
      | .error failure => some (.of (.rejected failure.message)) := by
  have hprint (line : String) (world : World) : exec (Run.printLine line) world =
      (.ok (), { world with stdout := world.stdout ++ (line.toList ++ ['\n']) }) := rfl
  rw [outcome_eq, Command.run, runValidate, exec_bind_of_ok (hprint _ _), exec_get_bind]
  cases hload : Config.load world.tree path with
  | error failure =>
    have hcheck : check world.tree path = .error failure := check_eq_error_iff.2 hload
    simp only [hcheck]
    rw [exec_bind_of_ok (hprint _ _), exec_bind_of_ok (hprint _ _)]
    rfl
  | ok config =>
    cases hcheck : check world.tree path with
    | error failure =>
      rw [check_eq_error_iff, hload] at hcheck
      exact absurd hcheck (by simp)
    | ok found =>
      simp only
      rw [exec_bind_of_ok (hprint _ _), exec_bind_of_ok (hprint _ _), exec_bind_of_ok (hprint _ _),
        hprint]

/-- The failure to validate quotes the failure to read. -/
theorem message_rejected (failure : Failure) :
    (Failure.of (.rejected failure.message)).message =
      "Validation failed: " ++ failure.message := rfl

end Command

/-! ## After the configuration -/

/-- **A job that has its configuration does not fail because of it.** -/
theorem Job.failsOnly_perform (job : Job) (config : Config) (settings : Settings)
    (format : OutputFormat) :
    FailsOnly Failure.SparesConfig (job.perform config settings format) := by
  apply (failsOnly_sources job.inputs).bind
  intro sources
  split
  · exact failsOnly_runInPlace job settings sources
  · apply (failsOnly_checkApart job sources).bind
    intro _
    apply (failsOnly_openSink job).bind
    intro sink
    exact failsOnly_writeDocuments job settings (layout config) sink sources _

/-! ## All together -/

/-- **Validating a configuration file says what the jobs that name it will do with it.**  The file
is found valid if and only if a job gets everything it takes from the configuration: the
configuration itself, settings that pass their check, and a format.  If it is not, the complaint
quotes the failure with which every job fails that names the file, whatever else is asked of it.  If
it is, the job works with the settings of the file, but for the mode and the workers it names
itself, and none of its failures is one of the configuration. -/
theorem validate_agrees_with_process (world : World) (path : Path) (job : Job)
    (hconfig : job.config? = some path) (hthreads : job.threads? ≠ some 0) :
    (((Command.validate path).outcome world).1 = none ↔
      ∃ config settings format, job.Configured world.tree config settings format) ∧
    (∀ rejected, ((Command.validate path).outcome world).1 = some rejected →
      ∃ failure, rejected.message = "Validation failed: " ++ failure.message ∧
        ∀ other : Job, other.config? = some path →
          (Command.process other).outcome world = (some failure, world)) ∧
    (∀ config settings format, job.Configured world.tree config settings format →
      Config.load world.tree path = .ok config ∧
      0 < settings.chunkLines ∧ settings.threads ≠ some 0 ∧
      (∃ mode, Mode.parse config.executionMode = .ok mode ∧
        settings.mode = if job.parallel then .parallel else mode) ∧
      settings.threads = job.threads?.or
        (if config.workerThreads = 0 then none else some config.workerThreads) ∧
      settings.parallelThreshold = config.parallelThresholdLines ∧
      settings.chunkLines = config.chunkLines ∧
      exec job.run world = exec (job.perform config settings format) world ∧
      ∀ failure, ((Command.process job).outcome world).1 = some failure →
        failure.cause.category? ≠ some .configuration ∧
        failure.cause.category? ≠ some .settings) := by
  have hload (other : Job) (hother : other.config? = some path) :
      other.config world.tree = Config.load world.tree path := by
    simp [Job.config, hother]
  rw [Command.failure?_validate]
  refine ⟨?_, ?_, ?_⟩
  · cases hfile : Config.load world.tree path with
    | error failure =>
      simp only [reduceCtorEq, false_iff, not_exists]
      intro config settings format hconfigured
      simpa [hload job hconfig, hfile] using hconfigured.config_eq
    | ok config =>
      simp only [true_iff]
      exact ⟨config, Job.exists_configured hthreads ((hload job hconfig).trans hfile)
        (Config.error?_of_load hfile)⟩
  · intro rejected hrejected
    cases hfile : Config.load world.tree path with
    | ok config => simp [hfile] at hrejected
    | error failure =>
      obtain rfl : Failure.of (.rejected failure.message) = rejected := by
        simpa [hfile] using hrejected
      refine ⟨failure, Command.message_rejected failure, ?_⟩
      intro other hother
      exact Command.outcome_process_of_error
        (Job.exec_run_of_config_error ((hload other hother).trans hfile))
  · intro config settings format hconfigured
    obtain ⟨mode, hmode, hchunk, hzero, rfl⟩ := Job.settings_eq_ok_iff.1 hconfigured.settings_eq
    refine ⟨(hload job hconfig).symm.trans hconfigured.config_eq, Nat.pos_of_ne_zero hchunk, hzero,
      ⟨mode, mapError_eq_ok_iff.1 hmode, rfl⟩, rfl, rfl, rfl, hconfigured.exec_run, ?_⟩
    intro failure hfailure
    apply Job.failsOnly_perform job config _ format world failure
    rw [← hconfigured.exec_run]
    exact Command.exec_of_outcome_process hfailure

/-- A format that is not known is refused although the job names one itself, and with the empty file
the job works in the mode and with the workers it asks for. -/
theorem validate_agrees_with_process_on_two_files :
    let world : World :=
      { tree :=
          { files := [([['c']], Utf8.encode "output.default_format=''".toList), ([['e']], [])]
            folders := [[]]
            base := [] } }
    let refused : Job := { config? := some ⟨['c']⟩, format? := some .json }
    let accepted : Job := { config? := some ⟨['e']⟩, parallel := true, threads? := some 2 }
    let failure : Failure :=
      (Failure.of (.configuration (.unknownFormat ""))).within "Invalid config file: c"
    ((Command.validate ⟨['c']⟩).outcome world).1 = some (.of (.rejected failure.message)) ∧
    (∃ reported, (Failure.of (.rejected failure.message)).message =
        "Validation failed: " ++ reported.message ∧
      (Command.process refused).outcome world = (some reported, world)) ∧
    ((Command.validate ⟨['e']⟩).outcome world).1 = none ∧
    ∃ settings : Settings, accepted.settings {} = .ok settings ∧ settings.mode = .parallel ∧
      settings.threads = some 2 ∧ settings.chunkLines = 4096 := by
  intro world refused accepted failure
  have hrefused : Config.load world.tree ⟨['c']⟩ = .error failure := by decide +kernel
  have haccepted : Config.load world.tree ⟨['e']⟩ = .ok {} := by decide +kernel
  have hrejected : ((Command.validate ⟨['c']⟩).outcome world).1 =
      some (.of (.rejected failure.message)) := by
    rw [Command.failure?_validate, hrefused]
  have hvalid : ((Command.validate ⟨['e']⟩).outcome world).1 = none := by
    rw [Command.failure?_validate, haccepted]
  refine ⟨hrejected, ?_, hvalid, ?_⟩
  · obtain ⟨reported, hmessage, hprocess⟩ :=
      (validate_agrees_with_process world ⟨['c']⟩ refused rfl (by decide)).2.1 _ hrejected
    exact ⟨reported, hmessage, hprocess refused rfl⟩
  · have hagrees := validate_agrees_with_process world ⟨['e']⟩ accepted rfl (by decide)
    obtain ⟨config, settings, format, hconfigured⟩ := hagrees.1.1 hvalid
    obtain ⟨hload, -, -, ⟨mode, -, hmode⟩, hthreads, -, hchunk, -⟩ :=
      hagrees.2.2 config settings format hconfigured
    obtain rfl : {} = config := Except.ok.inj (haccepted.symm.trans hload)
    exact ⟨settings, hconfigured.settings_eq, hmode, hthreads, hchunk⟩

end Semicolon
