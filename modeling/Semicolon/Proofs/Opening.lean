import Semicolon.Proofs.Running

/-!
# Before anything is written

A job first reads its configuration and finds its sources.  If it does not work in place, it then
makes sure that no source is at the place of the output, settles the format and opens the output.
If any of this fails the world is left as it was.  If all of it succeeds, what remains is to write
the documents into the sink that was opened.

## Main statements

* `Job.Ready.exec_run`: what a job does whose sources are found.
* `Job.Opens.exec_run`: what a job does whose output is open.
* `Job.exec_run_of_not_opens`: a job that does not get there changes nothing.
* `Job.Ready.counts_of_exec_run`: a job that succeeds has finished all that it began.
-/

namespace Semicolon

open Run

/-! ## The configuration and the sources -/

theorem Run.exec_sources (patterns : List String) (world : World) :
    exec (Run.sources patterns) world =
      ((Source.resolve world.tree.lookup patterns).mapError .of, world) := by
  rw [Run.sources, exec_get_bind, exec_ofExcept]

namespace Job

/-- The configuration of the job can be used and its sources are found. -/
structure Ready (job : Job) (tree : FileTree) (config : Config) (settings : Settings)
    (sources : List Source) : Prop where
  config_eq : job.config tree = .ok config
  settings_eq : job.settings config = .ok settings
  sources_eq : Source.resolve tree.lookup job.inputs = .ok sources

variable {job : Job} {world : World} {config : Config} {settings : Settings}
  {sources : List Source}

/-- The settings of a job have passed the check that is made before they are used. -/
theorem check_of_settings (h : job.settings config = .ok settings) :
    settings.check = .ok settings := by
  rw [Job.settings, bind_eq_ok_iff] at h
  obtain ⟨base, -, hcheck⟩ := h
  obtain ⟨rfl, hvalid⟩ := Settings.check_eq_ok_iff.1 (mapError_eq_ok_iff.1 hcheck)
  exact Settings.check_eq_ok_iff.2 ⟨rfl, hvalid⟩

/-- What a job does that has its settings. -/
theorem exec_run_of_settings (hconfig : job.config world.tree = .ok config)
    (hsettings : job.settings config = .ok settings) :
    exec job.run world = exec (do
      let sources ← Run.sources job.inputs
      if job.inPlace then job.runInPlace settings sources
      else job.produce config settings sources) world := by
  have hmerged : (job.settings config).mapError badConfig = .ok settings :=
    mapError_eq_ok_iff.2 hsettings
  have hchecked : (settings.check.mapError fun error => Failure.of (.settings error)) =
      .ok settings :=
    mapError_eq_ok_iff.2 (check_of_settings hsettings)
  rw [run, exec_get_bind, hconfig, exec_bind_of_ok (exec_ofExcept _ _), hmerged,
    exec_bind_of_ok (exec_ofExcept _ _), hchecked, exec_bind_of_ok (exec_ofExcept _ _)]

theorem Ready.exec_run (h : job.Ready world.tree config settings sources) :
    exec job.run world =
      exec (if job.inPlace then job.runInPlace settings sources
        else job.produce config settings sources) world := by
  have hsources : exec (Run.sources job.inputs) world = (.ok sources, world) := by
    rw [exec_sources, h.sources_eq]
    rfl
  rw [exec_run_of_settings h.config_eq h.settings_eq, exec_bind_of_ok hsources]

/-- A job whose configuration cannot be read fails with the failure to read it. -/
theorem exec_run_of_config_error {failure : Failure} (h : job.config world.tree = .error failure) :
    exec job.run world = (.error failure, world) := by
  rw [run, exec_get_bind, h, exec_bind_of_error (exec_ofExcept _ _)]

/-- A job that finds no sources, or none it could process, changes nothing. -/
theorem exec_run_of_not_ready
    (h : ∀ config settings sources, ¬ job.Ready world.tree config settings sources) :
    ∃ failure, exec job.run world = (.error failure, world) := by
  cases hconfig : job.config world.tree with
  | error failure => exact ⟨failure, exec_run_of_config_error hconfig⟩
  | ok config =>
    cases hsettings : job.settings config with
    | error error =>
      rw [run, exec_get_bind, hconfig, exec_bind_of_ok (exec_ofExcept _ _), hsettings]
      exact ⟨badConfig error, exec_bind_of_error (exec_ofExcept _ _)⟩
    | ok settings =>
      rw [exec_run_of_settings hconfig hsettings]
      have hsources := exec_sources job.inputs world
      cases hresolve : Source.resolve world.tree.lookup job.inputs with
      | error cause =>
        rw [hresolve] at hsources
        exact ⟨.of cause, exec_bind_of_error hsources⟩
      | ok sources => exact absurd ⟨hconfig, hsettings, hresolve⟩ (h config settings sources)

/-- Sources that are found can be read. -/
theorem Ready.exists_bytes (h : job.Ready world.tree config settings sources) {source : Source}
    (hmem : source ∈ sources) : ∃ bytes, world.bytes source = .ok bytes := by
  cases source with
  | standardInput => exact ⟨world.stdin, rfl⟩
  | file path =>
    have hfile := Source.isFile_of_mem_resolve h.sources_eq hmem
    obtain ⟨place, hplace, hcontent⟩ := FileTree.isFile_iff.1 hfile
    obtain ⟨bytes, hbytes⟩ := Option.isSome_iff_exists.1 (FileTree.mem_places_iff.1 hcontent)
    exact ⟨bytes, FileTree.read_eq_ok_iff.2 ⟨place, hplace, hbytes⟩⟩

/-! ## The output is no source -/

theorem mem_filterMap_path? {path : Path} :
    path ∈ sources.filterMap Source.path? ↔ .file path ∈ sources := by
  rw [List.mem_filterMap]
  constructor
  · rintro ⟨source, hmem, hpath⟩
    cases source with
    | standardInput => simp [Source.path?] at hpath
    | file other =>
      obtain rfl : other = path := by simpa [Source.path?] using hpath
      exact hmem
  · intro hmem
    exact ⟨.file path, hmem, rfl⟩

variable {tree : FileTree} {output : Path}

/-- A source that is found to be the output is at its place. -/
theorem locate_of_aliasOf? {path : Path} (h : aliasOf? tree output sources = some path) :
    .file path ∈ sources ∧ ∃ place, tree.locate output = .ok place ∧
      tree.locate path = .ok place := by
  unfold aliasOf? at h
  cases hlocate : tree.locate output with
  | error error => simp [hlocate] at h
  | ok place =>
    rw [hlocate] at h
    refine ⟨mem_filterMap_path?.1 (List.mem_of_find?_eq_some h), place, rfl, ?_⟩
    have hplace := List.find?_some h
    split at hplace
    · next other hother => rw [hother, beq_iff_eq.1 hplace]
    · exact absurd hplace (by simp)

/-- Where no source is found to be the output, none is at its place. -/
theorem locate_ne_of_aliasOf?_eq_none (h : aliasOf? tree output sources = none) {path : Path}
    (hmem : .file path ∈ sources) {place : Location} (hplace : tree.locate path = .ok place) :
    tree.locate output ≠ .ok place := by
  intro hlocate
  simp only [aliasOf?, hlocate, List.find?_eq_none] at h
  have hnot := h path (mem_filterMap_path?.2 hmem)
  simp [hplace] at hnot

theorem exec_checkOutput (output : Path) (sources : List Source) (world : World) :
    exec (checkOutput output sources) world =
      (verdict ((aliasOf? world.tree output sources).map fun path =>
        refusal (.outputIsInput path)) (), world) := by
  rw [checkOutput, exec_get_bind]
  cases aliasOf? world.tree output sources with
  | none => rfl
  | some path => rfl

/-- No source is at the place of the output. -/
def Apart (job : Job) (tree : FileTree) (sources : List Source) : Prop :=
  ∀ output, job.output? = some output → ∀ path, .file path ∈ sources →
    tree.locate path ≠ tree.locate output

theorem exec_checkApart_of_apart (h : job.Apart world.tree sources) :
    exec (job.checkApart sources) world = (.ok (), world) := by
  unfold checkApart
  cases houtput : job.output? with
  | none => rfl
  | some output =>
    have hnone : aliasOf? world.tree output sources = none := by
      by_contra hne
      obtain ⟨path, halias⟩ := Option.ne_none_iff_exists'.1 hne
      obtain ⟨hmem, place, hplace, hpath⟩ := locate_of_aliasOf? halias
      exact h output houtput path hmem (hpath.trans hplace.symm)
    simp only [exec_checkOutput, hnone]
    rfl

/-- **An output that is a source in any spelling is refused**, and nothing is changed.  The failure
names a source at the place of the output. -/
theorem Ready.exec_run_of_same_place (h : job.Ready world.tree config settings sources)
    (hplace : job.inPlace = false) (houtput : job.output? = some output) {path : Path}
    (hmem : .file path ∈ sources) (hsame : world.tree.locate path = world.tree.locate output) :
    ∃ found, .file found ∈ sources ∧ world.tree.locate found = world.tree.locate output ∧
      exec job.run world = (.error (refusal (.outputIsInput found)), world) := by
  have hfile := Source.isFile_of_mem_resolve h.sources_eq hmem
  obtain ⟨place, hlocate, -⟩ := FileTree.isFile_iff.1 hfile
  have halias : aliasOf? world.tree output sources ≠ none := by
    intro hnone
    exact locate_ne_of_aliasOf?_eq_none hnone hmem hlocate (hsame ▸ hlocate)
  obtain ⟨found, hfound⟩ := Option.ne_none_iff_exists'.1 halias
  obtain ⟨hfoundmem, other, hother, hfoundplace⟩ := locate_of_aliasOf? hfound
  have hcheck : exec (job.checkApart sources) world =
      (.error (refusal (.outputIsInput found)), world) := by
    simp only [checkApart, houtput, exec_checkOutput, hfound]
    rfl
  refine ⟨found, hfoundmem, hfoundplace.trans hother.symm, ?_⟩
  rw [h.exec_run, hplace, if_neg Bool.false_ne_true, produce, exec_bind_of_error hcheck]

end Job

/-! ## The output is open -/

/-- The world with a text in a sink: after what standard output held, or as all that the file
holds. -/
def World.deliver (world : World) (text : Text) : Job.Sink → World
  | none => { world with stdout := world.stdout ++ text }
  | some place => { world with tree := world.tree.put place (Utf8.encode text) }

namespace Job

variable {job : Job} {world : World} {tree : FileTree} {config : Config} {settings : Settings}
  {sources : List Source} {format : OutputFormat} {sink : Sink}

/-- The sink is standard output, or else the file of the output, which has just been emptied. -/
theorem exec_openSink (h : job.output?.map world.tree.target = sink.map .ok) :
    exec job.openSink world = (.ok sink, world.deliver [] sink) := by
  unfold openSink
  cases houtput : job.output? with
  | none =>
    cases sink with
    | none => simp [World.deliver]
    | some place => simp [houtput] at h
  | some output =>
    cases sink with
    | none => simp [houtput] at h
    | some place =>
      have htarget : world.tree.target output = .ok place := by simpa [houtput] using h
      simp only [openOutput, map_eq_pure_bind, bind_assoc]
      rw [exec_get_bind, htarget]
      rfl

/-- Either there is a sink, or opening it fails and makes no file. -/
theorem exists_sink_or_exec_openSink_eq_error (job : Job) (world : World) :
    (∃ sink : Sink, job.output?.map world.tree.target = sink.map .ok) ∨
      ∃ failure, exec job.openSink world = (.error failure, world) := by
  cases houtput : job.output? with
  | none => exact .inl ⟨none, rfl⟩
  | some output =>
    cases htarget : world.tree.target output with
    | ok place =>
      left
      exact ⟨some place, by simp [htarget]⟩
    | error error =>
      right
      simp only [openSink, houtput, openOutput, map_eq_pure_bind, bind_assoc]
      rw [exec_get_bind, htarget]
      exact ⟨_, rfl⟩

/-- The job gets as far as to write documents: besides being ready it knows the format, no source
is at the place of the output, and the output can be opened. -/
structure Opens (job : Job) (tree : FileTree) (config : Config) (settings : Settings)
    (sources : List Source) (format : OutputFormat) (sink : Sink) : Prop
    extends job.Ready tree config settings sources where
  format_eq : job.format config = .ok format
  apart : job.Apart tree sources
  sink_eq : job.output?.map tree.target = sink.map .ok

/-- **What is left to do once the output is open.** -/
theorem Opens.exec_run (h : job.Opens world.tree config settings sources format sink)
    (hplace : job.inPlace = false) :
    exec job.run world =
      exec (job.writeDocuments settings (layout config) sink sources format)
        (world.deliver [] sink) := by
  have hformat : (job.format config).mapError badConfig = .ok format := by
    rw [h.format_eq]
    rfl
  rw [h.toReady.exec_run, hplace, if_neg Bool.false_ne_true, produce,
    exec_bind_of_ok (exec_checkApart_of_apart h.apart), hformat,
    exec_bind_of_ok (exec_ofExcept _ _), exec_bind_of_ok (exec_openSink h.sink_eq)]

/-- **A job that does not get as far as to write documents changes nothing.** -/
theorem exec_run_of_not_opens (hplace : job.inPlace = false)
    (h : ∀ config settings sources format sink,
      ¬ job.Opens world.tree config settings sources format sink) :
    ∃ failure, exec job.run world = (.error failure, world) := by
  by_cases hready : ∃ config settings sources, job.Ready world.tree config settings sources
  · obtain ⟨config, settings, sources, hready⟩ := hready
    by_cases hapart : job.Apart world.tree sources
    · rw [hready.exec_run, hplace, if_neg Bool.false_ne_true, produce,
        exec_bind_of_ok (exec_checkApart_of_apart hapart)]
      cases hformat : job.format config with
      | error error => exact ⟨badConfig error, exec_bind_of_error (exec_ofExcept _ _)⟩
      | ok format =>
        simp only [Except.mapError]
        rw [exec_bind_of_ok (exec_ofExcept _ _)]
        rcases exists_sink_or_exec_openSink_eq_error job world with
          ⟨sink, hsink⟩ | ⟨failure, hfailure⟩
        · exact absurd ⟨hready, hformat, hapart, hsink⟩ (h config settings sources format sink)
        · exact ⟨failure, exec_bind_of_error hfailure⟩
    · simp only [Apart, not_forall, not_not] at hapart
      obtain ⟨output, houtput, path, hmem, hsame⟩ := hapart
      obtain ⟨found, -, -, hrun⟩ := hready.exec_run_of_same_place hplace houtput hmem hsame
      exact ⟨_, hrun⟩
  · simp only [not_exists] at hready
    exact exec_run_of_not_ready hready

/-! ## What is counted -/

theorem counts_of_exec_writeDocuments {layout : Json.Layout} {progress : Progress} {after : World}
    (h : exec (job.writeDocuments settings layout sink sources format) world =
      (.ok progress, after)) :
    ∃ reports : List Report, reports.length = sources.length ∧
      (job.startProgress sources).Counts (reports.map (·.result.tally.terminated)) progress := by
  rw [writeDocuments, exec_bind_eq_ok_iff] at h
  obtain ⟨⟨reports, last⟩, _, hloop, h⟩ := h
  rw [exec_bind_eq_ok_iff] at h
  obtain ⟨_, _, -, h⟩ := h
  obtain ⟨rfl, -⟩ : last = progress ∧ _ = after := by simpa [Progress.step] using h
  exact ⟨reports, counts_of_exec_eachDocument hloop⟩

/-- Without standard input every source has a path. -/
theorem filter_isSome_path? (h : .standardInput ∉ sources) :
    sources.filter (·.path?.isSome) = sources := by
  rw [List.filter_eq_self]
  intro source hmem
  cases source with
  | standardInput => exact absurd hmem h
  | file path => rfl

theorem counts_of_exec_runInPlace {progress : Progress} {after : World}
    (h : exec (job.runInPlace settings sources) world = (.ok progress, after)) :
    ∃ reports : List Report, reports.length = sources.length ∧
      (job.startProgress sources).Counts (reports.map (·.result.tally.terminated)) progress := by
  rw [runInPlace] at h
  split at h
  · cases h
  next hfiles =>
  split at h
  · cases h
  rw [exec_bind_eq_ok_iff] at h
  obtain ⟨⟨reports, last⟩, _, hloop, h⟩ := h
  obtain ⟨rfl, -⟩ : last = progress ∧ _ = after := by simpa [Progress.step] using h
  rw [filter_isSome_path? (by simpa using hfiles)] at hloop
  exact ⟨reports, counts_of_exec_eachDocument hloop⟩

/-- **A job that succeeds has finished all that it began.**  Its progress is that from which it
started, with one document more for each source and with the terminators of all of them. -/
theorem Ready.counts_of_exec_run (h : job.Ready world.tree config settings sources)
    {progress : Progress} {after : World} (hrun : exec job.run world = (.ok progress, after)) :
    ∃ reports : List Report, reports.length = sources.length ∧
      (job.startProgress sources).Counts (reports.map (·.result.tally.terminated)) progress := by
  rw [h.exec_run] at hrun
  split at hrun
  · exact counts_of_exec_runInPlace hrun
  · rw [produce, exec_bind_eq_ok_iff] at hrun
    obtain ⟨_, _, -, hrun⟩ := hrun
    rw [exec_bind_eq_ok_iff] at hrun
    obtain ⟨_, _, -, hrun⟩ := hrun
    rw [exec_bind_eq_ok_iff] at hrun
    obtain ⟨_, _, -, hrun⟩ := hrun
    exact counts_of_exec_writeDocuments hrun

end Job

end Semicolon
