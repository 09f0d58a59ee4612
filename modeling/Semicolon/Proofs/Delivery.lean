import Semicolon.Proofs.Opening
import Semicolon.Proofs.PathOrder

/-!
# What a job writes into its sink

A job that does not work in place changes nothing but its sink.  The sink is emptied before the
first source is read, and written to while sources are still to be read; since no source is at the
place of the output, every source is read as it was before the run.

The sources are worked off up to the first whose bytes are not UTF-8.  As text, what was written
until then stays; as JSON, there is one array for all documents or nothing.

## Main statements

* `Job.exec_run_world`: all that a run can change is its sink.
* `Job.Opens.read_deliver`: sources are read as they were before the run.
* `Job.exec_eachDocument`: what is written for sources of given texts.
* `Job.Opens.exists_exec_run`: what a job leaves whose output is open.
-/

namespace Semicolon

open Run

/-! ## Sinks -/

namespace World

variable {world : World} {sink : Job.Sink}

@[simp] theorem stdin_deliver (world : World) (text : Text) (sink : Job.Sink) :
    (world.deliver text sink).stdin = world.stdin := by
  cases sink <;> rfl

@[simp] theorem time_deliver (world : World) (text : Text) (sink : Job.Sink) :
    (world.deliver text sink).time = world.time := by
  cases sink <;> rfl

theorem Staffed.deliver (h : world.Staffed) (text : Text) (sink : Job.Sink) :
    (world.deliver text sink).Staffed := by
  cases sink <;> exact h

/-- Files that are not the sink keep their content, and none appears. -/
theorem content?_deliver_of_ne {place : Location} (h : sink ≠ some place) (text : Text) :
    (world.deliver text sink).tree.content? place = world.tree.content? place := by
  cases sink with
  | none => rfl
  | some other =>
    have hne : place ≠ other := by
      rintro rfl
      exact h rfl
    exact FileTree.content?_put_of_ne hne _

end World

namespace Job

variable {job : Job} {world : World} {config : Config} {settings : Settings}
  {sources : List Source} {format : OutputFormat} {sink : Sink}

/-- What is emitted comes after what was delivered. -/
theorem exec_emit (world : World) (sink : Sink) (text more : Text) :
    exec (emit sink more) (world.deliver text sink) =
      (.ok (), world.deliver (text ++ more) sink) := by
  cases sink with
  | none => simp [emit, Run.print, World.deliver]
  | some place =>
    by_cases hadmits : world.tree.admits place = true
    · simp [emit, World.deliver, FileTree.content?_put hadmits]
    · -- Where no file can be, nothing is ever put.
      simp [emit, World.deliver, FileTree.put, hadmits]

/-- What one document adds to the sink. -/
def entry (format : OutputFormat) (text : Text) : Text :=
  match format with
  | .text => text
  | .json => []

theorem exec_writeDocument (world : World) (sink : Sink) (format : OutputFormat) (report : Report)
    (start : Text) :
    exec (writeDocument sink format report) (world.deliver start sink) =
      (.ok (), world.deliver (start ++ entry format report.result.text) sink) := by
  cases format with
  | text => exact exec_emit world sink start _
  | json => simp [writeDocument, entry]

/-- What the reports of all documents add to the sink in the end. -/
def ending (layout : Json.Layout) (format : OutputFormat) (reports : List Report) : Text :=
  match format with
  | .text => []
  | .json => Report.writeAll layout reports

theorem exec_writeEnd (world : World) (layout : Json.Layout) (sink : Sink) (format : OutputFormat)
    (reports : List Report) (start : Text) :
    exec (writeEnd layout sink format reports) (world.deliver start sink) =
      (.ok (), world.deliver (start ++ ending layout format reports) sink) := by
  cases format with
  | text => simp [writeEnd, ending]
  | json => exact exec_emit world sink start _

/-! ## Nothing but the sink changes -/

/-- Working off sources leaves some text in the sink and all else as it was. -/
theorem exec_eachDocument_world (settings : Settings) (sink : Sink) (format : OutputFormat)
    (progress : Progress) (sources : List Source) (world : World) (start : Text) :
    ∃ text, (exec (eachDocument settings (fun _ => writeDocument sink format) progress sources)
      (world.deliver start sink)).2 = world.deliver text sink := by
  induction sources generalizing progress start with
  | nil => exact ⟨start, rfl⟩
  | cons source rest ih =>
    have hdocument := exec_document settings source (world.deliver start sink)
    rw [eachDocument]
    cases hprocessed : (world.deliver start sink).processed settings source with
    | error failure =>
      rw [hprocessed] at hdocument
      rw [exec_bind_of_error hdocument]
      exact ⟨start, rfl⟩
    | ok report =>
      rw [hprocessed] at hdocument
      rw [exec_bind_of_ok hdocument, exec_bind_of_ok (exec_writeDocument world sink format _ start),
        exec_bind]
      obtain ⟨text, htext⟩ := ih (advance progress source report)
        (start ++ entry format report.result.text)
      refine ⟨text, ?_⟩
      split
      · next hrest => simpa [hrest] using htext
      · next hrest => simpa [hrest] using htext

/-- Writing documents leaves some text in the sink and all else as it was. -/
theorem exec_writeDocuments_world (job : Job) (settings : Settings) (layout : Json.Layout)
    (sources : List Source) (format : OutputFormat) (world : World) :
    ∃ text, (exec (job.writeDocuments settings layout sink sources format)
      (world.deliver [] sink)).2 = world.deliver text sink := by
  obtain ⟨text, htext⟩ := exec_eachDocument_world settings sink format
    (job.startProgress sources) sources world []
  rw [writeDocuments, exec_bind]
  split
  · next result between hloop =>
    rw [hloop] at htext
    obtain rfl : between = world.deliver text sink := htext
    obtain ⟨reports, last⟩ := result
    refine ⟨text ++ ending layout format reports, ?_⟩
    rw [exec_bind_of_ok (exec_writeEnd world layout sink format reports text)]
    rfl
  · next hloop =>
    rw [hloop] at htext
    exact ⟨text, htext⟩

/-- **All that a run can change is its sink.** -/
theorem exec_run_world (hplace : job.inPlace = false) (world : World) :
    (exec job.run world).2 = world ∨
      ∃ (sink : Sink) (text : Text), job.output?.map world.tree.target = sink.map .ok ∧
        (exec job.run world).2 = world.deliver text sink := by
  by_cases hopens : ∃ config settings sources format sink,
      job.Opens world.tree config settings sources format sink
  · obtain ⟨config, settings, sources, format, sink, hopens⟩ := hopens
    obtain ⟨text, htext⟩ :=
      exec_writeDocuments_world job settings (layout config) sources format world
    right
    exact ⟨sink, text, hopens.sink_eq, by rw [hopens.exec_run hplace, htext]⟩
  · simp only [not_exists] at hopens
    obtain ⟨failure, hrun⟩ := exec_run_of_not_opens hplace hopens
    left
    rw [hrun]

/-! ## Sources are apart from the sink -/

/-- The sink is where the output is written. -/
theorem Opens.target_output (h : job.Opens world.tree config settings sources format sink)
    {place : Location} (hsink : sink = some place) :
    ∃ output, job.output? = some output ∧ world.tree.target output = .ok place := by
  have heq := h.sink_eq
  rw [hsink, Option.map_some, Option.map_eq_some_iff] at heq
  exact heq

/-- **A file is read as it was before the run**, whatever has been delivered. -/
theorem Opens.read_deliver (h : job.Opens world.tree config settings sources format sink)
    {path : Path} (hmem : .file path ∈ sources) (text : Text) :
    (world.deliver text sink).tree.read path = world.tree.read path := by
  cases hsink : sink with
  | none => rfl
  | some place =>
    obtain ⟨output, houtput, htarget⟩ := h.target_output hsink
    obtain ⟨other, hother, hfile⟩ :=
      FileTree.isFile_iff.1 (Source.isFile_of_mem_resolve h.sources_eq hmem)
    have hne : other ≠ place := by
      rintro rfl
      -- There is a file at the place of the output, so the output names it.
      have houtputplace := FileTree.locate_of_target htarget hfile
      exact h.apart output houtput path hmem (hother.trans houtputplace.symm)
    exact FileTree.read_put_of_ne (FileTree.admits_of_target htarget) _ hother hne

theorem Opens.bytes_deliver (h : job.Opens world.tree config settings sources format sink)
    {source : Source} (hmem : source ∈ sources) (text : Text) :
    (world.deliver text sink).bytes source = world.bytes source := by
  cases source with
  | standardInput => simp [World.bytes]
  | file path => exact h.read_deliver hmem text

end Job

/-- **A job that does not work in place damages no input.**  Only the file of the output may change
or appear, and if there is no output no file does.  An output that is a source in any spelling,
relative or absolute, is refused, and whatever else fails before the output is open, the world stays
as it was.  Once the output is open, a source is processed after those before it; by then they have
left each file that is a source as it was before the run.

It is assumed that a file has one place.  On a file system with hard links the output could be an
input at another place, and the comparison of places would not see it. -/
theorem process_preserves_inputs (job : Job) (world : World) (hplace : job.inPlace = false) :
    (∀ place, (∀ output, job.output? = some output → world.tree.target output ≠ .ok place) →
      ((Command.process job).outcome world).2.tree.content? place =
        world.tree.content? place) ∧
    (job.output? = none → ((Command.process job).outcome world).2.tree = world.tree) ∧
    (∀ config settings sources output path, job.Ready world.tree config settings sources →
      job.output? = some output → .file path ∈ sources →
      world.tree.locate path = world.tree.locate output →
      ∃ found, .file found ∈ sources ∧
        (Command.process job).outcome world =
          (some (.of (.processing (.outputIsInput found))), world)) ∧
    ((∀ config settings sources format sink,
        ¬ job.Opens world.tree config settings sources format sink) →
      ∃ failure, (Command.process job).outcome world = (some failure, world)) ∧
    ∀ config settings sources format sink,
      job.Opens world.tree config settings sources format sink →
      exec job.run world =
        exec (job.writeDocuments settings (Job.layout config) sink sources format)
          (world.deliver [] sink) ∧
      ∀ progress before source rest, sources = before ++ source :: rest →
        let handOn := fun _ : Source => Job.writeDocument sink format
        Job.eachDocument settings handOn progress sources = (do
          let (earlier, between) ← Job.eachDocument settings handOn progress before
          let report ← Job.document settings source
          handOn source report
          let (later, last) ←
            Job.eachDocument settings handOn (Job.advance between source report) rest
          return (earlier ++ report :: later, last)) ∧
        ∀ path, source = .file path →
          (exec (Job.eachDocument settings handOn progress before)
            (world.deliver [] sink)).2.tree.read path = world.tree.read path := by
  have hworld : ((Command.process job).outcome world).2 = (exec job.run world).2 :=
    Command.world_outcome_process _ _
  refine ⟨?_, ?_, ?_, ?_, ?_⟩
  · intro place hne
    rw [hworld]
    rcases Job.exec_run_world hplace world with hsame | ⟨sink, text, hsink, hrun⟩
    · rw [hsame]
    · rw [hrun]
      refine World.content?_deliver_of_ne ?_ text
      rintro rfl
      obtain ⟨output, houtput, htarget⟩ := Option.map_eq_some_iff.1 hsink
      exact hne output houtput htarget
  · intro hnone
    rw [hworld]
    rcases Job.exec_run_world hplace world with hsame | ⟨sink, text, hsink, hrun⟩
    · rw [hsame]
    · obtain rfl : sink = none := by simpa [hnone, eq_comm] using hsink
      rw [hrun]
      rfl
  · intro config settings sources output path hready houtput hmem hsame
    obtain ⟨found, hfound, -, hrun⟩ := hready.exec_run_of_same_place hplace houtput hmem hsame
    exact ⟨found, hfound, Command.outcome_process_of_error hrun⟩
  · intro hnot
    obtain ⟨failure, hrun⟩ := Job.exec_run_of_not_opens hplace hnot
    exact ⟨failure, Command.outcome_process_of_error hrun⟩
  · intro config settings sources format sink hopens
    refine ⟨hopens.exec_run hplace, ?_⟩
    rintro progress before source rest rfl handOn
    refine ⟨?_, ?_⟩
    · simp [Job.eachDocument_append, Job.eachDocument]
    · rintro path rfl
      have hmem : Source.file path ∈ before ++ .file path :: rest := by simp
      obtain ⟨text, htext⟩ :=
        Job.exec_eachDocument_world settings sink format progress before world []
      rw [htext]
      exact hopens.read_deliver hmem text

/-- The file `a` in the working folder `/w` is an input, and it is refused as the output in every
spelling: by a way through another folder, by a way from above, and from the root. -/
theorem process_refuses_other_spelling :
    let world : World :=
      { tree :=
          { files := [([['w'], ['a']], [120])], folders := [[['w'], ['d']], [['w']]]
            base := [['w']] } }
    ∀ output ∈ ["d/../a", "../w//a", "/w/a"],
      let job : Job := { inputs := ["a"], output? := some (.ofString output) }
      job.Ready world.tree {} {} [.file ⟨['a']⟩] ∧
      (Command.process job).outcome world =
        (some (.of (.processing (.outputIsInput ⟨['a']⟩))), world) := by
  intro world
  have hnamed : ["a"].mapM (Source.filesNamed world.tree.lookup) = .ok [[⟨['a']⟩]] := by
    decide +kernel
  have hsources : Source.resolve world.tree.lookup ["a"] = .ok [.file ⟨['a']⟩] := by
    rw [Source.resolve_of_mapM (by decide) hnamed, Path.mergeSort_eq_foldr]
    decide +kernel
  have hall : ∀ output ∈ ["d/../a", "../w//a", "/w/a"],
      world.tree.locate ⟨['a']⟩ = world.tree.locate (.ofString output) := by decide +kernel
  intro output houtput job
  have hready : job.Ready world.tree {} {} [.file ⟨['a']⟩] :=
    { config_eq := rfl
      settings_eq := rfl
      sources_eq := hsources }
  obtain ⟨found, hmem, houtcome⟩ :=
    (process_preserves_inputs job world rfl).2.2.1 _ _ _ _ _ hready rfl (by simp)
      (hall output houtput)
  obtain rfl : found = ⟨['a']⟩ := by simpa using hmem
  exact ⟨hready, houtcome⟩

/-! ## What is delivered -/

namespace Job

variable {job : Job} {world : World} {config : Config} {settings : Settings}
  {sources : List Source} {format : OutputFormat} {sink : Sink} {texts : List Text}
  {failure? : Option Failure}

/-- **Documents are written up to the first source that has no text.**  Reading goes on while the
sink fills, so the sources have to be read as if nothing had been delivered. -/
theorem exec_eachDocument (settings : Settings) (format : OutputFormat) (hstaffed : world.Staffed)
    (h : world.Decodes sources texts failure?)
    (hbytes : ∀ source ∈ sources, ∀ text,
      (world.deliver text sink).bytes source = world.bytes source)
    (progress : Progress) (start : Text) :
    ∃ last, exec (eachDocument settings (fun _ => writeDocument sink format) progress sources)
        (world.deliver start sink) =
      (verdict failure? (List.zipWith (report settings world.time) sources texts, last),
        world.deliver (start ++ texts.flatMap fun text => entry format (transform text)) sink) := by
  induction h generalizing progress start with
  | nil => exact ⟨progress, by simp [eachDocument, verdict]⟩
  | @stuck source rest bytes defect hstuck hdefect =>
    have hsource := (hbytes source (by simp) start).trans hstuck
    have hdocument := exec_document settings source (world.deliver start sink)
    rw [World.processed_of_defect settings hsource hdefect] at hdocument
    refine ⟨progress, ?_⟩
    rw [eachDocument, exec_bind_of_error hdocument]
    simp [verdict]
  | @cons source rest text texts failure? htext hrest ih =>
    obtain ⟨hfirst, hothers⟩ := List.forall_mem_cons.1 hbytes
    have hsource := (hfirst start).trans htext
    have hdocument := exec_document settings source (world.deliver start sink)
    rw [World.processed_of_encode (hstaffed.deliver start sink) settings hsource,
      World.time_deliver] at hdocument
    obtain ⟨last, hlast⟩ := ih hothers
      (advance progress source (report settings world.time source text))
      (start ++ entry format (transform text))
    refine ⟨last, ?_⟩
    rw [eachDocument, exec_bind_of_ok hdocument,
      exec_bind_of_ok (exec_writeDocument world sink format _ start), text_report, exec_bind, hlast]
    cases failure? with
    | none => simp [verdict]
    | some failure => simp [verdict]

theorem map_text_zipWith_report (settings : Settings) (time : Source → Json.Value)
    (h : world.Decodes sources texts failure?) :
    (List.zipWith (report settings time) sources texts).map (·.result.text) =
      texts.map transform := by
  induction h with
  | nil => rfl
  | stuck => rfl
  | cons _ _ ih => simp [ih, text_report]

theorem map_terminated_zipWith_report (settings : Settings) (time : Source → Json.Value)
    (h : world.Decodes sources texts failure?) :
    (List.zipWith (report settings time) sources texts).map (·.result.tally.terminated) =
      texts.map fun text => (Tally.ofLines (lines text)).terminated := by
  induction h with
  | nil => rfl
  | stuck => rfl
  | cons _ _ ih => simp [ih, tally_report]

/-- What is delivered for sources of which these are the texts: each text as it is processed, or
an array of reports if nothing fails. -/
def delivered (settings : Settings) (layout : Json.Layout) (time : Source → Json.Value)
    (sources : List Source) (texts : List Text) (failure? : Option Failure) : OutputFormat → Text
  | .text => texts.flatMap transform
  | .json =>
    if failure?.isSome then []
    else Report.writeAll layout (List.zipWith (report settings time) sources texts)

/-- What is delivered is an entry for each document, and an ending if nothing fails. -/
theorem delivered_eq (settings : Settings) (layout : Json.Layout) (time : Source → Json.Value)
    (sources : List Source) (texts : List Text) (failure? : Option Failure)
    (format : OutputFormat) :
    delivered settings layout time sources texts failure? format =
      (texts.flatMap fun text => entry format (transform text)) ++
        if failure?.isSome then []
        else ending layout format (List.zipWith (report settings time) sources texts) := by
  cases format with
  | text => simp [delivered, entry, ending]
  | json =>
    have hentries : (texts.flatMap fun text => entry .json (transform text)) = [] := by
      simp [entry, List.flatMap_eq_nil_iff]
    rw [hentries, List.nil_append]
    rfl

theorem exists_exec_writeDocuments (job : Job) (settings : Settings) (layout : Json.Layout)
    (format : OutputFormat) (hstaffed : world.Staffed) (h : world.Decodes sources texts failure?)
    (hbytes : ∀ source ∈ sources, ∀ text,
      (world.deliver text sink).bytes source = world.bytes source) :
    ∃ progress, exec (job.writeDocuments settings layout sink sources format)
        (world.deliver [] sink) =
      (verdict failure? progress, world.deliver
        (delivered settings layout world.time sources texts failure? format) sink) ∧
      (failure? = none → (job.startProgress sources).Counts
        (texts.map fun text => (Tally.ofLines (lines text)).terminated) progress) := by
  obtain ⟨last, hloop⟩ := exec_eachDocument settings format hstaffed h hbytes
    (job.startProgress sources) []
  rw [List.nil_append] at hloop
  refine ⟨last.step .finish, ?_, ?_⟩
  · rw [writeDocuments]
    cases failure? with
    | some failure =>
      rw [exec_bind_of_error hloop, delivered_eq]
      simp [verdict]
    | none =>
      rw [exec_bind_of_ok hloop, exec_bind_of_ok (exec_writeEnd world layout sink format _ _),
        delivered_eq]
      rfl
  · rintro rfl
    rw [← map_terminated_zipWith_report settings world.time h]
    exact (counts_of_exec_eachDocument hloop).2

/-- **What a job leaves whose output is open**, and whether it fails.  If it does not, it has
counted every document, and the terminators in all of them. -/
theorem Opens.exists_exec_run (h : job.Opens world.tree config settings sources format sink)
    (hplace : job.inPlace = false) (hstaffed : world.Staffed)
    (hdecodes : world.Decodes sources texts failure?) :
    ∃ progress, exec job.run world =
      (verdict failure? progress, world.deliver
        (delivered settings (layout config) world.time sources texts failure? format) sink) ∧
      (failure? = none → (job.startProgress sources).Counts
        (texts.map fun text => (Tally.ofLines (lines text)).terminated) progress) := by
  rw [h.exec_run hplace]
  apply exists_exec_writeDocuments job settings (layout config) format hstaffed hdecodes
  intro source hmem text
  exact h.bytes_deliver hmem text

theorem Opens.outcome_process (h : job.Opens world.tree config settings sources format sink)
    (hplace : job.inPlace = false) (hstaffed : world.Staffed)
    (hdecodes : world.Decodes sources texts failure?) :
    (Command.process job).outcome world =
      (failure?, world.deliver
        (delivered settings (layout config) world.time sources texts failure? format) sink) := by
  obtain ⟨progress, hrun, -⟩ := h.exists_exec_run hplace hstaffed hdecodes
  exact Command.outcome_process_of_exec hrun

end Job

/-- **What a job that does not work in place writes**, also if it fails midway.  The sources have
texts up to the first whose bytes are not UTF-8; the job succeeds if there is no such source, and
names it otherwise.  As text the sink gets what the texts before it become, as JSON the array of
the reports of all documents or nothing; each report has the time that its document took, whatever
that is.  A file gets what would have been printed, and nothing is printed then.  Under other
settings the text is the same.  It is assumed that workers can be had where they are asked for. -/
theorem process_delivers_documents (job : Job) (world : World) (config : Config)
    (settings : Settings) (sources : List Source) (format : OutputFormat) (sink : Job.Sink)
    (hplace : job.inPlace = false) (hstaffed : world.Staffed)
    (h : job.Opens world.tree config settings sources format sink) :
    ∃ texts failure?, world.Decodes sources texts failure? ∧
      (failure? = none ↔ texts.length = sources.length) ∧
      (∀ source, sources[texts.length]? = some source →
        ∃ bytes failure, world.bytes source = .ok bytes ∧ (∀ text, bytes ≠ Utf8.encode text) ∧
          failure? = some failure ∧ failure.contexts = ["Failed to process " ++ source.name] ∧
          failure.cause.category? = some .encoding) ∧
      (format = .text → (Command.process job).outcome world =
        (failure?, world.deliver (texts.flatMap transform) sink)) ∧
      (format = .json → failure? = none → (Command.process job).outcome world =
        (none, world.deliver
          ((Json.Value.array ((List.zipWith (Job.report settings world.time) sources texts).map
            Report.toJson)).write (Job.layout config) 0 ++ ['\n']) sink)) ∧
      (format = .json → ∀ failure, failure? = some failure →
        (Command.process job).outcome world = (some failure, world.deliver [] sink)) ∧
      (List.zipWith (Job.report settings world.time) sources texts).map (·.result.text) =
        texts.map transform ∧
      (∀ place, sink = some place →
        ((Command.process job).outcome world).2.stdout = world.stdout ∧
        ∃ printed,
          (Command.process { job with output? := none }).outcome world =
            (failure?, { world with stdout := world.stdout ++ printed }) ∧
          ((Command.process job).outcome world).2.tree.content? place =
            some (Utf8.encode printed)) ∧
      ∀ other otherConfig otherSettings, other.inPlace = false →
        other.Opens world.tree otherConfig otherSettings sources .text sink → format = .text →
        (Command.process other).outcome world = (Command.process job).outcome world := by
  obtain ⟨texts, failure?, hdecodes⟩ := World.exists_decodes fun _ => h.exists_bytes
  have houtcome := h.outcome_process hplace hstaffed hdecodes
  refine ⟨texts, failure?, hdecodes, hdecodes.eq_none_iff, ?_, ?_, ?_, ?_,
    Job.map_text_zipWith_report settings _ hdecodes, ?_, ?_⟩
  · intro source hsource
    obtain ⟨bytes, defect, hbytes, hnot, hfailure⟩ := hdecodes.failure?_of_getElem? hsource
    exact ⟨bytes, _, hbytes, hnot, hfailure, rfl, rfl⟩
  · rintro rfl
    exact houtcome
  · rintro rfl rfl
    exact houtcome
  · rintro rfl failure rfl
    exact houtcome
  · rintro place rfl
    have hprinted : Job.Opens { job with output? := none } world.tree config settings sources
        format none :=
      ⟨⟨h.config_eq, h.settings_eq, h.sources_eq⟩, h.format_eq, by simp [Job.Apart], rfl⟩
    obtain ⟨output, -, htarget⟩ := h.target_output rfl
    rw [houtcome]
    refine ⟨rfl, _, hprinted.outcome_process hplace hstaffed hdecodes, ?_⟩
    exact FileTree.content?_put (FileTree.admits_of_target htarget) _
  · rintro other otherConfig otherSettings hother hopens rfl
    rw [houtcome, hopens.outcome_process hother hstaffed hdecodes]
    rfl

/-- The file `b` is no text: what was written for `../w/a` stays, and `b` is named. -/
theorem process_stops_at_invalid_bytes :
    let world : World :=
      { tree :=
          { files := [([['w'], ['a']], [120]), ([['w'], ['b']], [255])], folders := [[['w']]]
            base := [['w']] } }
    let job : Job := { inputs := ["b", "../w/a"], output? := some (.ofString "/w/o") }
    let sources : List Source := [.file (.ofString "../w/a"), .file ⟨['b']⟩]
    job.Opens world.tree {} {} sources .text (some [['w'], ['o']]) ∧
    (Command.process job).outcome world =
      (some (World.undecodable (.file ⟨['b']⟩) (.invalid 1 0)),
        world.deliver ['x', ';', '\n'] (some [['w'], ['o']])) := by
  intro world job sources
  have hnamed : job.inputs.mapM (Source.filesNamed world.tree.lookup) =
      .ok [[⟨['b']⟩], [.ofString "../w/a"]] := by decide +kernel
  have hopens : job.Opens world.tree {} {} sources .text (some [['w'], ['o']]) :=
    { config_eq := rfl
      settings_eq := rfl
      sources_eq := by
        rw [Source.resolve_of_mapM (by decide) hnamed, Path.mergeSort_eq_foldr]
        decide +kernel
      format_eq := by decide +kernel
      apart := by
        rintro output houtput path hmem
        obtain rfl := Option.some.inj houtput
        simp only [sources, List.mem_cons, Source.file.injEq, List.not_mem_nil, or_false] at hmem
        rcases hmem with rfl | rfl
        · decide +kernel
        · decide +kernel
      sink_eq := by decide +kernel }
  have hbytes : world.bytes (.file ⟨['b']⟩) = .ok [255] := by decide +kernel
  have hdecodes : world.Decodes sources [['x']]
      (some (World.undecodable (.file ⟨['b']⟩) (.invalid 1 0))) :=
    .cons (by decide +kernel) (.stuck hbytes (by decide +kernel))
  obtain ⟨texts, failure?, hread, -, -, htext, -⟩ :=
    process_delivers_documents job world {} {} sources .text _ rfl (fun _ => rfl) hopens
  obtain ⟨rfl, rfl⟩ := hread.unique hdecodes
  have hwritten : [['x']].flatMap transform = ['x', ';', '\n'] := by decide +kernel
  rw [htext rfl, hwritten]
  exact ⟨hopens, rfl⟩

end Semicolon
