import Semicolon.Proofs.Opening

/-!
# Failures after the configuration

Past its configuration a job finds its sources, keeps the output apart from them, opens it, and
reads and writes documents.  Each of these steps can fail, but only in its own way: for a file, a
pattern, a text that is not UTF-8, or a demand that contradicts another.  So the step that failed
can be told from the cause, and no failure of a later step is taken for one of the configuration.

## Main definitions

* `Failure.SparesConfig`: the failure is not about a configuration or its settings.
* `Run.FailsOnly`: all failures of a computation have a property.

## Main statements

* `Run.FailsOnly.bind`: one computation after the other.
* `Source.sparesConfig_of_resolve`, `Job.failsOnly_writeDocuments`, `Job.failsOnly_runInPlace`: the
  steps of a job.
-/

namespace Semicolon

open Run

/-! ## Causes -/

/-- The failure is about something else than a configuration or its settings. -/
def Failure.SparesConfig (failure : Failure) : Prop :=
  failure.cause.category? ≠ some .configuration ∧ failure.cause.category? ≠ some .settings

namespace Failure

@[simp] theorem cause_of (cause : Cause) : (of cause).cause = cause := rfl

@[simp] theorem cause_within (failure : Failure) (context : String) :
    (failure.within context).cause = failure.cause := rfl

/-- Each of the two categories has one kind of cause. -/
theorem sparesConfig_iff {failure : Failure} :
    failure.SparesConfig ↔
      (∀ error, failure.cause ≠ .configuration error) ∧
        ∀ error, failure.cause ≠ .settings error := by
  unfold SparesConfig
  cases failure.cause with
  | input error => cases error <;> simp [Cause.category?, InputError.category]
  | _ => simp [Cause.category?]

theorem sparesConfig_refusal (error : ProcessError) : (Job.refusal error).SparesConfig := by
  simp [sparesConfig_iff, Job.refusal]

end Failure

/-! ## Computations by their failures -/

namespace Run

variable {α β : Type}

/-- Wherever the computation begins, its failures have the property. -/
def FailsOnly (allowed : Failure → Prop) (computation : Run α) : Prop :=
  ∀ world failure, (exec computation world).1 = .error failure → allowed failure

variable {allowed : Failure → Prop}

theorem failsOnly_pure (a : α) : FailsOnly allowed (pure a : Run α) := by
  intro world failure h
  simp at h

theorem failsOnly_fail {failure : Failure} (h : allowed failure) :
    FailsOnly allowed (fail failure : Run α) := by
  intro world other hother
  obtain rfl : failure = other := Except.error.inj hother
  exact h

theorem failsOnly_set (world : World) : FailsOnly allowed (set world : Run PUnit) := by
  intro before failure h
  have hset : exec (set world : Run PUnit) before = (.ok ⟨⟩, world) := rfl
  simp [hset] at h

/-- One computation after the other fails where one of them does. -/
theorem FailsOnly.bind {first : Run α} {next : α → Run β} (hfirst : FailsOnly allowed first)
    (hnext : ∀ a, FailsOnly allowed (next a)) : FailsOnly allowed (first >>= next) := by
  intro world failure h
  rcases hexec : exec first world with ⟨result, between⟩
  cases result with
  | error other =>
    rw [exec_bind_of_error hexec] at h
    obtain rfl : other = failure := Except.error.inj h
    exact hfirst world other (by rw [hexec])
  | ok a =>
    rw [exec_bind_of_ok hexec] at h
    exact hnext a between failure h

theorem failsOnly_get_bind {next : World → Run β} (h : ∀ world, FailsOnly allowed (next world)) :
    FailsOnly allowed (get >>= next) := by
  intro world failure hfailure
  rw [exec_get_bind] at hfailure
  exact h world world failure hfailure

end Run

/-! ## Finding the sources -/

namespace Source

variable {lookup : Lookup} {cause : Cause}

theorem sparesConfig_of_filesNamed {pattern : String}
    (h : filesNamed lookup pattern = .error cause) : (Failure.of cause).SparesConfig := by
  unfold filesNamed at h
  split at h
  · simp at h
  · split at h
    · split at h
      · simp at h
      · simp [Failure.sparesConfig_iff, ← Except.error.inj h]
    · split at h
      · simp at h
      · simp [Failure.sparesConfig_iff, ← Except.error.inj h]

theorem sparesConfig_of_mapM {patterns : List String}
    (h : patterns.mapM (filesNamed lookup) = .error cause) : (Failure.of cause).SparesConfig := by
  induction patterns with
  | nil => simp [pure, Except.pure] at h
  | cons pattern rest ih =>
    rw [List.mapM_cons] at h
    cases hnamed : filesNamed lookup pattern with
    | error other =>
      rw [hnamed] at h
      obtain rfl : other = cause := Except.error.inj h
      exact sparesConfig_of_filesNamed hnamed
    | ok named =>
      cases hrest : rest.mapM (filesNamed lookup) with
      | error other =>
        rw [hnamed, hrest] at h
        obtain rfl : other = cause := Except.error.inj h
        exact ih hrest
      | ok others => simp [hnamed, hrest, bind, Except.bind, pure, Except.pure] at h

/-- Sources that are not found are no matter of the configuration. -/
theorem sparesConfig_of_resolve {patterns : List String}
    (h : resolve lookup patterns = .error cause) : (Failure.of cause).SparesConfig := by
  unfold resolve at h
  split at h
  · simp at h
  · cases hfiles : patterns.mapM (filesNamed lookup) with
    | error other =>
      rw [hfiles] at h
      obtain rfl : other = cause := Except.error.inj h
      exact sparesConfig_of_mapM hfiles
    | ok files =>
      simp only [hfiles, bind, Except.bind] at h
      split at h
      · simp [Failure.sparesConfig_iff, ← Except.error.inj h]
      · simp [pure, Except.pure] at h

end Source

theorem Run.failsOnly_sources (patterns : List String) :
    FailsOnly Failure.SparesConfig (Run.sources patterns) := by
  intro world failure h
  rw [exec_sources] at h
  cases hresolve : Source.resolve world.tree.lookup patterns with
  | ok sources => simp [hresolve, Except.mapError] at h
  | error cause =>
    obtain rfl : Failure.of cause = failure := by simpa [hresolve, Except.mapError] using h
    exact Source.sparesConfig_of_resolve hresolve

theorem Run.failsOnly_writeFile (context : String) (path : Path) (content : Bytes) :
    FailsOnly Failure.SparesConfig (Run.writeFile context path content) := by
  rw [Run.writeFile]
  apply failsOnly_get_bind
  intro world
  cases world.tree.write path content with
  | ok tree => exact failsOnly_set _
  | error error =>
    apply failsOnly_fail
    simp [Failure.sparesConfig_iff]

/-! ## Reading and writing documents -/

namespace Job

theorem sparesConfig_unstaffed (source : Source) (reason : String) :
    (unstaffed source reason).SparesConfig := by
  simp [Failure.sparesConfig_iff, unstaffed]

theorem failsOnly_document (settings : Settings) (source : Source) :
    FailsOnly Failure.SparesConfig (document settings source) := by
  intro world failure h
  rw [exec_document, World.processed] at h
  cases htext : world.text source with
  | error other =>
    obtain rfl : other = failure := by simpa [htext, Except.bind] using h
    cases hread : (source.input world.stdin).read world.tree with
    | ok text => simp [World.text, hread, Except.mapError] at htext
    | error error =>
      simp only [World.text, hread, Except.mapError, Except.error.injEq] at htext
      simp [Failure.sparesConfig_iff, ← htext]
  | ok text =>
    simp only [htext, Except.bind, processed] at h
    split at h
    · rw [← Except.error.inj h]
      exact sparesConfig_unstaffed source _
    · simp at h

theorem failsOnly_emit (sink : Sink) (text : Text) :
    FailsOnly Failure.SparesConfig (emit sink text) := by
  intro world failure h
  cases sink <;> simp [emit, Run.print] at h

/-- The loop fails where a document does, or where it is handed on. -/
theorem failsOnly_eachDocument (settings : Settings) {handOn : Source → Report → Run Unit}
    (h : ∀ source report, FailsOnly Failure.SparesConfig (handOn source report))
    (progress : Progress) (sources : List Source) :
    FailsOnly Failure.SparesConfig (eachDocument settings handOn progress sources) := by
  induction sources generalizing progress with
  | nil => exact failsOnly_pure _
  | cons source rest ih =>
    apply (failsOnly_document settings source).bind
    intro report
    apply (h source report).bind
    intro _
    apply (ih (advance progress source report)).bind
    intro _
    exact failsOnly_pure _

theorem failsOnly_writeDocuments (job : Job) (settings : Settings) (layout : Json.Layout)
    (sink : Sink) (sources : List Source) (format : OutputFormat) :
    FailsOnly Failure.SparesConfig (job.writeDocuments settings layout sink sources format) := by
  apply (failsOnly_eachDocument settings _ _ sources).bind
  · intro result
    refine FailsOnly.bind ?_ fun _ => failsOnly_pure _
    cases format with
    | text => exact failsOnly_pure ()
    | json => exact failsOnly_emit sink _
  · intro source report
    cases format with
    | text => exact failsOnly_emit sink _
    | json => exact failsOnly_pure ()

theorem failsOnly_writeBack (source : Source) (report : Report) :
    FailsOnly Failure.SparesConfig (writeBack source report) := by
  cases source with
  | standardInput => exact failsOnly_pure ()
  | file path => exact failsOnly_writeFile _ path _

theorem failsOnly_runInPlace (job : Job) (settings : Settings) (sources : List Source) :
    FailsOnly Failure.SparesConfig (job.runInPlace settings sources) := by
  unfold runInPlace
  split
  · apply failsOnly_fail
    exact Failure.sparesConfig_refusal _
  · split
    · apply failsOnly_fail
      exact Failure.sparesConfig_refusal _
    · apply (failsOnly_eachDocument settings failsOnly_writeBack _ _).bind
      intro _
      exact failsOnly_pure _

theorem failsOnly_checkApart (job : Job) (sources : List Source) :
    FailsOnly Failure.SparesConfig (job.checkApart sources) := by
  intro world failure h
  unfold checkApart at h
  split at h
  · next output _ =>
    rw [exec_checkOutput] at h
    cases halias : aliasOf? world.tree output sources with
    | none => simp [halias, verdict] at h
    | some path =>
      obtain rfl : refusal (.outputIsInput path) = failure := by
        simpa [halias, verdict] using h
      exact Failure.sparesConfig_refusal _
  · simp at h

theorem failsOnly_openOutput (output : Path) :
    FailsOnly Failure.SparesConfig (openOutput output) := by
  rw [openOutput]
  apply failsOnly_get_bind
  intro world
  split
  · refine FailsOnly.bind (failsOnly_set _) ?_
    intro _
    exact failsOnly_pure _
  · apply failsOnly_fail
    simp [Failure.sparesConfig_iff]

theorem failsOnly_openSink (job : Job) : FailsOnly Failure.SparesConfig job.openSink := by
  unfold openSink
  split
  · next output _ =>
    rw [map_eq_pure_bind]
    apply (failsOnly_openOutput output).bind
    intro place
    exact failsOnly_pure _
  · exact failsOnly_pure none

end Job

end Semicolon
