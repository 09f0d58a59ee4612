import Mathlib.Algebra.GroupWithZero.Nat
import Mathlib.Control.Monad.Basic
import Semicolon.Command.Basic
import Semicolon.Proofs.Dispatch
import Semicolon.Proofs.Layout
import Semicolon.Proofs.Utf8

/-!
# Computations and documents

A computation of a command is followed by what it does to a world: its result and the world it
leaves.

A document is read and processed without changing anything.  Sources are read one after the other,
up to the first whose bytes are not UTF-8.

Whether workers can be had is for the world to say.  Where results depend on it, it is assumed that
they can (`World.Staffed`); a source whose lines are not handed out needs none.

## Main statements

* `Run.exec_bind`: one computation after the other.
* `World.exists_decodes`: how far sources can be read.
* `Job.exec_document`: what becomes of a source.
* `Job.eachDocument_append`: sources are worked off from left to right.
* `Job.counts_of_exec_eachDocument`: what is counted on the way.
-/

namespace Semicolon

/-! ## Computations -/

namespace Run

variable {α β : Type}

/-- The result of a computation and the world after it. -/
def exec (computation : Run α) (world : World) : Except Failure α × World :=
  computation.run world

@[simp] theorem exec_pure (a : α) (world : World) : exec (pure a) world = (.ok a, world) := rfl

@[simp] theorem exec_get (world : World) : exec get world = (.ok world, world) := rfl

@[simp] theorem exec_modify (f : World → World) (world : World) :
    exec (modify f) world = (.ok ⟨⟩, f world) := rfl

@[simp] theorem exec_ofExcept (result : Except Failure α) (world : World) :
    exec (ofExcept result) world = (result, world) := by
  cases result <;> rfl

/-- **One computation after the other**: the second begins in the world that the first leaves, and
does not begin if the first fails. -/
theorem exec_bind (first : Run α) (next : α → Run β) (world : World) :
    exec (first >>= next) world =
      match exec first world with
      | (.ok a, between) => exec (next a) between
      | (.error failure, after) => (.error failure, after) := by
  change (match first.run world with
    | (result, between) => ExceptT.bindCont next result between) = _
  unfold exec
  rcases first.run world with ⟨result, between⟩
  cases result <;> rfl

variable {first : Run α} {next : α → Run β} {world between : World}

theorem exec_bind_of_ok {a : α} (h : exec first world = (.ok a, between)) :
    exec (first >>= next) world = exec (next a) between := by
  rw [exec_bind, h]

theorem exec_bind_of_error {failure : Failure} (h : exec first world = (.error failure, between)) :
    exec (first >>= next) world = (.error failure, between) := by
  rw [exec_bind, h]

/-- Two computations give a result if each of them does. -/
theorem exec_bind_eq_ok_iff {b : β} {after : World} :
    exec (first >>= next) world = (.ok b, after) ↔
      ∃ a between, exec first world = (.ok a, between) ∧
        exec (next a) between = (.ok b, after) := by
  rw [exec_bind]
  rcases exec first world with ⟨result, middle⟩
  cases result with
  | error failure => simp
  | ok a => simp

theorem exec_get_bind (next : World → Run β) (world : World) :
    exec (get >>= next) world = exec (next world) world :=
  exec_bind_of_ok (exec_get world)

/-- The result of a computation that fails so, or else gives `a`. -/
def verdict (failure? : Option Failure) (a : α) : Except Failure α :=
  match failure? with
  | none => .ok a
  | some failure => .error failure

end Run

open Run

theorem Command.outcome_eq (command : Command) (world : World) :
    command.outcome world =
      match exec command.run world with
      | (.ok _, after) => (none, after)
      | (.error failure, after) => (some failure, after) := rfl

/-- A job as a command: its progress is not looked at. -/
theorem Command.outcome_process (job : Job) (world : World) :
    (process job).outcome world =
      match exec job.run world with
      | (.ok _, after) => (none, after)
      | (.error failure, after) => (some failure, after) := by
  rw [outcome_eq, Command.run, exec_bind]
  rcases exec job.run world with ⟨result, after⟩
  cases result <;> rfl

theorem Command.outcome_process_of_exec {job : Job} {world after : World} {progress : Progress}
    {failure? : Option Failure} (h : exec job.run world = (verdict failure? progress, after)) :
    (process job).outcome world = (failure?, after) := by
  rw [outcome_process, h]
  cases failure? <;> rfl

theorem Command.outcome_process_of_error {job : Job} {world after : World} {failure : Failure}
    (h : exec job.run world = (.error failure, after)) :
    (process job).outcome world = (some failure, after) := by
  rw [outcome_process, h]

theorem Command.world_outcome_process (job : Job) (world : World) :
    ((process job).outcome world).2 = (exec job.run world).2 := by
  rw [outcome_process]
  rcases exec job.run world with ⟨result, after⟩
  cases result <;> rfl

/-! ## Reading sources -/

/-- Where the bytes of a source come from. -/
def Source.origin : Source → Origin
  | .standardInput => .stream
  | .file path => .file path

namespace World

/-- The bytes of a source. -/
def bytes (world : World) : Source → Except FileError Bytes
  | .standardInput => .ok world.stdin
  | .file path => world.tree.read path

/-- The failure to process a source whose bytes are not UTF-8. -/
def undecodable (source : Source) (defect : Utf8.Defect) : Failure where
  contexts := ["Failed to process " ++ source.name]
  cause := .input (.notUtf8 source.origin defect)

/-- How far sources can be read: the texts of all, or of those before the first whose bytes are not
UTF-8, and the failure to process that one. -/
inductive Decodes (world : World) : List Source → List Text → Option Failure → Prop
  | nil : Decodes world [] [] none
  | stuck {source : Source} {rest : List Source} {bytes : Bytes} {defect : Utf8.Defect}
    (hbytes : world.bytes source = .ok bytes) (hdefect : Utf8.decode bytes = .error defect) :
    Decodes world (source :: rest) [] (some (undecodable source defect))
  | cons {source : Source} {rest : List Source} {text : Text} {texts : List Text}
    {failure? : Option Failure} (hbytes : world.bytes source = .ok (Utf8.encode text))
    (hrest : Decodes world rest texts failure?) :
    Decodes world (source :: rest) (text :: texts) failure?

variable {world : World}

theorem exists_decodes {sources : List Source}
    (h : ∀ source ∈ sources, ∃ bytes, world.bytes source = .ok bytes) :
    ∃ texts failure?, world.Decodes sources texts failure? := by
  induction sources with
  | nil => exact ⟨[], none, .nil⟩
  | cons source rest ih =>
    obtain ⟨⟨bytes, hbytes⟩, hrest⟩ := List.forall_mem_cons.1 h
    cases hdecode : Utf8.decode bytes with
    | error defect => exact ⟨[], _, .stuck hbytes hdecode⟩
    | ok text =>
      rw [Utf8.decode_eq_ok_iff.1 hdecode] at hbytes
      obtain ⟨texts, failure?, hdecodes⟩ := ih hrest
      exact ⟨text :: texts, failure?, .cons hbytes hdecodes⟩

namespace Decodes

variable {sources : List Source} {texts : List Text} {failure? : Option Failure}

/-- Nothing fails if and only if every source gives its text. -/
theorem eq_none_iff (h : world.Decodes sources texts failure?) :
    failure? = none ↔ texts.length = sources.length := by
  induction h with
  | nil => simp
  | stuck => simp
  | cons _ _ ih => simpa using ih

theorem bytes_getElem? (h : world.Decodes sources texts failure?) {i : Nat} {text : Text}
    (htext : texts[i]? = some text) :
    ∃ source, sources[i]? = some source ∧ world.bytes source = .ok (Utf8.encode text) := by
  induction h generalizing i with
  | nil => simp at htext
  | stuck => simp at htext
  | cons hbytes _ ih =>
    cases i with
    | zero =>
      obtain rfl := Option.some.inj htext
      exact ⟨_, rfl, hbytes⟩
    | succ i => exact ih (by simpa using htext)

/-- The first source without a text has bytes that encode none, and is named by the failure. -/
theorem failure?_of_getElem? (h : world.Decodes sources texts failure?) {source : Source}
    (hsource : sources[texts.length]? = some source) :
    ∃ bytes defect, world.bytes source = .ok bytes ∧ (∀ text, bytes ≠ Utf8.encode text) ∧
      failure? = some (undecodable source defect) := by
  induction h with
  | nil => simp at hsource
  | @stuck first rest bytes defect hbytes hdefect =>
    obtain rfl : first = source := by simpa using hsource
    refine ⟨bytes, defect, hbytes, ?_, rfl⟩
    intro text heq
    rw [heq, Utf8.decode_encode] at hdefect
    exact absurd hdefect (by simp)
  | cons _ _ ih => exact ih (by simpa using hsource)

/-- Sources can be read in one way only. -/
theorem unique {others : List Text} {other? : Option Failure}
    (h : world.Decodes sources texts failure?) (h' : world.Decodes sources others other?) :
    texts = others ∧ failure? = other? := by
  induction h generalizing others other? with
  | nil =>
    cases h' with
    | nil => exact ⟨rfl, rfl⟩
  | stuck hbytes hdefect =>
    cases h' with
    | stuck hbytes' hdefect' =>
      obtain rfl := Except.ok.inj (hbytes.symm.trans hbytes')
      obtain rfl := Except.error.inj (hdefect.symm.trans hdefect')
      exact ⟨rfl, rfl⟩
    | cons hbytes' hrest' =>
      obtain rfl := Except.ok.inj (hbytes.symm.trans hbytes')
      rw [Utf8.decode_encode] at hdefect
      exact absurd hdefect (by simp)
  | cons hbytes hrest ih =>
    cases h' with
    | stuck hbytes' hdefect' =>
      obtain rfl := Except.ok.inj (hbytes.symm.trans hbytes')
      rw [Utf8.decode_encode] at hdefect'
      exact absurd hdefect' (by simp)
    | cons hbytes' hrest' =>
      obtain rfl := Utf8.encode_injective (Except.ok.inj (hbytes.symm.trans hbytes'))
      obtain ⟨rfl, rfl⟩ := ih hrest'
      exact ⟨rfl, rfl⟩

end Decodes

end World

/-! ## Documents -/

namespace World

/-- The text of a source, or the failure to process it. -/
def text (world : World) (source : Source) : Except Failure Text :=
  ((source.input world.stdin).read world.tree).mapError fun error =>
    (Failure.of (.input error)).within ("Failed to process " ++ source.name)

variable {world : World} {source : Source} {bytes : Bytes}

theorem read_input (h : world.bytes source = .ok bytes) :
    (source.input world.stdin).read world.tree =
      (Utf8.decode bytes).mapError (.notUtf8 source.origin) := by
  cases source with
  | standardInput =>
    obtain rfl : world.stdin = bytes := by simpa [World.bytes] using h
    simp [Source.input, Input.read, Input.decode, Source.origin]
  | file path =>
    have hread : world.tree.read path = .ok bytes := h
    simp [Source.input, Input.read, hread, Input.decode, Source.origin]

theorem text_of_encode {text : Text} (h : world.bytes source = .ok (Utf8.encode text)) :
    world.text source = .ok text := by
  simp [World.text, read_input h, Except.mapError]

theorem text_of_defect {defect : Utf8.Defect} (h : world.bytes source = .ok bytes)
    (hdefect : Utf8.decode bytes = .error defect) :
    world.text source = .error (undecodable source defect) := by
  simp [World.text, read_input h, hdefect, Except.mapError, undecodable, Failure.of,
    Failure.within]

end World

namespace Job

/-- The report of a source that has a text. -/
def report (settings : Settings) (time : Source → Json.Value) (source : Source) (text : Text) :
    Report where
  source := source.name.toList
  result := .ofText settings text
  time := time source

theorem text_report (settings : Settings) (time : Source → Json.Value) (source : Source)
    (text : Text) : (report settings time source text).result.text = transform text :=
  Transformation.text_ofText settings text

theorem tally_report (settings : Settings) (time : Source → Json.Value) (source : Source)
    (text : Text) : (report settings time source text).result.tally = .ofLines (lines text) :=
  Transformation.tally_ofText settings text

end Job

namespace World

/-- Workers can be had for the document of every source. -/
def Staffed (world : World) : Prop :=
  ∀ source, world.poolFailure? source = none

/-- The report of a source, or the failure to process it. -/
def processed (world : World) (settings : Settings) (source : Source) : Except Failure Report :=
  (world.text source).bind (Job.processed world settings source)

variable {world : World} {source : Source}

theorem processed_of_encode (hstaffed : world.Staffed) (settings : Settings) {text : Text}
    (h : world.bytes source = .ok (Utf8.encode text)) :
    world.processed settings source = .ok (Job.report settings world.time source text) := by
  simp [processed, text_of_encode h, Except.bind, Job.processed, hstaffed source, Job.report]

theorem processed_of_defect (settings : Settings) {bytes : Bytes} {defect : Utf8.Defect}
    (h : world.bytes source = .ok bytes) (hdefect : Utf8.decode bytes = .error defect) :
    world.processed settings source = .error (undecodable source defect) := by
  simp [processed, text_of_defect h hdefect, Except.bind]

end World

namespace Job

/-- **Processing a source changes nothing.** -/
theorem exec_document (settings : Settings) (source : Source) (world : World) :
    exec (document settings source) world = (world.processed settings source, world) := by
  have htext : exec (Run.textOf "Failed to process" source) world = (world.text source, world) := by
    rw [Run.textOf, exec_get_bind, exec_ofExcept]
    rfl
  unfold document World.processed
  cases h : world.text source with
  | error failure =>
    rw [exec_bind_of_error (h ▸ htext)]
    rfl
  | ok text =>
    rw [exec_bind_of_ok (h ▸ htext), exec_get_bind, exec_ofExcept]
    rfl

/-! ## One document after the other -/

end Job

namespace Progress

/-- From `before` to `after`, files with these numbers of terminators were finished. -/
structure Counts (before : Progress) (terminators : List Nat) (after : Progress) : Prop where
  files_eq : after.files? = before.files?
  finished_eq :
    after.finished = before.finished + if before.files?.isSome then terminators.length else 0
  terminated_eq : after.terminated = before.terminated + terminators.sum

theorem Counts.nil (progress : Progress) : progress.Counts [] progress := by
  refine ⟨rfl, ?_, rfl⟩
  split <;> rfl

/-- One more file at the front. -/
theorem Counts.cons {before after : Progress} {name : String} {count : Nat} {terminators : List Nat}
    (h : (before.step (.file name count)).Counts terminators after) :
    before.Counts (count :: terminators) after := by
  obtain ⟨hfiles, hfinished, hterminated⟩ := h
  refine ⟨hfiles, ?_, ?_⟩
  · cases hshown : before.files? with
    | none => simpa [step, hshown] using hfinished
    | some total =>
      simp only [step, hshown, Option.isSome_some, if_true] at hfinished
      simp only [Option.isSome_some, if_true, List.length_cons]
      omega
  · simp only [step] at hterminated
    rw [hterminated, List.sum_cons]
    omega

end Progress

namespace Job

section Loop

variable (settings : Settings) (handOn : Source → Report → Run Unit)

/-- **Sources are worked off from left to right.** -/
theorem eachDocument_append (progress : Progress) (before after : List Source) :
    eachDocument settings handOn progress (before ++ after) = (do
      let (earlier, between) ← eachDocument settings handOn progress before
      let (later, last) ← eachDocument settings handOn between after
      return (earlier ++ later, last)) := by
  induction before generalizing progress with
  | nil => simp [eachDocument]
  | cons source rest ih => simp [eachDocument, ih]

variable {settings handOn}

/-- **Every document is counted once**, with its terminators. -/
theorem counts_of_exec_eachDocument {sources : List Source} {progress last : Progress}
    {world after : World} {reports : List Report}
    (h : exec (eachDocument settings handOn progress sources) world =
      (.ok (reports, last), after)) :
    reports.length = sources.length ∧
      progress.Counts (reports.map (·.result.tally.terminated)) last := by
  induction sources generalizing progress world after reports with
  | nil =>
    obtain ⟨⟨rfl, rfl⟩, -⟩ : ([] = reports ∧ progress = last) ∧ world = after := by
      simpa [eachDocument] using h
    exact ⟨rfl, .nil progress⟩
  | cons source rest ih =>
    rw [eachDocument, exec_bind_eq_ok_iff] at h
    obtain ⟨report, _, -, h⟩ := h
    rw [exec_bind_eq_ok_iff] at h
    obtain ⟨_, _, -, h⟩ := h
    rw [exec_bind_eq_ok_iff] at h
    obtain ⟨⟨others, final⟩, _, hrest, h⟩ := h
    obtain ⟨⟨rfl, rfl⟩, -⟩ : (report :: others = reports ∧ final = last) ∧ _ = after := by
      simpa using h
    obtain ⟨hlength, hcounts⟩ := ih hrest
    exact ⟨by simp [hlength], hcounts.cons⟩

end Loop

end Job

end Semicolon
