import Semicolon.Proofs.Delivery
import Semicolon.Proofs.Transform

/-!
# Rewriting in place

A job that works in place reads its sources one after the other and writes each back before it
reads the next.  The same file may come up again under another path.  It is then read as it was
rewritten; since a processed text is not changed by processing it again, it is rewritten to what
it holds already.  Bytes that are not UTF-8 stop the job and stay as they are.

Rewriting keeps the layout of the tree, so every path leads to where it led before.

## Main statements

* `rewritten_rewritten`: rewriting a second time changes nothing.
* `FileTree.Rewritten.put`: what one step of the loop preserves.
* `Job.exec_eachDocument_writeBack`: what the loop leaves.
-/

namespace Semicolon

open Run

/-! ## Contents -/

/-- What the bytes of a file become: processed if they are a text, and the same otherwise. -/
def rewritten (bytes : Bytes) : Bytes :=
  match Utf8.decode bytes with
  | .ok text => Utf8.encode (transform text)
  | .error _ => bytes

@[simp] theorem rewritten_encode (text : Text) :
    rewritten (Utf8.encode text) = Utf8.encode (transform text) := by
  simp [rewritten]

theorem rewritten_of_defect {bytes : Bytes} {defect : Utf8.Defect}
    (h : Utf8.decode bytes = .error defect) : rewritten bytes = bytes := by
  simp [rewritten, h]

theorem rewritten_of_ne {bytes : Bytes} (h : ∀ text, bytes ≠ Utf8.encode text) :
    rewritten bytes = bytes := by
  cases hdecode : Utf8.decode bytes with
  | error defect => exact rewritten_of_defect hdecode
  | ok text => exact absurd (Utf8.decode_eq_ok_iff.1 hdecode) (h text)

/-- **Rewriting a second time changes nothing.** -/
theorem rewritten_rewritten (bytes : Bytes) : rewritten (rewritten bytes) = rewritten bytes := by
  cases h : Utf8.decode bytes with
  | error defect => rw [rewritten_of_defect h, rewritten_of_defect h]
  | ok text =>
    rw [Utf8.decode_eq_ok_iff.1 h, rewritten_encode, rewritten_encode, transform_transform]

/-! ## Trees -/

namespace FileTree

/-- A source in the list leads to the place. -/
def Reaches (tree : FileTree) (sources : List Source) (place : Location) : Prop :=
  ∃ path, .file path ∈ sources ∧ tree.locate path = .ok place

/-- The tree `now` is `tree` with the files rewritten that the sources lead to, and no others. -/
structure Rewritten (tree : FileTree) (sources : List Source) (now : FileTree) : Prop where
  layout : tree.SameLayout now
  reached : ∀ place, tree.Reaches sources place →
    now.content? place = (tree.content? place).map rewritten
  unreached : ∀ place, ¬ tree.Reaches sources place → now.content? place = tree.content? place

variable {tree now : FileTree} {done : List Source} {path : Path} {place : Location}

theorem Rewritten.refl (tree : FileTree) : tree.Rewritten [] tree where
  layout := .refl tree
  reached place h := by simp [Reaches] at h
  unreached _ _ := rfl

/-- A file holds its bytes or what they become. -/
theorem Rewritten.content?_eq (h : tree.Rewritten done now) {bytes : Bytes}
    (hbytes : tree.content? place = some bytes) :
    now.content? place = some bytes ∨ now.content? place = some (rewritten bytes) := by
  by_cases hreached : tree.Reaches done place
  · right
    rw [h.reached place hreached, hbytes]
    rfl
  · left
    rw [h.unreached place hreached, hbytes]

theorem reaches_append_singleton {other : Location} (hplace : tree.locate path = .ok place) :
    tree.Reaches (done ++ [.file path]) other ↔ other = place ∨ tree.Reaches done other := by
  constructor
  · rintro ⟨found, hmem, hfound⟩
    rcases List.mem_append.1 hmem with hmem | hmem
    · exact .inr ⟨found, hmem, hfound⟩
    · obtain rfl : found = path := by simpa using hmem
      exact .inl (Except.ok.inj (hfound.symm.trans hplace))
  · rintro (rfl | ⟨found, hmem, hfound⟩)
    · exact ⟨path, by simp, hplace⟩
    · exact ⟨found, by simp [hmem], hfound⟩

/-- **One more file is rewritten**, whether or not it was before. -/
theorem Rewritten.put (h : tree.Rewritten done now) (hplace : tree.locate path = .ok place)
    {bytes : Bytes} (hbytes : tree.content? place = some bytes) :
    tree.Rewritten (done ++ [.file path]) (now.put place (rewritten bytes)) := by
  have hmem : place ∈ now.places := by
    rw [← h.layout.places, mem_places_iff, hbytes]
    rfl
  refine ⟨h.layout.trans (.put hmem _), ?_, ?_⟩
  · intro other hreaches
    rw [content?_put_eq_if (admits_of_mem_places hmem)]
    by_cases hother : other = place
    · rw [if_pos hother, hother, hbytes]
      rfl
    · rw [if_neg hother]
      exact h.reached other (((reaches_append_singleton hplace).1 hreaches).resolve_left hother)
  · intro other hreaches
    rw [reaches_append_singleton hplace, not_or] at hreaches
    rw [content?_put_of_ne hreaches.1]
    exact h.unreached other hreaches.2

/-- Rewriting files again that were rewritten changes none of them. -/
theorem Rewritten.content?_again (h : tree.Rewritten done now) {again : List Source}
    (hagain : ∀ source ∈ again, source ∈ done) {after : FileTree} (h' : now.Rewritten again after)
    (place : Location) : after.content? place = now.content? place := by
  by_cases hreaches : now.Reaches again place
  · obtain ⟨path, hmem, hlocate⟩ := hreaches
    have hbefore : tree.Reaches done place :=
      ⟨path, hagain _ hmem, h.layout.locate_eq ▸ hlocate⟩
    rw [h'.reached place ⟨path, hmem, hlocate⟩, h.reached place hbefore, Option.map_map]
    congr 1
    funext bytes
    exact rewritten_rewritten bytes
  · exact h'.unreached place hreaches

end FileTree

/-! ## The loop -/

theorem Run.exec_writeFile (world : World) {path : Path} {place : Location}
    (h : world.tree.target path = .ok place) (context : String) (content : Bytes) :
    exec (Run.writeFile context path content) world =
      (.ok (), { world with tree := world.tree.put place content }) := by
  rw [Run.writeFile, exec_get_bind, FileTree.write, h]
  rfl

namespace World

/-- What was processed had a text. -/
theorem exists_text_of_processed {world : World} {settings : Settings} {source : Source}
    {report : Report} (h : world.processed settings source = .ok report)
    {bytes : Bytes} (hbytes : world.bytes source = .ok bytes) :
    ∃ text, bytes = Utf8.encode text ∧ report.result.text = transform text := by
  cases hdecode : Utf8.decode bytes with
  | error defect =>
    rw [processed_of_defect settings hbytes hdecode] at h
    simp at h
  | ok text =>
    obtain rfl := Utf8.decode_eq_ok_iff.1 hdecode
    refine ⟨text, rfl, ?_⟩
    have hresult : report.result = .ofText settings text := by
      simp only [processed, text_of_encode hbytes, Except.bind, Job.processed] at h
      split at h
      · simp at h
      · rw [← Except.ok.inj h]
    rw [hresult, Transformation.text_ofText]

end World

namespace Job

variable {world : World} {sources done : List Source} {now : FileTree} {path : Path}
  {place : Location} {texts : List Text} {failure? : Option Failure} {settings : Settings}

/-- **One step of the loop**: the file is rewritten, to what its bytes become.  If it has been
before, it holds that already. -/
theorem exists_exec_writeBack (h : world.tree.Rewritten done now)
    (hplace : world.tree.locate path = .ok place) {bytes : Bytes}
    (hcontent : world.tree.content? place = some bytes) {report : Report}
    (hprocessed : World.processed { world with tree := now } settings (.file path) = .ok report) :
    ∃ next, world.tree.Rewritten (done ++ [.file path]) next ∧
      exec (writeBack (.file path) report) { world with tree := now } =
        (.ok (), { world with tree := next }) := by
  have hmem : place ∈ now.places := by
    rw [← h.layout.places, FileTree.mem_places_iff, hcontent]
    rfl
  have hnow : now.locate path = .ok place := h.layout.locate_eq ▸ hplace
  obtain ⟨held, hheld⟩ := Option.isSome_iff_exists.1 (FileTree.mem_places_iff.1 hmem)
  have hbytes : World.bytes { world with tree := now } (.file path) = .ok held :=
    FileTree.read_eq_ok_iff.2 ⟨place, hnow, hheld⟩
  obtain ⟨text, rfl, htext⟩ := World.exists_text_of_processed hprocessed hbytes
  have hbecomes : Utf8.encode report.result.text = rewritten bytes := by
    rw [htext, ← rewritten_encode]
    rcases h.content?_eq hcontent with hsame | hbecame
    · rw [Option.some.inj (hheld.symm.trans hsame)]
    · rw [Option.some.inj (hheld.symm.trans hbecame), rewritten_rewritten]
  refine ⟨_, h.put hplace hcontent, ?_⟩
  have hwrite := exec_writeFile { world with tree := now } (FileTree.target_of_locate hnow hmem)
    "Failed to write file: " (Utf8.encode report.result.text)
  rw [hbecomes] at hwrite
  change exec (Run.writeFile "Failed to write file: " path (Utf8.encode report.result.text)) _ = _
  rw [hbecomes]
  exact hwrite

/-- Whatever happens in the loop, some of the files are rewritten and no others. -/
theorem exists_rewritten_of_exec_eachDocument (settings : Settings) (progress : Progress)
    (hfiles : ∀ source ∈ sources, ∃ path place, source = .file path ∧
      world.tree.locate path = .ok place ∧ place ∈ world.tree.places)
    (h : world.tree.Rewritten done now) :
    ∃ more after, (∀ source ∈ more, source ∈ sources) ∧
      world.tree.Rewritten (done ++ more) after ∧
      (exec (eachDocument settings writeBack progress sources) { world with tree := now }).2 =
        { world with tree := after } := by
  induction sources generalizing progress done now with
  | nil => exact ⟨[], now, by simp, by simpa using h, rfl⟩
  | cons source rest ih =>
    obtain ⟨⟨path, place, rfl, hplace, hmem⟩, hrest⟩ := List.forall_mem_cons.1 hfiles
    have hdocument := exec_document settings (.file path) { world with tree := now }
    rw [eachDocument]
    cases hprocessed : World.processed { world with tree := now } settings (.file path) with
    | error failure =>
      rw [hprocessed] at hdocument
      rw [exec_bind_of_error hdocument]
      exact ⟨[], now, by simp, by simpa using h, rfl⟩
    | ok report =>
      rw [hprocessed] at hdocument
      obtain ⟨bytes, hcontent⟩ := Option.isSome_iff_exists.1 (FileTree.mem_places_iff.1 hmem)
      obtain ⟨next, hnext, hwrite⟩ := exists_exec_writeBack h hplace hcontent hprocessed
      obtain ⟨more, after, hmore, hafter, hloop⟩ :=
        ih (advance progress (.file path) report) hrest hnext
      refine ⟨.file path :: more, after, ?_, by simpa using hafter, ?_⟩
      · exact List.forall_mem_cons.2
          ⟨List.mem_cons_self, fun source hmem => List.mem_cons_of_mem _ (hmore source hmem)⟩
      · rw [exec_bind_of_ok hdocument, exec_bind_of_ok hwrite, exec_bind]
        split
        · next hresult => simpa [hresult] using hloop
        · next hresult => simpa [hresult] using hloop

/-- A file is read as its text, or as what that became before. -/
theorem exists_bytes_of_rewritten (h : world.tree.Rewritten done now) {text : Text}
    (hbytes : world.bytes (.file path) = .ok (Utf8.encode text)) :
    ∃ current, World.bytes { world with tree := now } (.file path) =
      .ok (Utf8.encode current) := by
  obtain ⟨place, hplace, hcontent⟩ := FileTree.read_eq_ok_iff.1 hbytes
  have hnow : now.locate path = .ok place := h.layout.locate_eq ▸ hplace
  rcases h.content?_eq hcontent with hsame | hbecame
  · exact ⟨text, FileTree.read_eq_ok_iff.2 ⟨place, hnow, hsame⟩⟩
  · rw [rewritten_encode] at hbecame
    exact ⟨transform text, FileTree.read_eq_ok_iff.2 ⟨place, hnow, hbecame⟩⟩

/-- Bytes that are not UTF-8 are still there. -/
theorem bytes_of_rewritten (h : world.tree.Rewritten done now) {bytes : Bytes}
    {defect : Utf8.Defect} (hbytes : world.bytes (.file path) = .ok bytes)
    (hdefect : Utf8.decode bytes = .error defect) :
    World.bytes { world with tree := now } (.file path) = .ok bytes := by
  obtain ⟨place, hplace, hcontent⟩ := FileTree.read_eq_ok_iff.1 hbytes
  have hnow : now.locate path = .ok place := h.layout.locate_eq ▸ hplace
  have hsame := h.content?_eq hcontent
  rw [rewritten_of_defect hdefect, or_self] at hsame
  exact FileTree.read_eq_ok_iff.2 ⟨place, hnow, hsame⟩

/-- **The files before the first that is no text are rewritten**, and no others. -/
theorem exec_eachDocument_writeBack (settings : Settings) (progress : Progress)
    (hstaffed : world.Staffed) (hdecodes : world.Decodes sources texts failure?)
    (hfiles : .standardInput ∉ sources) (h : world.tree.Rewritten done now) :
    ∃ after result, world.tree.Rewritten (done ++ sources.take texts.length) after ∧
      exec (eachDocument settings writeBack progress sources) { world with tree := now } =
        (verdict failure? result, { world with tree := after }) := by
  induction hdecodes generalizing progress done now with
  | nil => exact ⟨now, ([], progress), by simpa using h, rfl⟩
  | @stuck source rest bytes defect hbytes hdefect =>
    cases source with
    | standardInput => simp at hfiles
    | file path =>
      have hdocument := exec_document settings (.file path) { world with tree := now }
      rw [World.processed_of_defect settings (bytes_of_rewritten h hbytes hdefect) hdefect]
        at hdocument
      refine ⟨now, ([], progress), by simpa using h, ?_⟩
      rw [eachDocument, exec_bind_of_error hdocument]
      rfl
  | @cons source rest text texts failure? hbytes hrest ih =>
    cases source with
    | standardInput => simp at hfiles
    | file path =>
      obtain ⟨current, hcurrent⟩ := exists_bytes_of_rewritten h hbytes
      obtain ⟨place, hplace, hcontent⟩ := FileTree.read_eq_ok_iff.1 hbytes
      have hpool : World.Staffed { world with tree := now } := hstaffed
      obtain ⟨report, hprocessed⟩ : ∃ report,
          World.processed { world with tree := now } settings (.file path) = .ok report :=
        ⟨_, World.processed_of_encode hpool settings hcurrent⟩
      have hdocument := exec_document settings (.file path) { world with tree := now }
      rw [hprocessed] at hdocument
      obtain ⟨next, hnext, hwrite⟩ := exists_exec_writeBack h hplace hcontent hprocessed
      obtain ⟨after, ⟨reports, last⟩, hafter, hloop⟩ :=
        ih (advance progress (.file path) report) (List.not_mem_of_not_mem_cons hfiles) hnext
      refine ⟨after, (report :: reports, last), by simpa using hafter, ?_⟩
      rw [eachDocument, exec_bind_of_ok hdocument, exec_bind_of_ok hwrite, exec_bind, hloop]
      cases failure? with
      | none => rfl
      | some failure => rfl

variable {job : Job} {config : Config}

/-- Standard input has no place, and a report is no source text. -/
theorem exec_runInPlace_of_refused (settings : Settings) (world : World)
    (h : .standardInput ∈ sources ∨ job.format? = some .json) :
    ∃ error, exec (job.runInPlace settings sources) world = (.error (refusal error), world) := by
  unfold runInPlace
  by_cases hmem : sources.contains .standardInput = true
  · rw [if_pos hmem]
    exact ⟨_, rfl⟩
  · have hformat : job.format? = some .json := h.resolve_left (by simpa using hmem)
    rw [if_neg hmem, if_pos hformat]
    exact ⟨_, rfl⟩

theorem runInPlace_eq (settings : Settings) (hfiles : .standardInput ∉ sources)
    (hformat : job.format? ≠ some .json) :
    job.runInPlace settings sources = (do
      let (_, progress) ← eachDocument settings writeBack (job.startProgress sources) sources
      return progress.step .finish) := by
  rw [runInPlace, if_neg (by simpa using hfiles), if_neg hformat, filter_isSome_path? hfiles]

/-- **What a job that works in place leaves**, and whether it fails. -/
theorem Ready.exists_rewritten (h : job.Ready world.tree config settings sources)
    (hplace : job.inPlace = true) (hstaffed : world.Staffed) (hfiles : .standardInput ∉ sources)
    (hformat : job.format? ≠ some .json) :
    ∃ texts failure? after progress, world.Decodes sources texts failure? ∧
      world.tree.Rewritten (sources.take texts.length) after ∧
      exec job.run world = (verdict failure? progress, { world with tree := after }) := by
  obtain ⟨texts, failure?, hdecodes⟩ := World.exists_decodes fun _ => h.exists_bytes
  obtain ⟨after, ⟨reports, last⟩, hafter, hloop⟩ := exec_eachDocument_writeBack settings
    (job.startProgress sources) hstaffed hdecodes hfiles (.refl world.tree)
  refine ⟨texts, failure?, after, last.step .finish, hdecodes, hafter, ?_⟩
  rw [h.exec_run, hplace, if_pos rfl, runInPlace_eq settings hfiles hformat, exec_bind, hloop]
  cases failure? with
  | none => rfl
  | some failure => rfl

/-- Whatever happens to a job that works in place, some of its sources are rewritten and no other
files. -/
theorem Ready.exists_rewritten_subset (h : job.Ready world.tree config settings sources)
    (hplace : job.inPlace = true) (hfiles : .standardInput ∉ sources)
    (hformat : job.format? ≠ some .json) :
    ∃ done after, (∀ source ∈ done, source ∈ sources) ∧ world.tree.Rewritten done after ∧
      (exec job.run world).2 = { world with tree := after } := by
  have hlocated : ∀ source ∈ sources, ∃ path place, source = .file path ∧
      world.tree.locate path = .ok place ∧ place ∈ world.tree.places := by
    intro source hmem
    cases source with
    | standardInput => exact absurd hmem hfiles
    | file path =>
      obtain ⟨place, hlocate, hthere⟩ :=
        FileTree.isFile_iff.1 (Source.isFile_of_mem_resolve h.sources_eq hmem)
      exact ⟨path, place, rfl, hlocate, hthere⟩
  obtain ⟨done, after, hdone, hafter, hloop⟩ := exists_rewritten_of_exec_eachDocument settings
    (job.startProgress sources) hlocated (.refl world.tree)
  refine ⟨done, after, hdone, hafter, ?_⟩
  rw [h.exec_run, hplace, if_pos rfl, runInPlace_eq settings hfiles hformat, exec_bind]
  split
  · next hresult => simpa [hresult] using hloop
  · next hresult => simpa [hresult] using hloop

/-- A source with a text leads to a file that is rewritten. -/
theorem content?_of_text (hdecodes : world.Decodes sources texts failure?) {after : FileTree}
    (hafter : world.tree.Rewritten (sources.take texts.length) after) {i : Nat} {text : Text}
    {place : Location} (hsource : sources[i]? = some (.file path)) (htext : texts[i]? = some text)
    (hplace : world.tree.locate path = .ok place) :
    world.tree.content? place = some (Utf8.encode text) ∧
      after.content? place = some (Utf8.encode (transform text)) := by
  obtain ⟨source, hsource', hbytes⟩ := hdecodes.bytes_getElem? htext
  obtain rfl : source = .file path := by simpa [hsource] using hsource'.symm
  have hcontent : world.tree.content? place = some (Utf8.encode text) :=
    FileTree.content?_of_read hplace hbytes
  have hlt : i < texts.length := (List.getElem?_eq_some_iff.1 htext).1
  have hreaches : world.tree.Reaches (sources.take texts.length) place :=
    ⟨path, List.mem_iff_getElem?.2 ⟨i, by rwa [List.getElem?_take_of_lt hlt]⟩, hplace⟩
  refine ⟨hcontent, ?_⟩
  rw [hafter.reached place hreaches, hcontent, Option.map_some, rewritten_encode]

/-- The source that stopped the job leads to a file that is as it was. -/
theorem content?_of_stuck (hdecodes : world.Decodes sources texts failure?) {after : FileTree}
    (hafter : world.tree.Rewritten done after) {place : Location}
    (hsource : sources[texts.length]? = some (.file path))
    (hplace : world.tree.locate path = .ok place) :
    (∀ text, world.tree.content? place ≠ some (Utf8.encode text)) ∧
      after.content? place = world.tree.content? place := by
  obtain ⟨bytes, defect, hbytes, hnot, -⟩ := hdecodes.failure?_of_getElem? hsource
  have hcontent : world.tree.content? place = some bytes := FileTree.content?_of_read hplace hbytes
  refine ⟨?_, ?_⟩
  · intro text heq
    rw [hcontent] at heq
    exact hnot text (Option.some.inj heq)
  · have hsame := hafter.content?_eq hcontent
    rw [rewritten_of_ne hnot, or_self] at hsame
    rw [hsame, hcontent]

/-- A job for one file prints what the text of the file becomes. -/
theorem outcome_process_of_content? {single : Job} (hplace : single.inPlace = false)
    (hstaffed : world.Staffed)
    (h : single.Opens world.tree config settings [.file path] .text none)
    {place : Location} (hlocate : world.tree.locate path = .ok place) {text : Text}
    (hcontent : world.tree.content? place = some (Utf8.encode text)) :
    (Command.process single).outcome world =
      (none, { world with stdout := world.stdout ++ transform text }) := by
  have hbytes : world.bytes (.file path) = .ok (Utf8.encode text) :=
    FileTree.read_eq_ok_iff.2 ⟨place, hlocate, hcontent⟩
  rw [h.outcome_process hplace hstaffed (.cons hbytes .nil)]
  simp [World.deliver, delivered]

/-- Where all sources have been rewritten, working in place changes nothing. -/
theorem content?_exec_run_of_rewritten {tree : FileTree}
    (hplace : job.inPlace = true) (hsources : Source.resolve tree.lookup job.inputs = .ok sources)
    (h : tree.Rewritten sources world.tree) (place : Location) :
    (exec job.run world).2.tree.content? place = world.tree.content? place := by
  by_cases hready : ∃ config settings found, job.Ready world.tree config settings found
  · obtain ⟨config, settings, found, hready⟩ := hready
    -- The layout is the same, so the same sources are found.
    obtain rfl : found = sources := by
      have hfound := hready.sources_eq
      rw [← h.layout.lookup_eq, hsources] at hfound
      exact (Except.ok.inj hfound).symm
    by_cases hrefused : .standardInput ∈ found ∨ job.format? = some .json
    · obtain ⟨error, herror⟩ := exec_runInPlace_of_refused settings world hrefused
      rw [hready.exec_run, hplace, if_pos rfl, herror]
    · rw [not_or] at hrefused
      obtain ⟨done, after, hdone, hafter, hrun⟩ :=
        hready.exists_rewritten_subset hplace hrefused.1 hrefused.2
      rw [hrun]
      exact h.content?_again hdone hafter place
  · simp only [not_exists] at hready
    obtain ⟨failure, hrun⟩ := exec_run_of_not_ready hready
    rw [hrun]

end Job

/-- **In place, every file gets what its text becomes.**  With standard input among the sources, or
with reports asked for, the job is refused.  Otherwise the sources have texts up to the first whose
bytes are not UTF-8, and the job succeeds if there is no such source.  Each file that a source with
a text leads to, in one spelling or in several, holds what a job that prints this file alone would
print; every other file is as it was, and so is the one that stopped the job.  After success,
working in place again on the same inputs changes no file.  It is assumed that workers can be had
where they are asked for; the second job need not get any. -/
theorem process_rewrites_in_place (job : Job) (world : World) (config : Config)
    (settings : Settings) (sources : List Source) (hplace : job.inPlace = true)
    (hstaffed : world.Staffed) (h : job.Ready world.tree config settings sources) :
    (.standardInput ∈ sources ∨ job.format? = some .json →
      ∃ error, (Command.process job).outcome world =
        (some (.of (.processing error)), world)) ∧
    (.standardInput ∉ sources → job.format? ≠ some .json →
      ∃ texts failure? after, world.Decodes sources texts failure? ∧
        (Command.process job).outcome world = (failure?, { world with tree := after }) ∧
        (failure? = none ↔ texts.length = sources.length) ∧
        (∀ (i : Nat) path text place, sources[i]? = some (.file path) → texts[i]? = some text →
          world.tree.locate path = .ok place →
          world.tree.content? place = some (Utf8.encode text) ∧
          after.content? place = some (Utf8.encode (transform text)) ∧
          ∀ single singleConfig singleSettings, single.inPlace = false →
            single.Opens world.tree singleConfig singleSettings [.file path] .text none →
            (Command.process single).outcome world =
              (none, { world with stdout := world.stdout ++ transform text })) ∧
        (∀ path place, sources[texts.length]? = some (Source.file path) →
          world.tree.locate path = .ok place →
          (∀ text, world.tree.content? place ≠ some (Utf8.encode text)) ∧
          after.content? place = world.tree.content? place) ∧
        (∀ place, (∀ path, Source.file path ∈ sources.take texts.length →
            world.tree.locate path ≠ .ok place) →
          after.content? place = world.tree.content? place) ∧
        (failure? = none → ∀ again later, again.inPlace = true → again.inputs = job.inputs →
          later.tree = after → ∀ place,
          ((Command.process again).outcome later).2.tree.content? place =
            after.content? place)) := by
  refine ⟨?_, ?_⟩
  · intro hrefused
    obtain ⟨error, herror⟩ := Job.exec_runInPlace_of_refused settings world hrefused
    refine ⟨error, Command.outcome_process_of_error ?_⟩
    rw [h.exec_run, hplace, if_pos rfl, herror]
    rfl
  · intro hfiles hformat
    obtain ⟨texts, failure?, after, progress, hdecodes, hafter, hexec⟩ :=
      h.exists_rewritten hplace hstaffed hfiles hformat
    refine ⟨texts, failure?, after, hdecodes, Command.outcome_process_of_exec hexec,
      hdecodes.eq_none_iff, ?_, ?_, ?_, ?_⟩
    · intro i path text place hsource htext hlocate
      obtain ⟨hcontent, hwritten⟩ := Job.content?_of_text hdecodes hafter hsource htext hlocate
      refine ⟨hcontent, hwritten, ?_⟩
      intro single singleConfig singleSettings hsingle hopens
      exact Job.outcome_process_of_content? hsingle hstaffed hopens hlocate hcontent
    · intro path place hsource hlocate
      exact Job.content?_of_stuck hdecodes hafter hsource hlocate
    · intro place hne
      refine hafter.unreached place ?_
      rintro ⟨path, hmem, hlocate⟩
      exact hne path hmem hlocate
    · rintro hnone again later hagain hinputs rfl place
      have hall : sources.take texts.length = sources := by
        rw [hdecodes.eq_none_iff.1 hnone, List.take_length]
      rw [hall] at hafter
      rw [Command.world_outcome_process]
      exact Job.content?_exec_run_of_rewritten hagain (hinputs ▸ h.sources_eq) hafter place

/-- The file `a` in the working folder `/w` is rewritten four times, under one name from the root,
one from above and two from the folder itself, and gets one terminator. -/
theorem process_rewrites_other_spelling :
    let world : World :=
      { tree := { files := [([['w'], ['a']], [120])], folders := [[['w']]], base := [['w']] } }
    let job : Job := { inputs := ["a", "./a", "../w/a", "/w/a"], inPlace := true }
    let sources : List Source :=
      ["/w/a", "./a", "../w/a", "a"].map fun name => .file (.ofString name)
    job.Ready world.tree {} {} sources ∧
    ∃ after, (Command.process job).outcome world = (none, { world with tree := after }) ∧
      after.content? [['w'], ['a']] = some [120, 59, 10] := by
  intro world job sources
  have hnamed : job.inputs.mapM (Source.filesNamed world.tree.lookup) =
      .ok (job.inputs.map fun name => [.ofString name]) := by decide +kernel
  have hready : job.Ready world.tree {} {} sources :=
    { config_eq := rfl
      settings_eq := rfl
      sources_eq := by
        rw [Source.resolve_of_mapM (by decide) hnamed, Path.mergeSort_eq_foldr]
        decide +kernel }
  have hread : world.Decodes sources [['x'], ['x'], ['x'], ['x']] none := by
    refine .cons ?_ (.cons ?_ (.cons ?_ (.cons ?_ .nil))) <;> decide +kernel
  obtain ⟨texts, failure?, after, hdecodes, houtcome, -, hrewritten, -⟩ :=
    (process_rewrites_in_place job world {} {} sources rfl (fun _ => rfl) hready).2 (by decide)
      (by decide)
  obtain ⟨rfl, rfl⟩ := hdecodes.unique hread
  have hlocate : world.tree.locate (.ofString "/w/a") = .ok [['w'], ['a']] := by decide +kernel
  have hwritten : Utf8.encode (transform ['x']) = [120, 59, 10] := by decide +kernel
  have hcontent := (hrewritten 0 _ _ _ rfl rfl hlocate).2.1
  rw [hwritten] at hcontent
  exact ⟨hready, after, houtcome, hcontent⟩

end Semicolon
