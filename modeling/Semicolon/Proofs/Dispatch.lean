import Semicolon.Proofs.Tally
import Semicolon.Transformation

/-!
# Settings do not show in what is written

Lines may be rendered in one pass or chunk by chunk.  Either way the same text and the same tally
come out, for every size of the chunks: cutting loses no line and changes no order, and joining
renderings is rendering the lines of all of them.  The settings are seen in the note of how the
lines were handed out, and nowhere else.

## Main statements

* `Rendering.getElem?_chunks`: which lines are in which chunk.
* `Rendering.join_map_ofLines`: joining the renderings of any pieces of a list of lines.
* `Transformation.rendering_ofText`: what a document becomes, under any settings.
-/

namespace Semicolon

/-! ## Chunks -/

namespace Rendering

variable {α : Type}

@[simp] theorem chunks_nil (size : Nat) : chunks size ([] : List α) = [] := by
  rw [chunks]

/-- The first chunk and the chunks of what is left after it. -/
theorem chunks_of_ne_nil (size : Nat) {list : List α} (h : list ≠ []) :
    chunks size list = list.take (max size 1) :: chunks size (list.drop (max size 1)) := by
  have hsize : max size 1 = size - 1 + 1 := by omega
  cases list with
  | nil => exact absurd rfl h
  | cons first rest => rw [chunks, hsize, List.take_succ_cons, List.drop_succ_cons]

/-- No line is lost between two chunks, and none changes its place. -/
@[simp] theorem flatten_chunks (size : Nat) (list : List α) :
    (chunks size list).flatten = list := by
  induction list using chunks.induct size with
  | case1 => simp
  | case2 first rest ih =>
    rw [chunks, List.flatten_cons, ih, List.cons_append, List.take_append_drop]

/-- **Chunk number `i` has the `max size 1` elements from place `i * max size 1` on**, or as many
of them as there are. -/
theorem getElem?_chunks (size : Nat) (list : List α) (i : Nat) :
    (chunks size list)[i]? =
      if i * max size 1 < list.length then
        some ((list.drop (i * max size 1)).take (max size 1))
      else none := by
  induction i generalizing list with
  | zero =>
    by_cases h : list = []
    · simp [h]
    · rw [chunks_of_ne_nil size h]
      simp [List.length_pos_iff.2 h]
  | succ i ih =>
    by_cases h : list = []
    · simp [h]
    · -- The later chunks are the chunks of the list without its first one.
      rw [chunks_of_ne_nil size h, List.getElem?_cons_succ, ih, List.length_drop, List.drop_drop,
        Nat.succ_mul, Nat.add_comm (max size 1)]
      by_cases hlt : i * max size 1 + max size 1 < list.length
      · rw [if_pos hlt, if_pos (by omega)]
      · rw [if_neg hlt, if_neg (by omega)]

/-! ## Joining renderings -/

/-- **Joining the renderings of pieces is rendering the pieces in one pass**, however a list of
lines was cut. -/
theorem join_map_ofLines (parts : List (List Text)) :
    join (parts.map ofLines) = ofLines parts.flatten := by
  ext1
  · simp only [join, ofLines, List.flatMap_map]
    rw [List.flatten_eq_flatMap, List.flatMap_assoc]
    rfl
  · have fold := Tally.foldl_merge_ofLines [] parts
    rw [Tally.ofLines_nil, List.nil_append, List.foldl_map] at fold
    simpa only [join, List.foldl_map, ofLines] using fold

/-- Rendering chunk by chunk is rendering in one pass. -/
theorem ofChunks_eq_ofLines (size : Nat) (lines : List Text) :
    ofChunks size lines = ofLines lines := by
  rw [ofChunks, join_map_ofLines, flatten_chunks]

end Rendering

/-- What is written for a text, line by line. -/
theorem transform_eq_flatMap_display (text : Text) :
    transform text = (decidedLines text).flatMap fun line => line.display ++ ['\n'] := by
  simp only [← DecidedLine.written_eq]
  rw [decidedLines, List.flatMap_map]
  rfl

/-! ## Documents -/

/-- When lines are handed out in chunks. -/
theorem Settings.dispatch_eq_parallel_iff (settings : Settings) (count : Nat) :
    settings.dispatch count = .parallel ↔
      settings.mode = .parallel ∨
        settings.mode = .adaptive ∧ settings.parallelThreshold ≤ count := by
  unfold Settings.dispatch
  cases settings.mode with
  | sequential => simp
  | parallel => simp
  | adaptive => by_cases h : settings.parallelThreshold ≤ count <;> simp [h]

/-- Which settings are accepted: those with lines in a chunk and with workers, if a number of them
is given. -/
theorem Settings.error?_eq_none_iff (settings : Settings) :
    settings.error? = none ↔ settings.chunkLines ≠ 0 ∧ settings.threads ≠ some 0 := by
  unfold Settings.error?
  by_cases hchunk : settings.chunkLines = 0
  · simp [hchunk]
  · by_cases hthreads : settings.threads = some 0 <;> simp [hchunk, hthreads]

/-- Accepted settings are used as they are. -/
theorem Settings.check_map_eq_ok_iff {α : Type} (settings : Settings) (f : Settings → α) :
    settings.check.map f = .ok (f settings) ↔
      settings.chunkLines ≠ 0 ∧ settings.threads ≠ some 0 := by
  rw [← Settings.error?_eq_none_iff, Settings.check]
  cases settings.error? with
  | none => simp [Except.map]
  | some error => simp [Except.map]

/-- Settings pass their check as they are, or not at all. -/
theorem Settings.check_eq_ok_iff {settings checked : Settings} :
    settings.check = .ok checked ↔
      checked = settings ∧ settings.chunkLines ≠ 0 ∧ settings.threads ≠ some 0 := by
  rw [← Settings.error?_eq_none_iff, Settings.check]
  cases settings.error? with
  | none => simp [eq_comm]
  | some error => simp

/-- No document is reported under the mode that has still to be resolved. -/
theorem Dispatch.name_ne_adaptive (dispatch : Dispatch) : dispatch.name ≠ Mode.adaptive.name := by
  cases dispatch <;> decide

namespace Transformation

/-- The rendering is that of one pass, whichever way the lines are handed out. -/
theorem render_eq_ofLines (settings : Settings) (lines : List Text) (dispatch : Dispatch) :
    render settings lines dispatch = .ofLines lines := by
  cases dispatch with
  | sequential => rfl
  | parallel => exact Rendering.ofChunks_eq_ofLines settings.chunkLines lines

@[simp] theorem rendering_ofText (settings : Settings) (text : Text) :
    (ofText settings text).rendering = .ofLines (lines text) :=
  render_eq_ofLines settings (lines text) _

theorem text_ofText (settings : Settings) (text : Text) :
    (ofText settings text).text = transform text := by
  rw [Transformation.text, rendering_ofText, transform]

theorem tally_ofText (settings : Settings) (text : Text) :
    (ofText settings text).tally = Tally.ofLines (lines text) := by
  rw [Transformation.tally, rendering_ofText, Rendering.ofLines]

/-- **No setting changes what a document becomes.**  The chunks have `max chunkLines 1` lines
each, but the last; rendering them one by one gives the text and the tally of a single pass.  A
document is processed under all settings that pass their check, and any two settings, checked or
not, agree on text, tally and size: only the note of how the lines were handed out tells them
apart. -/
theorem ofText_independent_of_settings (first second : Settings) (text : Text) :
    (∀ i, (Rendering.chunks first.chunkLines (lines text))[i]? =
      if i * max first.chunkLines 1 < (lines text).length then
        some (((lines text).drop (i * max first.chunkLines 1)).take (max first.chunkLines 1))
      else none) ∧
    Rendering.ofChunks first.chunkLines (lines text) = Rendering.ofLines (lines text) ∧
    (first.check.map (ofText · text) = .ok (ofText first text) ↔
      first.chunkLines ≠ 0 ∧ first.threads ≠ some 0) ∧
    (ofText first text).text = (ofText second text).text ∧
    (ofText first text).tally = (ofText second text).tally ∧
    (ofText first text).bytesProcessed = (ofText second text).bytesProcessed ∧
    (ofText first text).text = transform text ∧
    (ofText first text).text = (decidedLines text).flatMap (fun line => line.display ++ ['\n']) ∧
    (ofText first text).dispatch.name ≠ Mode.adaptive.name ∧
    ((ofText first text).dispatch = .parallel ↔
      first.mode = .parallel ∨
        first.mode = .adaptive ∧ first.parallelThreshold ≤ (lines text).length) := by
  refine ⟨Rendering.getElem?_chunks _ _, Rendering.ofChunks_eq_ofLines _ _,
    Settings.check_map_eq_ok_iff _ _, ?_, ?_, rfl, ?_, ?_, Dispatch.name_ne_adaptive _,
    Settings.dispatch_eq_parallel_iff _ _⟩
  · rw [text_ofText, text_ofText]
  · simp only [Transformation.tally, rendering_ofText]
  · exact text_ofText first text
  · rw [text_ofText, transform_eq_flatMap_display]

end Transformation

end Semicolon
