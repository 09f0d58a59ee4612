import Semicolon.Proofs.Dispatch
import Semicolon.Proofs.LineEnd
import Semicolon.Proofs.Segmentation

/-!
# Lines in and lines out

Every line of a text gives one line of what is written, in the same place, and only its own
characters and a terminator are in it.  No line holds a break and none is written into it, so
reading the output line by line gives the written lines back.  Each of them passes through, so a
text that is written once is not changed when it is written again.

## Main statements

* `lines_transform`: the lines of the output.
* `decideLine_display`: lines of the output pass through.
* `transform_of_passThrough`: what lines that pass through become.
-/

namespace Semicolon

/-! ## Texts with a line feed after every line -/

theorem Unbroken.feed_not_mem {line : Text} (h : Unbroken line) : '\n' ∉ line := by
  intro hfeed
  exact absurd (h '\n' hfeed) (by decide)

section Fed

variable {list : List Text}

theorem return_not_mem_flatMap_feed (h : ∀ line ∈ list, Unbroken line) :
    '\r' ∉ list.flatMap (· ++ ['\n']) := by
  intro hmem
  obtain ⟨line, hline, hreturn⟩ := List.mem_flatMap.1 hmem
  rcases List.mem_append.1 hreturn with hreturn | hreturn
  · exact absurd (h line hline '\r' hreturn) (by decide)
  · exact absurd hreturn (by decide)

/-- There are as many line feeds as lines. -/
theorem count_feed_flatMap_feed (h : ∀ line ∈ list, Unbroken line) :
    (list.flatMap (· ++ ['\n'])).count '\n' = list.length := by
  induction list with
  | nil => rfl
  | cons line rest ih =>
    obtain ⟨hline, hrest⟩ := List.forall_mem_cons.1 h
    have hcount : line.count '\n' = 0 := List.count_eq_zero.2 hline.feed_not_mem
    rw [List.flatMap_cons, List.count_append, List.count_append, ih hrest, hcount,
      List.length_cons, Nat.add_comm]
    rfl

theorem flatMap_feed_eq_nil_or_getLast? (list : List Text) :
    list.flatMap (· ++ ['\n']) = [] ∨ (list.flatMap (· ++ ['\n'])).getLast? = some '\n' := by
  rcases list.eq_nil_or_concat with rfl | ⟨front, last, rfl⟩
  · exact .inl rfl
  · right
    simp

/-- Cutting at the line feeds gives the lines, and an empty piece after the last line feed. -/
theorem splitOn_flatMap_feed (h : ∀ line ∈ list, Unbroken line) :
    (list.flatMap (· ++ ['\n'])).splitOn '\n' = list ++ [[]] := by
  induction list with
  | nil => rfl
  | cons line rest ih =>
    obtain ⟨hline, hrest⟩ := List.forall_mem_cons.1 h
    rw [List.flatMap_cons, List.append_assoc, List.singleton_append,
      List.splitOn_append_cons_self_of_not_mem hline.feed_not_mem, ih hrest,
      List.cons_append]

end Fed

/-! ## Written lines -/

theorem DecidedLine.display_ofLine_of_passThrough {line : Text}
    (h : decideLine line = .passThrough) : (DecidedLine.ofLine line).display = line := by
  simp [DecidedLine.ofLine, DecidedLine.display, h]

theorem DecidedLine.display_ofLine_of_terminate {line : Text} {reason : Reason}
    (h : decideLine line = .terminate reason) :
    (DecidedLine.ofLine line).display = line ++ [terminator] := by
  simp [DecidedLine.ofLine, DecidedLine.display, h]

/-- A line that holds no break holds none with its terminator. -/
theorem Unbroken.display {line : Text} (h : Unbroken line) :
    Unbroken (DecidedLine.ofLine line).display := by
  cases hdecision : decideLine line with
  | passThrough => rwa [DecidedLine.display_ofLine_of_passThrough hdecision]
  | terminate reason =>
    rw [DecidedLine.display_ofLine_of_terminate hdecision]
    intro c hc
    rcases List.mem_append.1 hc with hc | hc
    · exact h c hc
    · obtain rfl := List.mem_singleton.1 hc
      decide

theorem transform_eq_flatMap_feed (text : Text) :
    transform text =
      ((lines text).map fun line => (DecidedLine.ofLine line).display).flatMap (· ++ ['\n']) := by
  rw [transform_eq_flatMap_display, decidedLines, List.flatMap_map, List.flatMap_map]

theorem unbroken_of_mem_map_display (text : Text) :
    ∀ line ∈ (lines text).map fun line => (DecidedLine.ofLine line).display, Unbroken line := by
  intro line hmem
  obtain ⟨original, horiginal, rfl⟩ := List.mem_map.1 hmem
  exact (unbroken_of_mem_lines horiginal).display

/-- **The lines of the output are the lines of the text, with their terminators.** -/
theorem lines_transform (text : Text) :
    lines (transform text) = (lines text).map fun line => (DecidedLine.ofLine line).display := by
  rw [transform_eq_flatMap_feed, lines_flatMap_feed (unbroken_of_mem_map_display text)]

/-- **Lines keep their number, their order and their characters.**  The output has a line feed
after each of its lines and no other break, so reading it as any text and cutting it at the line
feeds give the same lines.  Each is a line of the text, with a semicolon if it ends a statement,
and depends on that line alone. -/
theorem transform_preserves_lines (text : Text) :
    '\r' ∉ transform text ∧
    (transform text).count '\n' = (lines text).length ∧
    (transform text = [] ∨ (transform text).getLast? = some '\n') ∧
    lines (transform text) =
      (lines text).map (fun line => if endsStatement line then line ++ [';'] else line) ∧
    (transform text).splitOn '\n' =
      (lines text).map (fun line => if endsStatement line then line ++ [';'] else line) ++ [[]] ∧
    ∀ (other : Text) (i j : Nat), (lines text)[i]? = (lines other)[j]? →
      (lines (transform text))[i]? = (lines (transform other))[j]? := by
  have unbroken := unbroken_of_mem_map_display text
  have hdisplay : (fun line => (DecidedLine.ofLine line).display) =
      fun line => if endsStatement line then line ++ [';'] else line := rfl
  rw [← hdisplay]
  refine ⟨?_, ?_, ?_, lines_transform text, ?_, ?_⟩
  · rw [transform_eq_flatMap_feed]
    exact return_not_mem_flatMap_feed unbroken
  · rw [transform_eq_flatMap_feed, count_feed_flatMap_feed unbroken, List.length_map]
  · rw [transform_eq_flatMap_feed]
    exact flatMap_feed_eq_nil_or_getLast? _
  · rw [transform_eq_flatMap_feed, splitOn_flatMap_feed unbroken]
  · intro other i j hline
    rw [lines_transform, lines_transform, List.getElem?_map, List.getElem?_map, hline]

/-- A line is written alike at the beginning of one text and at the end of another. -/
theorem transform_of_line_moved :
    (lines ['a', '\n', '('])[0]? = (lines ['(', '\r', '\n', 'a'])[1]? ∧
    (lines (transform ['a', '\n', '(']))[0]? =
      (lines (transform ['(', '\r', '\n', 'a']))[1]? := by
  have hline : (lines ['a', '\n', '('])[0]? = (lines ['(', '\r', '\n', 'a'])[1]? := by
    simp [lines, nextLine?, skipBreak, isBreak]
  exact ⟨hline, (transform_preserves_lines _).2.2.2.2.2 _ 0 1 hline⟩

/-! ## The second time -/

/-- A line passes through as it was written, whether it got a terminator or needed none. -/
theorem decideLine_display (line : Text) :
    decideLine (DecidedLine.ofLine line).display = .passThrough := by
  cases h : decideLine line with
  | terminate reason =>
    rw [DecidedLine.display_ofLine_of_terminate h, decideLine_append_terminator]
  | passThrough => rw [DecidedLine.display_ofLine_of_passThrough h, h]

theorem passThrough_of_mem_lines_transform {text line : Text} (h : line ∈ lines (transform text)) :
    decideLine line = .passThrough := by
  rw [lines_transform] at h
  obtain ⟨original, -, rfl⟩ := List.mem_map.1 h
  exact decideLine_display original

/-- Where every line passes through, all that is done is to end lines with line feeds. -/
theorem transform_of_passThrough {text : Text}
    (h : ∀ line ∈ lines text, decideLine line = .passThrough) :
    transform text = (lines text).flatMap (· ++ ['\n']) := by
  have hdisplay : ∀ line ∈ lines text, (DecidedLine.ofLine line).display = line := by
    intro line hmem
    exact DecidedLine.display_ofLine_of_passThrough (h line hmem)
  rw [transform_eq_flatMap_feed, List.map_congr_left hdisplay, List.map_id']

/-- What was written once stays as it is. -/
theorem transform_transform (text : Text) : transform (transform text) = transform text := by
  rw [transform_of_passThrough fun _ => passThrough_of_mem_lines_transform, lines_transform,
    ← transform_eq_flatMap_feed]

/-- **A second run changes nothing**, under whatever settings the two are made: it counts the same
lines, terminates none of them and has no rule to report, because every line of the output of the
first passes through. -/
theorem second_run_changes_nothing (first second : Settings) (text : Text) :
    transform (transform text) = transform text ∧
    (Transformation.ofText second (Transformation.ofText first text).text).text =
      (Transformation.ofText first text).text ∧
    (Transformation.ofText second (Transformation.ofText first text).text).tally.lines =
      (Transformation.ofText first text).tally.lines ∧
    (Transformation.ofText second (Transformation.ofText first text).text).tally.terminated = 0 ∧
    (Transformation.ofText second (Transformation.ofText first text).text).tally.byRule = .empty ∧
    ∀ line ∈ lines (transform text), decideLine line = .passThrough := by
  have passThrough : ∀ line ∈ lines (transform text), decideLine line = .passThrough :=
    fun _ => passThrough_of_mem_lines_transform
  have htally : (Transformation.ofText second (transform text)).tally =
      { Tally.zero with lines := (lines text).length } := by
    rw [Transformation.tally, Transformation.rendering_ofText, Rendering.ofLines,
      Tally.ofLines_of_passThrough passThrough, lines_transform, List.length_map]
  have hlines : (Transformation.ofText first text).tally.lines = (lines text).length := by
    rw [Transformation.tally, Transformation.rendering_ofText]
    exact Tally.lines_ofLines (lines text)
  rw [Transformation.text_ofText first, Transformation.text_ofText second, htally, hlines]
  exact ⟨transform_transform text, transform_transform text, rfl, rfl, rfl, passThrough⟩

/-- A terminator after a blank is a word of its own, and passes through all the same. -/
theorem second_run_of_terminator_after_blank :
    ['x', ' ', ';'] ∈ lines (transform ['x', ' ', '\r']) ∧
    decideLine ['x', ' ', ';'] = .passThrough := by
  have hlines : lines ['x', ' ', '\r'] = [['x', ' ']] := by
    simp [lines, nextLine?, skipBreak, isBreak]
  have hmem : ['x', ' ', ';'] ∈ lines (transform ['x', ' ', '\r']) := by
    rw [lines_transform, hlines]
    decide
  exact ⟨hmem, (second_run_changes_nothing {} {} _).2.2.2.2.2 _ hmem⟩

end Semicolon
