import Mathlib.Data.List.Basic
import Semicolon.Lines.Canonical
import Semicolon.Proofs.Transform

/-!
# What lines forget about a text

The lines of a text do not tell how each of them was ended.  They tell everything else: the
canonical form, which is made by passes over the whole text without reading any line, is the text of
its lines with a line feed after each.  So two texts have the same lines exactly if they have the
same canonical form, and nothing that is made of the lines can see the breaks.

The passes are followed segment by segment.  The first two write a line feed for the break of a
segment, as long as the segment can be read there: a carriage return that is a break of its own has
no line feed after it which it could be joined with.  The third ends a last line that lacks a break.

## Main statements

* `Canonical.ofText_text_append`: the canonical form of a segment and the text after it.
* `Canonical.ofText_eq_flatMap_feed`: the canonical form of a text.
* `lines_eq_iff_ofText_eq`: what texts with the same lines have in common.
-/

namespace Semicolon

namespace Canonical

/-! ## The passes -/

theorem joinPairs_cons_of_ne {c : Char} (h : c ≠ '\r') (rest : Text) :
    joinPairs (c :: rest) = c :: joinPairs rest := by
  simp [joinPairs, h]

/-- A carriage return stays as it is if no line feed follows it. -/
theorem joinPairs_return {rest : Text} (h : rest.head? ≠ some '\n') :
    joinPairs ('\r' :: rest) = '\r' :: joinPairs rest := by
  cases rest with
  | nil => rfl
  | cons next tail =>
    have hnext : next ≠ '\n' := by simpa using h
    simp [joinPairs, hnext]

/-- The first two passes: a line feed for every break. -/
def feedBreaks (text : Text) : Text :=
  feedLines (joinPairs text)

@[simp] theorem feedBreaks_nil : feedBreaks [] = [] := rfl

theorem feedBreaks_cons_of_ne {c : Char} (h : c ≠ '\r') (rest : Text) :
    feedBreaks (c :: rest) = c :: feedBreaks rest := by
  simp [feedBreaks, feedLines, joinPairs_cons_of_ne h, h]

/-- Nothing changes inside of a line. -/
theorem feedBreaks_append {line : Text} (h : Unbroken line) (rest : Text) :
    feedBreaks (line ++ rest) = line ++ feedBreaks rest := by
  induction line with
  | nil => rfl
  | cons c tail ih =>
    obtain ⟨hc, htail⟩ := List.forall_mem_cons.1 h
    have hne : c ≠ '\r' := by
      rintro rfl
      exact absurd hc (by decide)
    rw [List.cons_append, feedBreaks_cons_of_ne hne, ih htail, List.cons_append]

/-- A break becomes one line feed, whichever it is. -/
theorem feedBreaks_break_append {kind : LineBreak} {rest : Text}
    (h : kind = .carriageReturn → rest.head? ≠ some '\n') :
    feedBreaks (kind.text ++ rest) = '\n' :: feedBreaks rest := by
  cases kind with
  | lineFeed => exact feedBreaks_cons_of_ne (by decide) rest
  | pair => rfl
  | carriageReturn =>
    have hjoin : joinPairs (LineBreak.carriageReturn.text ++ rest) = '\r' :: joinPairs rest :=
      joinPairs_return (h rfl)
    rw [feedBreaks, hjoin]
    rfl

/-- The last line is sought after the last line feed. -/
theorem endLast_append_feed (front rest : Text) :
    endLast (front ++ '\n' :: rest) = front ++ '\n' :: endLast rest := by
  by_cases hrest : rest = []
  · simp [endLast, hrest]
  · have hlast : (front ++ '\n' :: rest).getLast? = rest.getLast? := by
      rw [List.getLast?_append_of_ne_nil front (by simp), List.getLast?_cons_of_ne_nil hrest]
    by_cases hfeed : rest.getLast? = some '\n' <;> simp [endLast, hlast, hrest, hfeed]

/-- A line that lacks a break gets one. -/
theorem endLast_of_unbroken {line : Text} (hne : line ≠ []) (h : Unbroken line) :
    endLast line = line ++ ['\n'] := by
  have hlast : line.getLast? ≠ some '\n' := by
    intro heq
    exact h.feed_not_mem (List.mem_of_getLast? heq)
  simp [endLast, hne, hlast]

/-! ## Segments -/

@[simp] theorem ofText_nil : ofText [] = [] := rfl

theorem ofText_eq_endLast (text : Text) : ofText text = endLast (feedBreaks text) := rfl

/-- **The canonical form begins with the line of the first segment and a line feed**, and goes on
with the canonical form of the text after the segment. -/
theorem ofText_text_append {segment : Segment} {rest : Text} (h : segment.Leads rest) :
    ofText (segment.text ++ rest) = segment.line ++ '\n' :: ofText rest := by
  obtain ⟨line, ending⟩ := segment
  cases ending with
  | none =>
    obtain ⟨hne, rfl⟩ := h.last rfl
    rw [ofText_eq_endLast, Segment.text_mk_none, feedBreaks_append h.unbroken, feedBreaks_nil,
      List.append_nil, endLast_of_unbroken hne h.unbroken, ofText_nil]
  | some kind =>
    have hbreak : feedBreaks (kind.text ++ rest) = '\n' :: feedBreaks rest := by
      apply feedBreaks_break_append
      intro hkind
      exact h.longest (by simp [hkind])
    rw [ofText_eq_endLast, Segment.text_mk_some, List.append_assoc,
      feedBreaks_append h.unbroken, hbreak, endLast_append_feed, ofText_eq_endLast]

/-- **The canonical form of a text is that of its lines with a line feed after each.** -/
theorem ofText_eq_flatMap_feed (text : Text) :
    ofText text = (lines text).flatMap (· ++ ['\n']) := by
  induction text using lines.induct with
  | case1 text hnone =>
    obtain rfl := eq_nil_of_nextLine?_eq_none hnone
    rw [lines_nil, ofText_nil, List.flatMap_nil]
  | case2 text line rest hsome ih =>
    obtain ⟨segment, hleads, rfl, rfl⟩ := nextLine?_eq_some_iff.1 hsome
    rw [ofText_text_append hleads, ih, lines_eq_cons hsome]
    simp

end Canonical

/-! ## Texts with the same lines -/

/-- The canonical form has the lines of the text. -/
theorem lines_ofText (text : Text) : lines (Canonical.ofText text) = lines text := by
  rw [Canonical.ofText_eq_flatMap_feed, lines_flatMap_feed fun _ => unbroken_of_mem_lines]

/-- **Texts have the same lines exactly if they have the same canonical form.** -/
theorem lines_eq_iff_ofText_eq {first second : Text} :
    lines first = lines second ↔ Canonical.ofText first = Canonical.ofText second := by
  constructor
  · intro hlines
    rw [Canonical.ofText_eq_flatMap_feed, Canonical.ofText_eq_flatMap_feed, hlines]
  · intro hcanonical
    rw [← lines_ofText first, hcanonical, lines_ofText]

theorem transform_eq_of_lines_eq {first second : Text} (h : lines first = lines second) :
    transform first = transform second := by
  rw [transform, h, transform]

theorem tally_eq_of_lines_eq {first second : Text} (h : lines first = lines second)
    (settings : Settings) :
    (Transformation.ofText settings first).tally =
      (Transformation.ofText settings second).tally := by
  rw [Transformation.tally_ofText, h, Transformation.tally_ofText]

/-! ## All together -/

/-- **The breaks of a text are all that its lines forget.**  Texts have the same lines exactly if
they agree once pairs are replaced by line feeds, then carriage returns, and then the last line is
ended; what comes out of these replacements is the lines with a line feed after each.  So neither
what is written for a text nor its tally depends on the breaks: not when they are all made line
feeds, not when every line gets one and the same other break, and not when each line has a break of
its own or the last one has none. -/
theorem lines_forget_breaks_only :
    (∀ first second : Text,
      lines first = lines second ↔ Canonical.ofText first = Canonical.ofText second) ∧
    (∀ text : Text, Canonical.ofText text = (lines text).flatMap (· ++ ['\n'])) ∧
    (∀ (text : Text) (settings : Settings),
      transform text = transform (Canonical.ofText text) ∧
      (Transformation.ofText settings text).tally =
        (Transformation.ofText settings (Canonical.ofText text)).tally) ∧
    (∀ (kind : LineBreak) (text : Text) (settings : Settings),
      transform ((lines text).flatMap (· ++ kind.text)) = transform text ∧
      (Transformation.ofText settings ((lines text).flatMap (· ++ kind.text))).tally =
        (Transformation.ofText settings text).tally) ∧
    ∀ (segments others : List Segment) (settings : Settings),
      Segment.Proper segments → Segment.Proper others →
      segments.map (·.line) = others.map (·.line) →
      transform (Segment.assemble segments) = transform (Segment.assemble others) ∧
      (Transformation.ofText settings (Segment.assemble segments)).tally =
        (Transformation.ofText settings (Segment.assemble others)).tally := by
  refine ⟨fun _ _ => lines_eq_iff_ofText_eq, Canonical.ofText_eq_flatMap_feed, ?_, ?_, ?_⟩
  · intro text settings
    have hlines := (lines_ofText text).symm
    exact ⟨transform_eq_of_lines_eq hlines, tally_eq_of_lines_eq hlines settings⟩
  · intro kind text settings
    have hlines : lines ((lines text).flatMap (· ++ kind.text)) = lines text :=
      lines_flatMap_break kind fun _ => unbroken_of_mem_lines
    exact ⟨transform_eq_of_lines_eq hlines, tally_eq_of_lines_eq hlines settings⟩
  · intro segments others settings hsegments hothers hsame
    have hlines : lines (Segment.assemble segments) = lines (Segment.assemble others) := by
      rw [lines_assemble hsegments, lines_assemble hothers, hsame]
    exact ⟨transform_eq_of_lines_eq hlines, tally_eq_of_lines_eq hlines settings⟩

/-- A carriage return before a pair and the same lines with a line feed before a return: what is
written is the same, also where the last line lacks its break. -/
theorem lines_forget_breaks_of_mixed_text :
    Segment.Proper [⟨['a'], some .carriageReturn⟩, ⟨[], some .pair⟩, ⟨['b'], none⟩] ∧
    Segment.Proper [⟨['a'], some .lineFeed⟩, ⟨[], some .carriageReturn⟩, ⟨['b'], some .pair⟩] ∧
    transform ['a', '\r', '\r', '\n', 'b'] = transform ['a', '\n', '\r', 'b', '\r', '\n'] := by
  have hfirst : Segment.Proper [⟨['a'], some .carriageReturn⟩, ⟨[], some .pair⟩,
      ⟨['b'], none⟩] := by
    simp [Segment.Proper, Segment.text, LineBreak.text, isBreak]
  have hsecond : Segment.Proper [⟨['a'], some .lineFeed⟩, ⟨[], some .carriageReturn⟩,
      ⟨['b'], some .pair⟩] := by
    simp [Segment.Proper, Segment.text, LineBreak.text, isBreak]
  exact ⟨hfirst, hsecond, (lines_forget_breaks_only.2.2.2.2 _ _ {} hfirst hsecond rfl).1⟩

end Semicolon
