import Semicolon.Proofs.LastWord
import Semicolon.Proofs.Transform

/-!
# What stands before the last word

A line is decided by its end.  A suffix holds no separator, so it cannot reach back over one; and
a last word begins after the separator before it.  What stands before that separator is not looked
at, and separators in front of a line make no difference even where the line is blank.

So a text may be indented before or after its statements are terminated.

## Main definitions

* `indent`: a text with a margin in front of each of its lines.

## Main statements

* `decideLine_append_separator`, `decideLine_append_of_blank`: what makes no difference to a line.
* `lines_indent`: the lines of an indented text.
* `transform_indent`: indenting and terminating commute.
-/

namespace Semicolon

/-! ## One line -/

namespace Suffix

theorem separator_not_mem_text {c : Char} (hc : isSeparator c = true) (suffix : Suffix) :
    c ∉ suffix.text := by
  intro hmem
  have hfalse : ∀ d ∈ suffix.text, isSeparator d = false := by
    cases suffix <;> simp [text, isSeparator]
  simp [hfalse c hmem] at hc

/-- A suffix does not reach back over a separator. -/
theorem suffix_append_separator_iff {c : Char} (hc : isSeparator c = true) (suffix : Suffix)
    (before line : Text) : suffix.text <:+ before ++ c :: line ↔ suffix.text <:+ line := by
  have hmem := suffix.separator_not_mem_text hc
  constructor
  · intro h
    have hline : c :: line <:+ before ++ c :: line := List.suffix_append before _
    rcases List.suffix_or_suffix_of_suffix h hline with hshort | hlong
    · rcases List.suffix_cons_iff.1 hshort with heq | hshort
      · exact absurd (by simp [heq]) hmem
      · exact hshort
    · exact absurd (hlong.subset (by simp)) hmem
  · intro h
    exact h.trans ((List.suffix_cons c line).trans (List.suffix_append before _))

theorem find?_append_separator {c : Char} (hc : isSeparator c = true) (before line : Text) :
    find? (before ++ c :: line) = find? line := by
  have hends : (fun suffix : Suffix => suffix.endsLine (before ++ c :: line)) =
      fun suffix => suffix.endsLine line := by
    ext suffix
    rw [Bool.eq_iff_iff, endsLine_iff, endsLine_iff, suffix_append_separator_iff hc]
  rw [find?, hends, find?]

end Suffix

/-- A word that is cut off after a separator is cut off alike with more in front. -/
theorem WordCut.append_separator {c : Char} (hc : isSeparator c = true)
    {line before word blanks : Text} (h : WordCut line before word blanks) (front : Text) :
    WordCut (front ++ c :: line) (front ++ c :: before) word blanks := by
  refine ⟨by simp [h.line_eq], h.blank, h.ne_nil, h.unseparated, .inr ?_⟩
  rcases h.begins with hnil | ⟨middle, d, heq, hd⟩
  · exact ⟨front, c, by simp [hnil], hc⟩
  · exact ⟨front ++ c :: middle, d, by simp [heq], hd⟩

theorem lastWord?_append_separator {c : Char} (hc : isSeparator c = true) {line : Text}
    (h : ¬ Blank line) (before : Text) : lastWord? (before ++ c :: line) = lastWord? line := by
  obtain ⟨front, word, blanks, hcut⟩ := exists_wordCut h
  rw [hcut.lastWord?_eq, (hcut.append_separator hc before).lastWord?_eq]

/-- A decision rests on the suffix and the last word. -/
theorem decideLine_congr {line other : Text} (hsuffix : Suffix.find? line = Suffix.find? other)
    (hword : lastWord? line = lastWord? other) : decideLine line = decideLine other := by
  rw [decideLine, decideLine, hsuffix, hword]

/-- **What stands before a separator makes no difference**, if a word follows it. -/
theorem decideLine_append_separator {c : Char} (hc : isSeparator c = true) {line : Text}
    (h : ¬ Blank line) (before : Text) : decideLine (before ++ c :: line) = decideLine line :=
  decideLine_congr (Suffix.find?_append_separator hc before line)
    (lastWord?_append_separator hc h before)

theorem decideLine_cons_separator {c : Char} (hc : isSeparator c = true) (line : Text) :
    decideLine (c :: line) = decideLine line := by
  by_cases hblank : Blank line
  · -- There is no word on either side, and the suffixes are found alike.
    have hcons : Blank (c :: line) := List.forall_mem_cons.2 ⟨hc, hblank⟩
    have hsuffix : Suffix.find? (c :: line) = Suffix.find? line :=
      Suffix.find?_append_separator hc [] line
    apply decideLine_congr hsuffix
    rw [lastWord?_of_blank hcons, lastWord?_of_blank hblank]
  · exact decideLine_append_separator hc hblank []

/-- **Separators in front of a line make no difference**, also if the line is blank. -/
theorem decideLine_append_of_blank {before : Text} (h : Blank before) (line : Text) :
    decideLine (before ++ line) = decideLine line := by
  induction before with
  | nil => rfl
  | cons c rest ih =>
    obtain ⟨hc, hrest⟩ := List.forall_mem_cons.1 h
    rw [List.cons_append, decideLine_cons_separator hc, ih hrest]

/-! ## Indented texts -/

/-- The rest of a text from somewhere in a line on, with a margin in front of every later line.  A
line feed ends a line, and so does a carriage return unless a line feed follows it; a line follows
if there is a character after that. -/
def indentRest (margin : Text) : Text → Text
  | [] => []
  | c :: rest =>
    if (c = '\n' ∨ c = '\r' ∧ rest.head? ≠ some '\n') ∧ rest ≠ [] then
      c :: (margin ++ indentRest margin rest)
    else c :: indentRest margin rest

/-- The text with a margin in front of each of its lines. -/
def indent (margin text : Text) : Text :=
  if text = [] then [] else margin ++ indentRest margin text

/-- The segment with a margin in front of its line. -/
def Segment.indented (margin : Text) (segment : Segment) : Segment :=
  { segment with line := margin ++ segment.line }

theorem Segment.text_indented (margin : Text) (segment : Segment) :
    (segment.indented margin).text = margin ++ segment.text := by
  simp [Segment.indented, Segment.text]

section Indent

variable (margin : Text)

@[simp] theorem indent_nil : indent margin [] = [] := rfl

theorem indent_of_ne_nil {text : Text} (h : text ≠ []) :
    indent margin text = margin ++ indentRest margin text := by
  simp [indent, h]

/-- Where a line ends, the rest is indented like a text of its own. -/
theorem indentRest_cons_of_ends {c : Char} {rest : Text}
    (h : c = '\n' ∨ c = '\r' ∧ rest.head? ≠ some '\n') :
    indentRest margin (c :: rest) = c :: indent margin rest := by
  by_cases hrest : rest = []
  · simp [indentRest, hrest]
  · rw [indentRest, if_pos ⟨h, hrest⟩, indent_of_ne_nil margin hrest]

/-- Nothing is written inside of a line. -/
theorem indentRest_append {line : Text} (h : Unbroken line) (rest : Text) :
    indentRest margin (line ++ rest) = line ++ indentRest margin rest := by
  induction line with
  | nil => rfl
  | cons c tail ih =>
    obtain ⟨hc, htail⟩ := List.forall_mem_cons.1 h
    have hne : c ≠ '\n' ∧ c ≠ '\r' := by simpa [isBreak] using hc
    simp [indentRest, hne.1, hne.2, ih htail]

/-- A break is kept as it is, and a line may follow it. -/
theorem indentRest_break_append {kind : LineBreak} {rest : Text}
    (h : kind = .carriageReturn → rest.head? ≠ some '\n') :
    indentRest margin (kind.text ++ rest) = kind.text ++ indent margin rest := by
  cases kind with
  | lineFeed => exact indentRest_cons_of_ends margin (.inl rfl)
  | carriageReturn => exact indentRest_cons_of_ends margin (.inr ⟨rfl, h rfl⟩)
  | pair =>
    have hreturn : indentRest margin ('\r' :: '\n' :: rest) =
        '\r' :: indentRest margin ('\n' :: rest) := by
      rw [indentRest, if_neg (by simp)]
    have hfeed : indentRest margin ('\n' :: rest) = '\n' :: indent margin rest :=
      indentRest_cons_of_ends margin (.inl rfl)
    simp [LineBreak.text, hreturn, hfeed]

/-- **A segment is indented by itself**, and so is the text after it. -/
theorem indent_text_append {segment : Segment} {rest : Text} (h : segment.Leads rest) :
    indent margin (segment.text ++ rest) =
      (segment.indented margin).text ++ indent margin rest := by
  have hne : segment.text ++ rest ≠ [] := by
    simp [Segment.text_ne_nil fun hending => (h.last hending).1]
  rw [indent_of_ne_nil margin hne, Segment.text_indented]
  obtain ⟨line, ending⟩ := segment
  cases ending with
  | none =>
    have hrest : rest = [] := (h.last rfl).2
    have hline := indentRest_append margin h.unbroken []
    simp only [List.append_nil] at hline
    simp [hrest, Segment.text_mk_none, hline, indentRest]
  | some kind =>
    have hbreak : indentRest margin (kind.text ++ rest) = kind.text ++ indent margin rest := by
      apply indentRest_break_append
      intro hkind
      exact h.longest (by simp [hkind])
    rw [Segment.text_mk_some, List.append_assoc, indentRest_append margin h.unbroken, hbreak]
    simp

/-- **A text is indented segment by segment.** -/
theorem indent_assemble {segments : List Segment} (h : Segment.Proper segments) :
    indent margin (Segment.assemble segments) =
      Segment.assemble (segments.map (Segment.indented margin)) := by
  induction segments with
  | nil => rfl
  | cons segment rest ih =>
    obtain ⟨hleads, hrest⟩ := Segment.proper_cons_iff.1 h
    rw [Segment.assemble_cons, indent_text_append margin hleads, ih hrest, List.map_cons,
      Segment.assemble_cons]

end Indent

section Margin

variable {margin : Text}

/-- A margin without breaks puts no line feed at the beginning of a text. -/
theorem head?_indent_ne (hmargin : Unbroken margin) {text : Text}
    (h : text.head? ≠ some '\n') : (indent margin text).head? ≠ some '\n' := by
  cases text with
  | nil => simp
  | cons c rest =>
    rw [indent_of_ne_nil margin (List.cons_ne_nil c rest)]
    cases margin with
    | nil =>
      unfold indentRest
      split <;> simpa using h
    | cons d tail =>
      have hd : d ≠ '\n' := by
        intro heq
        exact absurd (hmargin d (by simp)) (by simp [heq, isBreak])
      simpa using hd

theorem proper_map_indented (hmargin : Unbroken margin) {segments : List Segment}
    (h : Segment.Proper segments) : Segment.Proper (segments.map (Segment.indented margin)) := by
  induction segments with
  | nil => trivial
  | cons segment rest ih =>
    obtain ⟨hleads, hrest⟩ := Segment.proper_cons_iff.1 h
    refine Segment.proper_cons_iff.2 ⟨⟨hmargin.append hleads.unbroken, ?_, ?_⟩, ih hrest⟩
    · intro hending
      have hlast := hleads.last hending
      simp [Segment.indented, hlast.1, ← indent_assemble margin hrest, hlast.2]
    · intro hending
      rw [← indent_assemble margin hrest]
      exact head?_indent_ne hmargin (hleads.longest hending)

/-- **The lines of an indented text are the lines of the text with the margin in front.** -/
theorem lines_indent (hmargin : Unbroken margin) (text : Text) :
    lines (indent margin text) = (lines text).map (margin ++ ·) := by
  obtain ⟨segments, hproper, rfl, hlines⟩ := exists_proper_segments text
  rw [indent_assemble margin hproper, lines_assemble (proper_map_indented hmargin hproper),
    ← hlines, List.map_map, List.map_map]
  rfl

/-- Lines with a line feed each are indented line by line. -/
theorem indent_flatMap_feed {list : List Text} (h : ∀ line ∈ list, Unbroken line) :
    indent margin (list.flatMap (· ++ ['\n'])) =
      (list.map (margin ++ ·)).flatMap (· ++ ['\n']) := by
  rw [← Segment.assemble_map_fed, indent_assemble margin (Segment.proper_map_fed h),
    ← Segment.assemble_map_fed, List.map_map, List.map_map]
  rfl

/-- Each line of an indented text is decided as it was. -/
theorem decidedLines_indent (hblank : Blank margin) (hmargin : Unbroken margin) (text : Text) :
    decidedLines (indent margin text) =
      (decidedLines text).map fun line => ⟨margin ++ line.text, line.decision⟩ := by
  rw [decidedLines, decidedLines, lines_indent hmargin, List.map_map, List.map_map]
  apply List.map_congr_left
  intro line _
  simp [DecidedLine.ofLine, decideLine_append_of_blank hblank]

theorem display_ofLine_append (hblank : Blank margin) (line : Text) :
    (DecidedLine.ofLine (margin ++ line)).display =
      margin ++ (DecidedLine.ofLine line).display := by
  by_cases hends : (decideLine line).terminates = true
  · simp [DecidedLine.ofLine, DecidedLine.display, decideLine_append_of_blank hblank, hends]
  · simp [DecidedLine.ofLine, DecidedLine.display, decideLine_append_of_blank hblank, hends]

/-- **Indenting and terminating commute.** -/
theorem transform_indent (hblank : Blank margin) (hmargin : Unbroken margin) (text : Text) :
    transform (indent margin text) = indent margin (transform text) := by
  rw [transform_eq_flatMap_feed, transform_eq_flatMap_feed, lines_indent hmargin,
    indent_flatMap_feed (unbroken_of_mem_map_display text), List.map_map, List.map_map]
  congr 1
  apply List.map_congr_left
  intro line _
  exact display_ofLine_append hblank line

/-- The same decisions are counted. -/
theorem tally_ofText_indent (hblank : Blank margin) (hmargin : Unbroken margin)
    (settings : Settings) (text : Text) :
    (Transformation.ofText settings (indent margin text)).tally =
      (Transformation.ofText settings text).tally := by
  have hdecisions : (lines (indent margin text)).map decideLine = (lines text).map decideLine := by
    rw [lines_indent hmargin, List.map_map]
    apply List.map_congr_left
    intro line _
    exact decideLine_append_of_blank hblank line
  rw [Transformation.tally_ofText, Transformation.tally_ofText, Tally.ofLines, hdecisions,
    Tally.ofLines]

end Margin

/-- **The decision ignores everything before the last word.**  A line with a word in it is decided
alike with a separator in front and anything before that; and any line, blank or not, is decided
alike with separators in front.  So if a text is indented by separators that are no breaks, each of
its lines gets the margin and keeps its decision: terminating the statements of the indented text
gives the indented text of before, and the same tally. -/
theorem decision_ignores_what_precedes_last_word :
    (∀ (before : Text) (c : Char) (line : Text), isSeparator c = true →
      (∃ d ∈ line, isSeparator d = false) →
      decideLine (before ++ c :: line) = decideLine line) ∧
    (∀ before line : Text, (∀ c ∈ before, isSeparator c = true) →
      decideLine (before ++ line) = decideLine line) ∧
    ∀ (margin text : Text) (settings : Settings),
      (∀ c ∈ margin, isSeparator c = true ∧ isBreak c = false) →
      lines (indent margin text) = (lines text).map (margin ++ ·) ∧
      decidedLines (indent margin text) =
        (decidedLines text).map (fun line => ⟨margin ++ line.text, line.decision⟩) ∧
      transform (indent margin text) = indent margin (transform text) ∧
      (Transformation.ofText settings (indent margin text)).tally =
        (Transformation.ofText settings text).tally := by
  refine ⟨?_, fun _ line h => decideLine_append_of_blank h line, ?_⟩
  · intro before c line hc hword
    have hblank : ¬ Blank line := by
      intro hblank
      obtain ⟨d, hmem, hd⟩ := hword
      simp [hblank d hmem] at hd
    exact decideLine_append_separator hc hblank before
  · intro margin text settings hmargin
    have hblank : Blank margin := fun c hc => (hmargin c hc).1
    have hunbroken : Unbroken margin := fun c hc => (hmargin c hc).2
    exact ⟨lines_indent hunbroken text, decidedLines_indent hblank hunbroken text,
      transform_indent hblank hunbroken text, tally_ofText_indent hblank hunbroken settings text⟩

/-- A sign on either side of a blank makes no increment, a blank line stays blank, and a margin goes
before an empty line too, but not between the halves of a break. -/
theorem decision_ignores_sign_before_blank :
    decideLine ['x', '+', ' ', '+'] = decideLine ['+'] ∧
    decideLine ['\t', ' '] = decideLine [] ∧
    (∀ c ∈ ['\t'], isSeparator c = true ∧ isBreak c = false) ∧
    indent ['\t'] ['i', '+', '+', '\r', '\n', '\r', 'f', '('] =
      ['\t', 'i', '+', '+', '\r', '\n', '\t', '\r', '\t', 'f', '('] ∧
    transform ['\t', 'i', '+', '+', '\r', '\n', '\t', '\r', '\t', 'f', '('] =
      indent ['\t'] (transform ['i', '+', '+', '\r', '\n', '\r', 'f', '(']) := by
  have hmargin : ∀ c ∈ ['\t'], isSeparator c = true ∧ isBreak c = false := by
    simp [isSeparator, isBreak]
  have hindent : indent ['\t'] ['i', '+', '+', '\r', '\n', '\r', 'f', '('] =
      ['\t', 'i', '+', '+', '\r', '\n', '\t', '\r', '\t', 'f', '('] := by
    simp [indent, indentRest]
  refine ⟨?_, ?_, hmargin, hindent, ?_⟩
  · exact decision_ignores_what_precedes_last_word.1 ['x', '+'] ' ' ['+'] rfl ⟨'+', by simp, rfl⟩
  · exact decision_ignores_what_precedes_last_word.2.1 ['\t', ' '] [] (by simp [isSeparator])
  · rw [← hindent]
    exact (decision_ignores_what_precedes_last_word.2.2 _ _ {} hmargin).2.2.1

end Semicolon
