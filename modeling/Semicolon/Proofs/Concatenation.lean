import Mathlib.Data.List.Basic
import Semicolon.Proofs.Transform

/-!
# Texts put one after the other

Two texts that are read one after the other give the lines of both together, as long as no line
and no break runs across the place where they meet.  Only the last segment of the first text can
see what comes after it: all lines before it are read without looking so far.  If it can stand
before the second text, the lines of the two are put one after the other; if it cannot, its line
or its break goes on in the second text, and exactly one line is lost.

## Main statements

* `exists_last_segment`: what reading a text leaves to the text after it.
* `lines_append_of_abut`: texts that abut are read apart.
* `length_lines_append_of_not_abut`: texts that do not abut have one line less.
-/

namespace Semicolon

/-- The two texts meet between two lines: one of them is empty, or the first ends in a break which
the second does not continue. -/
def Abut (first second : Text) : Prop :=
  first = [] ∨ second = [] ∨ first.getLast? = some '\n' ∨
    first.getLast? = some '\r' ∧ second.head? ≠ some '\n'

instance (first second : Text) : Decidable (Abut first second) :=
  inferInstanceAs (Decidable (_ ∨ _))

/-! ## The last segment of a text -/

namespace Segment

variable {segment : Segment} {rest : Text}

/-- What comes after a rest that is not empty makes no difference. -/
theorem Leads.append_of_ne_nil (h : segment.Leads rest) (hrest : rest ≠ []) (more : Text) :
    segment.Leads (rest ++ more) where
  unbroken := h.unbroken
  last := by
    intro hending
    exact absurd (h.last hending).2 hrest
  longest := by
    intro hending
    rw [List.head?_append_of_ne_nil rest hrest]
    exact h.longest hending

theorem Leads.text_ne_nil (h : segment.Leads rest) : segment.text ≠ [] :=
  Segment.text_ne_nil fun hending => (h.last hending).1

/-- **A last segment abuts a text if it can be read in front of it.** -/
theorem Leads.abut_text_iff (h : segment.Leads []) (more : Text) :
    Abut segment.text more ↔ segment.Leads more := by
  have hne := h.text_ne_nil
  obtain ⟨line, ending⟩ := segment
  cases ending with
  | none =>
    -- A line without a break goes on in the text after it, unless there is none.
    have hlast : ∀ c, isBreak c = true → line.getLast? ≠ some c := by
      intro c hc heq
      have hline := h.unbroken c (List.mem_of_getLast? heq)
      simp [hc] at hline
    have hfeed := hlast '\n' (by decide)
    have hreturn := hlast '\r' (by decide)
    rw [text_mk_none] at hne ⊢
    constructor
    · intro habut
      have hmore : more = [] := by simpa [Abut, hne, hfeed, hreturn] using habut
      rwa [hmore]
    · intro hleads
      exact .inr (.inl (hleads.last rfl).2)
  | some kind =>
    have hleads : (⟨line, some kind⟩ : Segment).Leads more ↔
        (kind = .carriageReturn → more.head? ≠ some '\n') := by
      constructor
      · intro hleads hkind
        exact hleads.longest (by rw [hkind])
      · intro hlongest
        exact ⟨h.unbroken, by simp, by simpa using hlongest⟩
    rw [hleads, text_mk_some]
    cases kind with
    | lineFeed => simp [Abut, LineBreak.text]
    | pair => simp [Abut, LineBreak.text]
    | carriageReturn =>
      by_cases hmore : more = []
      · simp [Abut, hmore]
      · simp [Abut, LineBreak.text, hmore]

end Segment

theorem lines_text_append {segment : Segment} {more : Text} (h : segment.Leads more) :
    lines (segment.text ++ more) = segment.line :: lines more :=
  lines_eq_cons (nextLine?_text_append h)

/-- **All lines of a text but the last are read before its end is seen.**  What is put after the
text is read together with the last segment. -/
theorem exists_last_segment {text : Text} (h : text ≠ []) :
    ∃ (before : List Text) (segment : Segment), segment.Leads [] ∧ segment.text <:+ text ∧
      lines text = before ++ [segment.line] ∧
      ∀ more, lines (text ++ more) = before ++ lines (segment.text ++ more) := by
  induction text using lines.induct with
  | case1 text hnone => exact absurd (eq_nil_of_nextLine?_eq_none hnone) h
  | case2 text line rest hsome ih =>
    obtain ⟨segment, hleads, htext, hline⟩ := nextLine?_eq_some_iff.1 hsome
    by_cases hrest : rest = []
    · subst hrest
      rw [List.append_nil] at htext
      subst htext
      refine ⟨[], segment, hleads, List.suffix_rfl, ?_, by simp⟩
      rw [lines_eq_cons hsome, lines_nil, hline, List.nil_append]
    · obtain ⟨before, last, hlast, hsuffix, hown, hlines⟩ := ih hrest
      refine ⟨line :: before, last, hlast, ?_, ?_, ?_⟩
      · rw [← htext]
        exact hsuffix.trans (List.suffix_append _ _)
      · rw [lines_eq_cons hsome, hown, List.cons_append]
      · intro more
        have hnext : nextLine? (text ++ more) = some (line, rest ++ more) := by
          rw [← htext, ← hline, List.append_assoc]
          exact nextLine?_text_append (hleads.append_of_ne_nil hrest more)
        rw [lines_eq_cons hnext, hlines, List.cons_append]

/-- Whether a text abuts another is seen at its last segment. -/
theorem abut_iff_of_suffix {segment : Segment} {text : Text} (h : segment.Leads [])
    (hsuffix : segment.text <:+ text) (more : Text) : Abut text more ↔ segment.Leads more := by
  have hne := h.text_ne_nil
  obtain ⟨before, rfl⟩ := hsuffix
  rw [← h.abut_text_iff more]
  simp [Abut, hne, List.getLast?_append_of_ne_nil before hne]

/-! ## The lines of both texts -/

/-- A segment that cannot be read in front of a text is read as a part of its first line. -/
theorem length_lines_text_append_of_not_leads {segment : Segment} {more : Text}
    (h : segment.Leads []) (hnot : ¬ segment.Leads more) :
    (lines (segment.text ++ more)).length = (lines more).length := by
  obtain ⟨line, ending⟩ := segment
  cases ending with
  | none =>
    -- The line goes on up to the first break of the text after it.
    cases hsome : nextLine? more with
    | none =>
      rw [eq_nil_of_nextLine?_eq_none hsome] at hnot
      exact absurd h hnot
    | some read =>
      obtain ⟨next, hnext, htext, -⟩ := exists_leads_of_nextLine? hsome
      have hjoined : (⟨line ++ next.line, next.ending⟩ : Segment).Leads read.2 := by
        refine ⟨h.unbroken.append hnext.unbroken, ?_, hnext.longest⟩
        intro hending
        simp [hnext.last hending]
      have hsplit : (⟨line, none⟩ : Segment).text ++ (next.text ++ read.2) =
          (⟨line ++ next.line, next.ending⟩ : Segment).text ++ read.2 := by
        simp [Segment.text]
      rw [← htext, hsplit, lines_text_append hjoined, lines_text_append hnext,
        List.length_cons, List.length_cons]
  | some kind =>
    -- Only the first half of a pair cannot be read before its second half.
    have hpair : kind = .carriageReturn ∧ more.head? = some '\n' := by
      by_contra hother
      refine hnot ⟨h.unbroken, by simp, ?_⟩
      intro hending hhead
      exact hother ⟨by simpa using hending, hhead⟩
    obtain ⟨hkind, hhead⟩ := hpair
    obtain ⟨tail, rfl⟩ := List.head?_eq_some_iff.1 hhead
    have hnone : Unbroken [] := List.forall_mem_nil _
    have hwhole : (⟨line, some .pair⟩ : Segment).Leads tail := ⟨h.unbroken, by simp, by simp⟩
    have hfeed : (⟨[], some .lineFeed⟩ : Segment).Leads tail := ⟨hnone, by simp, by simp⟩
    have hsplit : (⟨line, some kind⟩ : Segment).text ++ '\n' :: tail =
        (⟨line, some .pair⟩ : Segment).text ++ tail := by
      simp [hkind, Segment.text_mk_some, LineBreak.text]
    have hempty : '\n' :: tail = (⟨[], some .lineFeed⟩ : Segment).text ++ tail := rfl
    rw [hsplit, lines_text_append hwhole, hempty, lines_text_append hfeed, List.length_cons,
      List.length_cons]

/-- The lines of texts that abut are those of the first and then those of the second. -/
theorem lines_append_of_abut {first second : Text} (h : Abut first second) :
    lines (first ++ second) = lines first ++ lines second := by
  by_cases hfirst : first = []
  · simp [hfirst]
  · obtain ⟨before, segment, hlast, hsuffix, hown, hlines⟩ := exists_last_segment hfirst
    have hleads := (abut_iff_of_suffix hlast hsuffix second).1 h
    rw [hlines, lines_text_append hleads, hown, List.append_assoc, List.singleton_append]

/-- **Texts that do not abut have one line less together than apart.** -/
theorem length_lines_append_of_not_abut {first second : Text} (h : ¬ Abut first second) :
    (lines (first ++ second)).length + 1 = (lines first).length + (lines second).length := by
  have hfirst : first ≠ [] := by
    intro hnil
    exact h (.inl hnil)
  obtain ⟨before, segment, hlast, hsuffix, hown, hlines⟩ := exists_last_segment hfirst
  have hnot : ¬ segment.Leads second := by
    intro hleads
    exact h ((abut_iff_of_suffix hlast hsuffix second).2 hleads)
  rw [hlines, hown, List.length_append, length_lines_text_append_of_not_leads hlast hnot,
    List.length_append, List.length_singleton]
  omega

/-- Texts have as many lines together as apart only if they abut. -/
theorem abut_of_length_lines_append {first second : Text}
    (h : (lines (first ++ second)).length = (lines first).length + (lines second).length) :
    Abut first second := by
  by_contra hnot
  have hlost := length_lines_append_of_not_abut hnot
  omega

/-! ## What is written for both texts -/

/-- Lines are written one by one, so what is written for lists of lines can be put together. -/
theorem transform_append_of_lines {first second : Text}
    (h : lines (first ++ second) = lines first ++ lines second) :
    transform (first ++ second) = transform first ++ transform second := by
  simp only [transform_eq_flatMap_feed, h, List.map_append, List.flatMap_append]

/-- The output has a line feed for every line. -/
theorem count_feed_transform (text : Text) : (transform text).count '\n' = (lines text).length := by
  rw [transform_eq_flatMap_feed, count_feed_flatMap_feed (unbroken_of_mem_map_display text),
    List.length_map]

/-- **Two texts may be processed one by one exactly if they abut.**  Then, and only then, their
lines are the lines of the whole, and so are the texts that are written; the tallies of the two
merge to the tally of the whole. -/
theorem processed_apart_iff_abut (first second : Text) :
    (lines (first ++ second) = lines first ++ lines second ↔ Abut first second) ∧
    (transform (first ++ second) = transform first ++ transform second ↔ Abut first second) ∧
    (Abut first second → ∀ settings : Settings,
      (Transformation.ofText settings (first ++ second)).tally =
        (Transformation.ofText settings first).tally.merge
          (Transformation.ofText settings second).tally) := by
  refine ⟨⟨?_, lines_append_of_abut⟩, ⟨?_, ?_⟩, ?_⟩
  · intro hlines
    apply abut_of_length_lines_append
    rw [hlines, List.length_append]
  · -- Every line is written with one line feed, so the line that is lost is missed in the output.
    intro htransform
    apply abut_of_length_lines_append
    rw [← count_feed_transform, htransform, List.count_append, count_feed_transform,
      count_feed_transform]
  · intro habut
    exact transform_append_of_lines (lines_append_of_abut habut)
  · intro habut settings
    simp only [Transformation.tally, Transformation.rendering_ofText, Rendering.ofLines]
    rw [lines_append_of_abut habut, Tally.ofLines_append]

/-- A carriage return abuts a pair, but not a line feed, with which it would make one. -/
theorem processed_apart_at_return :
    (Abut ['x', '\r'] ['\r', '\n', 'y'] ∧
      (Transformation.ofText {} ['x', '\r', '\r', '\n', 'y']).tally =
        (Transformation.ofText {} ['x', '\r']).tally.merge
          (Transformation.ofText {} ['\r', '\n', 'y']).tally) ∧
    ¬ Abut ['x', '\r'] ['\n', 'y'] ∧
    transform ['x', '\r', '\n', 'y'] ≠ transform ['x', '\r'] ++ transform ['\n', 'y'] := by
  have habut : Abut ['x', '\r'] ['\r', '\n', 'y'] := by decide
  have hnot : ¬ Abut ['x', '\r'] ['\n', 'y'] := by decide
  refine ⟨⟨habut, (processed_apart_iff_abut _ _).2.2 habut {}⟩, hnot, ?_⟩
  intro htransform
  exact hnot ((processed_apart_iff_abut _ _).2.1.1 htransform)

end Semicolon
