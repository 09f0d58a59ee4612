import Mathlib.Data.List.TakeWhile
import Semicolon.Lines.Segmentation

/-!
# The lines of a text are those of its one proper segmentation

Taking a line off a text and putting a segment in front of a text are the same step, read in two
directions.  The step is stated once, for a segment and the text after it, and the lines of whole
texts follow by induction: every text has a proper segmentation, and the lines that are read are
the lines of every proper one.

## Main statements

* `nextLine?_eq_some_iff`: the step.
* `lines_assemble`: proper segments are read back.
* `exists_proper_segments`: every text is made of proper segments.
* `lines_flatMap_break`: lines written with one and the same break each are read back.
-/

namespace Semicolon

/-- The line holds no break. -/
abbrev Unbroken (line : Text) : Prop := ∀ c ∈ line, isBreak c = false

theorem Unbroken.append {first second : Text} (hfirst : Unbroken first)
    (hsecond : Unbroken second) : Unbroken (first ++ second) := by
  intro c hc
  rcases List.mem_append.1 hc with hc | hc
  · exact hfirst c hc
  · exact hsecond c hc

/-! ## One segment and the text after it -/

namespace LineBreak

/-- A break begins with a break character. -/
theorem text_append_eq_cons (kind : LineBreak) (rest : Text) :
    ∃ c tail, kind.text ++ rest = c :: tail ∧ isBreak c = true := by
  cases kind <;> exact ⟨_, _, rfl, rfl⟩

/-- A break is skipped as a whole, unless a line feed makes a carriage return the first half of a
pair. -/
theorem skipBreak_text_append {kind : LineBreak} {rest : Text}
    (h : kind = .carriageReturn → rest.head? ≠ some '\n') :
    skipBreak (kind.text ++ rest) = rest := by
  cases kind with
  | lineFeed => rfl
  | pair => rfl
  | carriageReturn =>
    cases rest with
    | nil => rfl
    | cons c tail =>
      have hc : c ≠ '\n' := by simpa using h rfl
      simp [LineBreak.text, skipBreak, hc]

/-- A break character and what follows it begin with one break, and what is skipped is that
break. -/
theorem exists_of_isBreak {c : Char} (h : isBreak c = true) (tail : Text) :
    ∃ kind : LineBreak, kind.text ++ skipBreak (c :: tail) = c :: tail ∧
      (kind = .carriageReturn → (skipBreak (c :: tail)).head? ≠ some '\n') := by
  have hc : c = '\n' ∨ c = '\r' := by simpa [isBreak] using h
  rcases hc with rfl | rfl
  · exact ⟨.lineFeed, rfl, by simp⟩
  · cases tail with
    | nil => exact ⟨.carriageReturn, rfl, by simp [skipBreak]⟩
    | cons next rest =>
      by_cases hnext : next = '\n'
      · subst hnext
        exact ⟨.pair, rfl, by simp⟩
      · have hskip : skipBreak ('\r' :: next :: rest) = next :: rest := by simp [skipBreak, hnext]
        refine ⟨.carriageReturn, ?_, ?_⟩
        · rw [hskip]
          rfl
        · intro _
          rw [hskip]
          simpa using hnext

end LineBreak

namespace Segment

/-- The segment can stand before `rest` and be read from there: its line holds no break, only at
the end of the text may it lack a break, and its break is as long as it can be. -/
structure Leads (segment : Segment) (rest : Text) : Prop where
  unbroken : Unbroken segment.line
  last : segment.ending = none → segment.line ≠ [] ∧ rest = []
  longest : segment.ending = some .carriageReturn → rest.head? ≠ some '\n'

theorem text_mk_none (line : Text) : (⟨line, none⟩ : Segment).text = line :=
  List.append_nil line

theorem text_mk_some (line : Text) (kind : LineBreak) :
    (⟨line, some kind⟩ : Segment).text = line ++ kind.text := rfl

/-- A segment is empty only if it lacks a line and a break. -/
theorem text_ne_nil {segment : Segment} (h : segment.ending = none → segment.line ≠ []) :
    segment.text ≠ [] := by
  obtain ⟨line, ending⟩ := segment
  cases ending with
  | none =>
    rw [text_mk_none]
    exact h rfl
  | some kind =>
    obtain ⟨c, tail, htext, -⟩ := kind.text_append_eq_cons []
    rw [List.append_nil] at htext
    simp [text_mk_some, htext]

end Segment

@[simp] theorem nextLine?_nil : nextLine? [] = none := rfl

theorem nextLine?_of_ne_nil {text : Text} (h : text ≠ []) :
    nextLine? text =
      some (text.takeWhile (!isBreak ·), skipBreak (text.dropWhile (!isBreak ·))) := by
  have hempty : text.isEmpty = false := by simpa using h
  simp [nextLine?, hempty]

/-- A segment that can be read is read. -/
theorem nextLine?_text_append {segment : Segment} {rest : Text} (h : segment.Leads rest) :
    nextLine? (segment.text ++ rest) = some (segment.line, rest) := by
  have hne : segment.text ++ rest ≠ [] := by
    have htext := Segment.text_ne_nil fun hending => (h.last hending).1
    simp [htext]
  obtain ⟨line, ending⟩ := segment
  have hline : ∀ c ∈ line, (!isBreak c) = true := by
    intro c hc
    simp [h.unbroken c hc]
  rw [nextLine?_of_ne_nil hne]
  cases ending with
  | none =>
    obtain ⟨-, rfl⟩ := h.last rfl
    rw [Segment.text_mk_none, List.append_nil, List.takeWhile_eq_self_iff.2 hline,
      List.dropWhile_eq_nil_iff.2 hline]
    rfl
  | some kind =>
    obtain ⟨c, tail, htail, hc⟩ := kind.text_append_eq_cons rest
    have hskip : skipBreak (kind.text ++ rest) = rest := by
      refine LineBreak.skipBreak_text_append ?_
      rintro rfl
      exact h.longest rfl
    rw [Segment.text_mk_some, List.append_assoc, List.takeWhile_append_of_pos hline,
      List.dropWhile_append_of_pos hline, htail]
    rw [htail] at hskip
    simp [hc, hskip]

/-- What is read is a segment that stands before the rest. -/
theorem exists_leads_of_nextLine? {text line rest : Text} (h : nextLine? text = some (line, rest)) :
    ∃ segment : Segment, segment.Leads rest ∧ segment.text ++ rest = text ∧
      segment.line = line := by
  have hne : text ≠ [] := by
    rintro rfl
    simp at h
  rw [nextLine?_of_ne_nil hne] at h
  obtain ⟨hline, hrest⟩ : text.takeWhile (!isBreak ·) = line ∧
      skipBreak (text.dropWhile (!isBreak ·)) = rest := by simpa using h
  have unbroken : Unbroken line := by
    intro c hc
    rw [← hline] at hc
    simpa using List.mem_takeWhile_imp hc
  have cut : line ++ text.dropWhile (!isBreak ·) = text := by
    rw [← hline, List.takeWhile_append_dropWhile]
  -- The line ends where the text does, or at a break character.
  cases hdrop : text.dropWhile (!isBreak ·) with
  | nil =>
    rw [hdrop] at cut hrest
    rw [List.append_nil] at cut
    subst cut hrest
    refine ⟨⟨line, none⟩, ⟨unbroken, fun _ => ⟨hne, rfl⟩, by simp⟩, ?_, rfl⟩
    rw [Segment.text_mk_none]
    exact List.append_nil line
  | cons c tail =>
    have hc : isBreak c = true := by
      have hhead := List.head?_dropWhile_not (!isBreak ·) text
      rw [hdrop] at hhead
      simpa using hhead
    obtain ⟨kind, htext, hlongest⟩ := LineBreak.exists_of_isBreak hc tail
    rw [hdrop] at cut hrest
    rw [hrest] at htext hlongest
    refine ⟨⟨line, some kind⟩, ⟨unbroken, by simp, ?_⟩, ?_, rfl⟩
    · intro hkind
      exact hlongest (by simpa using hkind)
    · rw [Segment.text_mk_some, List.append_assoc, htext, cut]

/-- **Reading a line off a text is finding the segment it begins with.** -/
theorem nextLine?_eq_some_iff {text line rest : Text} :
    nextLine? text = some (line, rest) ↔
      ∃ segment : Segment, segment.Leads rest ∧ segment.text ++ rest = text ∧
        segment.line = line := by
  constructor
  · exact exists_leads_of_nextLine?
  · rintro ⟨segment, hleads, rfl, rfl⟩
    exact nextLine?_text_append hleads

/-! ## All segments of a text -/

namespace Segment

/-- A proper list of segments makes the empty text only if it is empty. -/
theorem assemble_eq_nil_iff {segments : List Segment} (h : Proper segments) :
    assemble segments = [] ↔ segments = [] := by
  cases segments with
  | nil => simp
  | cons segment rest =>
    obtain ⟨-, hlast, -⟩ := h
    have htext := text_ne_nil fun hending => (hlast hending).1
    simp [htext]

/-- Segments are proper if the first can be read and the others are proper. -/
theorem proper_cons_iff {segment : Segment} {rest : List Segment} :
    Proper (segment :: rest) ↔ segment.Leads (assemble rest) ∧ Proper rest := by
  constructor
  · rintro ⟨hline, hlast, hlongest, hrest⟩
    refine ⟨⟨hline, ?_, hlongest⟩, hrest⟩
    intro hending
    rw [assemble_eq_nil_iff hrest]
    exact hlast hending
  · rintro ⟨hleads, hrest⟩
    refine ⟨hleads.unbroken, ?_, hleads.longest, hrest⟩
    intro hending
    rw [← assemble_eq_nil_iff hrest]
    exact hleads.last hending

/-- No line of proper segments holds a break. -/
theorem unbroken_of_mem {segments : List Segment} (h : Proper segments) :
    ∀ segment ∈ segments, Unbroken segment.line := by
  induction segments with
  | nil => simp
  | cons first rest ih =>
    obtain ⟨hfirst, hrest⟩ := proper_cons_iff.1 h
    intro segment hmem
    rcases List.mem_cons.1 hmem with rfl | hmem
    · exact hfirst.unbroken
    · exact ih hrest segment hmem

end Segment

/-- **Proper segments are read back from their text.** -/
theorem lines_assemble {segments : List Segment} (h : Segment.Proper segments) :
    lines (Segment.assemble segments) = segments.map (·.line) := by
  induction segments with
  | nil => exact lines_nil
  | cons segment rest ih =>
    obtain ⟨hleads, hrest⟩ := Segment.proper_cons_iff.1 h
    rw [Segment.assemble_cons, lines_eq_cons (nextLine?_text_append hleads), ih hrest,
      List.map_cons]

theorem eq_nil_of_nextLine?_eq_none {text : Text} (h : nextLine? text = none) : text = [] := by
  by_contra hne
  rw [nextLine?_of_ne_nil hne] at h
  exact Option.some_ne_none _ h

/-- **Every text is made of proper segments**, and its lines are theirs. -/
theorem exists_proper_segments (text : Text) :
    ∃ segments : List Segment, Segment.Proper segments ∧ Segment.assemble segments = text ∧
      segments.map (·.line) = lines text := by
  induction text using lines.induct with
  | case1 text hnone =>
    obtain rfl := eq_nil_of_nextLine?_eq_none hnone
    exact ⟨[], trivial, rfl, by simp⟩
  | case2 text line rest hsome ih =>
    obtain ⟨segments, hproper, rfl, hlines⟩ := ih
    obtain ⟨segment, hleads, htext, hline⟩ := nextLine?_eq_some_iff.1 hsome
    refine ⟨segment :: segments, Segment.proper_cons_iff.2 ⟨hleads, hproper⟩, htext, ?_⟩
    rw [lines_eq_cons hsome, List.map_cons, hlines, hline]

/-- No line holds a break. -/
theorem unbroken_of_mem_lines {text line : Text} (h : line ∈ lines text) : Unbroken line := by
  obtain ⟨segments, hproper, -, hlines⟩ := exists_proper_segments text
  rw [← hlines] at h
  obtain ⟨segment, hmem, rfl⟩ := List.mem_map.1 h
  exact Segment.unbroken_of_mem hproper segment hmem

/-! ## Lines with the same break each -/

namespace Segment

/-- A line with a break. -/
def ended (kind : LineBreak) (line : Text) : Segment := ⟨line, some kind⟩

theorem assemble_map_ended (kind : LineBreak) (list : List Text) :
    assemble (list.map (ended kind)) = list.flatMap (· ++ kind.text) := by
  rw [assemble, List.flatMap_map]
  rfl

theorem map_line_map_ended (kind : LineBreak) (list : List Text) :
    (list.map (ended kind)).map (·.line) = list := by
  rw [List.map_map]
  exact List.map_id list

/-- Lines that are ended by carriage returns have no line feed in front. -/
theorem head?_flatMap_return {list : List Text} (h : ∀ line ∈ list, Unbroken line) :
    (list.flatMap (· ++ LineBreak.carriageReturn.text)).head? ≠ some '\n' := by
  cases list with
  | nil => simp
  | cons line rest =>
    obtain ⟨hline, -⟩ := List.forall_mem_cons.1 h
    cases line with
    | nil => simp [LineBreak.text]
    | cons c tail =>
      have hc : c ≠ '\n' := by
        rintro rfl
        exact absurd (hline '\n' (by simp)) (by decide)
      simpa using hc

theorem proper_map_ended (kind : LineBreak) {list : List Text}
    (h : ∀ line ∈ list, Unbroken line) : Proper (list.map (ended kind)) := by
  induction list with
  | nil => trivial
  | cons line rest ih =>
    obtain ⟨hline, hrest⟩ := List.forall_mem_cons.1 h
    refine proper_cons_iff.2 ⟨⟨hline, by simp [ended], ?_⟩, ih hrest⟩
    intro hending
    have hkind : kind = .carriageReturn := by simpa [ended] using hending
    rw [assemble_map_ended, hkind]
    exact head?_flatMap_return hrest

end Segment

/-- **Lines written with one and the same break each are read back**, empty ones too. -/
theorem lines_flatMap_break (kind : LineBreak) {list : List Text}
    (h : ∀ line ∈ list, Unbroken line) : lines (list.flatMap (· ++ kind.text)) = list := by
  rw [← Segment.assemble_map_ended, lines_assemble (Segment.proper_map_ended kind h),
    Segment.map_line_map_ended]

/-! ## Lines with a line feed each -/

namespace Segment

/-- A line with a line feed. -/
def fed (line : Text) : Segment := ⟨line, some .lineFeed⟩

theorem assemble_map_fed (list : List Text) :
    assemble (list.map fed) = list.flatMap (· ++ ['\n']) :=
  assemble_map_ended .lineFeed list

theorem proper_map_fed {list : List Text} (h : ∀ line ∈ list, Unbroken line) :
    Proper (list.map fed) :=
  proper_map_ended .lineFeed h

end Segment

theorem lines_flatMap_feed {list : List Text} (h : ∀ line ∈ list, Unbroken line) :
    lines (list.flatMap (· ++ ['\n'])) = list :=
  lines_flatMap_break .lineFeed h

/-- **The lines of a text are the one list that breaks can be put into to give the text**: a break
after each line, which only the last may lack and then only if it is not empty, no break inside a
line, and no carriage return taken alone where a line feed follows it. -/
theorem lines_unique_decomposition :
    (∀ (text : Text) (found : List Text), found = lines text ↔
      ∃ segments : List Segment, Segment.Proper segments ∧ Segment.assemble segments = text ∧
        segments.map (·.line) = found) ∧
    (∀ segments : List Segment, Segment.Proper segments →
      lines (Segment.assemble segments) = segments.map (·.line)) ∧
    lines [] = [] := by
  refine ⟨?_, fun _ => lines_assemble, lines_nil⟩
  intro text found
  constructor
  · rintro rfl
    exact exists_proper_segments text
  · rintro ⟨segments, hproper, rfl, rfl⟩
    exact (lines_assemble hproper).symm

/-- A carriage return before a pair is a break of its own, so there is an empty line between
them; the last line lacks a break. -/
theorem lines_of_return_before_pair :
    Segment.Proper [⟨['a'], some .carriageReturn⟩, ⟨[], some .pair⟩, ⟨['b'], some .lineFeed⟩,
      ⟨['é'], none⟩] ∧
    lines ['a', '\r', '\r', '\n', 'b', '\n', 'é'] = [['a'], [], ['b'], ['é']] := by
  have hproper : Segment.Proper [⟨['a'], some .carriageReturn⟩, ⟨[], some .pair⟩,
      ⟨['b'], some .lineFeed⟩, ⟨['é'], none⟩] := by
    simp [Segment.Proper, Segment.text, LineBreak.text, isBreak]
  exact ⟨hproper, lines_unique_decomposition.2.1 _ hproper⟩

end Semicolon
