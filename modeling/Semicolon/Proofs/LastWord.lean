import Mathlib.Data.List.TakeWhile
import Semicolon.Decision

/-!
# The last word of a line

A line that is not blank can be cut in exactly one way into a word that no character beside it
could make longer, the separators after that word, and all that stands before it.  The last word is
that word, and also the last piece with a character in it when the line is cut at every separator.

## Main definitions

* `WordCut`: a line cut around its last word.
* `lastPiece?`: the last piece of a line that is not empty.

## Main statements

* `WordCut.lastWord?_eq`, `exists_wordCut`: every cut is around the last word, and there is one.
* `WordCut.unique`: there is one cut only.
* `lastPiece?_eq_lastWord?`: words and pieces agree.
-/

namespace Semicolon

/-- There is nothing in the text but separators. -/
abbrev Blank (text : Text) : Prop := ∀ c ∈ text, isSeparator c = true

/-- The line is what stands before a word, the word, and separators. -/
structure WordCut (line before word blanks : Text) : Prop where
  line_eq : line = before ++ word ++ blanks
  blank : Blank blanks
  ne_nil : word ≠ []
  unseparated : ∀ c ∈ word, isSeparator c = false
  /-- Where the word begins, the line begins or a separator has just ended. -/
  begins : before = [] ∨ ∃ front c, before = front ++ [c] ∧ isSeparator c = true

variable {line before word blanks : Text}

/-! ## Cuts -/

namespace WordCut

/-- The word read backwards: what is left of the line once the separators at its end are gone. -/
theorem dropWhile_reverse (h : WordCut line before word blanks) :
    line.reverse.dropWhile isSeparator = word.reverse ++ before.reverse := by
  obtain ⟨front, last, rfl⟩ := word.eq_nil_or_concat.resolve_left h.ne_nil
  have hlast : isSeparator last = false := h.unseparated last (by simp)
  have hblanks : ∀ c ∈ blanks.reverse, isSeparator c = true := by
    intro c hc
    exact h.blank c (List.mem_reverse.1 hc)
  rw [h.line_eq, List.reverse_append, List.dropWhile_append_of_pos hblanks]
  simp [hlast]

/-- The separators at the end, read backwards. -/
theorem takeWhile_reverse (h : WordCut line before word blanks) :
    line.reverse.takeWhile isSeparator = blanks.reverse := by
  have hline : blanks.reverse ++ (word.reverse ++ before.reverse) = line.reverse := by
    simp [h.line_eq]
  have hparts : line.reverse.takeWhile isSeparator ++ (word.reverse ++ before.reverse) =
      line.reverse := by
    rw [← h.dropWhile_reverse, List.takeWhile_append_dropWhile]
  exact List.append_cancel_right (hparts.trans hline.symm)

/-- **A cut is around the last word.** -/
theorem lastWord?_eq (h : WordCut line before word blanks) : lastWord? line = some word := by
  have hword : ∀ c ∈ word.reverse, (!isSeparator c) = true := by
    intro c hc
    simp [h.unseparated c (List.mem_reverse.1 hc)]
  have hbefore : before.reverse.takeWhile (!isSeparator ·) = [] := by
    rcases h.begins with hnil | ⟨front, c, heq, hc⟩
    · simp [hnil]
    · simp [heq, hc]
  have htake : (line.reverse.dropWhile isSeparator).takeWhile (!isSeparator ·) = word.reverse := by
    rw [h.dropWhile_reverse, List.takeWhile_append_of_pos hword, hbefore, List.append_nil]
  obtain ⟨front, last, rfl⟩ := word.eq_nil_or_concat.resolve_left h.ne_nil
  simp [lastWord?, htake]

/-- **A line is cut around its last word in one way only.** -/
theorem unique {before' word' blanks' : Text} (h : WordCut line before word blanks)
    (h' : WordCut line before' word' blanks') :
    before = before' ∧ word = word' ∧ blanks = blanks' := by
  have hword : word = word' := Option.some.inj (h.lastWord?_eq.symm.trans h'.lastWord?_eq)
  have hblanks : blanks = blanks' :=
    List.reverse_inj.1 (h.takeWhile_reverse.symm.trans h'.takeWhile_reverse)
  refine ⟨?_, hword, hblanks⟩
  have hline := h.line_eq.symm.trans h'.line_eq
  rw [hword, hblanks] at hline
  exact List.append_cancel_right (List.append_cancel_right hline)

/-- A character in front of a line belongs to the word if it separates nothing and there is nothing
else before the word; otherwise it stands before the word. -/
theorem exists_cons (h : WordCut line before word blanks) (c : Char) :
    ∃ before' word', WordCut (c :: line) before' word' blanks := by
  have keeps (hbegins : before ≠ [] ∨ isSeparator c = true) :
      WordCut (c :: line) (c :: before) word blanks := by
    refine ⟨by simp [h.line_eq], h.blank, h.ne_nil, h.unseparated, .inr ?_⟩
    rcases h.begins with hnil | ⟨front, d, heq, hd⟩
    · exact ⟨[], c, by simp [hnil], hbegins.resolve_left (absurd hnil)⟩
    · exact ⟨c :: front, d, by simp [heq], hd⟩
  by_cases hbegins : before ≠ [] ∨ isSeparator c = true
  · exact ⟨c :: before, word, keeps hbegins⟩
  · simp only [not_or, not_not, Bool.not_eq_true] at hbegins
    obtain ⟨hnil, hc⟩ := hbegins
    refine ⟨[], c :: word, ?_, h.blank, by simp, ?_, .inl rfl⟩
    · simp [h.line_eq, hnil]
    · intro d hd
      rcases List.mem_cons.1 hd with rfl | hd
      · exact hc
      · exact h.unseparated d hd

end WordCut

/-- **A line that is not blank has a last word.** -/
theorem exists_wordCut (h : ¬ Blank line) :
    ∃ before word blanks, WordCut line before word blanks := by
  induction line with
  | nil => exact absurd (List.forall_mem_nil _) h
  | cons c rest ih =>
    by_cases hrest : Blank rest
    · have hc : isSeparator c = false := by
        by_contra hc
        exact h (List.forall_mem_cons.2 ⟨by simpa using hc, hrest⟩)
      exact ⟨[], [c], rest, rfl, hrest, by simp, by simpa using hc, .inl rfl⟩
    · obtain ⟨before, word, blanks, hcut⟩ := ih hrest
      obtain ⟨before', word', hcut'⟩ := hcut.exists_cons c
      exact ⟨before', word', blanks, hcut'⟩

theorem lastWord?_of_blank (h : Blank line) : lastWord? line = none := by
  have hnil : line.reverse.dropWhile isSeparator = [] := by simpa using h
  simp [lastWord?, hnil]

theorem lastWord?_eq_none_iff : lastWord? line = none ↔ Blank line := by
  constructor
  · intro hnone
    by_contra hblank
    obtain ⟨before, word, blanks, hcut⟩ := exists_wordCut hblank
    simp [hcut.lastWord?_eq] at hnone
  · exact lastWord?_of_blank

theorem lastWord?_eq_some_iff :
    lastWord? line = some word ↔ ∃ before blanks, WordCut line before word blanks := by
  constructor
  · intro hsome
    have hblank : ¬ Blank line := by
      intro hblank
      simp [lastWord?_of_blank hblank] at hsome
    obtain ⟨before, other, blanks, hcut⟩ := exists_wordCut hblank
    obtain rfl : other = word := Option.some.inj (hcut.lastWord?_eq.symm.trans hsome)
    exact ⟨before, blanks, hcut⟩
  · intro ⟨before, blanks, hcut⟩
    exact hcut.lastWord?_eq

/-! ## Pieces between separators -/

/-- The last piece that is not empty, when the line is cut at every separator. -/
def lastPiece? (line : Text) : Option Text :=
  (line.splitOnP isSeparator).reverse.find? (!·.isEmpty)

/-- The pieces after a separator come first, and those before it only if they are all empty. -/
theorem lastPiece?_append_separator {c : Char} (hc : isSeparator c = true) (front rest : Text) :
    lastPiece? (front ++ c :: rest) = (lastPiece? rest).or (lastPiece? front) := by
  rw [lastPiece?, List.splitOnP_append_cons front rest hc, List.reverse_append, List.find?_append]
  rfl

theorem lastPiece?_of_blank (h : Blank line) : lastPiece? line = none := by
  induction line with
  | nil => simp [lastPiece?]
  | cons c rest ih =>
    obtain ⟨hc, hrest⟩ := List.forall_mem_cons.1 h
    have hnil : lastPiece? [] = none := by simp [lastPiece?]
    rw [← List.nil_append (c :: rest), lastPiece?_append_separator hc, ih hrest, hnil]
    rfl

theorem lastPiece?_of_unseparated (hne : word ≠ []) (h : ∀ c ∈ word, isSeparator c = false) :
    lastPiece? word = some word := by
  simp [lastPiece?, List.splitOnP_eq_singleton h, hne]

theorem WordCut.lastPiece?_eq (h : WordCut line before word blanks) :
    lastPiece? line = some word := by
  have hword := lastPiece?_of_unseparated h.ne_nil h.unseparated
  have hend : lastPiece? (word ++ blanks) = some word := by
    cases hblanks : blanks with
    | nil => rwa [List.append_nil]
    | cons c rest =>
      obtain ⟨hc, hrest⟩ := List.forall_mem_cons.1 (hblanks ▸ h.blank)
      rw [lastPiece?_append_separator hc, lastPiece?_of_blank hrest, hword]
      rfl
  rw [h.line_eq, List.append_assoc]
  rcases h.begins with hnil | ⟨front, c, heq, hc⟩
  · rw [hnil, List.nil_append, hend]
  · rw [heq, List.append_assoc, List.singleton_append, lastPiece?_append_separator hc, hend]
    rfl

/-- **The last word is the last piece that is not empty.** -/
theorem lastPiece?_eq_lastWord? (line : Text) : lastPiece? line = lastWord? line := by
  by_cases hblank : Blank line
  · rw [lastPiece?_of_blank hblank, lastWord?_of_blank hblank]
  · obtain ⟨before, word, blanks, hcut⟩ := exists_wordCut hblank
    rw [hcut.lastPiece?_eq, hcut.lastWord?_eq]

/-! ## All together -/

/-- **The last word of a line is the one word that ends it but for separators.**  It is not empty,
holds no separator, and begins where the line begins or a separator has just ended; a line can be
cut in this way only once, and not at all if it is blank.  Taking the last piece that is not empty
from the pieces between separators gives the same word.  The separators are six, and no other blank
is one. -/
theorem lastWord?_is_maximal_trailing_word :
    (∀ line word : Text, lastWord? line = some word ↔
      ∃ before blanks, line = before ++ word ++ blanks ∧ (∀ c ∈ blanks, isSeparator c = true) ∧
        word ≠ [] ∧ (∀ c ∈ word, isSeparator c = false) ∧
        (before = [] ∨ ∃ front c, before = front ++ [c] ∧ isSeparator c = true)) ∧
    (∀ line before word blanks before' word' blanks' : Text, WordCut line before word blanks →
      WordCut line before' word' blanks' →
      before = before' ∧ word = word' ∧ blanks = blanks') ∧
    (∀ line : Text, lastWord? line = none ↔ ∀ c ∈ line, isSeparator c = true) ∧
    (∀ line : Text, lastWord? line =
      (line.splitOnP isSeparator).reverse.find? fun piece => !piece.isEmpty) ∧
    ∀ c : Char, isSeparator c = true ↔ c ∈ [' ', '\t', '\n', '\x0b', '\x0c', '\r'] := by
  refine ⟨?_, fun _ _ _ _ _ _ _ => WordCut.unique, fun _ => lastWord?_eq_none_iff,
    fun line => (lastPiece?_eq_lastWord? line).symm, ?_⟩
  · intro line word
    rw [lastWord?_eq_some_iff]
    constructor
    · intro ⟨before, blanks, hcut⟩
      exact ⟨before, blanks, hcut.line_eq, hcut.blank, hcut.ne_nil, hcut.unseparated, hcut.begins⟩
    · intro ⟨before, blanks, hline, hblank, hne, hunseparated, hbegins⟩
      exact ⟨before, blanks, hline, hblank, hne, hunseparated, hbegins⟩
  · intro c
    simp [isSeparator, or_assoc]

/-- The no-break space is part of the last word, the tabulator before it and the blanks after it are
not, and there is no other way to cut the line. -/
theorem lastWord?_with_no_break_space :
    WordCut ['x', '\t', 'y', '\u00a0', 'z', ' ', '\x0c'] ['x', '\t'] ['y', '\u00a0', 'z']
      [' ', '\x0c'] ∧
    ∀ before word blanks : Text,
      WordCut ['x', '\t', 'y', '\u00a0', 'z', ' ', '\x0c'] before word blanks →
      before = ['x', '\t'] ∧ word = ['y', '\u00a0', 'z'] ∧ blanks = [' ', '\x0c'] := by
  have hcut : WordCut ['x', '\t', 'y', '\u00a0', 'z', ' ', '\x0c'] ['x', '\t']
      ['y', '\u00a0', 'z'] [' ', '\x0c'] :=
    { line_eq := rfl
      blank := by simp [Blank, isSeparator]
      ne_nil := by simp
      unseparated := by simp [isSeparator]
      begins := .inr ⟨['x'], '\t', rfl, rfl⟩ }
  refine ⟨hcut, ?_⟩
  intro before word blanks hother
  exact lastWord?_is_maximal_trailing_word.2.1 _ _ _ _ _ _ _ hother hcut

end Semicolon
