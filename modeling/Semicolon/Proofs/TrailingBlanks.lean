import Semicolon.Proofs.Indentation
import Semicolon.Proofs.RuleOrder

/-!
# What stands after the last word

The two families of rules look at different places.  A suffix is looked for at the very end of a
line, so one separator after it hides it.  The last word ends before the separators, so none of
them changes what the token rules see.

A line that ends in a suffix has a last word which no rule accepts.  Once the suffix is hidden there
is nothing left to terminate the line, and a line with separators at its end is terminated by a
token rule or not at all.

## Main definitions

* `decideWord`: the decision on a line by its last word alone.

## Main statements

* `lastWord?_append_blanks`, `Suffix.find?_append_blanks`: what separators do to each family.
* `decideLine_append_blanks`: separators leave the decision to the last word.
-/

namespace Semicolon

variable {line blanks : Text}

/-! ## The two families -/

/-- Separators after a line are separators after its last word. -/
theorem WordCut.append_blanks {before word after : Text} (h : WordCut line before word after)
    (hblanks : Blank blanks) : WordCut (line ++ blanks) before word (after ++ blanks) where
  line_eq := by simp [h.line_eq]
  blank := List.forall_mem_append.2 ⟨h.blank, hblanks⟩
  ne_nil := h.ne_nil
  unseparated := h.unseparated
  begins := h.begins

/-- **Separators at the end of a line do not change its last word.** -/
theorem lastWord?_append_blanks (hblanks : Blank blanks) (line : Text) :
    lastWord? (line ++ blanks) = lastWord? line := by
  by_cases hline : Blank line
  · have hall : Blank (line ++ blanks) := List.forall_mem_append.2 ⟨hline, hblanks⟩
    rw [lastWord?_of_blank hall, lastWord?_of_blank hline]
  · obtain ⟨before, word, after, hcut⟩ := exists_wordCut hline
    rw [hcut.lastWord?_eq, (hcut.append_blanks hblanks).lastWord?_eq]

/-- **No suffix is found behind a separator.** -/
theorem Suffix.find?_append_blanks (hne : blanks ≠ []) (hblanks : Blank blanks) (line : Text) :
    Suffix.find? (line ++ blanks) = none := by
  obtain ⟨front, last, rfl⟩ := blanks.eq_nil_or_concat.resolve_left hne
  have hlast : isSeparator last = true := hblanks last (by simp)
  have hempty : Suffix.find? (line ++ front ++ [last]) = Suffix.find? [] :=
    Suffix.find?_append_separator hlast (line ++ front) []
  rw [List.concat_eq_append, ← List.append_assoc, hempty]
  rfl

/-! ## The decision -/

/-- Decides a line by its last word alone. -/
def decideWord (line : Text) : Decision :=
  match (lastWord? line).bind TokenRule.find? with
  | some rule => .terminate (.token rule)
  | none => .passThrough

theorem decideLine_of_no_suffix (h : Suffix.find? line = none) :
    decideLine line = decideWord line := by
  rw [decideLine, h]
  rfl

/-- A last word terminates a line by a token rule. -/
theorem exists_rule_of_decideWord {reason : Reason} (h : decideWord line = .terminate reason) :
    ∃ rule, reason = .token rule := by
  rw [decideWord] at h
  cases hfind : (lastWord? line).bind TokenRule.find? with
  | none =>
    rw [hfind] at h
    exact absurd h (by simp)
  | some rule =>
    rw [hfind] at h
    exact ⟨rule, (Decision.terminate.inj h).symm⟩

/-- A suffix terminates every line that ends in it, and no other. -/
theorem decideLine_eq_suffix_iff {suffix : Suffix} :
    decideLine line = .terminate (.suffix suffix) ↔ Suffix.find? line = some suffix := by
  constructor
  · intro h
    cases hfind : Suffix.find? line with
    | some found =>
      rw [decideLine, hfind] at h
      simpa using h
    | none =>
      rw [decideLine_of_no_suffix hfind] at h
      obtain ⟨rule, hrule⟩ := exists_rule_of_decideWord h
      exact absurd hrule (by simp)
  · intro h
    rw [decideLine, h]

/-- The last word of a line with a suffix terminates nothing. -/
theorem decideWord_of_suffix {suffix : Suffix} (h : Suffix.find? line = some suffix) :
    decideWord line = .passThrough := by
  rw [decideWord, Suffix.bind_lastWord?_eq_none h]

/-- A line that its last word terminates has no suffix, so it is terminated by that word. -/
theorem decideLine_of_decideWord {reason : Reason} (h : decideWord line = .terminate reason) :
    decideLine line = .terminate reason := by
  cases hfind : Suffix.find? line with
  | none => rw [decideLine_of_no_suffix hfind, h]
  | some suffix => exact absurd ((decideWord_of_suffix hfind).symm.trans h) (by simp)

/-- **With separators at its end, a line is decided by its last word.** -/
theorem decideLine_append_blanks (hne : blanks ≠ []) (hblanks : Blank blanks) (line : Text) :
    decideLine (line ++ blanks) = decideWord line := by
  rw [decideLine_of_no_suffix (Suffix.find?_append_blanks hne hblanks line), decideWord,
    lastWord?_append_blanks hblanks, decideWord]

/-! ## What is written -/

/-- A text without breaks is one line. -/
theorem lines_of_unbroken {text : Text} (hne : text ≠ []) (h : Unbroken text) :
    lines text = [text] := by
  have hleads : (⟨text, none⟩ : Segment).Leads [] := ⟨h, fun _ => ⟨hne, rfl⟩, by simp⟩
  have hlines := lines_eq_cons (nextLine?_text_append hleads)
  rwa [Segment.text_mk_none, List.append_nil, lines_nil] at hlines

theorem transform_of_terminate {text : Text} {reason : Reason} (hne : text ≠ [])
    (hunbroken : Unbroken text) (h : decideLine text = .terminate reason) :
    transform text = text ++ [';', '\n'] := by
  rw [transform_eq_flatMap_feed, lines_of_unbroken hne hunbroken]
  simp [DecidedLine.display_ofLine_of_terminate h, terminator]

/-- **Separators at the end of a line hide a suffix and change nothing else.**  A line that was
terminated by a suffix passes through, and any other line is decided as it was.  So a line with
separators at its end is only ever terminated by a token rule, and by the one that terminated it
without them; the terminator is written after the separators, and with it the line passes through
the next time. -/
theorem trailing_separators_hide_suffixes (line blanks : Text) (hne : blanks ≠ [])
    (hblanks : ∀ c ∈ blanks, isSeparator c = true) :
    (∀ suffix, decideLine line = .terminate (.suffix suffix) →
      decideLine (line ++ blanks) = .passThrough) ∧
    ((¬ ∃ suffix, decideLine line = .terminate (.suffix suffix)) →
      decideLine (line ++ blanks) = decideLine line) ∧
    ∀ reason, decideLine (line ++ blanks) = .terminate reason →
      (∃ rule, reason = .token rule ∧ decideLine line = .terminate (.token rule)) ∧
      (DecidedLine.ofLine (line ++ blanks)).display = line ++ blanks ++ [';'] ∧
      decideLine (line ++ blanks ++ [';']) = .passThrough ∧
      ((∀ c ∈ line ++ blanks, isBreak c = false) →
        transform (line ++ blanks) = line ++ blanks ++ [';', '\n'] ∧
        transform (line ++ blanks ++ [';', '\n']) = line ++ blanks ++ [';', '\n']) := by
  have hwhole : decideLine (line ++ blanks) = decideWord line :=
    decideLine_append_blanks hne hblanks line
  refine ⟨?_, ?_, ?_⟩
  · intro suffix hline
    rw [hwhole, decideWord_of_suffix (decideLine_eq_suffix_iff.1 hline)]
  · intro hother
    have hnone : Suffix.find? line = none := by
      rw [Option.eq_none_iff_forall_ne_some]
      intro suffix hfind
      exact hother ⟨suffix, decideLine_eq_suffix_iff.2 hfind⟩
    rw [hwhole, decideLine_of_no_suffix hnone]
  · intro reason hreason
    have hword : decideWord line = .terminate reason := hwhole.symm.trans hreason
    obtain ⟨rule, rfl⟩ := exists_rule_of_decideWord hword
    refine ⟨⟨rule, rfl, decideLine_of_decideWord hword⟩,
      DecidedLine.display_ofLine_of_terminate hreason,
      decideLine_append_terminator (line ++ blanks), ?_⟩
    intro hunbroken
    have hwritten := transform_of_terminate (by simp [hne]) hunbroken hreason
    refine ⟨hwritten, ?_⟩
    rw [← hwritten, transform_transform]

/-- A call passes through with a blank and a form feed after it; an operand does not, and gets its
terminator after them. -/
theorem trailing_separators_after_call_and_operand :
    decideLine ['f', '(', ')'] = .terminate (.suffix .closeParen) ∧
    decideLine ['f', '(', ')', ' ', '\x0c'] = .passThrough ∧
    decideLine ['.', '5', ' ', '\x0c'] = .terminate (.token .leadingDotFloat) ∧
    transform ['.', '5', ' ', '\x0c', ';', '\n'] = ['.', '5', ' ', '\x0c', ';', '\n'] := by
  have hblanks : ∀ c ∈ [' ', '\x0c'], isSeparator c = true := by simp [isSeparator]
  have hcall : decideLine ['f', '(', ')'] = .terminate (.suffix .closeParen) := by decide
  have hoperand : decideLine ['.', '5', ' ', '\x0c'] = .terminate (.token .leadingDotFloat) := by
    decide
  refine ⟨hcall, ?_, hoperand, ?_⟩
  · exact (trailing_separators_hide_suffixes _ _ (by simp) hblanks).1 _ hcall
  · have hparts := (trailing_separators_hide_suffixes ['.', '5'] _ (by simp) hblanks).2.2 _ hoperand
    exact (hparts.2.2.2 (by simp [isBreak])).2

end Semicolon
