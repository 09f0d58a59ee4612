import Mathlib.Data.List.DropRight
import Semicolon.Explanation
import Semicolon.Proofs.Accounting
import Semicolon.Proofs.Transform

/-!
# Explanations agree with what is written

A row has its columns at places that depend on nothing but its number, so they can be read off the
row again: the number, the rule and the line as it is displayed.  The rows of a report, numbered
from one, are therefore the decided lines of the text in another form.  Without their first columns
they are the output; counted by their rule they give the tally; and the rows with a rule are the
report of the terminated lines.

## Main statements

* `Explanation.rows_eq`: the rows of a list of lines.
* `Explanation.ruleColumn_body`, `Explanation.drop_body`: the columns of a row.
* `Explanation.numbered_explain`: the rows that a report is read back to.
-/

namespace Semicolon

namespace Text

@[simp] theorem length_padLeft (width : Nat) (text : Text) :
    (padLeft width text).length = max width text.length := by
  simp only [padLeft, List.length_append, List.length_replicate]
  omega

@[simp] theorem length_padRight (width : Nat) (text : Text) :
    (padRight width text).length = max width text.length := by
  simp only [padRight, List.length_append, List.length_replicate]
  omega

/-- Padding can be taken off again if the text holds no blanks. -/
theorem rdropWhile_padRight {text : Text} (h : ∀ c ∈ text, c ≠ ' ') (width : Nat) :
    (padRight width text).rdropWhile (· == ' ') = text := by
  have hblanks : ∀ c ∈ List.replicate (width - text.length) ' ', (c == ' ') = true := by
    intro c hc
    simp [List.eq_of_mem_replicate hc]
  have htext : text.reverse.dropWhile (· == ' ') = text.reverse := by
    apply List.dropWhile_eq_self_iff.2
    intro hlength
    have hlast := h _ (List.mem_reverse.1 (List.getElem_mem hlength))
    simpa using hlast
  rw [List.rdropWhile, padRight, List.reverse_append, List.reverse_replicate,
    List.dropWhile_append_of_pos hblanks, htext, List.reverse_reverse]

end Text

namespace Explanation

/-! ## The columns of a row -/

/-- A rule is told by a word that its column can hold. -/
theorem rule_fits (decision : Decision) :
    (rule decision).length ≤ ruleWidth ∧
      ∀ c ∈ rule decision, isBreak c = false ∧ c ≠ ' ' := by
  have hnames : ∀ reason ∈ Reason.all, reason.name.toList.length ≤ ruleWidth ∧
      reason.name.toList.all (fun c => !isBreak c && c != ' ') = true := by decide
  cases decision with
  | passThrough => simp [rule, Decision.reason?, ruleWidth, isBreak]
  | terminate reason =>
    obtain ⟨hlength, hchars⟩ := hnames reason reason.mem_all
    refine ⟨hlength, ?_⟩
    intro c hc
    simpa using List.all_eq_true.1 hchars c hc

/-- The row of a line, without the line feed at its end. -/
def body (number : Nat) (line : DecidedLine) : Text :=
  Text.padLeft numberWidth (Nat.toDigits 10 number) ++ [' ', ' '] ++
    Text.padRight ruleWidth (rule line.decision) ++ [' '] ++ line.display

theorem row_eq_body (number : Nat) (line : DecidedLine) :
    row number line = body number line ++ ['\n'] := rfl

/-- What stands in the rule column of a row, without the blanks that fill it up. -/
def ruleColumn (number : Nat) (row : Text) : Text :=
  ((row.drop (max 5 (Nat.toDigits 10 number).length + 2)).take 22).rdropWhile (· == ' ')

theorem take_body (number : Nat) (line : DecidedLine) :
    (body number line).take (max 5 (Nat.toDigits 10 number).length) =
      Text.padLeft 5 (Nat.toDigits 10 number) := by
  have hlength : (Text.padLeft numberWidth (Nat.toDigits 10 number)).length =
      max 5 (Nat.toDigits 10 number).length := Text.length_padLeft _ _
  simp only [body, List.append_assoc]
  rw [List.take_append_of_le_length (by omega), List.take_of_length_le (by omega)]
  rfl

theorem length_numberColumn (number : Nat) :
    (Text.padLeft numberWidth (Nat.toDigits 10 number) ++ [' ', ' ']).length =
      max 5 (Nat.toDigits 10 number).length + 2 := by
  simp [numberWidth]

theorem length_ruleColumn (decision : Decision) :
    (Text.padRight ruleWidth (rule decision)).length = 22 := by
  rw [Text.length_padRight, Nat.max_eq_left (rule_fits decision).1]
  rfl

/-- The rule column of a row tells the rule. -/
theorem ruleColumn_body (number : Nat) (line : DecidedLine) :
    ruleColumn number (body number line) = rule line.decision := by
  rw [ruleColumn, body, List.append_assoc, List.append_assoc,
    List.drop_left' (length_numberColumn number), List.take_left' (length_ruleColumn line.decision)]
  apply Text.rdropWhile_padRight
  intro c hc
  exact ((rule_fits line.decision).2 c hc).2

/-- Behind the columns stands the line. -/
theorem drop_body (number : Nat) (line : DecidedLine) :
    (body number line).drop (max 5 (Nat.toDigits 10 number).length + 2 + 22 + 1) =
      line.display := by
  apply List.drop_left'
  rw [List.length_append, List.length_append, length_numberColumn, length_ruleColumn,
    List.length_singleton]

theorem unbroken_blanks (count : Nat) : Unbroken (List.replicate count ' ') := by
  intro c hc
  rw [List.eq_of_mem_replicate hc]
  rfl

theorem unbroken_toDigits (number : Nat) : Unbroken (Nat.toDigits 10 number) := by
  intro c hc
  have hdigit := Nat.isDigit_of_mem_toDigits (by omega) (by omega) hc
  cases hbreak : isBreak c with
  | false => rfl
  | true =>
    have hcases : c = '\n' ∨ c = '\r' := by simpa [isBreak] using hbreak
    rcases hcases with rfl | rfl <;> exact absurd hdigit (by decide)

/-- A row holds no break but the line feed at its end. -/
theorem unbroken_body (number : Nat) {line : DecidedLine} (h : Unbroken line.display) :
    Unbroken (body number line) := by
  have hnumber : Unbroken (Text.padLeft numberWidth (Nat.toDigits 10 number)) :=
    (unbroken_blanks _).append (unbroken_toDigits number)
  have hrule : Unbroken (Text.padRight ruleWidth (rule line.decision)) := by
    refine Unbroken.append ?_ (unbroken_blanks _)
    intro c hc
    exact ((rule_fits line.decision).2 c hc).1
  exact (((hnumber.append (unbroken_blanks 2)).append hrule).append (unbroken_blanks 1)).append h

/-- No rule is called by the hyphen that stands for none. -/
theorem name_ne_hyphen (reason : Reason) : reason.name.toList ≠ ['-'] := by
  have hnames : ∀ reason ∈ Reason.all, reason.name.toList ≠ ['-'] := by decide
  exact hnames reason reason.mem_all

/-- A rule is told by its own name, which no other decision shows. -/
theorem rule_eq_name_iff (decision : Decision) (reason : Reason) :
    rule decision = reason.name.toList ↔ decision = .terminate reason := by
  cases decision with
  | passThrough => simpa [rule, Decision.reason?] using (name_ne_hyphen reason).symm
  | terminate other =>
    simp only [rule, Decision.reason?, Decision.terminate.injEq, String.toList_inj]
    exact Reason.name_injective.eq_iff

theorem rule_eq_hyphen_iff (decision : Decision) :
    rule decision = ['-'] ↔ decision = .passThrough := by
  cases decision with
  | passThrough => simp [rule, Decision.reason?]
  | terminate reason => simpa [rule, Decision.reason?] using name_ne_hyphen reason

theorem rule_bne_hyphen (decision : Decision) :
    (rule decision != ['-']) = decision.terminates := by
  cases decision with
  | passThrough => rfl
  | terminate reason => simpa [rule, Decision.reason?] using name_ne_hyphen reason

/-! ## The rows of a report -/

/-- The rows of a list of lines: one for each of those that are shown, under the number that it has
among all of them. -/
theorem rows_eq (terminatedOnly : Bool) (number : Nat) (list : List DecidedLine) :
    rows terminatedOnly number list =
      ((list.zipIdx number).filter fun line =>
        !terminatedOnly || line.1.decision.terminates).map fun line => row line.2 line.1 := by
  induction list generalizing number with
  | nil => rfl
  | cons line rest ih =>
    rw [rows, List.zipIdx_cons, List.filter_cons, ih]
    cases terminatedOnly <;> cases line.decision.terminates <;> simp

/-- The lines of a text that are shown, with their numbers. -/
def shown (terminatedOnly : Bool) (text : Text) : List (DecidedLine × Nat) :=
  ((decidedLines text).zipIdx 1).filter fun line =>
    !terminatedOnly || line.1.decision.terminates

theorem explain_eq_flatMap_feed (terminatedOnly : Bool) (text : Text) :
    explain terminatedOnly text =
      ((shown terminatedOnly text).map fun line => body line.2 line.1).flatMap (· ++ ['\n']) := by
  rw [explain, rows_eq, List.flatMap_map, List.flatMap_def]
  rfl

theorem unbroken_of_mem_map_body (terminatedOnly : Bool) (text : Text) :
    ∀ row ∈ (shown terminatedOnly text).map fun line => body line.2 line.1, Unbroken row := by
  intro row hrow
  obtain ⟨line, hline, rfl⟩ := List.mem_map.1 hrow
  have hdecided : line.1 ∈ decidedLines text :=
    List.fst_mem_of_mem_zipIdx (List.mem_of_mem_filter hline)
  obtain ⟨original, horiginal, heq⟩ := List.mem_map.1 hdecided
  apply unbroken_body
  rw [← heq]
  exact (unbroken_of_mem_lines horiginal).display

/-- **The rows are read back from the report.** -/
theorem lines_explain (terminatedOnly : Bool) (text : Text) :
    lines (explain terminatedOnly text) =
      (shown terminatedOnly text).map fun line => body line.2 line.1 := by
  rw [explain_eq_flatMap_feed, lines_flatMap_feed (unbroken_of_mem_map_body terminatedOnly text)]

/-- The rows of a report with their numbers, counted from one. -/
def numbered (report : Text) : List (Text × Nat) :=
  (lines report).zipIdx 1

theorem zipIdx_map_zipIdx {α β : Type} (f : α × Nat → β) (list : List α) (number : Nat) :
    ((list.zipIdx number).map f).zipIdx number =
      (list.zipIdx number).map fun item => (f item, item.2) := by
  induction list generalizing number with
  | nil => rfl
  | cons first rest ih => simp [List.zipIdx_cons, ih]

theorem shown_false (text : Text) : shown false text = (decidedLines text).zipIdx 1 := by
  simp [shown]

/-- **The rows of a full report are those of the decided lines**, under the same numbers. -/
theorem numbered_explain (text : Text) :
    numbered (explain false text) =
      ((decidedLines text).zipIdx 1).map fun line => (body line.2 line.1, line.2) := by
  rw [numbered, lines_explain, shown_false, zipIdx_map_zipIdx]

/-- Counting rows by their rule is counting decisions. -/
theorem countP_ruleColumn (p : Text → Bool) (text : Text) :
    ((numbered (explain false text)).countP fun row => p (ruleColumn row.2 row.1)) =
      ((lines text).map decideLine).countP fun decision => p (rule decision) := by
  have hdecisions : (lines text).map decideLine =
      ((decidedLines text).zipIdx 1).map fun line => line.1.decision :=
    calc
      (lines text).map decideLine = (decidedLines text).map (·.decision) := by
        rw [decidedLines, List.map_map]
        rfl
      _ = (((decidedLines text).zipIdx 1).map Prod.fst).map (·.decision) := by
        rw [List.zipIdx_map_fst]
      _ = ((decidedLines text).zipIdx 1).map fun line => line.1.decision := List.map_map
  rw [numbered_explain, hdecisions, List.countP_map, List.countP_map]
  apply List.countP_congr
  intro line _
  simp only [Function.comp, ruleColumn_body]

/-- The rows with a rule are those of the lines that are terminated. -/
theorem filter_ruleColumn (text : Text) :
    ((numbered (explain false text)).filter fun row => ruleColumn row.2 row.1 != ['-']) =
      (shown true text).map fun line => (body line.2 line.1, line.2) := by
  simp only [numbered_explain, List.filter_map, Function.comp_def, ruleColumn_body,
    rule_bne_hyphen, shown, Bool.not_true, Bool.false_or]

/-- Behind the columns of the rows stands the output. -/
theorem flatMap_drop_numbered (text : Text) :
    ((numbered (explain false text)).flatMap fun row =>
      row.1.drop (max 5 (Nat.toDigits 10 row.2).length + 2 + 22 + 1) ++ ['\n']) =
      transform text :=
  calc
    _ = ((decidedLines text).zipIdx 1).flatMap fun line => line.1.display ++ ['\n'] := by
      rw [numbered_explain, List.flatMap_map]
      simp only [drop_body]
    _ = (((decidedLines text).zipIdx 1).map Prod.fst).flatMap fun line =>
        line.display ++ ['\n'] := by rw [List.flatMap_map]
    _ = transform text := by rw [List.zipIdx_map_fst, transform_eq_flatMap_display]

/-! ## All together -/

/-- **The report tells what is written, line by line.**  It has one row for each line, which ends
in a line feed and holds no other break, and which begins with its number.  Without their first
columns the rows are the output.  The rows that show the name of a rule are as many as the tally
has for it, and those with a hyphen as many as have passed through.  The report of the terminated
lines has the same rows, but for those with a hyphen. -/
theorem explain_agrees_with_transform (settings : Settings) (text : Text) :
    explain false text = (lines (explain false text)).flatMap (· ++ ['\n']) ∧
    (lines (explain false text)).length = (Transformation.ofText settings text).tally.lines ∧
    (explain false text).count '\n' = (Transformation.ofText settings text).tally.lines ∧
    '\r' ∉ explain false text ∧
    (∀ row ∈ numbered (explain false text), row.1.take (max 5 (Nat.toDigits 10 row.2).length) =
      Text.padLeft 5 (Nat.toDigits 10 row.2)) ∧
    ((numbered (explain false text)).flatMap fun row =>
      row.1.drop (max 5 (Nat.toDigits 10 row.2).length + 2 + 22 + 1) ++ ['\n']) =
        transform text ∧
    (∀ reason : Reason,
      ((numbered (explain false text)).countP fun row =>
        ruleColumn row.2 row.1 == reason.name.toList) =
          (Transformation.ofText settings text).tally.byRule.count reason.name) ∧
    ((numbered (explain false text)).countP fun row => ruleColumn row.2 row.1 == ['-']) =
      (Transformation.ofText settings text).tally.passedThrough ∧
    explain true text =
      ((numbered (explain false text)).filter fun row =>
        ruleColumn row.2 row.1 != ['-']).flatMap (fun row => row.1 ++ ['\n']) ∧
    ((numbered (explain false text)).filter fun row => ruleColumn row.2 row.1 != ['-']).length =
      (Transformation.ofText settings text).tally.terminated := by
  have haccounts : (Transformation.ofText settings text).tally.Accounts
      ((lines text).map decideLine) := by
    rw [Transformation.tally, Transformation.rendering_ofText]
    exact Tally.accounts_ofDecisions _
  have hunbroken := unbroken_of_mem_map_body false text
  have hlength : (lines (explain false text)).length =
      (Transformation.ofText settings text).tally.lines := by
    rw [lines_explain, shown_false, haccounts.lines]
    simp [decidedLines]
  refine ⟨?_, hlength, ?_, ?_, ?_, flatMap_drop_numbered text, ?_, ?_, ?_, ?_⟩
  · rw [lines_explain, ← explain_eq_flatMap_feed]
  · rw [← hlength, lines_explain, explain_eq_flatMap_feed, count_feed_flatMap_feed hunbroken]
  · rw [explain_eq_flatMap_feed]
    exact return_not_mem_flatMap_feed hunbroken
  · intro row hrow
    rw [numbered_explain] at hrow
    obtain ⟨line, -, rfl⟩ := List.mem_map.1 hrow
    exact take_body line.2 line.1
  · intro reason
    rw [countP_ruleColumn (· == reason.name.toList), haccounts.count_eq_firings,
      Tally.firings_name, List.count]
    apply List.countP_congr
    intro decision _
    rw [beq_iff_eq, beq_iff_eq, rule_eq_name_iff]
  · rw [countP_ruleColumn (· == ['-']), haccounts.passedThrough_eq, List.count]
    apply List.countP_congr
    intro decision _
    rw [beq_iff_eq, beq_iff_eq, rule_eq_hyphen_iff]
  · rw [filter_ruleColumn, explain_eq_flatMap_feed, List.flatMap_map, List.flatMap_map]
  · rw [← List.countP_eq_length_filter, countP_ruleColumn (· != ['-']), haccounts.terminated]
    simp only [rule_bne_hyphen]

/-- The second row begins with its number and shows a hyphen; it is the only such row. -/
theorem explain_agrees_with_transform_second :
    ("    2  -                      \x7b".toList, 2) ∈
      numbered (explain false ['x', '\n', '\x7b']) ∧
    "    2  -                      \x7b".toList.take (max 5 (Nat.toDigits 10 2).length) =
      Text.padLeft 5 (Nat.toDigits 10 2) ∧
    ((numbered (explain false ['x', '\n', '\x7b'])).countP fun row =>
      ruleColumn row.2 row.1 == ['-']) = 1 := by
  have hlines : lines ['x', '\n', '\x7b'] = [['x'], ['\x7b']] := by
    simp [lines, nextLine?, skipBreak, isBreak]
  have hmem : ("    2  -                      \x7b".toList, 2) ∈
      numbered (explain false ['x', '\n', '\x7b']) := by
    rw [numbered_explain, decidedLines, hlines]
    decide
  have hreport := explain_agrees_with_transform {} ['x', '\n', '\x7b']
  refine ⟨hmem, hreport.2.2.2.2.1 _ hmem, ?_⟩
  rw [hreport.2.2.2.2.2.2.2.1, Transformation.tally, Transformation.rendering_ofText, hlines]
  decide

end Explanation

end Semicolon
