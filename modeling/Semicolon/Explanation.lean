import Semicolon.Rendering

/-!
# Explanations

An explanation has a row for every line of a text: its number, the rule that fired or a hyphen,
and the line as it is displayed.
-/

namespace Semicolon

namespace Explanation

/-- The width of the column with line numbers. -/
def numberWidth : Nat := 5

/-- The width of the column with rules. -/
def ruleWidth : Nat := 22

/-- The rule that fired, or a hyphen. -/
def rule (decision : Decision) : Text :=
  match decision.reason? with
  | some reason => reason.name.toList
  | none => ['-']

/-- The row of a line. -/
def row (number : Nat) (line : DecidedLine) : Text :=
  Text.padLeft numberWidth (Nat.toDigits 10 number) ++ [' ', ' '] ++
    Text.padRight ruleWidth (rule line.decision) ++ [' '] ++ line.display ++ ['\n']

/-- The rows of the lines that are shown, the first of which has the given number.  Lines that are
not shown are counted all the same. -/
def rows (terminatedOnly : Bool) (number : Nat) : List DecidedLine → List Text
  | [] => []
  | line :: rest =>
    if terminatedOnly && !line.decision.terminates then rows terminatedOnly (number + 1) rest
    else row number line :: rows terminatedOnly (number + 1) rest

end Explanation

/-- The explanation of a text; with `terminatedOnly` only of the lines that end a statement. -/
def explain (terminatedOnly : Bool) (text : Text) : Text :=
  (Explanation.rows terminatedOnly 1 (decidedLines text)).flatten

end Semicolon
