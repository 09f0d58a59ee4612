import Semicolon.Lines.Basic
import Semicolon.Tally

/-!
# Rendering lines

Each line is written with a terminator if it ends a statement, and with a line feed.  A list of
lines is rendered in one pass, or cut into chunks that are rendered one by one and put together
again.

## Main definitions

* `DecidedLine`: a line with the decision taken on it.
* `Rendering.ofLines`: text and tally of a list of lines, in one pass.
* `Rendering.ofChunks`: the same from chunks.
* `transform`: the text with its statements terminated.
-/

namespace Semicolon

/-- A line and what was decided about it. -/
structure DecidedLine where
  text : Text
  decision : Decision
  deriving DecidableEq, Repr

namespace DecidedLine

/-- Decides a line. -/
def ofLine (line : Text) : DecidedLine :=
  ⟨line, decideLine line⟩

/-- The line with its terminator, if it gets one. -/
def display (line : DecidedLine) : Text :=
  if line.decision.terminates then line.text ++ [terminator] else line.text

/-- The line as it is written: its text, its terminator if it gets one, and a line feed. -/
def written (line : DecidedLine) : Text :=
  line.text ++ if line.decision.terminates then [terminator, '\n'] else ['\n']

/-- A line is written as it is displayed, with a line feed at the end. -/
theorem written_eq (line : DecidedLine) : line.written = line.display ++ ['\n'] := by
  unfold written display
  split
  · rw [List.append_assoc]
    rfl
  · rfl

end DecidedLine

/-- The lines of a text, each with its decision. -/
def decidedLines (text : Text) : List DecidedLine :=
  (lines text).map .ofLine

/-- Written lines and the tally of their decisions. -/
@[ext] structure Rendering where
  text : Text
  tally : Tally

namespace Rendering

/-- Renders a list of lines in one pass. -/
def ofLines (lines : List Text) : Rendering where
  text := lines.flatMap fun line => (DecidedLine.ofLine line).written
  tally := Tally.ofLines lines

/-- Cuts a list into pieces of `size` elements, the last of which may be shorter.  Every piece
has at least one element, so a size of zero cuts like a size of one. -/
def chunks {α : Type} (size : Nat) (list : List α) : List (List α) :=
  match list with
  | [] => []
  | first :: rest =>
    (first :: rest.take (size - 1)) :: chunks size (rest.drop (size - 1))
termination_by list.length
decreasing_by
  simp only [List.length_cons, List.length_drop]
  omega

/-- Puts renderings together in order. -/
def join (parts : List Rendering) : Rendering where
  text := parts.flatMap (·.text)
  tally := parts.foldl (fun sum part => sum.merge part.tally) Tally.zero

/-- Renders a list of lines chunk by chunk. -/
def ofChunks (size : Nat) (lines : List Text) : Rendering :=
  join ((chunks size lines).map ofLines)

end Rendering

/-- The text with a terminator after every line that ends a statement. -/
def transform (text : Text) : Text :=
  (Rendering.ofLines (lines text)).text

end Semicolon
