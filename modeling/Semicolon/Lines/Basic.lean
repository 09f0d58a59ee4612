import Semicolon.Text.Basic

/-!
# Lines of a text

A line feed, a carriage return, and the two together each end a line.  The break is not part
of the line, and a break at the very end of a text does not begin another line.

`nextLine?` takes one line off the front of a text and `lines` repeats it; what is left after
each step is shorter, so every text has finitely many lines.
-/

namespace Semicolon

/-- The two characters that end a line. -/
def isBreak (c : Char) : Bool :=
  c == '\n' || c == '\r'

/-- Drops one line break from the front.  A carriage return and the line feed after it are one
break. -/
def skipBreak : Text → Text
  | '\r' :: '\n' :: rest => rest
  | _ :: rest => rest
  | [] => []

/-- The first line and the text after its break.  The empty text has no line. -/
def nextLine? (text : Text) : Option (Text × Text) :=
  if text.isEmpty then none
  else some (text.takeWhile (!isBreak ·), skipBreak (text.dropWhile (!isBreak ·)))

theorem length_skipBreak_le (text : Text) : (skipBreak text).length ≤ text.length := by
  unfold skipBreak
  split <;> grind

theorem length_skipBreak_lt {text : Text} (h : text ≠ []) :
    (skipBreak text).length < text.length := by
  unfold skipBreak
  split
  · simp only [List.length_cons]; omega
  · simp only [List.length_cons]; omega
  · exact absurd rfl h

/-- What is left after a line is shorter than what it was taken from. -/
theorem length_lt_of_nextLine? {text line rest : Text}
    (h : nextLine? text = some (line, rest)) : rest.length < text.length := by
  unfold nextLine? at h
  split at h
  · exact absurd h (by simp)
  · next nonempty =>
    simp only [Option.some.injEq, Prod.mk.injEq] at h
    obtain ⟨-, rfl⟩ := h
    match text with
    | [] => simp at nonempty
    | c :: tail =>
      by_cases hc : isBreak c
      · simpa [hc] using length_skipBreak_lt (List.cons_ne_nil c tail)
      · have shorter := length_skipBreak_le (tail.dropWhile (!isBreak ·))
        have dropped := (List.dropWhile_suffix (!isBreak ·) : _ <:+ tail).length_le
        simp only [Bool.not_eq_true] at hc
        simp only [List.dropWhile_cons, hc, Bool.not_false, if_true, List.length_cons]
        omega

/-- The lines of a text, in order. -/
def lines (text : Text) : List Text :=
  match _h : nextLine? text with
  | none => []
  | some (line, rest) => line :: lines rest
termination_by text.length
decreasing_by exact length_lt_of_nextLine? _h

@[simp] theorem lines_nil : lines [] = [] := by
  rw [lines]
  rfl

theorem lines_eq_cons {text line rest : Text} (h : nextLine? text = some (line, rest)) :
    lines text = line :: lines rest := by
  rw [lines]
  split
  · simp_all
  · simp_all

end Semicolon
