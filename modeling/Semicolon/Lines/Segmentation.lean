import Semicolon.Lines.Basic

/-!
# Texts put together from lines

A text can be seen as a list of segments, each a line and the break that ends it.  A list of
segments is proper if reading its text line by line can give back no other list: no line holds a
break, only the last line may lack one, and a carriage return that is a break of its own is not
followed by a line feed.
-/

namespace Semicolon

/-- A line break. -/
inductive LineBreak
  | lineFeed
  | carriageReturn
  /-- A carriage return and a line feed. -/
  | pair
  deriving DecidableEq, Repr

/-- The characters of a line break. -/
def LineBreak.text : LineBreak → Text
  | lineFeed => ['\n']
  | carriageReturn => ['\r']
  | pair => ['\r', '\n']

/-- A line and the break that ends it, if it has one. -/
structure Segment where
  line : Text
  ending : Option LineBreak
  deriving DecidableEq, Repr

namespace Segment

/-- The line with its break. -/
def text (segment : Segment) : Text :=
  segment.line ++ (segment.ending.map LineBreak.text).getD []

/-- The text that segments make. -/
def assemble (segments : List Segment) : Text :=
  segments.flatMap text

/-- Whether the segments are the lines of their text and nothing else. -/
def Proper : List Segment → Prop
  | [] => True
  | segment :: rest =>
    (∀ c ∈ segment.line, isBreak c = false) ∧
      (segment.ending = none → segment.line ≠ [] ∧ rest = []) ∧
      (segment.ending = some .carriageReturn → (assemble rest).head? ≠ some '\n') ∧
      Proper rest

@[simp] theorem assemble_nil : assemble [] = [] := rfl

@[simp] theorem assemble_cons (segment : Segment) (rest : List Segment) :
    assemble (segment :: rest) = segment.text ++ assemble rest := rfl

end Segment

end Semicolon
