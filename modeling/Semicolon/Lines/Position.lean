import Semicolon.Lines.Session

/-!
# Sessions by position

The places of a session can be told by numbers: how many lines of the text lie before each.  All
answers then come from one list of lines, which never changes.
-/

namespace Semicolon

/-- How many lines lie before each of the three places of a session. -/
structure LinePositions where
  plain : Nat := 0
  decided : Nat := 0
  saved : Nat := 0
  deriving DecidableEq, Repr

namespace LinePositions

/-- The answer to a step and the positions after it, in a list of lines. -/
def step (lines : List Text) (positions : LinePositions) :
    LineSession.Step → LineSession.Answer × LinePositions
  | .next =>
    match lines[positions.plain]? with
    | some line => (.line (some line), { positions with plain := positions.plain + 1 })
    | none => (.line none, positions)
  | .nextDecided =>
    match lines[positions.decided]? with
    | some line =>
      (.decided (some (.ofLine line)), { positions with decided := positions.decided + 1 })
    | none => (.decided none, positions)
  | .save => (.done, { positions with saved := positions.plain })
  | .restore => (.done, { positions with plain := positions.saved })
  | .countRest => (.count (lines.length - positions.plain), positions)
  | .rest => (.texts (lines.drop positions.plain), positions)
  | .restDecided =>
    (.texts ((lines.drop positions.decided).map fun line => (DecidedLine.ofLine line).display),
      positions)

/-- The answers to a list of steps. -/
def run (lines : List Text) (positions : LinePositions) :
    List LineSession.Step → List LineSession.Answer
  | [] => []
  | step :: rest =>
    let (answer, next) := positions.step lines step
    answer :: run lines next rest

end LinePositions

end Semicolon
