import Semicolon.Rendering

/-!
# Reading lines step by step

A session holds three places in one text: where plain lines are read, where decided lines are
read, and a saved copy of the first.  A place is the text that is still to be read.
-/

namespace Semicolon

/-- Three places in a text. -/
structure LineSession where
  /-- What is left of the plain lines. -/
  plain : Text
  /-- What is left of the decided lines. -/
  decided : Text
  /-- A place for plain lines, to come back to. -/
  saved : Text
  deriving DecidableEq, Repr

namespace LineSession

/-- All three places at the beginning of the text. -/
def start (text : Text) : LineSession := ⟨text, text, text⟩

/-- What may be asked of a session. -/
inductive Step
  /-- Reads a plain line. -/
  | next
  /-- Reads a decided line. -/
  | nextDecided
  /-- Keeps the place of the plain lines. -/
  | save
  /-- Goes back to the kept place. -/
  | restore
  /-- Counts the plain lines that are left. -/
  | countRest
  /-- Lists the plain lines that are left. -/
  | rest
  /-- Lists the decided lines that are left, as they are displayed. -/
  | restDecided
  deriving DecidableEq, Repr

/-- What a step answers. -/
inductive Answer
  | line (line? : Option Text)
  | decided (line? : Option DecidedLine)
  | done
  | count (number : Nat)
  | texts (lines : List Text)
  deriving DecidableEq, Repr

/-- The answer to a step and the session after it. -/
def step (session : LineSession) : Step → Answer × LineSession
  | .next =>
    match nextLine? session.plain with
    | some (line, rest) => (.line (some line), { session with plain := rest })
    | none => (.line none, session)
  | .nextDecided =>
    match nextLine? session.decided with
    | some (line, rest) =>
      (.decided (some (.ofLine line)), { session with decided := rest })
    | none => (.decided none, session)
  | .save => (.done, { session with saved := session.plain })
  | .restore => (.done, { session with plain := session.saved })
  | .countRest => (.count (lines session.plain).length, session)
  | .rest => (.texts (lines session.plain), session)
  | .restDecided => (.texts ((decidedLines session.decided).map (·.display)), session)

/-- The answers to a list of steps. -/
def run (session : LineSession) : List Step → List Answer
  | [] => []
  | step :: rest =>
    let (answer, next) := session.step step
    answer :: run next rest

end LineSession

end Semicolon
