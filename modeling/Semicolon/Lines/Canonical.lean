import Semicolon.Lines.Basic

/-!
# Canonical line ends

The canonical form of a text has a line feed after every line and no carriage return.  It is
reached in three passes over the whole text: pairs become line feeds, then the carriage returns
that are left do, and then the last line is ended.
-/

namespace Semicolon.Canonical

/-- Writes a line feed for every carriage return with a line feed. -/
def joinPairs : Text → Text
  | '\r' :: '\n' :: rest => '\n' :: joinPairs rest
  | c :: rest => c :: joinPairs rest
  | [] => []

/-- Writes a line feed for every carriage return. -/
def feedLines (text : Text) : Text :=
  text.map fun c => if c = '\r' then '\n' else c

/-- Ends the last line with a line feed. -/
def endLast (text : Text) : Text :=
  if text.isEmpty || text.getLast? == some '\n' then text else text ++ ['\n']

/-- The canonical form of a text. -/
def ofText (text : Text) : Text :=
  endLast (feedLines (joinPairs text))

end Semicolon.Canonical
