import Semicolon.Rendering
import Semicolon.Settings
import Semicolon.Text.Utf8

/-!
# Transforming a document

A document is cut into lines, the settings say how the lines are handed out, and what comes
back is the written text, its tally, and a note of how it was made.
-/

namespace Semicolon

/-- A processed document. -/
@[ext] structure Transformation where
  rendering : Rendering
  /-- How the lines were handed out. -/
  dispatch : Dispatch
  /-- The size of the text that was processed, in bytes. -/
  bytesProcessed : Nat

namespace Transformation

/-- The written text. -/
abbrev text (result : Transformation) : Text := result.rendering.text

/-- The tally of the decisions. -/
abbrev tally (result : Transformation) : Tally := result.rendering.tally

/-- Renders lines as the dispatch says. -/
def render (settings : Settings) (lines : List Text) : Dispatch → Rendering
  | .sequential => .ofLines lines
  | .parallel => .ofChunks settings.chunkLines lines

/-- Processes a text. -/
def ofText (settings : Settings) (text : Text) : Transformation :=
  let lines := lines text
  let dispatch := settings.dispatch lines.length
  { rendering := render settings lines dispatch
    dispatch
    bytesProcessed := Text.byteSize text }

end Transformation

end Semicolon
