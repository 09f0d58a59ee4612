import Semicolon.Error

/-!
# Inputs

A text comes from memory, from a file or from a stream.  Everything but a text is decoded as a
whole, after all bytes have arrived, so where a stream was cut into chunks does not matter.
-/

namespace Semicolon

/-- Something a text can be read from. -/
inductive Input
  | text (content : Text)
  | bytes (content : Bytes)
  | file (path : Path)
  /-- The chunks a stream delivers, and the reason why it breaks off if it does. -/
  | stream (chunks : List Bytes) (failure? : Option String)
  deriving DecidableEq, Repr

namespace Input

/-- The text that bytes encode. -/
def decode (origin : Origin) (bytes : Bytes) : Except InputError Text :=
  (Utf8.decode bytes).mapError (.notUtf8 origin)

/-- The text of the input.  A stream that breaks off gives no text, whatever came before. -/
def read (tree : FileTree) : Input → Except InputError Text
  | .text content => .ok content
  | .bytes content => decode .memory content
  | .file path =>
    match tree.read path with
    | .ok content => decode (.file path) content
    | .error error => .error (.unreadableFile path error)
  | .stream _ (some reason) => .error (.brokenStream reason)
  | .stream chunks none => decode .stream chunks.flatten

/-- The input in a form for diagnosis.  A text and a path are quoted; of bytes only their number
is shown. -/
def describe : Input → Text
  | .text content => "Text(".toList ++ Text.quote content ++ [')']
  | .bytes content =>
    "Bytes(".toList ++ Text.quote s!"<{content.length} bytes>".toList ++ [')']
  | .file path => "File(".toList ++ Text.quote path.spelling ++ [')']
  | .stream _ _ => "Reader(".toList ++ Text.quote "<Reader>".toList ++ [')']

end Input

end Semicolon
