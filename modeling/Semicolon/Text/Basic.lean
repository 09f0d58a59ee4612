/-!
# Texts and byte strings

A text is a list of characters and a byte string is a list of bytes.  Lists keep every
function on them total and open to induction; `String` is used for names and messages, which
are written and compared but never taken apart.
-/

namespace Semicolon

/-- A text: the content of a document, of a line or of a token. -/
abbrev Text := List Char

/-- The content of a file or of a stream, before it is known to be text. -/
abbrev Bytes := List UInt8

namespace Text

/-- `text` written `count` times. -/
def repeated (count : Nat) (text : Text) : Text :=
  (List.replicate count text).flatten

/-- Pads on the right with blanks to at least `width` characters. -/
def padRight (width : Nat) (text : Text) : Text :=
  text ++ List.replicate (width - text.length) ' '

/-- Pads on the left with blanks to at least `width` characters. -/
def padLeft (width : Nat) (text : Text) : Text :=
  List.replicate (width - text.length) ' ' ++ text

/-- Lower case for the ASCII letters, everything else as it is. -/
def lowercase (name : String) : String :=
  String.ofList (name.toList.map Char.toLower)

/-- The lexicographic order of lists, given the order of their elements. -/
def lexLe {α : Type} [DecidableEq α] (le : α → α → Bool) : List α → List α → Bool
  | [], _ => true
  | _ :: _, [] => false
  | a :: rest, b :: others => if a = b then lexLe le rest others else le a b

/-- The order of texts by the numbers of their characters. -/
def le : Text → Text → Bool :=
  lexLe fun a b => decide (a.toNat ≤ b.toNat)

/-- The number of bytes that the text takes in UTF-8. -/
def byteSize (text : Text) : Nat :=
  text.foldr (fun c size => c.utf8Size + size) 0

end Text

end Semicolon
