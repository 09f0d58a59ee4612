import Semicolon.Text.Unprintable

/-!
# Quoted text

Texts and paths are shown in messages between double quotes.  Quotes and backslashes are
escaped, and characters that cannot be seen are shown by a short name or by their number.
-/

namespace Semicolon.Text

/-- How a character is shown between quotes. -/
def quoteChar (c : Char) : Text :=
  if c = '\x22' then ['\\', '\x22']
  else if c = '\\' then ['\\', '\\']
  else if c = '\n' then ['\\', 'n']
  else if c = '\r' then ['\\', 'r']
  else if c = '\t' then ['\\', 't']
  else if c = '\x00' then ['\\', '0']
  else if isPrintable c then [c]
  else ['\\', 'u', '\x7b'] ++ Nat.toDigits 16 c.toNat ++ ['\x7d']

/-- The text between double quotes. -/
def quote (text : Text) : Text :=
  '\x22' :: text.flatMap quoteChar ++ ['\x22']

end Semicolon.Text
