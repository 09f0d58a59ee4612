import Semicolon.Config
import Semicolon.Decision

/-!
# Listings

The rules and the output formats, for the reader of a terminal.
-/

namespace Semicolon

/-- What can be listed. -/
inductive Listing
  | rules
  | formats
  deriving DecidableEq, Repr

namespace Listing

/-- Every listing. -/
def all : List Listing := [rules, formats]

/-- The name of the listing. -/
def name : Listing → String
  | rules => "rules"
  | formats => "formats"

/-- The listing with exactly this name. -/
def ofName? (name : String) : Option Listing :=
  all.find? (·.name == name)

/-- An indented line with a name, padded to `width`, and a description. -/
def item (width : Nat) (name : String) (description : Text) : Text :=
  [' ', ' '] ++ Text.padRight width name.toList ++ [' '] ++ description ++ ['\n']

/-- What ends a line with the suffix, in words. -/
def suffixDescription (suffix : Suffix) : Text :=
  "line ends with `".toList ++ suffix.text ++ "`".toList

/-- The text of the listing. -/
def text : Listing → Text
  | rules =>
    "Structural suffixes (checked on the raw line end):\n".toList ++
      Suffix.all.flatMap (fun suffix => item 22 suffix.name (suffixDescription suffix)) ++
      "\nTrailing token rules:\n".toList ++
      TokenRule.all.flatMap (fun rule => item 22 rule.name rule.description.toList)
  | formats =>
    "Available output formats:\n".toList ++
      OutputFormat.all.flatMap (fun format => item 6 format.name format.description.toList)

end Listing

end Semicolon
