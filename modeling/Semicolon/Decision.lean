import Semicolon.Rule.Suffix
import Semicolon.Rule.Token

/-!
# Deciding a line

A line ends a statement when it ends with one of the suffixes, or when its last word is
accepted by one of the token rules.  The line alone decides: nothing is carried from one line
to the next.
-/

namespace Semicolon

/-- The rule that ended a statement. -/
inductive Reason
  | suffix (which : Suffix)
  | token (rule : TokenRule)
  deriving DecidableEq, Repr

/-- Every reason: the suffixes and then the token rules, each in the order they are tried. -/
def Reason.all : List Reason :=
  Suffix.all.map .suffix ++ TokenRule.all.map .token

/-- The name under which the reason is counted. -/
def Reason.name : Reason → String
  | .suffix which => which.name
  | .token rule => rule.name

/-- What to do with a line. -/
inductive Decision
  | terminate (reason : Reason)
  | passThrough
  deriving DecidableEq, Repr

/-- The rule that fired, if one did. -/
def Decision.reason? : Decision → Option Reason
  | .terminate reason => some reason
  | .passThrough => none

/-- Whether the line gets a terminator. -/
def Decision.terminates (decision : Decision) : Bool :=
  decision.reason?.isSome

@[simp] theorem Decision.terminates_terminate (reason : Reason) :
    (Decision.terminate reason).terminates = true := rfl

@[simp] theorem Decision.terminates_passThrough : Decision.passThrough.terminates = false := rfl

/-- The character written after a line that ends a statement. -/
def terminator : Char := ';'

/-- The six characters that separate words.  Other blanks, such as the no-break space, are part
of a word. -/
def isSeparator (c : Char) : Bool :=
  c == ' ' || c == '\t' || c == '\n' || c == '\x0b' || c == '\x0c' || c == '\r'

/-- The last word of a line: the maximal run without separators before the trailing ones.  A
blank line has none. -/
def lastWord? (line : Text) : Option Text :=
  match (line.reverse.dropWhile isSeparator).takeWhile (!isSeparator ·) with
  | [] => none
  | c :: word => some (c :: word).reverse

/-- Decides a line: the suffixes are tried first, then the rules on its last word. -/
def decideLine (line : Text) : Decision :=
  match Suffix.find? line with
  | some suffix => .terminate (.suffix suffix)
  | none =>
    match (lastWord? line).bind TokenRule.find? with
    | some rule => .terminate (.token rule)
    | none => .passThrough

/-- Whether the line ends a statement. -/
def endsStatement (line : Text) : Bool :=
  (decideLine line).terminates

end Semicolon
