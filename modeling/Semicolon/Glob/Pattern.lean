import Semicolon.Text.Basic

/-!
# Glob patterns

A pattern stands for names: `?` for any character, `*` for any run of characters, `[…]` for one
character of a class and `[!…]` for one outside it.  `**` stands for any number of folders and
has to be a whole component.  There is no escape: a bracket is matched by a class that holds it.

## Main definitions

* `Glob.tokens?`: reads a pattern, if it is one.
* `Glob.accepts`: whether a list of tokens accepts a name.
-/

namespace Semicolon.Glob

/-- A part of a class: one character, or all from one to another. -/
inductive ClassItem
  | single (c : Char)
  | range (first last : Char)
  deriving DecidableEq, Repr

/-- Whether the part holds the character. -/
def ClassItem.holds (item : ClassItem) (c : Char) : Bool :=
  match item with
  | single only => c == only
  | range first last => first ≤ c && c ≤ last

/-- A part of a pattern. -/
inductive Token
  | char (c : Char)
  /-- `?` -/
  | anyChar
  /-- `*` -/
  | anyRun
  /-- `**` -/
  | anyDepth
  /-- `[…]` -/
  | within (items : List ClassItem)
  /-- `[!…]` -/
  | without (items : List ClassItem)
  deriving DecidableEq, Repr

/-- The parts of a class.  A hyphen between two characters makes a range; anywhere else it
stands for itself. -/
def classItems : Text → List ClassItem
  | first :: '-' :: last :: rest => .range first last :: classItems rest
  | c :: rest => .single c :: classItems rest
  | [] => []

/-- The body of a class and what follows its closing bracket.  The first character belongs to
the body even if it is a bracket. -/
def classBody? : Text → Option (Text × Text)
  | [] => none
  | first :: rest =>
    match rest.dropWhile (· != ']') with
    | [] => none
    | _ :: after => some (first :: rest.takeWhile (· != ']'), after)

theorem length_lt_of_classBody? {text body after : Text}
    (h : classBody? text = some (body, after)) : after.length < text.length := by
  match text with
  | [] => simp [classBody?] at h
  | first :: rest =>
    have shorter := (List.dropWhile_suffix (· != ']') : _ <:+ rest).length_le
    unfold classBody? at h
    grind

/-- Reads a pattern.  `boundary` says whether a component begins here, which is where `**` may
stand. -/
def tokensFrom? (boundary : Bool) (text : Text) : Option (List Token) :=
  match text with
  | [] => some []
  | '?' :: rest => (tokensFrom? false rest).map (.anyChar :: ·)
  | '*' :: '*' :: '*' :: _ => none
  | ['*', '*'] => if boundary then some [.anyDepth] else none
  | '*' :: '*' :: '/' :: rest =>
    if boundary then (tokensFrom? true rest).map (.anyDepth :: ·) else none
  | '*' :: '*' :: _ => none
  | '*' :: rest => (tokensFrom? false rest).map (.anyRun :: ·)
  | '[' :: '!' :: rest =>
    match _h : classBody? rest with
    | some (body, after) => (tokensFrom? false after).map (.without (classItems body) :: ·)
    | none => none
  | '[' :: rest =>
    match _h : classBody? rest with
    | some (body, after) => (tokensFrom? false after).map (.within (classItems body) :: ·)
    | none => none
  | c :: rest => (tokensFrom? (c == '/') rest).map (.char c :: ·)
termination_by text.length
decreasing_by
  all_goals first
    | grind
    | grind [length_lt_of_classBody? _h]

/-- Reads a pattern. -/
def tokens? (pattern : Text) : Option (List Token) :=
  tokensFrom? true pattern

/-! ## Matching

Which ends of a name the tokens accept is worked out for all ends at once, from the last token to
the first, so that the work is the number of tokens times the length of the name. -/

/-- Whether the token accepts a single character. -/
def Token.holds : Token → Char → Bool
  | .char only, c => c == only
  | .anyChar, _ => true
  | .within items, c => items.any (·.holds c)
  | .without items, c => !items.any (·.holds c)
  | .anyRun, _ => true
  | .anyDepth, _ => true

/-- Whether the token accepts any run of characters. -/
def Token.repeats : Token → Bool
  | .anyRun => true
  | .anyDepth => true
  | _ => false

/-- For each end of a name, the longest first, whether one character that `token` accepts is
followed by an end that is accepted according to `next`. -/
def oneThen (token : Token) : Text → List Bool → List Bool
  | c :: name, _ :: next => (token.holds c && next.headD false) :: oneThen token name next
  | _, _ => [false]

/-- For each end of a name, the longest first, whether it or a shorter one is accepted according
to `next`. -/
def anyThen : List Bool → List Bool
  | [] => []
  | accepted :: next =>
    let rest := anyThen next
    (accepted || rest.headD false) :: rest

/-- For each end of a name, the longest first, whether the tokens accept it. -/
def acceptedEnds (name : Text) : List Token → List Bool
  | [] => name.map (fun _ => false) ++ [true]
  | token :: rest =>
    let next := acceptedEnds name rest
    if token.repeats then anyThen next else oneThen token name next

/-- Whether the tokens accept the whole name. -/
def accepts (tokens : List Token) (name : Text) : Bool :=
  (acceptedEnds name tokens).headD false

/-- Whether a text is to be read as a pattern. -/
def isPattern (text : Text) : Bool :=
  text.any fun c => c == '*' || c == '?' || c == '['

end Semicolon.Glob
