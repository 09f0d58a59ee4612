import Semicolon.Text.Basic

/-!
# Options

The words after a command are options: `--name`, `--name=value`, `--name value`, and the short
forms `-n`, `-nvalue`, `-n=value` and `-n value`.  Short options without a value may be written
together.  A value in a word of its own does not begin with a hyphen, unless it is a hyphen
alone.  After `--` nothing may follow.

## Main definitions

* `OptionSpec`: an option that a command knows.
* `OptionSpec.parse?`: the options that words give.
-/

namespace Semicolon

/-- An option that a command knows. -/
structure OptionSpec where
  /-- The name after two hyphens. -/
  long : String
  /-- The letter after one hyphen. -/
  short? : Option Char
  takesValue : Bool
  repeatable : Bool := false
  deriving DecidableEq, Repr

/-- An option that was given, with its value if it takes one. -/
structure GivenOption where
  long : String
  argument? : Option String := none
  deriving DecidableEq, Repr

namespace OptionSpec

/-- The option with a long name. -/
def named? (specs : List OptionSpec) (long : Text) : Option OptionSpec :=
  specs.find? (·.long.toList == long)

/-- The option with a short name. -/
def lettered? (specs : List OptionSpec) (letter : Char) : Option OptionSpec :=
  specs.find? (·.short? == some letter)

/-- The option as it was given without a value. -/
def flag (spec : OptionSpec) : GivenOption := { long := spec.long }

/-- The option as it was given with a value. -/
def withValue (spec : OptionSpec) (value : Text) : GivenOption :=
  { long := spec.long, argument? := some (String.ofList value) }

/-- Whether a word can be the value of the option before it. -/
def isValue (word : Text) : Bool :=
  word == ['-'] || word.head? != some '-'

/-- The name and the value of a word such as `name=value`. -/
def splitValue (word : Text) : Text × Option Text :=
  match word.dropWhile (· != '=') with
  | [] => (word, none)
  | _ :: value => (word.takeWhile (· != '='), some value)

/-- The value right after a short option, without the equals sign that may stand before it. -/
def attached : Text → Text
  | '=' :: value => value
  | value => value

/-- The options in a word of short options, and the last of them if its value is still to
come. -/
def letters? (specs : List OptionSpec) : Text → Option (List GivenOption × Option OptionSpec)
  | [] => some ([], none)
  | letter :: rest =>
    match lettered? specs letter with
    | none => none
    | some spec =>
      if spec.takesValue then
        if rest.isEmpty then some ([], some spec)
        else some ([spec.withValue (attached rest)], none)
      else (letters? specs rest).map fun (given, open?) => (spec.flag :: given, open?)

/-- The options that words give, in order. -/
def givenIn? (specs : List OptionSpec) : List Text → Option (List GivenOption)
  | [] => some []
  | word :: rest =>
    match word with
    | ['-', '-'] => if rest.isEmpty then some [] else none
    | '-' :: '-' :: body =>
      let (long, value?) := splitValue body
      match named? specs long, value? with
      | none, _ => none
      | some spec, some value =>
        if spec.takesValue then (givenIn? specs rest).map (spec.withValue value :: ·) else none
      | some spec, none =>
        if spec.takesValue then
          match rest with
          | [] => none
          | value :: rest =>
            if isValue value then (givenIn? specs rest).map (spec.withValue value :: ·) else none
        else (givenIn? specs rest).map (spec.flag :: ·)
    | '-' :: first :: more =>
      match letters? specs (first :: more) with
      | none => none
      | some (given, none) => (givenIn? specs rest).map (given ++ ·)
      | some (given, some spec) =>
        match rest with
        | [] => none
        | value :: rest =>
          if isValue value then
            (givenIn? specs rest).map (given ++ spec.withValue value :: ·)
          else none
    | _ => none

/-- Whether every option that may be given once is given at most once. -/
def givenOnce (specs : List OptionSpec) (given : List GivenOption) : Bool :=
  specs.all fun spec => spec.repeatable || (given.filter (·.long == spec.long)).length ≤ 1

/-- The options that words give, if the words are right for the command. -/
def parse? (specs : List OptionSpec) (words : List String) : Option (List GivenOption) :=
  (givenIn? specs (words.map String.toList)).filter (givenOnce specs)

end OptionSpec

namespace GivenOption

/-- The values given to an option. -/
def values (given : List GivenOption) (long : String) : List String :=
  given.filterMap fun option => if option.long == long then option.argument? else none

/-- The value given to an option. -/
def value? (given : List GivenOption) (long : String) : Option String :=
  (values given long).head?

/-- How often an option is given. -/
def count (given : List GivenOption) (long : String) : Nat :=
  (given.filter (·.long == long)).length

/-- Whether an option is given. -/
def has (given : List GivenOption) (long : String) : Bool :=
  given.any (·.long == long)

end GivenOption

end Semicolon
