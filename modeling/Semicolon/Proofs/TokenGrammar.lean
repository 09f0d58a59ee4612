import Semicolon.Proofs.LineEnd
import Semicolon.Proofs.Numeral

/-!
# What the token rules accept

Each rule accepts the tokens of its grammar and no others.  A check reads its token from the left
and commits itself at every step: it takes all the digits there are, and it takes a sign or the
mark of an exponent wherever one stands.  The grammar asks only that the token can be cut somehow.
The two agree because no part of a numeral begins with a character that the part before it could
have gone on with.

## Main statements

* `Numeral.endsExponent_iff_exists`, `Numeral.endsFraction_iff`: what may follow the digits of a
  number, by its parts.
* `TokenRule.accepts_iff_derives`: checks and grammars agree.
-/

namespace Semicolon

open Grammar

/-! ## Numerals -/

namespace Numeral

variable {token rest : Text}

/-- An exponent and an imaginary marker, each of which may be missing. -/
theorem endsExponent_iff_exists :
    endsExponent rest = true ↔
      ∃ exponent marker, Exponent exponent ∧ Imaginary marker ∧ rest = exponent ++ marker := by
  rw [endsExponent_iff]
  constructor
  · rintro (⟨mark, tail, hmark, hrest, htail⟩ | himaginary)
    · obtain ⟨sign, digits, marker, hsign, hdigits, hmarker, rfl⟩ :=
        digitsThen_afterSign_iff.1 htail
      refine ⟨mark :: sign ++ digits, marker, ?_, hmarker, by simp [hrest]⟩
      exact .inr ⟨mark, sign, digits, hmark, hsign, hdigits, rfl⟩
    · exact ⟨[], rest, .inl rfl, endsImaginary_iff.1 himaginary, rfl⟩
  · rintro ⟨exponent, marker, hexponent, hmarker, rfl⟩
    rcases hexponent with rfl | ⟨mark, sign, digits, hmark, hsign, hdigits, rfl⟩
    · right
      exact endsImaginary_iff.2 hmarker
    · left
      refine ⟨mark, sign ++ digits ++ marker, hmark, by simp, ?_⟩
      exact digitsThen_afterSign_iff.2 ⟨sign, digits, marker, hsign, hdigits, hmarker, rfl⟩

/-- The digits of a fraction end where the exponent begins, whether or not there are any. -/
theorem endsExponent_dropWhile_isDigit_iff :
    endsExponent (rest.dropWhile Char.isDigit) = true ↔
      ∃ fraction exponent marker, Run Char.isDigit fraction ∧ Exponent exponent ∧
        Imaginary marker ∧ rest = fraction ++ exponent ++ marker := by
  constructor
  · intro h
    obtain ⟨exponent, marker, hexponent, hmarker, htail⟩ := endsExponent_iff_exists.1 h
    refine ⟨rest.takeWhile Char.isDigit, exponent, marker, ?_, hexponent, hmarker, ?_⟩
    · intro c hc
      exact List.mem_takeWhile_imp hc
    · rw [List.append_assoc, ← htail, List.takeWhile_append_dropWhile]
  · rintro ⟨fraction, exponent, marker, hfraction, hexponent, hmarker, rfl⟩
    have hends : endsExponent (exponent ++ marker) = true :=
      endsExponent_iff_exists.2 ⟨exponent, marker, hexponent, hmarker, rfl⟩
    rw [List.append_assoc, dropWhile_isDigit_append hfraction]
    · exact hends
    · intro c tail hcons
      exact noDigitFirst_endsExponent c tail (hcons ▸ hends)

theorem endsFraction_iff :
    endsFraction rest = true ↔
      ∃ fraction exponent marker, Run Char.isDigit fraction ∧ Exponent exponent ∧
        Imaginary marker ∧ rest = '.' :: (fraction ++ exponent ++ marker) := by
  unfold endsFraction
  split
  · simp [endsExponent_dropWhile_isDigit_iff]
  · next hpoint =>
    constructor
    · intro h
      exact absurd h (by simp)
    · rintro ⟨fraction, exponent, marker, -, -, -, hrest⟩
      exact absurd hrest (hpoint _)

theorem noDigitFirst_endsFraction : NoDigitFirst endsFraction := by
  intro c rest h
  obtain ⟨fraction, exponent, marker, -, -, -, hrest⟩ := endsFraction_iff.1 h
  rw [(List.cons.inj hrest).1]
  decide

theorem isInteger_iff : isInteger token = true ↔ Derives .integer token := by
  rw [isInteger, digitsThen_iff noDigitFirst_endsImaginary]
  simp only [endsImaginary_iff, Derives]

theorem isHex_iff : isHex token = true ↔ Derives .hexLiteral token := by
  have hdigits (digits : Text) : (!digits.isEmpty && digits.all Text.isHexDigit) = true ↔
      digits ≠ [] ∧ Run Text.isHexDigit digits := by
    simp [Run]
  unfold isHex
  split
  · simp [hdigits, Derives]
  · simp [hdigits, Derives]
  · next hlower hupper =>
    constructor
    · intro h
      exact absurd h (by simp)
    · rintro ⟨mark, digits, rfl | rfl, -, -, rfl⟩
      · exact absurd rfl (hlower digits)
      · exact absurd rfl (hupper digits)

theorem isDecimalFloat_iff : isDecimalFloat token = true ↔ Derives .decimalFloat token := by
  rw [isDecimalFloat, digitsThen_iff noDigitFirst_endsFraction]
  constructor
  · rintro ⟨whole, rest, hwhole, hrest, rfl⟩
    obtain ⟨fraction, exponent, marker, hfraction, hexponent, hmarker, rfl⟩ :=
      endsFraction_iff.1 hrest
    exact ⟨whole, fraction, exponent, marker, hwhole, hfraction, hexponent, hmarker, by simp⟩
  · rintro ⟨whole, fraction, exponent, marker, hwhole, hfraction, hexponent, hmarker, rfl⟩
    refine ⟨whole, '.' :: (fraction ++ exponent ++ marker), hwhole, ?_, by simp⟩
    exact endsFraction_iff.2 ⟨fraction, exponent, marker, hfraction, hexponent, hmarker, rfl⟩

/-- Digits, an exponent and an imaginary marker: what two of the rules have in common. -/
theorem digitsThen_endsExponent_iff :
    digitsThen endsExponent token = true ↔
      ∃ whole exponent marker, Digits whole ∧ Exponent exponent ∧ Imaginary marker ∧
        token = whole ++ exponent ++ marker := by
  rw [digitsThen_iff noDigitFirst_endsExponent]
  constructor
  · rintro ⟨whole, rest, hwhole, hrest, rfl⟩
    obtain ⟨exponent, marker, hexponent, hmarker, rfl⟩ := endsExponent_iff_exists.1 hrest
    exact ⟨whole, exponent, marker, hwhole, hexponent, hmarker, by simp⟩
  · rintro ⟨whole, exponent, marker, hwhole, hexponent, hmarker, rfl⟩
    refine ⟨whole, exponent ++ marker, hwhole, ?_, by simp⟩
    exact endsExponent_iff_exists.2 ⟨exponent, marker, hexponent, hmarker, rfl⟩

theorem isLeadingDotFloat_iff :
    isLeadingDotFloat token = true ↔ Derives .leadingDotFloat token := by
  unfold isLeadingDotFloat
  split
  · simp [digitsThen_endsExponent_iff, Derives]
  · next hpoint =>
    constructor
    · intro h
      exact absurd h (by simp)
    · rintro ⟨fraction, exponent, marker, -, -, -, rfl⟩
      exact absurd rfl (hpoint _)

end Numeral

/-! ## Words and quotations -/

namespace TokenRule

variable {token : Text}

theorem isIdentifier_iff : isIdentifier token = true ↔ Derives .identifier token := by
  cases token with
  | nil => simp [isIdentifier, Derives]
  | cons first rest => simp [isIdentifier, Derives, Run]

/-- Two quotes are needed, so the first and the last of them are not the same character. -/
theorem isQuotedBy_iff {quote : Char} :
    isQuotedBy quote token = true ↔ ∃ inner, token = quote :: inner ++ [quote] := by
  cases token with
  | nil => simp [isQuotedBy]
  | cons first rest =>
    rcases rest.eq_nil_or_concat with rfl | ⟨inner, last, rfl⟩
    · simp [isQuotedBy]
    · -- Both sides say what the first and the last character are.
      have hlast : (first :: (inner ++ [last])).getLast? = some last := by
        rw [← List.cons_append, List.getLast?_append, List.getLast?_singleton, Option.some_or]
      simp [isQuotedBy, hlast]

/-! ## All rules -/

/-- **A rule accepts the tokens of its grammar.** -/
theorem accepts_iff_derives (rule : TokenRule) (token : Text) :
    rule.accepts token = true ↔ Derives rule token := by
  cases rule with
  | reservedWord =>
    have hword : accepts reservedWord token = true ↔
        ∃ word ∈ reservedWords, word.toList = token := by
      simp [accepts]
    simp only [hword, Derives, eq_comm (a := token)]
  | identifier => exact isIdentifier_iff
  | integer => exact Numeral.isInteger_iff
  | hexLiteral => exact Numeral.isHex_iff
  | decimalFloat => exact Numeral.isDecimalFloat_iff
  | exponentNumber => exact Numeral.digitsThen_endsExponent_iff
  | leadingDotFloat => exact Numeral.isLeadingDotFloat_iff
  | doubleQuotedString => exact isQuotedBy_iff
  | rawString => exact isQuotedBy_iff

/-! ## Characters

The grammars speak of digits and letters.  Here are their ranges: nothing outside of ASCII is
among them. -/

theorem isDigit_iff {c : Char} : c.isDigit = true ↔ '0' ≤ c ∧ c ≤ '9' := by
  change (decide ('0' ≤ c) && decide (c ≤ '9')) = true ↔ _
  simp

theorem startsIdentifier_iff {c : Char} :
    startsIdentifier c = true ↔ 'a' ≤ c ∧ c ≤ 'z' ∨ 'A' ≤ c ∧ c ≤ 'Z' ∨ c = '_' := by
  change ((decide ('A' ≤ c ∧ c ≤ 'Z') || (decide ('a' ≤ c) && decide (c ≤ 'z'))) ||
    c == '_') = true ↔ _
  simp only [Bool.or_eq_true, Bool.and_eq_true, decide_eq_true_eq, beq_iff_eq]
  rw [or_assoc, or_left_comm]

theorem continuesIdentifier_iff {c : Char} :
    continuesIdentifier c = true ↔ startsIdentifier c = true ∨ c.isDigit = true := by
  change ((c.isAlpha || c.isDigit) || c == '_') = true ↔ (c.isAlpha || c == '_') = true ∨ _
  simp [or_right_comm]

theorem isHexDigit_iff {c : Char} :
    Text.isHexDigit c = true ↔ c.isDigit = true ∨ 'a' ≤ c ∧ c ≤ 'f' ∨ 'A' ≤ c ∧ c ≤ 'F' := by
  simp [Text.isHexDigit, or_assoc]

/-- A line feed at the end is not overlooked. -/
theorem accepts_append_feed (rule : TokenRule) (token : Text) :
    rule.accepts (token ++ ['\n']) = false := by
  have hnone := find?_append_eq_none (c := '\n') (by decide) token
  rw [find?, List.find?_eq_none] at hnone
  simpa using hnone rule rule.mem_all

/-- **The token rules accept exactly their grammars.**  A rule accepts a token if and only if the
whole token can be cut into the parts that the grammar of the rule asks for, whatever characters
it is made of.  The keywords are four, digits and letters are those of ASCII, and no rule takes a
token with a line feed after it. -/
theorem accepts_exactly_its_grammar :
    (∀ (rule : TokenRule) (token : Text), rule.accepts token = true ↔ Derives rule token) ∧
    (∀ word : String, word ∈ reservedWords ↔
      word = "break" ∨ word = "continue" ∨ word = "fallthrough" ∨ word = "return") ∧
    (∀ c : Char, c.isDigit = true ↔ '0' ≤ c ∧ c ≤ '9') ∧
    (∀ c : Char, startsIdentifier c = true ↔
      'a' ≤ c ∧ c ≤ 'z' ∨ 'A' ≤ c ∧ c ≤ 'Z' ∨ c = '_') ∧
    (∀ c : Char, continuesIdentifier c = true ↔ startsIdentifier c = true ∨ c.isDigit = true) ∧
    (∀ c : Char, Text.isHexDigit c = true ↔
      c.isDigit = true ∨ 'a' ≤ c ∧ c ≤ 'f' ∨ 'A' ≤ c ∧ c ≤ 'F') ∧
    ∀ (rule : TokenRule) (token : Text), rule.accepts (token ++ ['\n']) = false := by
  refine ⟨accepts_iff_derives, ?_, fun _ => isDigit_iff, fun _ => startsIdentifier_iff,
    fun _ => continuesIdentifier_iff, fun _ => isHexDigit_iff, accepts_append_feed⟩
  intro word
  simp [reservedWords]

/-- A fraction may be missing, but not the digits of an exponent or of a hexadecimal number; one
quote is not two, and a digit of another script is none. -/
example : accepts decimalFloat "1.e5i".toList = true ∧ accepts exponentNumber "1e+".toList = false ∧
    accepts hexLiteral "0x".toList = false ∧ accepts doubleQuotedString ['\x22'] = false ∧
    accepts integer ['٣'] = false := by
  decide

end TokenRule

end Semicolon
