import Mathlib.Data.List.TakeWhile
import Semicolon.Decision

/-!
# Where a statement can end

A token rule accepts no token that ends in punctuation, points and quotes apart.  This is found
along the checks themselves: each of them takes a run of characters off the front of the token and
hands the rest on, so what the rest ends in, the token ends in.

The terminator is none of the characters that a token or a suffix ends in, and it separates no
words.  So a line that has got its terminator gets no second one, also where it stands after a
blank and is a word of its own.

## Main statements

* `TokenRule.endsOperand_of_accepts`: what accepted tokens end in.
* `decideLine_append_terminator`: terminated lines pass through.
-/

namespace Semicolon

/-- The characters that the last word of a statement may end in. -/
def isOperandEnd (c : Char) : Bool :=
  TokenRule.continuesIdentifier c || c == '.' || c == '\x22' || c == '\x60'

/-- The text ends in a character that a statement may end in. -/
def EndsOperand (text : Text) : Prop :=
  ∃ c, text.getLast? = some c ∧ isOperandEnd c = true

namespace EndsOperand

/-- What stands before the end of a text does not matter. -/
theorem append_left {text : Text} (h : EndsOperand text) (before : Text) :
    EndsOperand (before ++ text) := by
  obtain ⟨c, hlast, hc⟩ := h
  refine ⟨c, ?_, hc⟩
  rw [List.getLast?_append, hlast, Option.some_or]

theorem of_forall {text : Text} (hne : text ≠ []) (h : ∀ c ∈ text, isOperandEnd c = true) :
    EndsOperand text :=
  ⟨text.getLast hne, List.getLast?_eq_some_getLast hne, h _ (List.getLast_mem hne)⟩

end EndsOperand

/-! ## Numerals -/

namespace Numeral

theorem isOperandEnd_of_isDigit {c : Char} (h : c.isDigit = true) : isOperandEnd c = true := by
  simp [isOperandEnd, TokenRule.continuesIdentifier, Char.isAlphanum, h]

theorem isOperandEnd_of_isHexDigit {c : Char} (h : Text.isHexDigit c = true) :
    isOperandEnd c = true := by
  have hcases : c.isDigit = true ∨ ('a' ≤ c ∧ c ≤ 'f') ∨ ('A' ≤ c ∧ c ≤ 'F') := by
    simpa [Text.isHexDigit, or_assoc] using h
  have hletter : c.isAlphanum = true := by
    change ((c.isUpper || c.isLower) || c.isDigit) = true
    rcases hcases with hdigit | ⟨ha, hf⟩ | ⟨hA, hF⟩
    · simp [hdigit]
    · have hlower : c.isLower = true :=
        Bool.and_eq_true_iff.2 ⟨decide_eq_true ha, decide_eq_true (Char.le_trans hf (by decide))⟩
      simp [hlower]
    · have hupper : c.isUpper = true := decide_eq_true ⟨hA, Char.le_trans hF (by decide)⟩
      simp [hupper]
  simp [isOperandEnd, TokenRule.continuesIdentifier, hletter]

theorem isOperandEnd_of_mem_digits {token : Text} {c : Char}
    (h : c ∈ token.takeWhile Char.isDigit) : isOperandEnd c = true :=
  isOperandEnd_of_isDigit (List.mem_takeWhile_imp h)

/-- A run of digits and a rest: the token ends in what the rest ends in, or in a digit. -/
theorem endsOperand_of_digitsThen {accepts : Text → Bool}
    (hrest : ∀ rest, accepts rest = true → rest = [] ∨ EndsOperand rest) {token : Text}
    (h : digitsThen accepts token = true) : EndsOperand token := by
  obtain ⟨hdigits, haccepts⟩ : token.takeWhile Char.isDigit ≠ [] ∧
      accepts (token.dropWhile Char.isDigit) = true := by simpa [digitsThen] using h
  rw [← List.takeWhile_append_dropWhile (p := Char.isDigit) (l := token)]
  rcases hrest _ haccepts with hnil | hends
  · rw [hnil, List.append_nil]
    exact EndsOperand.of_forall hdigits fun _ => isOperandEnd_of_mem_digits
  · exact hends.append_left _

theorem endsOperand_of_endsImaginary {rest : Text} (h : endsImaginary rest = true) :
    rest = [] ∨ EndsOperand rest := by
  have hrest : rest = [] ∨ rest = ['i'] := by simpa [endsImaginary] using h
  rcases hrest with rfl | rfl
  · exact .inl rfl
  · exact .inr ⟨'i', rfl, by decide⟩

/-- A sign is dropped from the front only. -/
theorem exists_append_afterSign (rest : Text) : ∃ sign, sign ++ afterSign rest = rest := by
  unfold afterSign
  split
  · exact ⟨['+'], rfl⟩
  · exact ⟨['-'], rfl⟩
  · exact ⟨[], rfl⟩

/-- An exponent with its mark: the digits after the sign are at the end. -/
theorem endsOperand_of_exponent {mark : Char} {rest : Text}
    (h : digitsThen endsImaginary (afterSign rest) = true) : EndsOperand (mark :: rest) := by
  obtain ⟨sign, hsign⟩ := exists_append_afterSign rest
  have hends := endsOperand_of_digitsThen (fun _ => endsOperand_of_endsImaginary) h
  rw [← hsign]
  exact hends.append_left (mark :: sign)

theorem endsOperand_of_endsExponent {rest : Text} (h : endsExponent rest = true) :
    rest = [] ∨ EndsOperand rest := by
  unfold endsExponent at h
  split at h
  · exact .inr (endsOperand_of_exponent h)
  · exact .inr (endsOperand_of_exponent h)
  · exact endsOperand_of_endsImaginary h

theorem endsOperand_of_endsFraction {rest : Text} (h : endsFraction rest = true) :
    EndsOperand rest := by
  unfold endsFraction at h
  split at h
  · next tail =>
    rw [← List.takeWhile_append_dropWhile (p := Char.isDigit) (l := tail)]
    rcases endsOperand_of_endsExponent h with hnil | hends
    · rw [hnil, List.append_nil]
      refine EndsOperand.of_forall (List.cons_ne_nil _ _) ?_
      intro c hc
      rcases List.mem_cons.1 hc with rfl | hc
      · decide
      · exact isOperandEnd_of_mem_digits hc
    · exact hends.append_left ('.' :: tail.takeWhile Char.isDigit)
  · exact absurd h (by simp)

theorem endsOperand_of_isHex {token : Text} (h : isHex token = true) : EndsOperand token := by
  have ends {digits : Text} (hdigits : (!digits.isEmpty && digits.all Text.isHexDigit) = true) :
      EndsOperand digits := by
    obtain ⟨hne, hall⟩ : digits ≠ [] ∧ ∀ c ∈ digits, Text.isHexDigit c = true := by
      simpa using hdigits
    exact EndsOperand.of_forall hne fun c hc => isOperandEnd_of_isHexDigit (hall c hc)
  unfold isHex at h
  split at h
  · exact (ends h).append_left ['0', 'x']
  · exact (ends h).append_left ['0', 'X']
  · exact absurd h (by simp)

theorem endsOperand_of_isLeadingDotFloat {token : Text} (h : isLeadingDotFloat token = true) :
    EndsOperand token := by
  unfold isLeadingDotFloat at h
  split at h
  · exact (endsOperand_of_digitsThen (fun _ => endsOperand_of_endsExponent) h).append_left ['.']
  · exact absurd h (by simp)

end Numeral

/-! ## Tokens -/

namespace TokenRule

theorem endsOperand_of_isIdentifier {token : Text} (h : isIdentifier token = true) :
    EndsOperand token := by
  cases token with
  | nil => exact absurd h (by simp [isIdentifier])
  | cons first rest =>
    obtain ⟨hfirst, hrest⟩ : startsIdentifier first = true ∧
        ∀ c ∈ rest, continuesIdentifier c = true := by simpa [isIdentifier] using h
    refine EndsOperand.of_forall (List.cons_ne_nil _ _) ?_
    intro c hc
    have hcontinues : continuesIdentifier c = true := by
      rcases List.mem_cons.1 hc with rfl | hc
      · have hletter : c.isAlpha = true ∨ c = '_' := by simpa [startsIdentifier] using hfirst
        rcases hletter with hletter | rfl
        · simp [continuesIdentifier, Char.isAlphanum, hletter]
        · decide
      · exact hrest c hc
    simp [isOperandEnd, hcontinues]

theorem endsOperand_of_isQuotedBy {quote : Char} (hquote : isOperandEnd quote = true)
    {token : Text} (h : isQuotedBy quote token = true) : EndsOperand token := by
  have hlast : token.getLast? = some quote := by
    simp only [isQuotedBy, Bool.and_eq_true, beq_iff_eq] at h
    exact h.2
  exact ⟨quote, hlast, hquote⟩

/-- **Every accepted token ends in a letter, a digit, an underscore, a point or a quote.** -/
theorem endsOperand_of_accepts {rule : TokenRule} {token : Text} (h : rule.accepts token = true) :
    EndsOperand token := by
  cases rule with
  | reservedWord =>
    have hword : ∃ word ∈ reservedWords, word.toList = token := by simpa [accepts] using h
    obtain ⟨word, hmem, rfl⟩ := hword
    simp only [reservedWords, List.mem_cons, List.not_mem_nil, or_false] at hmem
    rcases hmem with rfl | rfl | rfl | rfl <;> exact ⟨_, rfl, by decide⟩
  | identifier => exact endsOperand_of_isIdentifier h
  | integer =>
    exact Numeral.endsOperand_of_digitsThen (fun _ => Numeral.endsOperand_of_endsImaginary) h
  | hexLiteral => exact Numeral.endsOperand_of_isHex h
  | decimalFloat =>
    refine Numeral.endsOperand_of_digitsThen ?_ h
    intro rest hrest
    exact .inr (Numeral.endsOperand_of_endsFraction hrest)
  | exponentNumber =>
    exact Numeral.endsOperand_of_digitsThen (fun _ => Numeral.endsOperand_of_endsExponent) h
  | leadingDotFloat => exact Numeral.endsOperand_of_isLeadingDotFloat h
  | doubleQuotedString => exact endsOperand_of_isQuotedBy (by decide) h
  | rawString => exact endsOperand_of_isQuotedBy (by decide) h

/-- No rule takes a token that ends in any other character. -/
theorem find?_append_eq_none {c : Char} (h : isOperandEnd c = false) (word : Text) :
    find? (word ++ [c]) = none := by
  rw [find?, List.find?_eq_none]
  intro rule _ haccepts
  obtain ⟨last, hlast, hend⟩ := endsOperand_of_accepts haccepts
  rw [List.getLast?_append, List.getLast?_singleton, Option.some_or] at hlast
  obtain rfl := Option.some.inj hlast
  rw [h] at hend
  exact Bool.false_ne_true hend

end TokenRule

/-! ## Lines -/

/-- A line ends in no suffix if no suffix ends in its last character. -/
theorem Suffix.find?_append_eq_none {c : Char}
    (h : ∀ suffix : Suffix, suffix.text.getLast? ≠ some c) (line : Text) :
    Suffix.find? (line ++ [c]) = none := by
  rw [Suffix.find?, List.find?_eq_none]
  intro suffix _ hends
  obtain ⟨before, hline⟩ := Suffix.endsLine_iff.1 hends
  have hlast := congrArg List.getLast? hline
  have hne : suffix.text.getLast? ≠ none := by cases suffix <;> decide
  rw [List.getLast?_append, List.getLast?_append, List.getLast?_singleton, Option.some_or] at hlast
  cases htext : suffix.text.getLast? with
  | none => exact hne htext
  | some last =>
    rw [htext, Option.some_or] at hlast
    exact h suffix (htext.trans hlast)

/-- A last character that separates no words belongs to the last word. -/
theorem exists_lastWord?_append {c : Char} (h : isSeparator c = false) (line : Text) :
    ∃ word, lastWord? (line ++ [c]) = some (word ++ [c]) := by
  refine ⟨(line.reverse.takeWhile (!isSeparator ·)).reverse, ?_⟩
  simp [lastWord?, h]

/-- A line passes through if it ends in a character that no word and no suffix ends in. -/
theorem decideLine_append_eq_passThrough {c : Char} (hoperand : isOperandEnd c = false)
    (hsuffix : ∀ suffix : Suffix, suffix.text.getLast? ≠ some c)
    (hseparator : isSeparator c = false) (line : Text) :
    decideLine (line ++ [c]) = .passThrough := by
  obtain ⟨word, hword⟩ := exists_lastWord?_append hseparator line
  rw [decideLine, Suffix.find?_append_eq_none hsuffix, hword, Option.bind_some,
    TokenRule.find?_append_eq_none hoperand]

/-- **A terminated line passes through**, whatever stands before the terminator. -/
theorem decideLine_append_terminator (line : Text) :
    decideLine (line ++ [terminator]) = .passThrough := by
  refine decideLine_append_eq_passThrough (by decide) ?_ (by decide) line
  intro suffix
  cases suffix <;> decide

end Semicolon
