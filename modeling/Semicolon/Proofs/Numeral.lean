import Mathlib.Data.List.TakeWhile
import Semicolon.Rule.Grammar

/-!
# Numerals and their parts

A numeral check takes the maximal run of digits off its token and looks at the rest.  Where no
accepted rest begins with a digit, it makes no difference that the run is maximal: the check
accepts the tokens that can be cut somewhere into digits and an accepted rest.

## Main statements

* `Numeral.digitsThen_iff`: the run of digits may be cut anywhere.
* `Numeral.digitsThen_afterSign_iff`: exponents by their parts.
-/

namespace Semicolon.Numeral

open Grammar

/-- No accepted rest begins with a digit. -/
def NoDigitFirst (accepts : Text → Bool) : Prop :=
  ∀ c rest, accepts (c :: rest) = true → c.isDigit = false

section Digits

variable {digits rest : Text}

theorem takeWhile_isDigit_append (hdigits : Run Char.isDigit digits)
    (hrest : ∀ c tail, rest = c :: tail → c.isDigit = false) :
    (digits ++ rest).takeWhile Char.isDigit = digits := by
  rw [List.takeWhile_append_of_pos hdigits]
  cases rest with
  | nil => simp
  | cons c tail => simp [hrest c tail rfl]

theorem dropWhile_isDigit_append (hdigits : Run Char.isDigit digits)
    (hrest : ∀ c tail, rest = c :: tail → c.isDigit = false) :
    (digits ++ rest).dropWhile Char.isDigit = rest := by
  rw [List.dropWhile_append_of_pos hdigits]
  cases rest with
  | nil => simp
  | cons c tail => simp [hrest c tail rfl]

end Digits

variable {accepts : Text → Bool} {token : Text}

/-- What the check looks at: there is a digit in front, and the rest after all of them is
accepted. -/
theorem digitsThen_eq_true_iff :
    digitsThen accepts token = true ↔
      token.takeWhile Char.isDigit ≠ [] ∧ accepts (token.dropWhile Char.isDigit) = true := by
  simp [digitsThen]

/-- **A token is accepted if it can be cut into digits and an accepted rest.** -/
theorem digitsThen_iff (h : NoDigitFirst accepts) :
    digitsThen accepts token = true ↔
      ∃ digits rest, Digits digits ∧ accepts rest = true ∧ token = digits ++ rest := by
  rw [digitsThen_eq_true_iff]
  constructor
  · rintro ⟨hne, haccepts⟩
    refine ⟨_, _, ⟨hne, ?_⟩, haccepts, List.takeWhile_append_dropWhile.symm⟩
    intro c hc
    exact List.mem_takeWhile_imp hc
  · rintro ⟨digits, rest, ⟨hne, hdigits⟩, haccepts, rfl⟩
    have hrest : ∀ c tail, rest = c :: tail → c.isDigit = false := by
      rintro c tail rfl
      exact h c tail haccepts
    rw [takeWhile_isDigit_append hdigits hrest, dropWhile_isDigit_append hdigits hrest]
    exact ⟨hne, haccepts⟩

/-! ## What may follow the digits -/

theorem endsImaginary_iff {rest : Text} : endsImaginary rest = true ↔ Imaginary rest := by
  simp [endsImaginary, Imaginary]

theorem noDigitFirst_endsImaginary : NoDigitFirst endsImaginary := by
  intro c rest h
  have hc : c = 'i' ∧ rest = [] := by simpa [endsImaginary] using h
  rw [hc.1]
  decide

/-- A sign is dropped if there is one. -/
theorem exists_sign_append_afterSign (rest : Text) :
    ∃ sign, Sign sign ∧ rest = sign ++ afterSign rest := by
  unfold afterSign
  split
  · exact ⟨['+'], .inr (.inl rfl), rfl⟩
  · exact ⟨['-'], .inr (.inr rfl), rfl⟩
  · exact ⟨[], .inl rfl, rfl⟩

/-- Digits begin with no sign, so the sign before them is dropped as a whole. -/
theorem afterSign_append {sign digits : Text} (hsign : Sign sign) (hdigits : Digits digits)
    (rest : Text) : afterSign (sign ++ digits ++ rest) = digits ++ rest := by
  obtain ⟨hne, hrun⟩ := hdigits
  rcases hsign with rfl | rfl | rfl
  · cases digits with
    | nil => exact absurd rfl hne
    | cons first tail =>
      have hfirst : first.isDigit = true := hrun first (by simp)
      have hplus : first ≠ '+' := by
        rintro rfl
        exact absurd hfirst (by decide)
      have hminus : first ≠ '-' := by
        rintro rfl
        exact absurd hfirst (by decide)
      simp [afterSign, hplus, hminus]
  · rfl
  · rfl

/-- **What may follow the mark of an exponent**: a sign, digits and an imaginary marker. -/
theorem digitsThen_afterSign_iff {rest : Text} :
    digitsThen endsImaginary (afterSign rest) = true ↔
      ∃ sign digits marker, Sign sign ∧ Digits digits ∧ Imaginary marker ∧
        rest = sign ++ digits ++ marker := by
  rw [digitsThen_iff noDigitFirst_endsImaginary]
  constructor
  · rintro ⟨digits, marker, hdigits, hmarker, hafter⟩
    obtain ⟨sign, hsign, hrest⟩ := exists_sign_append_afterSign rest
    refine ⟨sign, digits, marker, hsign, hdigits, endsImaginary_iff.1 hmarker, ?_⟩
    rw [hrest, hafter, List.append_assoc]
  · rintro ⟨sign, digits, marker, hsign, hdigits, hmarker, rfl⟩
    exact ⟨digits, marker, hdigits, endsImaginary_iff.2 hmarker, afterSign_append hsign hdigits _⟩

/-- A rest is an exponent with its mark, or it is what may follow an integer. -/
theorem endsExponent_iff {rest : Text} :
    endsExponent rest = true ↔
      (∃ mark tail, (mark = 'e' ∨ mark = 'E') ∧ rest = mark :: tail ∧
        digitsThen endsImaginary (afterSign tail) = true) ∨ endsImaginary rest = true := by
  unfold endsExponent
  split
  · next tail => simp [endsImaginary]
  · next tail => simp [endsImaginary]
  · next hlower hupper =>
    constructor
    · exact .inr
    · rintro (⟨mark, tail, rfl | rfl, rfl, -⟩ | himaginary)
      · exact absurd rfl (hlower tail)
      · exact absurd rfl (hupper tail)
      · exact himaginary

theorem noDigitFirst_endsExponent : NoDigitFirst endsExponent := by
  intro c rest h
  rcases endsExponent_iff.1 h with ⟨mark, tail, hmark, hrest, -⟩ | himaginary
  · obtain ⟨rfl, -⟩ := List.cons.inj hrest
    rcases hmark with rfl | rfl <;> decide
  · exact noDigitFirst_endsImaginary c rest himaginary

end Semicolon.Numeral
