import Mathlib.Data.List.Basic
import Semicolon.Json.Grammar

/-!
# What is written is in the grammar

Every value is written, in either layout and at any level, as a text that the grammar derives for
that very value.  Escapes stand for the characters they are made from, and numbers for their
mantissa and exponent, so nothing is lost.

## Main statements

* `Json.spells_escape`: strings.
* `Json.numeral_writeNumber`: numbers.
* `Json.Value.denotes_write`: values.
-/

namespace Semicolon

/-! ## Digits -/

namespace Text

open Grammar (Run Digits)

theorem digits_toDigits (number : Nat) : Digits (Nat.toDigits 10 number) := by
  refine ⟨Nat.toDigits_ne_nil, ?_⟩
  intro c hc
  exact Nat.isDigit_of_mem_toDigits (by omega) (by omega) hc

theorem ofDigits_eq_ofDigitChars {digits : Text} (h : Run Char.isDigit digits) :
    ofDigits 10 digits = Nat.ofDigitChars 10 digits 0 := by
  rw [ofDigits, Nat.ofDigitChars_eq_foldl]
  refine List.foldl_ext _ _ 0 ?_
  intro value digit hdigit
  rw [digitValue, if_pos (h digit hdigit), Nat.mul_comm]

@[simp] theorem ofDigits_toDigits (number : Nat) :
    ofDigits 10 (Nat.toDigits 10 number) = number := by
  rw [ofDigits_eq_ofDigitChars (digits_toDigits number).2, Nat.ofDigitChars_ten_toDigits]

/-- The digits of a number with zeros in front. -/
def padded (count number : Nat) : Text :=
  List.replicate count '0' ++ Nat.toDigits 10 number

theorem isDigit_of_mem_padded {count number : Nat} : Run Char.isDigit (padded count number) := by
  intro c hc
  rcases List.mem_append.1 hc with hzero | hdigit
  · rw [List.eq_of_mem_replicate hzero]
    decide
  · exact (digits_toDigits number).2 c hdigit

/-- Leading zeros do not count. -/
@[simp] theorem ofDigits_padded (count number : Nat) :
    ofDigits 10 (padded count number) = number := by
  rw [ofDigits_eq_ofDigitChars isDigit_of_mem_padded, padded, Nat.ofDigitChars_append,
    Nat.ofDigitChars_replicate_zero, Nat.mul_zero, Nat.ofDigitChars_ten_toDigits]

/-- The digits up to fifteen are hexadecimal and have the values that they are made from. -/
theorem digitValue_digitChar {digit : Nat} (h : digit < 16) :
    isHexDigit (Nat.digitChar digit) = true ∧ digitValue (Nat.digitChar digit) = digit := by
  have hall : ∀ d < 16, isHexDigit (Nat.digitChar d) = true ∧
      digitValue (Nat.digitChar d) = d := by decide
  exact hall digit h

/-- Only zero is written with a zero in front. -/
theorem eq_zero_of_head?_toDigits {number : Nat} (h : (Nat.toDigits 10 number).head? = some '0') :
    number = 0 := by
  induction number using Nat.strongRecOn with
  | ind number ih =>
    rw [Nat.toDigits_eq_if (by omega)] at h
    split at h
    · next hsmall =>
      have hdigit : ∀ n < 10, Nat.digitChar n = '0' → n = 0 := by decide
      exact hdigit number hsmall (by simpa using h)
    · next hlarge =>
      rw [List.head?_append_of_ne_nil _ Nat.toDigits_ne_nil] at h
      have hzero := ih (number / 10) (by omega) h
      omega

end Text

namespace Json

open Grammar (Digits)

/-! ## Numbers -/

theorem magnitude_toDigits (number : Nat) {exponent : Text} {power : Int}
    (h : Exponent exponent power) :
    Magnitude (Nat.toDigits 10 number ++ exponent) number power := by
  have hzero : (Nat.toDigits 10 number).head? = some '0' → Nat.toDigits 10 number = ['0'] := by
    intro hhead
    rw [Text.eq_zero_of_head?_toDigits hhead, Nat.toDigits_zero]
  simpa using Magnitude.mk (Text.digits_toDigits number) hzero .absent h

/-- A number with places is written as its digits, with zeros in front if there are too few, and a
point between them.  A zero stands before the point only if nothing else does. -/
theorem writePlaces_eq (value places : Nat) :
    ∃ count whole fraction, Text.padded count value = whole ++ fraction ∧
      writePlaces value places = whole ++ '.' :: fraction ∧ fraction.length = places ∧
      whole ≠ [] ∧ (whole.head? = some '0' → whole = ['0']) := by
  obtain ⟨digits, hdigits⟩ : ∃ digits,
      digits = Text.padded (places + 1 - (Nat.toDigits 10 value).length) value := ⟨_, rfl⟩
  have hlength : digits.length = max (places + 1) (Nat.toDigits 10 value).length := by
    rw [hdigits, Text.padded, List.length_append, List.length_replicate]
    omega
  refine ⟨places + 1 - (Nat.toDigits 10 value).length, digits.take (digits.length - places),
    digits.drop (digits.length - places), ?_, ?_, ?_, ?_, ?_⟩
  · rw [List.take_append_drop, hdigits]
  · rw [hdigits]
    rfl
  · rw [List.length_drop]
    omega
  · rw [ne_eq, List.take_eq_nil_iff, ← List.length_eq_zero_iff]
    omega
  · intro hhead
    by_cases hshort : (Nat.toDigits 10 value).length ≤ places
    · have hone : digits.length - places = 1 := by omega
      obtain ⟨c, tail, rfl⟩ := List.exists_cons_of_length_pos (by omega : 0 < digits.length)
      rw [hone] at hhead ⊢
      simpa using hhead
    · rw [show places + 1 - (Nat.toDigits 10 value).length = 0 by omega] at hdigits
      rw [List.head?_take, if_neg (by omega), hdigits] at hhead
      obtain rfl := Text.eq_zero_of_head?_toDigits hhead
      rw [Nat.toDigits_zero] at hshort
      obtain rfl : places = 0 := by simpa using hshort
      rw [hdigits]
      rfl

theorem magnitude_writePlaces (value : Nat) {places : Nat} (h : places ≠ 0) :
    Magnitude (writePlaces value places) value (-places) := by
  obtain ⟨count, whole, fraction, hpadded, hwritten, hlength, hne, hzero⟩ :=
    writePlaces_eq value places
  have hdigits : ∀ c ∈ whole ++ fraction, c.isDigit = true := by
    rw [← hpadded]
    exact Text.isDigit_of_mem_padded
  have hwhole : Digits whole := ⟨hne, fun c hc => hdigits c (List.mem_append_left _ hc)⟩
  have hfraction : Digits fraction := by
    refine ⟨?_, fun c hc => hdigits c (List.mem_append_right _ hc)⟩
    rintro rfl
    exact h hlength.symm
  have hmagnitude := Magnitude.mk hwhole hzero (.present hfraction) .absent
  rw [← hpadded, Text.ofDigits_padded, hlength, List.append_nil, Int.zero_sub] at hmagnitude
  rw [hwritten]
  exact hmagnitude

/-- A power with its sign is an exponent. -/
theorem exponent_toDigits (power : Int) :
    Exponent ('e' :: ((if power < 0 then ['-'] else []) ++ Nat.toDigits 10 power.natAbs))
      power := by
  refine .present (.inl rfl) ?_
  have hdigits := Text.digits_toDigits power.natAbs
  split
  · next hnegative =>
    have hsigned := Signed.minus hdigits
    rw [Text.ofDigits_toDigits, show -(power.natAbs : Int) = power by omega] at hsigned
    exact hsigned
  · next hpositive =>
    have hsigned := Signed.unsigned hdigits
    rw [Text.ofDigits_toDigits, show (power.natAbs : Int) = power by omega] at hsigned
    exact hsigned

/-- Behind the point are all digits but the first. -/
theorem magnitude_writeScientific (value : Nat) (exponent : Int) :
    Magnitude (writeScientific value exponent) value exponent := by
  obtain ⟨digits, hdigits⟩ : ∃ digits, digits = Nat.toDigits 10 value := ⟨_, rfl⟩
  obtain ⟨hne, hall⟩ : Digits digits := hdigits ▸ Text.digits_toDigits value
  obtain ⟨first, rest, rfl⟩ := List.exists_cons_of_ne_nil hne
  have hwhole : Digits [first] := by
    refine ⟨by simp, ?_⟩
    intro c hc
    rw [List.mem_singleton.1 hc]
    exact hall first List.mem_cons_self
  have hfraction : Fraction (if (first :: rest).length = 1 then [] else '.' :: rest) rest := by
    cases rest with
    | nil => exact .absent
    | cons second others =>
      refine .present ⟨by simp, ?_⟩
      intro c hc
      exact hall c (List.mem_cons_of_mem first hc)
  have hvalue : Text.ofDigits 10 ([first] ++ rest) = value := by
    rw [List.singleton_append, hdigits, Text.ofDigits_toDigits]
  have hmagnitude := Magnitude.mk hwhole (by simp) hfraction
    (exponent_toDigits (exponent + (rest.length : Nat)))
  rw [hvalue, Int.add_sub_cancel] at hmagnitude
  rw [writeScientific, ← hdigits]
  exact hmagnitude

/-- **A number is written as a numeral for it.** -/
theorem numeral_writeNumber (mantissa exponent : Int) :
    Numeral (writeNumber mantissa exponent) mantissa exponent := by
  have signed {written : Text} (h : Magnitude written mantissa.natAbs exponent) :
      Numeral ((if mantissa < 0 then ['-'] else []) ++ written) mantissa exponent := by
    split
    · next hnegative =>
      have hnumeral := Numeral.negative h
      rw [show -(mantissa.natAbs : Int) = mantissa by omega] at hnumeral
      exact hnumeral
    · next hpositive =>
      have hnumeral := Numeral.positive h
      rw [show (mantissa.natAbs : Int) = mantissa by omega] at hnumeral
      exact hnumeral
  unfold writeNumber
  dsimp only
  split
  · next hwhole =>
    subst hwhole
    simpa using signed (magnitude_toDigits mantissa.natAbs .absent)
  split
  · next hplaces =>
    rw [Bool.and_eq_true, decide_eq_true_eq] at hplaces
    have hmagnitude := magnitude_writePlaces mantissa.natAbs (by omega : exponent.natAbs ≠ 0)
    rw [show -(exponent.natAbs : Int) = exponent by omega] at hmagnitude
    exact signed hmagnitude
  · exact signed (magnitude_writeScientific mantissa.natAbs exponent)

/-! ## Strings -/

/-- How a character can be written: by a letter, by its number, or as it is. -/
theorem escapeChar_cases (c : Char) :
    (∃ letter, (letter, c) ∈ shortForms ∧ escapeChar c = ['\\', letter]) ∨
    (c.toNat < 0x20 ∧ escapeChar c = ['\\', 'u', '0', '0'] ++ hexPair c.toNat) ∨
    (c ≠ '\x22' ∧ c ≠ '\\' ∧ 0x20 ≤ c.toNat ∧ escapeChar c = [c]) := by
  by_cases hshort : c ∈ ['\x22', '\\', '\x08', '\x0c', '\n', '\r', '\t']
  · left
    simp only [List.mem_cons, List.not_mem_nil, or_false] at hshort
    rcases hshort with rfl | rfl | rfl | rfl | rfl | rfl | rfl <;> refine ⟨_, ?_, rfl⟩ <;> decide
  · right
    simp only [List.mem_cons, List.not_mem_nil, or_false, not_or] at hshort
    by_cases hcontrol : c.toNat < 0x20
    · exact .inl ⟨hcontrol, by simp [escapeChar, hshort, hcontrol]⟩
    · exact .inr ⟨hshort.1, hshort.2.1, by omega, by simp [escapeChar, hshort, hcontrol]⟩

theorem hexadecimal_hexPair {number : Nat} (h : number < 0x20) :
    Hexadecimal ('0' :: '0' :: hexPair number) number := by
  obtain ⟨hhigh, hhighValue⟩ := Text.digitValue_digitChar (by omega : number / 16 < 16)
  obtain ⟨hlow, hlowValue⟩ := Text.digitValue_digitChar (by omega : number % 16 < 16)
  have hzero : Text.isHexDigit '0' = true ∧ Text.digitValue '0' = 0 := by decide
  constructor
  · simp [hexPair, hzero, hhigh, hlow]
  · simp only [Text.ofDigits, hexPair, List.foldl_cons, List.foldl_nil, hzero, hhighValue,
      hlowValue]
    omega

/-- A character is written as one of the forms that stand for it. -/
theorem Spells.escapeChar_append {written text : Text} (c : Char) (h : Spells written text) :
    Spells (escapeChar c ++ written) (c :: text) := by
  obtain ⟨letter, hletter, heq⟩ | ⟨hcontrol, heq⟩ | ⟨hquote, hbackslash, hcontrol, heq⟩ :=
    escapeChar_cases c
  · rw [heq]
    exact .short hletter h
  · rw [heq]
    exact .number (hexadecimal_hexPair hcontrol) h
  · rw [heq]
    exact .plain hquote hbackslash hcontrol h

/-- **A string is written as a spelling of it.** -/
theorem spells_escape (text : Text) : Spells (text.flatMap escapeChar) text := by
  induction text with
  | nil => exact .nil
  | cons c rest ih =>
    rw [List.flatMap_cons]
    exact ih.escapeChar_append c

/-! ## Values -/

theorem space_nil : Space [] := by
  simp [Space]

theorem Layout.space_newLine (layout : Layout) (level : Nat) : Space (layout.newLine level) := by
  cases layout with
  | compact => exact space_nil
  | indented =>
    intro c hc
    rcases List.mem_cons.1 hc with rfl | hblank
    · exact .inr (.inr (.inl rfl))
    · exact .inl (List.eq_of_mem_replicate hblank)

/-- The colon after a key is followed by nothing but white space. -/
theorem Layout.exists_colon (layout : Layout) :
    ∃ start, layout.colon = ':' :: start ∧ Space start := by
  cases layout with
  | compact => exact ⟨[], rfl, space_nil⟩
  | indented => exact ⟨[' '], rfl, by simp [Space]⟩

/-- A member is written with its key in quotes. -/
theorem member_write {before written after : Text} {value : Value} (layout : Layout)
    (hbefore : Space before) (key : Text) (hvalue : Denotes written value) (hafter : Space after) :
    Member (before ++ writeString key ++ layout.colon ++ written ++ after) key value := by
  obtain ⟨start, hcolon, hstart⟩ := layout.exists_colon
  have hmember := Member.mk hbefore (spells_escape key) space_nil hstart hvalue hafter
  simpa [writeString, hcolon] using hmember

mutual

/-- **A value is written as the grammar says**, in either layout and at any level. -/
theorem Value.denotes_write (layout : Layout) (level : Nat) :
    (value : Value) → Denotes (value.write layout level) value
  | .null => .null
  | .boolean true => .isTrue
  | .boolean false => .isFalse
  | .number mantissa exponent => .number (numeral_writeNumber mantissa exponent)
  | .string text => .string (spells_escape text)
  | .array [] => .emptyArray space_nil
  | .array (first :: rest) => by
    have helements := elements_write layout (level + 1) rest (layout.space_newLine (level + 1))
      (first.denotes_write layout (level + 1)) (layout.space_newLine level)
    simpa [Value.write] using Denotes.array helements
  | .object [] => .emptyObject space_nil
  | .object ((key, value) :: rest) => by
    have hmembers := members_write layout (level + 1) rest (layout.space_newLine (level + 1)) key
      (value.denotes_write layout (level + 1)) (layout.space_newLine level)
    simpa [Value.write] using Denotes.object hmembers

/-- Elements are written with commas between them. -/
theorem elements_write (layout : Layout) (level : Nat) :
    (rest : List Value) → {before written after : Text} → {value : Value} → Space before →
      Denotes written value → Space after →
      Elements (before ++ written ++ writeElements layout level rest ++ after) (value :: rest)
  | [], before, written, after, value, hbefore, hvalue, hafter => by
    simpa [writeElements] using Elements.last hbefore hvalue hafter
  | element :: rest, before, written, after, value, hbefore, hvalue, hafter => by
    have hrest := elements_write layout level rest (layout.space_newLine level)
      (element.denotes_write layout level) hafter
    simpa [writeElements] using Elements.more hbefore hvalue space_nil hrest

/-- Members are written with commas between them. -/
theorem members_write (layout : Layout) (level : Nat) :
    (rest : List (Text × Value)) → {before written after : Text} → {value : Value} →
      Space before → (key : Text) → Denotes written value → Space after →
      Members (before ++ writeString key ++ layout.colon ++ written ++
        writeMembers layout level rest ++ after) ((key, value) :: rest)
  | [], before, written, after, value, hbefore, key, hvalue, hafter => by
    simpa [writeMembers] using Members.last (member_write layout hbefore key hvalue hafter)
  | (other, element) :: rest, before, written, after, value, hbefore, key, hvalue, hafter => by
    have hrest := members_write layout level rest (layout.space_newLine level) other
      (element.denotes_write layout level) hafter
    simpa [writeMembers] using
      Members.more (member_write layout hbefore key hvalue space_nil) hrest

end

end Json

end Semicolon
