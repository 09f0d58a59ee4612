import Mathlib.Data.List.DropRight
import Semicolon.Json.Grammar
import Semicolon.Json.Reader
import Semicolon.Proofs.Numeral

/-!
# Reading what the grammar derives

The reader decides by one character what comes next, and takes as much as it can.  It therefore
reads what the grammar derives for a value, if that is followed by something that cannot be taken
for more of a number.  Each step of the reader takes at least one character, so there are enough
steps where there are as many as characters.

A text that the grammar derives for a value is read as that value only, so the grammar is not
ambiguous.

## Main definitions

* `Json.Ends`: what can follow a value.
* `Json.Enough`: what a number of steps is enough for.

## Main statements

* `Json.number?_append`, `Json.stringFrom?_append`: numbers and strings, and what follows them.
* `Json.enough`: the induction on the steps.
* `Json.parse?_of_document`: whole texts.
* `Json.Denotes.unique`: a text is written for one value.
-/

namespace Semicolon.Json

open Grammar (Digits)

/-! ## White space -/

theorem skipSpace_append {space : Text} (h : Space space) (rest : Text) :
    skipSpace (space ++ rest) = skipSpace rest := by
  refine List.dropWhile_append_of_pos ?_
  intro c hc
  rcases h c hc with rfl | rfl | rfl | rfl <;> decide

/-- The character is no white space. -/
def Solid (c : Char) : Prop :=
  c ≠ ' ' ∧ c ≠ '\t' ∧ c ≠ '\n' ∧ c ≠ '\r'

instance : DecidablePred Solid := fun _ => inferInstanceAs (Decidable (_ ∧ _))

theorem skipSpace_cons {c : Char} (h : Solid c) (rest : Text) :
    skipSpace (c :: rest) = c :: rest := by
  obtain ⟨hblank, htab, hfeed, hreturn⟩ := h
  simp [skipSpace, hblank, htab, hfeed, hreturn]

theorem skipSpace_skipSpace (text : Text) : skipSpace (skipSpace text) = skipSpace text :=
  List.dropWhile_idempotent _ _

/-! ## Numbers -/

/-- What follows cannot be taken for more of a number. -/
def Ends (rest : Text) : Prop :=
  ∀ c tail, rest = c :: tail → c.isDigit = false ∧ c ≠ '.' ∧ c ≠ 'e' ∧ c ≠ 'E'

theorem digits?_append {digits rest : Text} (hdigits : Digits digits)
    (hrest : ∀ c tail, rest = c :: tail → c.isDigit = false) :
    digits? (digits ++ rest) = some (digits, rest) := by
  have htake := Numeral.takeWhile_isDigit_append hdigits.2 hrest
  have hdrop := Numeral.dropWhile_isDigit_append hdigits.2 hrest
  simp [digits?, htake, hdrop, hdigits.1]

theorem fraction?_append {written digits rest : Text} (h : Fraction written digits)
    (hrest : ∀ c tail, rest = c :: tail → c.isDigit = false ∧ c ≠ '.') :
    fraction? (written ++ rest) = some (digits, rest) := by
  cases h with
  | absent =>
    cases rest with
    | nil => rfl
    | cons c tail => simp [fraction?, (hrest c tail rfl).2]
  | present hdigits => exact digits?_append hdigits fun c tail heq => (hrest c tail heq).1

theorem exists_cons_of_digits {digits : Text} (h : Digits digits) :
    ∃ c tail, digits = c :: tail ∧ c.isDigit = true := by
  obtain ⟨c, tail, rfl⟩ := List.exists_cons_of_ne_nil h.1
  exact ⟨c, tail, rfl, h.2 c List.mem_cons_self⟩

theorem signed?_append {written rest : Text} {value : Int} (h : Signed written value)
    (hrest : ∀ c tail, rest = c :: tail → c.isDigit = false) :
    signed? (written ++ rest) = some (value, rest) := by
  cases h with
  | unsigned hdigits =>
    obtain ⟨c, tail, rfl, hc⟩ := exists_cons_of_digits hdigits
    have hplus : c ≠ '+' := by rintro rfl; exact absurd hc (by decide)
    have hminus : c ≠ '-' := by rintro rfl; exact absurd hc (by decide)
    have hread := digits?_append hdigits hrest
    rw [List.cons_append] at hread ⊢
    simp [signed?, hplus, hminus, hread]
  | plus hdigits => simp [signed?, digits?_append hdigits hrest]
  | minus hdigits => simp [signed?, digits?_append hdigits hrest]

theorem exponent?_append {written rest : Text} {value : Int} (h : Exponent written value)
    (hrest : Ends rest) : exponent? (written ++ rest) = some (value, rest) := by
  cases h with
  | absent =>
    cases rest with
    | nil => rfl
    | cons c tail =>
      obtain ⟨-, -, hlower, hupper⟩ := hrest c tail rfl
      simp [exponent?, hlower, hupper]
  | present hmark h =>
    have hread := signed?_append h fun c tail heq => (hrest c tail heq).1
    rcases hmark with rfl | rfl <;> exact hread

/-- An exponent, or what follows a number without one, is not taken for more of a fraction. -/
theorem Exponent.ends_fraction {written rest : Text} {value : Int} (h : Exponent written value)
    (hrest : Ends rest) :
    ∀ c tail, written ++ rest = c :: tail → c.isDigit = false ∧ c ≠ '.' := by
  intro c tail heq
  cases h with
  | absent =>
    obtain ⟨hdigit, hpoint, -⟩ := hrest c tail heq
    exact ⟨hdigit, hpoint⟩
  | present hmark _ =>
    obtain ⟨rfl, -⟩ := List.cons.inj heq
    rcases hmark with rfl | rfl <;> decide

/-- A fraction, or what follows a number without one, is not taken for more of the whole part. -/
theorem Fraction.ends_whole {written digits rest : Text} (h : Fraction written digits)
    (hrest : ∀ c tail, rest = c :: tail → c.isDigit = false) :
    ∀ c tail, written ++ rest = c :: tail → c.isDigit = false := by
  intro c tail heq
  cases h with
  | absent => exact hrest c tail heq
  | present _ =>
    obtain ⟨rfl, -⟩ := List.cons.inj heq
    decide

theorem unsigned?_append {written rest : Text} {mantissa : Nat} {exponent : Int}
    (h : Magnitude written mantissa exponent) (hrest : Ends rest) :
    unsigned? (written ++ rest) = some (mantissa, exponent, rest) := by
  cases h with
  | @mk whole fraction digits power _ hwhole hzero hfraction hexponent =>
    have hafter := hexponent.ends_fraction hrest
    have hread := digits?_append hwhole
      (hfraction.ends_whole fun c tail heq => (hafter c tail heq).1)
    have hleading : ¬ (1 < whole.length ∧ whole.head? = some '0') := by
      rintro ⟨hlong, hhead⟩
      rw [hzero hhead] at hlong
      exact absurd hlong (by decide)
    rw [List.append_assoc, List.append_assoc]
    simp only [unsigned?, hread, Bool.and_eq_true, decide_eq_true_eq, Option.bind_eq_bind,
      Option.bind_some]
    rw [if_neg hleading, fraction?_append hfraction hafter, Option.bind_some,
      exponent?_append hexponent hrest, Option.bind_some]
    rfl

theorem Magnitude.exists_cons {written : Text} {mantissa : Nat} {exponent : Int}
    (h : Magnitude written mantissa exponent) :
    ∃ c tail, written = c :: tail ∧ c.isDigit = true := by
  cases h with
  | mk hwhole _ _ _ =>
    obtain ⟨c, tail, rfl, hc⟩ := exists_cons_of_digits hwhole
    exact ⟨c, _, rfl, hc⟩

/-- A numeral begins with a minus or a digit, and with nothing else. -/
theorem Numeral.exists_cons {written : Text} {mantissa exponent : Int}
    (h : Numeral written mantissa exponent) :
    ∃ c tail, written = c :: tail ∧ ∀ other, other ≠ '-' → other.isDigit = false → c ≠ other := by
  cases h with
  | positive h =>
    obtain ⟨c, tail, rfl, hc⟩ := h.exists_cons
    refine ⟨c, tail, rfl, ?_⟩
    rintro other - hother rfl
    exact absurd (hc.symm.trans hother) (by decide)
  | negative h => exact ⟨'-', _, rfl, fun other hother _ => hother.symm⟩

/-- **A number is read to its end.** -/
theorem number?_append {written rest : Text} {mantissa exponent : Int}
    (h : Numeral written mantissa exponent) (hrest : Ends rest) :
    number? (written ++ rest) = some (.number mantissa exponent, rest) := by
  cases h with
  | positive h =>
    have hread := unsigned?_append h hrest
    obtain ⟨c, tail, rfl, hc⟩ := h.exists_cons
    have hminus : c ≠ '-' := by
      rintro rfl
      exact absurd hc (by decide)
    rw [List.cons_append] at hread ⊢
    simp [number?, hread, hminus]
  | negative h => simp [number?, unsigned?_append h hrest]

/-! ## Strings -/

theorem unit?_of_hexadecimal {digits : Text} {number : Nat} (h : Hexadecimal digits number) :
    unit? digits = some number := by
  obtain ⟨hdigits, rfl⟩ := h
  rw [unit?, if_pos (List.all_eq_true.2 hdigits)]

theorem shortEscape?_of_mem {letter c : Char} (h : (letter, c) ∈ shortForms) :
    shortEscape? letter = some c := by
  simp only [shortForms, List.mem_cons, Prod.mk.injEq, List.not_mem_nil, or_false] at h
  rcases h with ⟨rfl, rfl⟩ | ⟨rfl, rfl⟩ | ⟨rfl, rfl⟩ | ⟨rfl, rfl⟩ | ⟨rfl, rfl⟩ | ⟨rfl, rfl⟩ |
    ⟨rfl, rfl⟩ | ⟨rfl, rfl⟩ <;> decide

theorem stringFrom?_append {written text : Text} (h : Spells written text) (read rest : Text) :
    stringFrom? read (written ++ '\x22' :: rest) = some (read.reverse ++ text, rest) := by
  induction h generalizing read with
  | nil => simp [stringFrom?]
  | @plain c written text hquote hbackslash hcontrol h ih =>
    have hcontrol' : ¬ c.toNat < 0x20 := by omega
    rw [List.cons_append]
    simp [stringFrom?, hbackslash, hcontrol', ih]
  | @short letter c written text hletter h ih =>
    have hshort := shortEscape?_of_mem hletter
    have hne : letter ≠ 'u' := by
      rintro rfl
      exact absurd hshort (by simp [shortEscape?])
    simp [stringFrom?, hne, hshort, ih]
  | @number w x y z c written text hnumber h ih =>
    have hvalid : c.toNat < 0xd800 ∨ 0xdfff < c.toNat ∧ c.toNat < 0x110000 := c.valid
    have hsingle : (c.toNat < 0xd800 || 0xdfff < c.toNat) = true := by
      simp
      omega
    simp [stringFrom?, unit?_of_hexadecimal hnumber, hsingle, ih]
  | @pair p q r s w x y z c high low written text hhigh hlow hhighRange hlowRange hcode h ih =>
    have hsurrogate : ¬ (high < 0xd800 ∨ 0xdfff < high) := by omega
    simp [stringFrom?, unit?_of_hexadecimal hhigh, unit?_of_hexadecimal hlow, hsurrogate,
      hhighRange, hlowRange, ← hcode, ih]

theorem string?_append {written text : Text} (h : Spells written text) (rest : Text) :
    string? (written ++ '\x22' :: rest) = some (text, rest) :=
  stringFrom?_append h [] rest

/-! ## What a value begins with -/

theorem Denotes.exists_cons {written : Text} {value : Value} (h : Denotes written value) :
    ∃ c tail, written = c :: tail ∧ Solid c ∧ c ≠ ']' := by
  cases h with
  | null => exact ⟨'n', "ull".toList, rfl, by decide, by decide⟩
  | isTrue => exact ⟨'t', "rue".toList, rfl, by decide, by decide⟩
  | isFalse => exact ⟨'f', "alse".toList, rfl, by decide, by decide⟩
  | number h =>
    obtain ⟨c, tail, rfl, hdiffers⟩ := h.exists_cons
    refine ⟨c, tail, rfl, ⟨?_, ?_, ?_, ?_⟩, ?_⟩ <;> exact hdiffers _ (by decide) (by decide)
  | string h => exact ⟨'\x22', _, rfl, by decide, by decide⟩
  | emptyArray h => exact ⟨'[', _, rfl, by decide, by decide⟩
  | array h => exact ⟨'[', _, rfl, by decide, by decide⟩
  | emptyObject h => exact ⟨'\x7b', _, rfl, by decide, by decide⟩
  | object h => exact ⟨'\x7b', _, rfl, by decide, by decide⟩

/-- Elements begin with a value, after white space. -/
theorem Elements.exists_cons {written : Text} {elements : List Value}
    (h : Elements written elements) (rest : Text) :
    ∃ c tail, skipSpace (written ++ rest) = c :: tail ∧ c ≠ ']' := by
  have begins {before written : Text} {value : Value} (hbefore : Space before)
      (hvalue : Denotes written value) (others : Text) :
      ∃ c tail, skipSpace (before ++ (written ++ others)) = c :: tail ∧ c ≠ ']' := by
    obtain ⟨c, tail, rfl, hsolid, hc⟩ := hvalue.exists_cons
    exact ⟨c, tail ++ others, by rw [skipSpace_append hbefore, List.cons_append,
      skipSpace_cons hsolid], hc⟩
  cases h with
  | last hbefore hvalue _ =>
    rw [List.append_assoc, List.append_assoc]
    exact begins hbefore hvalue _
  | more hbefore hvalue _ _ =>
    rw [List.append_assoc, List.append_assoc, List.append_assoc]
    exact begins hbefore hvalue _

/-- Members begin with a quote, after white space. -/
theorem Members.exists_cons {written : Text} {members : List (Text × Value)}
    (h : Members written members) (rest : Text) :
    ∃ tail, skipSpace (written ++ rest) = '\x22' :: tail := by
  have begins {written key : Text} {value : Value} (hmember : Member written key value)
      (others : Text) : ∃ tail, skipSpace (written ++ others) = '\x22' :: tail := by
    cases hmember with
    | mk hbefore _ _ _ _ _ =>
      simp only [List.append_assoc, List.cons_append]
      rw [skipSpace_append hbefore, skipSpace_cons (by decide)]
      exact ⟨_, rfl⟩
  cases h with
  | last hmember => exact begins hmember rest
  | more hmember _ =>
    rw [List.append_assoc]
    exact begins hmember _

/-! ## One step of the reader -/

variable {steps : Nat}

theorem value?_skipSpace (text : Text) : value? steps (skipSpace text) = value? steps text := by
  cases steps with
  | zero => rfl
  | succ steps => simp only [value?, skipSpace_skipSpace]

theorem elements?_skipSpace (text : Text) :
    elements? steps (skipSpace text) = elements? steps text := by
  cases steps with
  | zero => rfl
  | succ steps => simp only [elements?, value?_skipSpace]

theorem members?_skipSpace (text : Text) :
    members? steps (skipSpace text) = members? steps text := by
  cases steps with
  | zero => rfl
  | succ steps => simp only [members?, skipSpace_skipSpace]

/-- A value that begins with neither a quote nor a bracket nor a brace is a word or a number. -/
theorem value?_plain {c : Char} (h : Solid c) (hc : c ∉ ['\x22', '[', '\x7b']) (rest : Text) :
    value? (steps + 1) (c :: rest) =
      match afterWord? "null".toList (c :: rest), afterWord? "true".toList (c :: rest),
        afterWord? "false".toList (c :: rest) with
      | some rest, _, _ => some (.null, rest)
      | _, some rest, _ => some (.boolean true, rest)
      | _, _, some rest => some (.boolean false, rest)
      | _, _, _ => number? (c :: rest) := by
  simp only [List.mem_cons, List.not_mem_nil, or_false, not_or] at hc
  rw [value?.eq_def]
  simp only [skipSpace_cons h]
  split
  · next heq => exact absurd (List.cons.inj heq).1 hc.1
  · next heq => exact absurd (List.cons.inj heq).1 hc.2.1
  · next heq => exact absurd (List.cons.inj heq).1 hc.2.2
  · rfl

theorem value?_null (rest : Text) :
    value? (steps + 1) ("null".toList ++ rest) = some (.null, rest) := by
  have hword : "null".toList = ['n', 'u', 'l', 'l'] := rfl
  rw [hword, List.cons_append, value?_plain (by decide) (by decide)]
  simp [afterWord?]

theorem value?_true (rest : Text) :
    value? (steps + 1) ("true".toList ++ rest) = some (.boolean true, rest) := by
  have hword : "true".toList = ['t', 'r', 'u', 'e'] := rfl
  rw [hword, List.cons_append, value?_plain (by decide) (by decide)]
  simp [afterWord?]

theorem value?_false (rest : Text) :
    value? (steps + 1) ("false".toList ++ rest) = some (.boolean false, rest) := by
  have hword : "false".toList = ['f', 'a', 'l', 's', 'e'] := rfl
  rw [hword, List.cons_append, value?_plain (by decide) (by decide)]
  simp [afterWord?]

theorem value?_number {written rest : Text} {mantissa exponent : Int}
    (h : Numeral written mantissa exponent) (hrest : Ends rest) :
    value? (steps + 1) (written ++ rest) = some (.number mantissa exponent, rest) := by
  have hread := number?_append h hrest
  obtain ⟨c, tail, rfl, hdiffers⟩ := h.exists_cons
  have hsolid : Solid c := by
    refine ⟨?_, ?_, ?_, ?_⟩ <;> exact hdiffers _ (by decide) (by decide)
  have hopening : c ∉ ['\x22', '[', '\x7b'] := by
    simp only [List.mem_cons, List.not_mem_nil, or_false, not_or]
    refine ⟨?_, ?_, ?_⟩ <;> exact hdiffers _ (by decide) (by decide)
  have hnull : c ≠ 'n' := hdiffers _ (by decide) (by decide)
  have htrue : c ≠ 't' := hdiffers _ (by decide) (by decide)
  have hfalse : c ≠ 'f' := hdiffers _ (by decide) (by decide)
  rw [← hread, List.cons_append, value?_plain hsolid hopening]
  simp [afterWord?, hnull.symm, htrue.symm, hfalse.symm]

theorem value?_string {written text : Text} (h : Spells written text) (rest : Text) :
    value? (steps + 1) ('\x22' :: (written ++ '\x22' :: rest)) = some (.string text, rest) := by
  simp only [value?, skipSpace_cons (by decide : Solid '\x22'), string?_append h, Option.map_some]

theorem value?_emptyArray {space : Text} (h : Space space) (rest : Text) :
    value? (steps + 1) ('[' :: (space ++ ']' :: rest)) = some (.array [], rest) := by
  simp only [value?, skipSpace_cons (by decide : Solid '['), skipSpace_append h,
    skipSpace_cons (by decide : Solid ']')]

theorem value?_emptyObject {space : Text} (h : Space space) (rest : Text) :
    value? (steps + 1) ('\x7b' :: (space ++ '\x7d' :: rest)) = some (.object [], rest) := by
  simp only [value?, skipSpace_cons (by decide : Solid '\x7b'), skipSpace_append h,
    skipSpace_cons (by decide : Solid '\x7d')]

theorem value?_array {text rest : Text} {elements : List Value}
    (h : elements? steps text = some (elements, rest))
    (hfirst : ∃ c tail, skipSpace text = c :: tail ∧ c ≠ ']') :
    value? (steps + 1) ('[' :: text) = some (.array elements, rest) := by
  obtain ⟨c, tail, hskip, hc⟩ := hfirst
  rw [← elements?_skipSpace, hskip] at h
  simp [value?, skipSpace_cons (by decide : Solid '['), hskip, hc, h]

theorem value?_object {text rest : Text} {members : List (Text × Value)}
    (h : members? steps text = some (members, rest))
    (hfirst : ∃ tail, skipSpace text = '\x22' :: tail) :
    value? (steps + 1) ('\x7b' :: text) = some (.object members, rest) := by
  obtain ⟨tail, hskip⟩ := hfirst
  rw [← members?_skipSpace, hskip] at h
  simp [value?, skipSpace_cons (by decide : Solid '\x7b'), hskip, h]

/-! ## All steps -/

theorem ends_nil : Ends [] := by
  intro c tail heq
  cases heq

theorem ends_cons {c : Char} {rest : Text}
    (h : c.isDigit = false ∧ c ≠ '.' ∧ c ≠ 'e' ∧ c ≠ 'E') : Ends (c :: rest) := by
  rintro c' tail heq
  obtain ⟨rfl, -⟩ := List.cons.inj heq
  exact h

/-- White space does not belong to a number. -/
theorem Space.ends_append {space rest : Text} (h : Space space) (hrest : Ends rest) :
    Ends (space ++ rest) := by
  cases space with
  | nil => exact hrest
  | cons c tail =>
    refine ends_cons ?_
    rcases h c List.mem_cons_self with rfl | rfl | rfl | rfl <;> decide

/-- What a number of steps is enough for. -/
structure Enough (steps : Nat) : Prop where
  value {written rest : Text} {value : Value} (h : Denotes written value)
    (hsteps : written.length ≤ steps) (hrest : Ends rest) :
    value? steps (written ++ rest) = some (value, rest)
  elements {written rest : Text} {elements : List Value} (h : Elements written elements)
    (hsteps : written.length < steps) :
    elements? steps (written ++ ']' :: rest) = some (elements, rest)
  members {written rest : Text} {members : List (Text × Value)} (h : Members written members)
    (hsteps : written.length < steps) :
    members? steps (written ++ '\x7d' :: rest) = some (members, rest)

/-- White space before a value is passed over. -/
theorem Enough.value_after (henough : Enough steps) {space written rest : Text} {value : Value}
    (hspace : Space space) (h : Denotes written value) (hsteps : written.length ≤ steps)
    (hrest : Ends rest) :
    value? steps (space ++ (written ++ rest)) = some (value, rest) := by
  rw [← value?_skipSpace, skipSpace_append hspace, value?_skipSpace]
  exact henough.value h hsteps hrest

theorem Enough.value_succ (henough : Enough steps) {written rest : Text} {value : Value}
    (h : Denotes written value) (hsteps : written.length ≤ steps + 1) (hrest : Ends rest) :
    value? (steps + 1) (written ++ rest) = some (value, rest) := by
  cases h with
  | null => exact value?_null rest
  | isTrue => exact value?_true rest
  | isFalse => exact value?_false rest
  | number h => exact value?_number h hrest
  | string h =>
    rw [List.append_assoc]
    exact value?_string h rest
  | emptyArray h =>
    rw [List.append_assoc]
    exact value?_emptyArray h rest
  | array h =>
    simp only [List.length_append, List.length_cons, List.length_nil] at hsteps
    rw [List.append_assoc]
    exact value?_array (henough.elements h (by omega)) (h.exists_cons _)
  | emptyObject h =>
    rw [List.append_assoc]
    exact value?_emptyObject h rest
  | object h =>
    simp only [List.length_append, List.length_cons, List.length_nil] at hsteps
    rw [List.append_assoc]
    exact value?_object (henough.members h (by omega)) (h.exists_cons _)

theorem Enough.elements_succ (henough : Enough steps) {written rest : Text}
    {elements : List Value} (h : Elements written elements)
    (hsteps : written.length < steps + 1) :
    elements? (steps + 1) (written ++ ']' :: rest) = some (elements, rest) := by
  cases h with
  | last hbefore hvalue hafter =>
    simp only [List.length_append] at hsteps
    have hread := henough.value_after hbefore hvalue (by omega)
      (hafter.ends_append (ends_cons (by decide) : Ends (']' :: rest)))
    simp only [List.append_assoc]
    simp only [elements?, hread, skipSpace_append hafter, skipSpace_cons (by decide : Solid ']')]
  | @more before written after others value more hbefore hvalue hafter hmore =>
    simp only [List.length_append, List.length_cons] at hsteps
    have hread := henough.value_after hbefore hvalue (by omega)
      (hafter.ends_append (ends_cons (by decide) : Ends (',' :: (others ++ ']' :: rest))))
    have hothers : elements? steps (others ++ ']' :: rest) = some (more, rest) :=
      henough.elements hmore (by omega)
    simp only [List.append_assoc, List.cons_append]
    simp only [elements?, hread, skipSpace_append hafter, skipSpace_cons (by decide : Solid ','),
      hothers, Option.map_some]

/-- A member is read up to what ends it. -/
theorem Enough.member_succ (henough : Enough steps) {written key rest : Text} {value : Value}
    {mark : Char} (h : Member written key value) (hsteps : written.length < steps + 1)
    (hmark : mark = ',' ∨ mark = '\x7d') :
    members? (steps + 1) (written ++ mark :: rest) =
      if mark = '\x7d' then some ([(key, value)], rest)
      else (members? steps rest).map fun (read, rest) => ((key, value) :: read, rest) := by
  cases h with
  | @mk before spelled between start written after _ _ hbefore hkey hbetween hstart hvalue hafter =>
    simp only [List.length_append, List.length_cons] at hsteps
    have hends : Ends (mark :: rest) := by
      refine ends_cons ?_
      rcases hmark with rfl | rfl <;> decide
    have hread := henough.value_after hstart hvalue (by omega) (hafter.ends_append hends)
    have hsolid : Solid mark := by
      rcases hmark with rfl | rfl <;> decide
    simp only [List.append_assoc, List.cons_append]
    simp only [members?, skipSpace_append hbefore, skipSpace_cons (by decide : Solid '\x22'),
      string?_append hkey, skipSpace_append hbetween, skipSpace_cons (by decide : Solid ':'), hread,
      skipSpace_append hafter, skipSpace_cons hsolid]
    rcases hmark with rfl | rfl <;> rfl

theorem Enough.members_succ (henough : Enough steps) {written rest : Text}
    {members : List (Text × Value)} (h : Members written members)
    (hsteps : written.length < steps + 1) :
    members? (steps + 1) (written ++ '\x7d' :: rest) = some (members, rest) := by
  cases h with
  | last hmember => rw [henough.member_succ hmember hsteps (.inr rfl), if_pos rfl]
  | @more written others key value more hmember hmore =>
    simp only [List.length_append, List.length_cons] at hsteps
    have hothers : members? steps (others ++ '\x7d' :: rest) = some (more, rest) :=
      henough.members hmore (by omega)
    rw [List.append_assoc, List.cons_append, henough.member_succ hmember (by omega) (.inl rfl),
      if_neg (by decide), hothers, Option.map_some]

/-- **As many steps as there are characters are enough.** -/
theorem enough (steps : Nat) : Enough steps := by
  induction steps with
  | zero =>
    constructor
    · intro written rest value h hsteps _
      obtain ⟨c, tail, rfl, -⟩ := h.exists_cons
      simp at hsteps
    · intro written rest elements h hsteps
      exact absurd hsteps (Nat.not_lt_zero _)
    · intro written rest members h hsteps
      exact absurd hsteps (Nat.not_lt_zero _)
  | succ steps ih =>
    exact ⟨ih.value_succ, ih.elements_succ, ih.members_succ⟩

/-- **The reader reads what the grammar derives.** -/
theorem parse?_of_document {text : Text} {value : Value} (h : Document text value) :
    parse? text = some value := by
  obtain ⟨before, written, after, hbefore, hvalue, hafter, rfl⟩ := h
  have hends : Ends after := by
    simpa using hafter.ends_append ends_nil
  have hread := (enough (2 * (before ++ written ++ after).length + 1)).value_after hbefore hvalue
    (by simp only [List.length_append]; omega) hends
  rw [← List.append_assoc] at hread
  have hblank : skipSpace after = [] := by
    simpa [skipSpace] using skipSpace_append hafter []
  simp only [parse?, hread, hblank, List.isEmpty_nil, if_true]

/-- **A text is written for one value at most.** -/
theorem Denotes.unique {written : Text} {first second : Value} (hfirst : Denotes written first)
    (hsecond : Denotes written second) : first = second := by
  have hread {value : Value} (h : Denotes written value) : value? written.length written =
      some (value, []) := by
    simpa using (enough written.length).value h (Nat.le_refl _) ends_nil
  have hsame := (hread hfirst).symm.trans (hread hsecond)
  exact (Prod.mk.inj (Option.some.inj hsame)).1

end Semicolon.Json
