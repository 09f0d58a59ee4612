import Mathlib.Data.List.Basic
import Semicolon.Text.Utf8

/-!
# Encoding and decoding are inverse

A byte string is decoded exactly if it is the encoding of a text, and to that text.  Both
directions go through the well-formed sequences of one character: the encoding of a character is
one, each of them is the encoding of its character, and the decoder takes them one at a time.

## Main statements

* `Utf8.sequence_iff`: the one well-formed sequence of a character is its encoding.
* `Utf8.decodeFrom_append`: one step of the decoder.
* `Utf8.decode_eq_ok_iff`: what is decoded, and to what.
-/

namespace Semicolon.Utf8

/-! ## Bytes and their limits -/

theorem between_iff {low byte high : UInt8} :
    (decide (low ≤ byte) && decide (byte ≤ high)) = true ↔
      low.toNat ≤ byte.toNat ∧ byte.toNat ≤ high.toNat := by
  simp [UInt8.le_iff_toNat_le]

theorem isContinuation_iff {byte : UInt8} :
    isContinuation byte = true ↔ 0x80 ≤ byte.toNat ∧ byte.toNat ≤ 0xbf :=
  between_iff

/-- A second byte is a continuation byte, with a higher lower limit after one first byte and a
lower upper limit after another. -/
theorem second_iff {first second low high least most : UInt8} (hne : low ≠ high)
    (hleast : 0x80 ≤ least.toNat) (hmost : most.toNat ≤ 0xbf) :
    (if first = low then decide (least ≤ second) && decide (second ≤ 0xbf)
      else if first = high then decide (0x80 ≤ second) && decide (second ≤ most)
      else isContinuation second) = true ↔
      0x80 ≤ second.toNat ∧ second.toNat ≤ 0xbf ∧
        (first.toNat = low.toNat → least.toNat ≤ second.toNat) ∧
        (first.toNat = high.toNat → second.toNat ≤ most.toNat) := by
  have hne' : low.toNat ≠ high.toNat := mt UInt8.toNat_inj.1 hne
  by_cases hlow : first = low
  · rw [if_pos hlow, between_iff, hlow]
    simp only [UInt8.reduceToNat, true_imp_iff]
    omega
  · rw [if_neg hlow]
    by_cases hhigh : first = high
    · rw [if_pos hhigh, between_iff, hhigh]
      simp only [UInt8.reduceToNat, true_imp_iff]
      omega
    · rw [if_neg hhigh, isContinuation_iff]
      rw [← UInt8.toNat_inj] at hlow hhigh
      omega

theorem isSecondOfThree_iff {first second : UInt8} :
    isSecondOfThree first second = true ↔
      0x80 ≤ second.toNat ∧ second.toNat ≤ 0xbf ∧ (first.toNat = 0xe0 → 0xa0 ≤ second.toNat) ∧
        (first.toNat = 0xed → second.toNat ≤ 0x9f) :=
  second_iff (by decide) (by decide) (by decide)

theorem isSecondOfFour_iff {first second : UInt8} :
    isSecondOfFour first second = true ↔
      0x80 ≤ second.toNat ∧ second.toNat ≤ 0xbf ∧ (first.toNat = 0xf0 → 0x90 ≤ second.toNat) ∧
        (first.toNat = 0xf4 → second.toNat ≤ 0x8f) :=
  second_iff (by decide) (by decide) (by decide)

/-! ## Code points -/

/-- The number whose leading bits are `lead` and whose other bits are in continuation bytes. -/
def codePoint (lead : Nat) (continuation : List UInt8) : Nat :=
  continuation.foldl (fun bits byte => bits * 64 + (byte.toNat - 0x80)) lead

@[simp] theorem codePoint_nil (lead : Nat) : codePoint lead [] = lead := rfl

@[simp] theorem codePoint_cons (lead : Nat) (byte : UInt8) (rest : List UInt8) :
    codePoint lead (byte :: rest) = codePoint (lead * 64 + (byte.toNat - 0x80)) rest := by
  simp only [codePoint, List.foldl_cons]

theorem toNat_ofNat {code : Nat} (h : code.isValidChar) : (Char.ofNat code).toNat = code := by
  rw [Char.ofNat, dif_pos h]
  rfl

theorem assemble_eq {c : Char} {lead : Nat} {continuation : List UInt8}
    (h : c.toNat = codePoint lead continuation) : assemble lead continuation = c := by
  rw [← Char.ofNat_toNat c, h]
  rfl

theorem toNat_assemble {lead : Nat} {continuation : List UInt8}
    (h : (codePoint lead continuation).isValidChar) :
    (assemble lead continuation).toNat = codePoint lead continuation :=
  toNat_ofNat h

/-! ## The sequence of one character -/

/-- The bytes are a well-formed sequence for the character. -/
inductive Sequence (c : Char) : Bytes → Prop
  | one {first : UInt8} (hfirst : first.toNat < 0x80) (hcode : c.toNat = first.toNat) :
    Sequence c [first]
  | two {first second : UInt8} (hfirst : 0xc2 ≤ first.toNat ∧ first.toNat ≤ 0xdf)
    (hsecond : isContinuation second = true)
    (hcode : c.toNat = codePoint (first.toNat - 0xc0) [second]) : Sequence c [first, second]
  | three {first second third : UInt8} (hfirst : 0xe0 ≤ first.toNat ∧ first.toNat ≤ 0xef)
    (hsecond : isSecondOfThree first second = true) (hthird : isContinuation third = true)
    (hcode : c.toNat = codePoint (first.toNat - 0xe0) [second, third]) :
    Sequence c [first, second, third]
  | four {first second third fourth : UInt8} (hfirst : 0xf0 ≤ first.toNat ∧ first.toNat ≤ 0xf4)
    (hsecond : isSecondOfFour first second = true) (hthird : isContinuation third = true)
    (hfourth : isContinuation fourth = true)
    (hcode : c.toNat = codePoint (first.toNat - 0xf0) [second, third, fourth]) :
    Sequence c [first, second, third, fourth]

theorem utf8EncodeChar_eq (c : Char) :
    String.utf8EncodeChar c =
      if c.toNat ≤ 0x7f then [.ofNat c.toNat]
      else if c.toNat ≤ 0x7ff then
        [.ofNat (c.toNat / 64 % 32 + 0xc0), .ofNat (c.toNat % 64 + 0x80)]
      else if c.toNat ≤ 0xffff then
        [.ofNat (c.toNat / 4096 % 16 + 0xe0), .ofNat (c.toNat / 64 % 64 + 0x80),
          .ofNat (c.toNat % 64 + 0x80)]
      else
        [.ofNat (c.toNat / 262144 % 8 + 0xf0), .ofNat (c.toNat / 4096 % 64 + 0x80),
          .ofNat (c.toNat / 64 % 64 + 0x80), .ofNat (c.toNat % 64 + 0x80)] := rfl

theorem ofNat_eq (byte : UInt8) {value : Nat} (h : byte.toNat = value) : .ofNat value = byte := by
  rw [← h, UInt8.ofNat_toNat]

theorem toNat_byte (value : Nat) (h : value < 256) : (UInt8.ofNat value).toNat = value := by
  rw [UInt8.toNat_ofNat']
  omega

/-- A well-formed sequence is the encoding of its character. -/
theorem Sequence.encode_eq {c : Char} {bytes : Bytes} (h : Sequence c bytes) :
    String.utf8EncodeChar c = bytes := by
  rw [utf8EncodeChar_eq]
  cases h with
  | @one first hfirst hcode => rw [if_pos (by omega), ofNat_eq first hcode.symm]
  | @two first second hfirst hsecond hcode =>
    rw [isContinuation_iff] at hsecond
    simp only [codePoint_cons, codePoint_nil] at hcode
    rw [if_neg (by omega), if_pos (by omega), ofNat_eq first (by omega),
      ofNat_eq second (by omega)]
  | @three first second third hfirst hsecond hthird hcode =>
    rw [isSecondOfThree_iff] at hsecond
    rw [isContinuation_iff] at hthird
    simp only [codePoint_cons, codePoint_nil] at hcode
    rw [if_neg (by omega), if_neg (by omega), if_pos (by omega), ofNat_eq first (by omega),
      ofNat_eq second (by omega), ofNat_eq third (by omega)]
  | @four first second third fourth hfirst hsecond hthird hfourth hcode =>
    rw [isSecondOfFour_iff] at hsecond
    rw [isContinuation_iff] at hthird hfourth
    simp only [codePoint_cons, codePoint_nil] at hcode
    rw [if_neg (by omega), if_neg (by omega), if_neg (by omega), ofNat_eq first (by omega),
      ofNat_eq second (by omega), ofNat_eq third (by omega), ofNat_eq fourth (by omega)]

/-- The encoding of a character is well-formed. -/
theorem sequence_encode (c : Char) : Sequence c (String.utf8EncodeChar c) := by
  have hvalid : c.toNat < 0xd800 ∨ 0xdfff < c.toNat ∧ c.toNat < 0x110000 := c.valid
  have hlast := toNat_byte (c.toNat % 64 + 0x80) (by omega)
  have hbefore := toNat_byte (c.toNat / 64 % 64 + 0x80) (by omega)
  rw [utf8EncodeChar_eq]
  split
  · have hfirst := toNat_byte c.toNat (by omega)
    exact .one (by omega) hfirst.symm
  split
  · have hfirst := toNat_byte (c.toNat / 64 % 32 + 0xc0) (by omega)
    refine .two (by omega) (isContinuation_iff.2 (by omega)) ?_
    simp only [codePoint_cons, codePoint_nil]
    omega
  split
  · have hfirst := toNat_byte (c.toNat / 4096 % 16 + 0xe0) (by omega)
    refine .three (by omega) (isSecondOfThree_iff.2 (by omega)) (isContinuation_iff.2 (by omega)) ?_
    simp only [codePoint_cons, codePoint_nil]
    omega
  · have hfirst := toNat_byte (c.toNat / 262144 % 8 + 0xf0) (by omega)
    have hsecond := toNat_byte (c.toNat / 4096 % 64 + 0x80) (by omega)
    refine .four (by omega) (isSecondOfFour_iff.2 (by omega)) (isContinuation_iff.2 (by omega))
      (isContinuation_iff.2 (by omega)) ?_
    simp only [codePoint_cons, codePoint_nil]
    omega

/-- **A character has one well-formed sequence, its encoding.** -/
theorem sequence_iff {c : Char} {bytes : Bytes} :
    Sequence c bytes ↔ bytes = String.utf8EncodeChar c := by
  constructor
  · intro h
    exact h.encode_eq.symm
  · rintro rfl
    exact sequence_encode c

/-- Two bytes within their limits are the sequence of a character. -/
theorem sequence_two {first second : UInt8} (hfirst : 0xc2 ≤ first.toNat ∧ first.toNat ≤ 0xdf)
    (hsecond : isContinuation second = true) :
    Sequence (assemble (first.toNat - 0xc0) [second]) [first, second] := by
  have hlimits := isContinuation_iff.1 hsecond
  refine .two hfirst hsecond (toNat_assemble ?_)
  simp only [codePoint_cons, codePoint_nil, Nat.isValidChar]
  omega

/-- Three bytes within their limits are the sequence of a character, and of no surrogate. -/
theorem sequence_three {first second third : UInt8}
    (hfirst : 0xe0 ≤ first.toNat ∧ first.toNat ≤ 0xef)
    (hsecond : isSecondOfThree first second = true) (hthird : isContinuation third = true) :
    Sequence (assemble (first.toNat - 0xe0) [second, third]) [first, second, third] := by
  have hlimits := isSecondOfThree_iff.1 hsecond
  have hlimits' := isContinuation_iff.1 hthird
  refine .three hfirst hsecond hthird (toNat_assemble ?_)
  simp only [codePoint_cons, codePoint_nil, Nat.isValidChar]
  omega

/-- Four bytes within their limits are the sequence of a character, and of no number too high. -/
theorem sequence_four {first second third fourth : UInt8}
    (hfirst : 0xf0 ≤ first.toNat ∧ first.toNat ≤ 0xf4)
    (hsecond : isSecondOfFour first second = true) (hthird : isContinuation third = true)
    (hfourth : isContinuation fourth = true) :
    Sequence (assemble (first.toNat - 0xf0) [second, third, fourth])
      [first, second, third, fourth] := by
  have hlimits := isSecondOfFour_iff.1 hsecond
  have hlimits' := isContinuation_iff.1 hthird
  have hlimits'' := isContinuation_iff.1 hfourth
  refine .four hfirst hsecond hthird hfourth (toNat_assemble ?_)
  simp only [codePoint_cons, codePoint_nil, Nat.isValidChar]
  omega

/-! ## Whole texts -/

@[simp] theorem encode_nil : encode [] = [] := rfl

theorem encode_cons (c : Char) (rest : Text) :
    encode (c :: rest) = String.utf8EncodeChar c ++ encode rest := rfl

@[simp] theorem encode_append (first second : Text) :
    encode (first ++ second) = encode first ++ encode second :=
  List.flatMap_append

/-- **One step of the decoder**: it takes a well-formed sequence off the front. -/
theorem decodeFrom_append {c : Char} {bytes : Bytes} (h : Sequence c bytes) (index : Nat)
    (read : Text) (rest : Bytes) :
    decodeFrom index read (bytes ++ rest) =
      decodeFrom (index + bytes.length) (c :: read) rest := by
  cases h with
  | one hfirst hcode =>
    rw [decodeFrom.eq_def]
    simp only [List.cons_append, List.nil_append, UInt8.lt_iff_toNat_lt, UInt8.reduceToNat]
    rw [if_pos hfirst, ← hcode, Char.ofNat_toNat]
    rfl
  | two hfirst hsecond hcode =>
    rw [decodeFrom.eq_def]
    simp only [List.cons_append, List.nil_append, UInt8.lt_iff_toNat_lt, between_iff,
      UInt8.reduceToNat]
    rw [if_neg (by omega), if_pos hfirst, if_pos hsecond, assemble_eq hcode]
    rfl
  | three hfirst hsecond hthird hcode =>
    rw [decodeFrom.eq_def]
    simp only [List.cons_append, List.nil_append, UInt8.lt_iff_toNat_lt, between_iff,
      UInt8.reduceToNat]
    rw [if_neg (by omega), if_neg (by omega), if_pos hfirst, if_pos hsecond, if_pos hthird,
      assemble_eq hcode]
    rfl
  | four hfirst hsecond hthird hfourth hcode =>
    rw [decodeFrom.eq_def]
    simp only [List.cons_append, List.nil_append, UInt8.lt_iff_toNat_lt, between_iff,
      UInt8.reduceToNat]
    rw [if_neg (by omega), if_neg (by omega), if_neg (by omega), if_pos hfirst, if_pos hsecond,
      if_pos hthird, if_pos hfourth, assemble_eq hcode]
    rfl

/-- **The decoder takes encoded text off the front**, and goes on behind it. -/
theorem decodeFrom_encode_append (index : Nat) (read text : Text) (rest : Bytes) :
    decodeFrom index read (encode text ++ rest) =
      decodeFrom (index + (encode text).length) (text.reverse ++ read) rest := by
  induction text generalizing index read with
  | nil => rfl
  | cons c more ih =>
    rw [encode_cons, List.append_assoc, decodeFrom_append (sequence_encode c), ih,
      List.length_append, ← Nat.add_assoc]
    simp

/-- Encoded text is decoded to the characters read before it and its own. -/
theorem decodeFrom_encode (index : Nat) (read text : Text) :
    decodeFrom index read (encode text) = .ok (read.reverse ++ text) := by
  rw [← List.append_nil (encode text), decodeFrom_encode_append, decodeFrom]
  simp

/-- A sequence before encoded text is encoded text. -/
theorem Sequence.exists_encode {c : Char} {bytes rest : Bytes} {read text : Text}
    (h : Sequence c bytes)
    (hrest : ∃ tail, text = (c :: read).reverse ++ tail ∧ rest = encode tail) :
    ∃ tail, text = read.reverse ++ tail ∧ bytes ++ rest = encode tail := by
  obtain ⟨tail, rfl, rfl⟩ := hrest
  exact ⟨c :: tail, by simp, by rw [encode_cons, h.encode_eq]⟩

/-- What is decoded is encoded text. -/
theorem exists_encode_of_decodeFrom {index : Nat} {read text : Text} {bytes : Bytes}
    (h : decodeFrom index read bytes = .ok text) :
    ∃ tail, text = read.reverse ++ tail ∧ bytes = encode tail := by
  fun_induction decodeFrom index read bytes with
  | case1 index read => exact ⟨[], by simpa using h.symm, rfl⟩
  | case2 index read first rest hfirst ih =>
    simp only [UInt8.lt_iff_toNat_lt, UInt8.reduceToNat] at hfirst
    exact (Sequence.one hfirst (toNat_ofNat (.inl (by omega)))).exists_encode (ih h)
  | case4 index read first _ hfirst second rest hsecond ih =>
    simp only [between_iff, UInt8.reduceToNat] at hfirst
    exact (sequence_two hfirst hsecond).exists_encode (ih h)
  | case8 index read first _ _ hfirst second hsecond third rest hthird ih =>
    simp only [between_iff, UInt8.reduceToNat] at hfirst
    exact (sequence_three hfirst hsecond hthird).exists_encode (ih h)
  | case14 index read first _ _ _ hfirst second hsecond third hthird fourth rest hfourth ih =>
    simp only [between_iff, UInt8.reduceToNat] at hfirst
    exact (sequence_four hfirst hsecond hthird hfourth).exists_encode (ih h)
  | _ => exact absurd h (by simp)

/-- **Bytes are decoded to the text that they are the encoding of**, and to no other. -/
theorem decode_eq_ok_iff {bytes : Bytes} {text : Text} :
    decode bytes = .ok text ↔ bytes = encode text := by
  constructor
  · intro h
    obtain ⟨tail, rfl, rfl⟩ := exists_encode_of_decodeFrom h
    rfl
  · rintro rfl
    exact decodeFrom_encode 0 [] text

@[simp] theorem decode_encode (text : Text) : decode (encode text) = .ok text :=
  decode_eq_ok_iff.2 rfl

theorem encode_injective : Function.Injective encode := by
  intro first second heq
  have hdecode := decode_encode first
  rw [heq, decode_encode] at hdecode
  exact (Except.ok.inj hdecode).symm

end Semicolon.Utf8
