import Mathlib.Order.Bounds.Basic
import Semicolon.Proofs.Utf8

/-!
# What is wrong with bytes that are no text

The decoder takes one sequence after the other off the front.  Where it stops, what is left is not
the beginning of any text, or it is, and ends too early.  Both can be said without the decoder: the
index of a defect is the length of the longest well-formed prefix, the bytes are incomplete if more
bytes could make them well-formed, and otherwise the length of the defect is how far behind the
index they could have been continued.

## Main definitions

* `Utf8.Begins`: more bytes can make the bytes well-formed.
* `Utf8.Diagnoses`: what a defect says about bytes.

## Main statements

* `Utf8.limits_of_begins`: the bytes that can follow a first byte.
* `Utf8.exists_stops_of_decodeFrom`: where the decoder stops.
* `Utf8.decode_eq_error_iff`: bytes are refused with the one defect that they have.
-/

namespace Semicolon.Utf8

/-! ## Beginnings of texts -/

/-- The bytes begin the encoding of a text: more bytes can make them well-formed. -/
def Begins (bytes : Bytes) : Prop :=
  ∃ text, bytes <+: encode text

theorem begins_nil : Begins [] :=
  ⟨[], List.nil_prefix⟩

theorem Begins.shorten {front bytes : Bytes} (h : Begins bytes) (hfront : front <+: bytes) :
    Begins front := by
  obtain ⟨text, hbytes⟩ := h
  exact ⟨text, hfront.trans hbytes⟩

theorem Sequence.begins {c : Char} {front bytes : Bytes} (h : Sequence c bytes)
    (hfront : front <+: bytes) : Begins front := by
  refine ⟨[c], ?_⟩
  rw [encode_cons, encode_nil, List.append_nil, h.encode_eq]
  exact hfront

/-- Encoded text at the front is of no account for what can follow. -/
theorem begins_encode_append_iff {text : Text} {rest : Bytes} :
    Begins (encode text ++ rest) ↔ Begins rest := by
  constructor
  · rintro ⟨whole, more, hwhole⟩
    have hdecode := decodeFrom_encode 0 [] whole
    rw [← hwhole, List.append_assoc, decodeFrom_encode_append] at hdecode
    obtain ⟨tail, -, htail⟩ := exists_encode_of_decodeFrom hdecode
    exact ⟨tail, more, htail⟩
  · rintro ⟨tail, more, htail⟩
    exact ⟨text ++ tail, more, by rw [encode_append, ← htail, List.append_assoc]⟩

/-- **The bytes that can follow a first byte**, as far as the sequence of a character reaches. -/
theorem limits_of_begins {first : UInt8} {more : Bytes} (h : Begins (first :: more)) :
    first.toNat < 0x80 ∨
    ((0xc2 ≤ first.toNat ∧ first.toNat ≤ 0xdf) ∧
      ∀ second ∈ more[0]?, isContinuation second = true) ∨
    ((0xe0 ≤ first.toNat ∧ first.toNat ≤ 0xef) ∧
      (∀ second ∈ more[0]?, isSecondOfThree first second = true) ∧
      ∀ third ∈ more[1]?, isContinuation third = true) ∨
    ((0xf0 ≤ first.toNat ∧ first.toNat ≤ 0xf4) ∧
      (∀ second ∈ more[0]?, isSecondOfFour first second = true) ∧
      (∀ third ∈ more[1]?, isContinuation third = true) ∧
      ∀ fourth ∈ more[2]?, isContinuation fourth = true) := by
  obtain ⟨text, hprefix⟩ := h
  cases text with
  | nil => simp at hprefix
  | cons c rest =>
    have hsequence := sequence_encode c
    rw [encode_cons] at hprefix
    generalize String.utf8EncodeChar c = bytes at hsequence hprefix
    -- A byte that is there is the one that the sequence has in its place.
    have same {tail : Bytes} (hmore : more <+: tail) {place : Nat} {byte : UInt8}
        (hbyte : byte ∈ more[place]?) : tail[place]? = some byte := by
      obtain ⟨others, rfl⟩ := hmore
      rw [List.getElem?_append_left (List.getElem?_eq_some_iff.1 hbyte).1]
      exact hbyte
    cases hsequence with
    | one hfirst hcode =>
      obtain ⟨rfl, -⟩ := List.cons_prefix_cons.1 hprefix
      exact .inl hfirst
    | two hfirst hsecond hcode =>
      obtain ⟨rfl, hmore⟩ := List.cons_prefix_cons.1 hprefix
      refine .inr (.inl ⟨hfirst, ?_⟩)
      intro second hmem
      obtain rfl := Option.some.inj (same hmore hmem)
      exact hsecond
    | three hfirst hsecond hthird hcode =>
      obtain ⟨rfl, hmore⟩ := List.cons_prefix_cons.1 hprefix
      refine .inr (.inr (.inl ⟨hfirst, ?_, ?_⟩))
      · intro second hmem
        obtain rfl := Option.some.inj (same hmore hmem)
        exact hsecond
      · intro third hmem
        obtain rfl := Option.some.inj (same hmore hmem)
        exact hthird
    | four hfirst hsecond hthird hfourth hcode =>
      obtain ⟨rfl, hmore⟩ := List.cons_prefix_cons.1 hprefix
      refine .inr (.inr (.inr ⟨hfirst, ?_, ?_, ?_⟩))
      · intro second hmem
        obtain rfl := Option.some.inj (same hmore hmem)
        exact hsecond
      · intro third hmem
        obtain rfl := Option.some.inj (same hmore hmem)
        exact hthird
      · intro fourth hmem
        obtain rfl := Option.some.inj (same hmore hmem)
        exact hfourth

/-- Every byte that announces a longer sequence begins one. -/
theorem begins_lead {first : UInt8} (h : 0xc2 ≤ first.toNat ∧ first.toNat ≤ 0xf4) :
    Begins [first] := by
  have hcontinues : isContinuation 0x80 = true := by decide
  by_cases htwo : first.toNat ≤ 0xdf
  · exact (sequence_two ⟨h.1, htwo⟩ hcontinues).begins ⟨[0x80], rfl⟩
  by_cases hthree : first.toNat ≤ 0xef
  · obtain ⟨second, hsecond⟩ : ∃ second, isSecondOfThree first second = true := by
      by_cases hsurrogate : first.toNat = 0xed
      · exact ⟨0x80, isSecondOfThree_iff.2 (by simp [hsurrogate])⟩
      · exact ⟨0xa0, isSecondOfThree_iff.2 (by simp [hsurrogate])⟩
    exact (sequence_three ⟨by omega, hthree⟩ hsecond hcontinues).begins ⟨[second, 0x80], rfl⟩
  · obtain ⟨second, hsecond⟩ : ∃ second, isSecondOfFour first second = true := by
      by_cases hlast : first.toNat = 0xf4
      · exact ⟨0x80, isSecondOfFour_iff.2 (by simp [hlast])⟩
      · exact ⟨0x90, isSecondOfFour_iff.2 (by simp [hlast])⟩
    exact (sequence_four ⟨by omega, h.2⟩ hsecond hcontinues hcontinues).begins
      ⟨[second, 0x80, 0x80], rfl⟩

theorem begins_three {first second : UInt8} (hfirst : 0xe0 ≤ first.toNat ∧ first.toNat ≤ 0xef)
    (hsecond : isSecondOfThree first second = true) : Begins [first, second] :=
  (sequence_three hfirst hsecond (by decide : isContinuation 0x80 = true)).begins ⟨[0x80], rfl⟩

theorem begins_four {first second third : UInt8}
    (hfirst : 0xf0 ≤ first.toNat ∧ first.toNat ≤ 0xf4)
    (hsecond : isSecondOfFour first second = true) (hthird : isContinuation third = true) :
    Begins [first, second, third] :=
  (sequence_four hfirst hsecond hthird (by decide : isContinuation 0x80 = true)).begins
    ⟨[0x80], rfl⟩

/-! ## Where the decoder stops -/

/-- No character stands at the front of the bytes, for the reason that the defect gives. -/
inductive Stops (index : Nat) : Bytes → Defect → Prop
  /-- The bytes end inside of a character. -/
  | incomplete {front : Bytes} (hne : front ≠ []) (hbegins : Begins front) :
    Stops index front (.incomplete index)
  /-- A byte cannot come next.  If it is the first, it is itself the defect. -/
  | invalid {front rest : Bytes} {next : UInt8} (hbegins : Begins front)
    (hnext : ¬ Begins (front ++ [next])) :
    Stops index (front ++ next :: rest) (.invalid (max 1 front.length) index)

/-- A sequence in front does not change where the decoder stops. -/
theorem Sequence.exists_stops {c : Char} {bytes rest : Bytes} {index : Nat} {defect : Defect}
    (h : Sequence c bytes)
    (hrest : ∃ text left, rest = encode text ++ left ∧
      Stops (index + bytes.length + (encode text).length) left defect) :
    ∃ text left, bytes ++ rest = encode text ++ left ∧
      Stops (index + (encode text).length) left defect := by
  obtain ⟨text, left, rfl, hstops⟩ := hrest
  have hlength : (encode (c :: text)).length = bytes.length + (encode text).length := by
    rw [encode_cons, h.encode_eq, List.length_append]
  refine ⟨c :: text, left, by rw [encode_cons, h.encode_eq, List.append_assoc], ?_⟩
  rw [hlength, ← Nat.add_assoc]
  exact hstops

/-- **A decoder that fails has taken encoded text off the front and stopped behind it.** -/
theorem exists_stops_of_decodeFrom {index : Nat} {read : Text} {bytes : Bytes} {defect : Defect}
    (h : decodeFrom index read bytes = .error defect) :
    ∃ text left, bytes = encode text ++ left ∧
      Stops (index + (encode text).length) left defect := by
  have here {bytes : Bytes} {index : Nat} {found : Defect}
      (hfound : (.error found : Except Defect Text) = .error defect)
      (hstops : Stops index bytes found) :
      ∃ text left, bytes = encode text ++ left ∧
        Stops (index + (encode text).length) left defect := by
    obtain rfl := Except.error.inj hfound
    exact ⟨[], bytes, rfl, hstops⟩
  fun_induction decodeFrom index read bytes with
  | case1 index read => exact absurd h (by simp)
  | case2 index read first rest hfirst ih =>
    simp only [UInt8.lt_iff_toNat_lt, UInt8.reduceToNat] at hfirst
    exact (Sequence.one hfirst (toNat_ofNat (.inl (by omega)))).exists_stops (ih h)
  | case3 index read first _ hfirst =>
    simp only [between_iff, UInt8.reduceToNat] at hfirst
    exact here h (.incomplete (by simp) (begins_lead (by omega)))
  | case4 index read first _ hfirst second rest hsecond ih =>
    simp only [between_iff, UInt8.reduceToNat] at hfirst
    exact (sequence_two hfirst hsecond).exists_stops (ih h)
  | case5 index read first _ hfirst second rest hsecond =>
    simp only [between_iff, UInt8.reduceToNat] at hfirst
    refine here h (.invalid (begins_lead (by omega) : Begins [first]) ?_)
    intro (hnext : Begins [first, second])
    have hlimits := limits_of_begins hnext
    grind
  | case6 index read first _ _ hfirst =>
    simp only [between_iff, UInt8.reduceToNat] at hfirst
    exact here h (.incomplete (by simp) (begins_lead (by omega)))
  | case7 index read first _ _ hfirst second hsecond =>
    simp only [between_iff, UInt8.reduceToNat] at hfirst
    exact here h (.incomplete (by simp) (begins_three hfirst hsecond))
  | case8 index read first _ _ hfirst second hsecond third rest hthird ih =>
    simp only [between_iff, UInt8.reduceToNat] at hfirst
    exact (sequence_three hfirst hsecond hthird).exists_stops (ih h)
  | case9 index read first _ _ hfirst second hsecond third rest hthird =>
    simp only [between_iff, UInt8.reduceToNat] at hfirst
    refine here h (.invalid (begins_three hfirst hsecond) ?_)
    intro (hnext : Begins [first, second, third])
    have hlimits := limits_of_begins hnext
    grind
  | case10 index read first _ _ hfirst second rest hsecond =>
    simp only [between_iff, UInt8.reduceToNat] at hfirst
    refine here h (.invalid (begins_lead (by omega) : Begins [first]) ?_)
    intro (hnext : Begins [first, second])
    have hlimits := limits_of_begins hnext
    grind
  | case11 index read first _ _ _ hfirst =>
    simp only [between_iff, UInt8.reduceToNat] at hfirst
    exact here h (.incomplete (by simp) (begins_lead (by omega)))
  | case12 index read first _ _ _ hfirst second hsecond =>
    simp only [between_iff, UInt8.reduceToNat] at hfirst
    have hcontinues : isContinuation 0x80 = true := by decide
    exact here h (.incomplete (by simp)
      ((begins_four hfirst hsecond hcontinues).shorten ⟨[0x80], rfl⟩))
  | case13 index read first _ _ _ hfirst second hsecond third hthird =>
    simp only [between_iff, UInt8.reduceToNat] at hfirst
    exact here h (.incomplete (by simp) (begins_four hfirst hsecond hthird))
  | case14 index read first _ _ _ hfirst second hsecond third hthird fourth rest hfourth ih =>
    simp only [between_iff, UInt8.reduceToNat] at hfirst
    exact (sequence_four hfirst hsecond hthird hfourth).exists_stops (ih h)
  | case15 index read first _ _ _ hfirst second hsecond third hthird fourth rest hfourth =>
    simp only [between_iff, UInt8.reduceToNat] at hfirst
    refine here h (.invalid (begins_four hfirst hsecond hthird) ?_)
    intro (hnext : Begins [first, second, third, fourth])
    have hlimits := limits_of_begins hnext
    grind
  | case16 index read first _ _ _ hfirst second hsecond third rest hthird =>
    simp only [between_iff, UInt8.reduceToNat] at hfirst
    have hcontinues : isContinuation 0x80 = true := by decide
    have hbegins : Begins [first, second] :=
      (begins_four hfirst hsecond hcontinues).shorten ⟨[0x80], rfl⟩
    refine here h (.invalid hbegins ?_)
    intro (hnext : Begins [first, second, third])
    have hlimits := limits_of_begins hnext
    grind
  | case17 index read first _ _ _ hfirst second rest hsecond =>
    simp only [between_iff, UInt8.reduceToNat] at hfirst
    refine here h (.invalid (begins_lead (by omega) : Begins [first]) ?_)
    intro (hnext : Begins [first, second])
    have hlimits := limits_of_begins hnext
    grind
  | case18 index read first rest hone htwo hthree hfour =>
    simp only [UInt8.lt_iff_toNat_lt, between_iff, UInt8.reduceToNat] at hone htwo hthree hfour
    refine here h (.invalid begins_nil ?_)
    intro (hnext : Begins [first])
    have hlimits := limits_of_begins hnext
    grind

theorem Stops.index_eq {index : Nat} {bytes : Bytes} {defect : Defect}
    (h : Stops index bytes defect) : defect.index = index := by
  cases h <;> rfl

/-! ## Diagnoses -/

/-- The lengths of the prefixes that are encoded text. -/
def wellFormedLengths (bytes : Bytes) : Set Nat :=
  {length | ∃ text, encode text <+: bytes ∧ (encode text).length = length}

/-- How far the bytes begin a text.  What lies beyond their end is all of them. -/
def beginningLengths (bytes : Bytes) : Set Nat :=
  {length | Begins (bytes.take length)}

/-- What a defect says about bytes.  The index is the length of the longest well-formed prefix. -/
inductive Diagnoses (bytes : Bytes) : Defect → Prop
  /-- There are more bytes than the well-formed ones, but all of them begin a text. -/
  | incomplete {index : Nat} (hindex : IsGreatest (wellFormedLengths bytes) index)
    (hmore : index < bytes.length) (hbegins : Begins bytes) : Diagnoses bytes (.incomplete index)
  /-- The bytes begin a text up to `reach` only.  The defect has those behind the well-formed ones,
  or the first byte there if it begins nothing. -/
  | invalid {index reach : Nat} (hindex : IsGreatest (wellFormedLengths bytes) index)
    (hreach : IsGreatest (beginningLengths bytes) reach) :
    Diagnoses bytes (.invalid (max 1 (reach - index)) index)

theorem Diagnoses.isGreatest_index {bytes : Bytes} {defect : Defect} (h : Diagnoses bytes defect) :
    IsGreatest (wellFormedLengths bytes) defect.index := by
  cases h with
  | incomplete hindex _ _ => exact hindex
  | invalid hindex _ => exact hindex

/-- Bytes that begin a text do so however far one looks. -/
theorem Begins.not_isGreatest {bytes : Bytes} {reach : Nat} (h : Begins bytes) :
    ¬ IsGreatest (beginningLengths bytes) reach := by
  intro hreach
  have hbeyond : reach + 1 ∈ beginningLengths bytes := h.shorten (List.take_prefix _ _)
  exact absurd (hreach.2 hbeyond) (by omega)

/-- **Bytes have at most one defect.** -/
theorem Diagnoses.unique {bytes : Bytes} {first second : Defect} (hfirst : Diagnoses bytes first)
    (hsecond : Diagnoses bytes second) : first = second := by
  have hsame := hfirst.isGreatest_index.unique hsecond.isGreatest_index
  cases hfirst with
  | incomplete _ _ hbegins =>
    cases hsecond with
    | incomplete _ _ _ => exact congrArg Defect.incomplete hsame
    | invalid _ hreach => exact absurd hreach hbegins.not_isGreatest
  | invalid _ hreach =>
    cases hsecond with
    | incomplete _ _ hbegins => exact absurd hreach hbegins.not_isGreatest
    | invalid _ hreach' =>
      obtain rfl := hreach.unique hreach'
      obtain rfl : _ = _ := hsame
      rfl

/-- Encoded text has no defect. -/
theorem not_diagnoses_encode (text : Text) (defect : Defect) :
    ¬ Diagnoses (encode text) defect := by
  intro h
  have hwhole : (encode text).length ∈ wellFormedLengths (encode text) :=
    ⟨text, List.prefix_rfl, rfl⟩
  cases h with
  | incomplete hindex hmore _ => exact absurd (hindex.2 hwhole) (by omega)
  | invalid _ hreach => exact Begins.not_isGreatest ⟨text, List.prefix_rfl⟩ hreach

/-- The decoder stops behind the longest well-formed prefix. -/
theorem isGreatest_index_of_decode {bytes : Bytes} {defect : Defect}
    (h : decode bytes = .error defect) :
    IsGreatest (wellFormedLengths bytes) defect.index := by
  constructor
  · obtain ⟨text, left, rfl, hstops⟩ := exists_stops_of_decodeFrom h
    exact ⟨text, List.prefix_append _ _, by rw [hstops.index_eq, Nat.zero_add]⟩
  · -- Whatever encoded text is at the front, the decoder gets behind it before it stops.
    rintro length ⟨text, ⟨rest, rfl⟩, rfl⟩
    rw [decode, decodeFrom_encode_append] at h
    obtain ⟨more, left, -, hstops⟩ := exists_stops_of_decodeFrom h
    rw [hstops.index_eq]
    omega

/-- What the decoder stops for is what is wrong with all of the bytes. -/
theorem Stops.diagnoses {text : Text} {left : Bytes} {defect : Defect}
    (h : Stops (encode text).length left defect)
    (hindex : IsGreatest (wellFormedLengths (encode text ++ left)) (encode text).length) :
    Diagnoses (encode text ++ left) defect := by
  cases h with
  | incomplete hne hbegins =>
    have hlong := List.length_pos_iff.2 hne
    refine .incomplete hindex ?_ (begins_encode_append_iff.2 hbegins)
    rw [List.length_append]
    omega
  | @invalid front rest next hbegins hnext =>
    have hreach : IsGreatest (beginningLengths (encode text ++ (front ++ next :: rest)))
        ((encode text).length + front.length) := by
      constructor
      · change Begins _
        rw [← List.append_assoc, ← List.length_append, List.take_left]
        exact begins_encode_append_iff.2 hbegins
      · intro length hlength
        by_contra hlong
        have hprefix : encode text ++ (front ++ [next]) <+:
            (encode text ++ (front ++ next :: rest)).take length := by
          refine List.prefix_take_iff.2 ⟨⟨rest, by simp⟩, ?_⟩
          simp only [List.length_append, List.length_singleton]
          omega
        exact hnext (begins_encode_append_iff.1 (hlength.shorten hprefix))
    rw [show front.length = (encode text).length + front.length - (encode text).length by omega]
    exact .invalid hindex hreach

/-- **Bytes are refused with the one defect that they have.** -/
theorem decode_eq_error_iff {bytes : Bytes} {defect : Defect} :
    decode bytes = .error defect ↔ Diagnoses bytes defect := by
  have forward {found : Defect} (h : decode bytes = .error found) : Diagnoses bytes found := by
    have hindex := isGreatest_index_of_decode h
    obtain ⟨text, left, rfl, hstops⟩ := exists_stops_of_decodeFrom h
    rw [Nat.zero_add] at hstops
    rw [hstops.index_eq] at hindex
    exact hstops.diagnoses hindex
  refine ⟨forward, ?_⟩
  intro hdefect
  cases hdecode : decode bytes with
  | error found => rw [(forward hdecode).unique hdefect]
  | ok text =>
    rw [decode_eq_ok_iff.1 hdecode] at hdefect
    exact absurd hdefect (not_diagnoses_encode text defect)

end Semicolon.Utf8
