import Semicolon.Lines.ByteScan
import Semicolon.Proofs.Segmentation
import Semicolon.Proofs.Utf8

/-!
# Scanning bytes finds the lines of the text

The byte of a line feed or of a carriage return is the encoding of that character wherever it occurs
in encoded text.  So the first such byte stands at the end of the encoded first line, the break
there is the encoded break, and both cuts of a step lie between two characters.  One step of the
scan is therefore one step of reading lines, with everything encoded; and since what is left is
encoded text again, the same holds for all steps that follow.

The boundaries that a cut is checked against are found by looking at one byte.  In encoded text they
are the offsets of the characters, and no others.

## Main definitions

* `ByteScan.Reached`: what is left at some time during a scan.

## Main statements

* `ByteScan.isBoundary_encode_iff`: the boundaries of encoded text.
* `ByteScan.checkedNext_encode`: one step.
* `ByteScan.checkedLines_encode`, `ByteScan.Reached.exists_encode`: a whole scan.
-/

namespace Semicolon

/-! ## The bytes of one character -/

namespace Utf8

/-- A byte of the ASCII range stands for itself and for nothing else. -/
theorem toNat_eq_of_mem_encode {c : Char} {byte : UInt8} (h : byte ∈ String.utf8EncodeChar c)
    (hascii : byte.toNat < 0x80) : c.toNat = byte.toNat := by
  have hsequence := sequence_encode c
  generalize String.utf8EncodeChar c = bytes at h hsequence
  cases hsequence with
  | one hfirst hcode =>
    obtain rfl := List.mem_singleton.1 h
    exact hcode
  | two hfirst hsecond hcode =>
    rw [isContinuation_iff] at hsecond
    simp only [List.mem_cons, List.not_mem_nil, or_false] at h
    rcases h with rfl | rfl <;> omega
  | three hfirst hsecond hthird hcode =>
    rw [isSecondOfThree_iff] at hsecond
    rw [isContinuation_iff] at hthird
    simp only [List.mem_cons, List.not_mem_nil, or_false] at h
    rcases h with rfl | rfl | rfl <;> omega
  | four hfirst hsecond hthird hfourth hcode =>
    rw [isSecondOfFour_iff] at hsecond
    rw [isContinuation_iff] at hthird hfourth
    simp only [List.mem_cons, List.not_mem_nil, or_false] at h
    rcases h with rfl | rfl | rfl | rfl <;> omega

/-- The first byte of a character does not continue one, and all others do. -/
theorem exists_encode_eq_cons (c : Char) :
    ∃ first more, String.utf8EncodeChar c = first :: more ∧ isContinuation first = false ∧
      ∀ byte ∈ more, isContinuation byte = true := by
  have begins {first : UInt8} (h : first.toNat < 0x80 ∨ 0xbf < first.toNat) :
      isContinuation first = false := by
    rw [← Bool.not_eq_true, isContinuation_iff]
    omega
  have hsequence := sequence_encode c
  generalize String.utf8EncodeChar c = bytes at hsequence
  cases hsequence with
  | one hfirst hcode => exact ⟨_, _, rfl, begins (.inl hfirst), by simp⟩
  | two hfirst hsecond hcode =>
    exact ⟨_, _, rfl, begins (by omega), by simpa using hsecond⟩
  | three hfirst hsecond hthird hcode =>
    have hsecond' := isSecondOfThree_iff.1 hsecond
    exact ⟨_, _, rfl, begins (by omega), by
      simpa using ⟨isContinuation_iff.2 ⟨hsecond'.1, hsecond'.2.1⟩, hthird⟩⟩
  | four hfirst hsecond hthird hfourth hcode =>
    have hsecond' := isSecondOfFour_iff.1 hsecond
    exact ⟨_, _, rfl, begins (by omega), by
      simpa using ⟨isContinuation_iff.2 ⟨hsecond'.1, hsecond'.2.1⟩, hthird, hfourth⟩⟩

theorem encode_ne_nil {text : Text} (h : text ≠ []) : encode text ≠ [] := by
  intro hnil
  exact h (encode_injective hnil)

end Utf8

namespace ByteScan

open Utf8 (encode)

/-! ## Boundaries -/

theorem isBoundary_iff {bytes : Bytes} {offset : Nat} :
    isBoundary bytes offset = true ↔
      offset = 0 ∨ offset = bytes.length ∨
        ∃ byte, bytes[offset]? = some byte ∧ Utf8.isContinuation byte = false := by
  simp [isBoundary, or_assoc, Option.any_eq_true]

/-- A text may be cut between any two of its characters. -/
theorem isBoundary_encode_append (front back : Text) :
    isBoundary (encode (front ++ back)) (encode front).length = true := by
  rw [Utf8.encode_append, isBoundary_iff]
  cases back with
  | nil => exact .inr (.inl (by simp))
  | cons c rest =>
    obtain ⟨first, more, hc, hfirst, -⟩ := Utf8.exists_encode_eq_cons c
    refine .inr (.inr ⟨first, ?_, hfirst⟩)
    simp [Utf8.encode_cons, hc]

/-- There is no boundary inside of a character: those after its beginning are in the rest. -/
theorem exists_boundary_of_cons {c : Char} {rest : Text} {offset : Nat}
    (h : isBoundary (encode (c :: rest)) offset = true) (hpos : offset ≠ 0) :
    ∃ later, offset = (String.utf8EncodeChar c).length + later ∧
      isBoundary (encode rest) later = true := by
  obtain ⟨first, more, hc, -, hmore⟩ := Utf8.exists_encode_eq_cons c
  rw [Utf8.encode_cons, hc, isBoundary_iff, List.length_append] at h
  rw [hc]
  have hlong : (first :: more).length ≤ offset := by
    by_contra hshort
    rcases h with hzero | hend | ⟨byte, hbyte, hbegins⟩
    · exact hpos hzero
    · omega
    · -- All bytes of the character but its first continue it.
      have hinside : more[offset - 1]? = some byte := by
        rw [List.getElem?_append_left (by omega), List.getElem?_cons, if_neg hpos] at hbyte
        exact hbyte
      have hcontinues := hmore byte (List.mem_of_getElem? hinside)
      exact absurd (hcontinues.symm.trans hbegins) (by decide)
  refine ⟨offset - (first :: more).length, by omega, ?_⟩
  rw [isBoundary_iff]
  rcases h with hzero | hend | ⟨byte, hbyte, hbegins⟩
  · exact absurd hzero hpos
  · exact .inr (.inl (by omega))
  · rw [List.getElem?_append_right hlong] at hbyte
    exact .inr (.inr ⟨byte, hbyte, hbegins⟩)

/-- **The boundaries of encoded text are the offsets of its characters and its end.** -/
theorem isBoundary_encode_iff {text : Text} {offset : Nat} :
    isBoundary (encode text) offset = true ↔
      ∃ front back, front ++ back = text ∧ (encode front).length = offset := by
  constructor
  · intro h
    induction text generalizing offset with
    | nil =>
      have hzero : offset = 0 := by simpa [isBoundary_iff] using h
      exact ⟨[], [], rfl, hzero.symm⟩
    | cons c rest ih =>
      by_cases hzero : offset = 0
      · exact ⟨[], c :: rest, rfl, hzero.symm⟩
      · obtain ⟨later, rfl, hlater⟩ := exists_boundary_of_cons h hzero
        obtain ⟨front, back, rfl, rfl⟩ := ih hlater
        exact ⟨c :: front, back, rfl, by rw [Utf8.encode_cons, List.length_append]⟩
  · rintro ⟨front, back, rfl, rfl⟩
    exact isBoundary_encode_append front back

theorem cutBefore_encode (front back : Text) :
    cutBefore (encode (front ++ back)) (encode front).length = .ok (encode front) := by
  rw [cutBefore, if_pos (isBoundary_encode_append front back), Utf8.encode_append,
    List.take_left]

theorem cutAfter_encode (front back : Text) :
    cutAfter (encode (front ++ back)) (encode front).length = .ok (encode back) := by
  rw [cutAfter, if_pos (isBoundary_encode_append front back), Utf8.encode_append,
    List.drop_left]

/-! ## Breaks -/

/-- A byte that ends a line is the encoding of the break character it comes from. -/
theorem isBreak_of_mem_encode {c : Char} {byte : UInt8} (h : byte ∈ String.utf8EncodeChar c)
    (hbyte : isBreak byte = true) :
    (byte = lineFeed ∧ c = '\n') ∨ (byte = carriageReturn ∧ c = '\r') := by
  have hcases : byte = lineFeed ∨ byte = carriageReturn := by simpa [isBreak] using hbyte
  rcases hcases with rfl | rfl
  · exact .inl ⟨rfl, Char.toNat_inj.1 (Utf8.toNat_eq_of_mem_encode h (by decide))⟩
  · exact .inr ⟨rfl, Char.toNat_inj.1 (Utf8.toNat_eq_of_mem_encode h (by decide))⟩

/-- The bytes of a line end no line. -/
theorem isBreak_eq_false_of_mem_encode {line : Text} (h : Unbroken line) :
    ∀ byte ∈ encode line, isBreak byte = false := by
  intro byte hmem
  obtain ⟨c, hc, hbyte⟩ := List.mem_flatMap.1 hmem
  by_contra hbreak
  rw [Bool.not_eq_false] at hbreak
  rcases isBreak_of_mem_encode hbyte hbreak with ⟨-, rfl⟩ | ⟨-, rfl⟩
  · exact absurd (h '\n' hc) (by decide)
  · exact absurd (h '\r' hc) (by decide)

/-- Encoded text begins with a line feed only if the text does. -/
theorem head?_of_head?_encode {text : Text} (h : (encode text).head? = some lineFeed) :
    text.head? = some '\n' := by
  cases text with
  | nil => exact absurd h (by simp)
  | cons c rest =>
    obtain ⟨first, more, hc, -, -⟩ := Utf8.exists_encode_eq_cons c
    have hfirst : first = lineFeed := by simpa [Utf8.encode_cons, hc] using h
    have hmem : lineFeed ∈ String.utf8EncodeChar c := by simp [hc, hfirst]
    rcases isBreak_of_mem_encode hmem (by decide) with ⟨-, rfl⟩ | ⟨hne, -⟩
    · rfl
    · exact absurd hne (by decide)

theorem breakAt?_eq_none {bytes : Bytes} (h : ∀ byte ∈ bytes, isBreak byte = false) :
    breakAt? bytes = none :=
  List.findIdx?_eq_none_iff.2 h

theorem breakAt?_append_cons {front : Bytes} (h : ∀ byte ∈ front, isBreak byte = false)
    {byte : UInt8} (hbyte : isBreak byte = true) (tail : Bytes) :
    breakAt? (front ++ byte :: tail) = some front.length := by
  have hfront : front.findIdx? isBreak = none := breakAt?_eq_none h
  simp [breakAt?, List.findIdx?_append, hfront, List.findIdx?_cons, hbyte]

/-- What stands before a break makes no difference to its size. -/
theorem breakSize_append (front tail : Bytes) :
    breakSize (front ++ tail) front.length = breakSize tail 0 := by
  have hfirst : (front ++ tail)[front.length]? = tail[0]? := by
    rw [List.getElem?_append_right (Nat.le_refl _), Nat.sub_self]
  have hsecond : (front ++ tail)[front.length + 1]? = tail[0 + 1]? := by
    rw [List.getElem?_append_right (by omega), Nat.add_sub_cancel_left]
  rw [breakSize, breakSize, hfirst, hsecond]

section Break

variable {line rest : Text} {kind : LineBreak}

/-- **The first byte that ends a line stands where the encoded line ends.** -/
theorem breakAt?_encode (h : (⟨line, some kind⟩ : Segment).Leads rest) :
    breakAt? (encode (line ++ (kind.text ++ rest))) = some (encode line).length := by
  have hline := isBreak_eq_false_of_mem_encode h.unbroken
  rw [Utf8.encode_append, Utf8.encode_append]
  cases kind with
  | lineFeed => exact breakAt?_append_cons hline (by decide) _
  | carriageReturn => exact breakAt?_append_cons hline (by decide) _
  | pair => exact breakAt?_append_cons hline (by decide) _

/-- **The break there is the encoded break.**  A carriage return of its own has no byte of a line
feed after it, because it has no line feed after it. -/
theorem breakSize_encode (h : (⟨line, some kind⟩ : Segment).Leads rest) :
    breakSize (encode (line ++ (kind.text ++ rest))) (encode line).length =
      (encode kind.text).length := by
  rw [Utf8.encode_append, Utf8.encode_append, breakSize_append]
  cases kind with
  | lineFeed => rfl
  | pair => rfl
  | carriageReturn =>
    have hnext : (encode rest)[0]? ≠ some lineFeed := by
      rw [← List.head?_eq_getElem?]
      exact mt head?_of_head?_encode (h.longest rfl)
    have hreturn : encode LineBreak.carriageReturn.text = [carriageReturn] := rfl
    simp [hreturn, breakSize, hnext]

/-- The offset after the break is that of the text after it. -/
theorem add_breakSize_encode (h : (⟨line, some kind⟩ : Segment).Leads rest) :
    (encode line).length + breakSize (encode (line ++ (kind.text ++ rest))) (encode line).length =
      (encode (line ++ kind.text)).length := by
  rw [breakSize_encode h, Utf8.encode_append, List.length_append]

end Break

/-! ## One step -/

theorem checkedNext_encode_of_unbroken {line : Text} (hne : line ≠ []) (h : Unbroken line) :
    checkedNext (encode line) = .ok (some (encode line, [])) := by
  have hempty : ¬ (encode line).isEmpty = true := by simpa using Utf8.encode_ne_nil hne
  rw [checkedNext, if_neg hempty, breakAt?_eq_none (isBreak_eq_false_of_mem_encode h)]

theorem checkedNext_encode_of_break {line rest : Text} {kind : LineBreak}
    (h : (⟨line, some kind⟩ : Segment).Leads rest) :
    checkedNext (encode (line ++ (kind.text ++ rest))) = .ok (some (encode line, encode rest)) := by
  have hne : line ++ (kind.text ++ rest) ≠ [] := by
    obtain ⟨c, tail, hbreak, -⟩ := kind.text_append_eq_cons rest
    simp [hbreak]
  have hempty : ¬ (encode (line ++ (kind.text ++ rest))).isEmpty = true := by
    simpa using Utf8.encode_ne_nil hne
  have hbefore := cutBefore_encode line (kind.text ++ rest)
  have hafter := cutAfter_encode (line ++ kind.text) rest
  rw [List.append_assoc, ← add_breakSize_encode h] at hafter
  rw [checkedNext, if_neg hempty, breakAt?_encode h]
  simp only [hbefore, hafter]
  rfl

/-- **One step of the scan is one step of reading lines**, and neither of its cuts fails. -/
theorem checkedNext_encode (text : Text) :
    checkedNext (encode text) =
      .ok ((Semicolon.nextLine? text).map fun read => (encode read.1, encode read.2)) := by
  cases hnext : Semicolon.nextLine? text with
  | none =>
    obtain rfl := eq_nil_of_nextLine?_eq_none hnext
    rfl
  | some read =>
    obtain ⟨⟨line, ending⟩, hleads, rfl, hline⟩ := exists_leads_of_nextLine? hnext
    rw [Option.map_some, ← hline]
    cases ending with
    | none =>
      obtain ⟨hne, hrest⟩ := hleads.last rfl
      rw [hrest, Segment.text_mk_none, List.append_nil]
      exact checkedNext_encode_of_unbroken hne hleads.unbroken
    | some kind =>
      rw [Segment.text_mk_some, List.append_assoc]
      exact checkedNext_encode_of_break hleads

theorem nextLine?_encode (text : Text) :
    nextLine? (encode text) =
      (Semicolon.nextLine? text).map fun read => (encode read.1, encode read.2) :=
  nextLine?_of_checkedNext (checkedNext_encode text)

/-- Where a step cuts the encoding of a text: before and after a break of the text. -/
theorem exists_cuts_of_breakAt? {text : Text} {offset : Nat}
    (h : breakAt? (encode text) = some offset) :
    ∃ (line : Text) (kind : LineBreak) (rest : Text), line ++ (kind.text ++ rest) = text ∧
      (encode line).length = offset ∧
      (encode (line ++ kind.text)).length = offset + breakSize (encode text) offset := by
  cases hnext : Semicolon.nextLine? text with
  | none =>
    rw [eq_nil_of_nextLine?_eq_none hnext] at h
    exact absurd h (by simp [breakAt?])
  | some read =>
    obtain ⟨⟨line, ending⟩, hleads, rfl, -⟩ := exists_leads_of_nextLine? hnext
    cases ending with
    | none =>
      rw [(hleads.last rfl).2, Segment.text_mk_none, List.append_nil,
        breakAt?_eq_none (isBreak_eq_false_of_mem_encode hleads.unbroken)] at h
      exact absurd h (by simp)
    | some kind =>
      rw [Segment.text_mk_some, List.append_assoc] at h ⊢
      obtain rfl : (encode line).length = offset :=
        Option.some.inj ((breakAt?_encode hleads).symm.trans h)
      exact ⟨line, kind, read.2, rfl, rfl, (add_breakSize_encode hleads).symm⟩

/-! ## A whole scan -/

/-- **A scan finds the encoded lines.** -/
theorem lines_encode (text : Text) :
    lines (encode text) = (Semicolon.lines text).map encode := by
  induction text using Semicolon.lines.induct with
  | case1 text hnone =>
    obtain rfl := eq_nil_of_nextLine?_eq_none hnone
    rw [Utf8.encode_nil, lines_nil, Semicolon.lines_nil, List.map_nil]
  | case2 text line rest hsome ih =>
    have hnext : nextLine? (encode text) = some (encode line, encode rest) := by
      rw [nextLine?_encode, hsome, Option.map_some]
    rw [lines_eq_cons hnext, ih, Semicolon.lines_eq_cons hsome, List.map_cons]

/-- **None of the cuts of a scan fails.** -/
theorem checkedLines_encode (text : Text) :
    checkedLines (encode text) = .ok ((Semicolon.lines text).map encode) := by
  induction text using Semicolon.lines.induct with
  | case1 text hnone =>
    obtain rfl := eq_nil_of_nextLine?_eq_none hnone
    rw [Utf8.encode_nil, checkedLines_nil, Semicolon.lines_nil, List.map_nil]
  | case2 text line rest hsome ih =>
    have hnext : checkedNext (encode text) = .ok (some (encode line, encode rest)) := by
      rw [checkedNext_encode, hsome, Option.map_some]
    rw [checkedLines_eq_map hnext, ih, Semicolon.lines_eq_cons hsome, List.map_cons, Except.map]

/-- What is left of the bytes after any number of lines. -/
inductive Reached (bytes : Bytes) : Bytes → Prop
  | start : Reached bytes bytes
  | next {left line rest : Bytes} (h : Reached bytes left)
    (hnext : nextLine? left = some (line, rest)) : Reached bytes rest

/-- What one step leaves of encoded text is encoded text, and so is the line that it takes off. -/
theorem exists_encode_of_nextLine? {text : Text} {line rest : Bytes}
    (h : nextLine? (encode text) = some (line, rest)) :
    ∃ read more, line = encode read ∧ rest = encode more ∧
      Semicolon.nextLine? text = some (read, more) := by
  rw [nextLine?_encode, Option.map_eq_some_iff] at h
  obtain ⟨⟨read, more⟩, hnext, heq⟩ := h
  obtain ⟨rfl, rfl⟩ := Prod.mk.inj heq
  exact ⟨read, more, rfl, rfl, hnext⟩

/-- **At all times during a scan, what is left is the encoding of the end of the text.** -/
theorem Reached.exists_encode {text : Text} {left : Bytes} (h : Reached (encode text) left) :
    ∃ rest, left = encode rest ∧ rest <:+ text := by
  induction h with
  | start => exact ⟨text, rfl, List.suffix_rfl⟩
  | next _ hnext ih =>
    obtain ⟨before, rfl, hsuffix⟩ := ih
    obtain ⟨read, more, -, rfl, hread⟩ := exists_encode_of_nextLine? hnext
    obtain ⟨segment, -, htext, -⟩ := exists_leads_of_nextLine? hread
    refine ⟨more, rfl, List.IsSuffix.trans ?_ hsuffix⟩
    rw [← htext]
    exact List.suffix_append _ _

/-! ## All together -/

/-- **Scanning the bytes of a text is safe and finds the lines of the text.**  The scan with checked
cuts goes through, and what it finds are the encodings of the lines, in order.  At all times what is
left is the encoding of the end of the text; both cuts of the next step are within range and at
boundaries, and the line and the rest that they give are encoded text.  The boundaries of an
encoding are the offsets between two characters, at its beginning and at its end. -/
theorem scan_of_encoded_text (text : Text) :
    checkedLines (encode text) = .ok ((Semicolon.lines text).map encode) ∧
    lines (encode text) = (Semicolon.lines text).map encode ∧
    (∀ left : Bytes, Reached (encode text) left →
      (∃ rest, Utf8.decode left = .ok rest ∧ rest <:+ text) ∧
      (∀ offset, breakAt? left = some offset →
        offset < left.length ∧ isBoundary left offset = true ∧
        offset + breakSize left offset ≤ left.length ∧
        isBoundary left (offset + breakSize left offset) = true) ∧
      ∀ line rest, nextLine? left = some (line, rest) →
        ∃ read more, Utf8.decode line = .ok read ∧ Utf8.decode rest = .ok more) ∧
    ∀ offset, isBoundary (encode text) offset = true ↔
      ∃ front back, front ++ back = text ∧ (encode front).length = offset := by
  refine ⟨checkedLines_encode text, lines_encode text, ?_, fun _ => isBoundary_encode_iff⟩
  intro left hleft
  obtain ⟨rest, rfl, hsuffix⟩ := hleft.exists_encode
  refine ⟨⟨rest, Utf8.decode_encode rest, hsuffix⟩, ?_, ?_⟩
  · intro offset hbreak
    have hrange : offset < (encode rest).length :=
      (List.findIdx?_eq_some_iff_getElem.1 hbreak).1
    obtain ⟨line, kind, more, rfl, hbefore, hafter⟩ := exists_cuts_of_breakAt? hbreak
    have hfirst := isBoundary_encode_append line (kind.text ++ more)
    have hsecond := isBoundary_encode_append (line ++ kind.text) more
    rw [List.append_assoc, hafter] at hsecond
    rw [hbefore] at hfirst
    refine ⟨hrange, hfirst, ?_, hsecond⟩
    rw [← hafter, ← List.append_assoc, Utf8.encode_append _ more, List.length_append]
    omega
  · intro line more hnext
    obtain ⟨read, later, rfl, rfl, -⟩ := exists_encode_of_nextLine? hnext
    exact ⟨read, later, Utf8.decode_encode read, Utf8.decode_encode later⟩

/-- After a line that ends in a character of two bytes, a pair and a character of three bytes are
left: the cut before the latter is inside of no character. -/
theorem scan_of_encoded_text_at_pair :
    Reached (encode ['a', '\n', 'é', '\r', '\n', '名']) (encode ['é', '\r', '\n', '名']) ∧
    breakAt? (encode ['é', '\r', '\n', '名']) = some 2 ∧
    isBoundary (encode ['é', '\r', '\n', '名']) 4 = true ∧
    checkedLines (encode ['a', '\n', 'é', '\r', '\n', '名']) =
      .ok [encode ['a'], encode ['é'], encode ['名']] := by
  have hreached : Reached (encode ['a', '\n', 'é', '\r', '\n', '名'])
      (encode ['é', '\r', '\n', '名']) := .next .start rfl
  have hbreak : breakAt? (encode ['é', '\r', '\n', '名']) = some 2 := by decide
  have hscan := scan_of_encoded_text ['a', '\n', 'é', '\r', '\n', '名']
  refine ⟨hreached, hbreak, ((hscan.2.2.1 _ hreached).2.1 2 hbreak).2.2.2, hscan.1.trans ?_⟩
  simp [Semicolon.lines, Semicolon.nextLine?, skipBreak, Semicolon.isBreak]

end ByteScan

end Semicolon
