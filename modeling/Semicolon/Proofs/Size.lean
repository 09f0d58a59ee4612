import Mathlib.Algebra.GroupWithZero.Nat
import Semicolon.Proofs.Accounting
import Semicolon.Proofs.Canonical
import Semicolon.Proofs.Utf8

/-!
# Sizes of texts

What is written for a text differs from it in size for three reasons only: a terminator adds a byte,
a pair loses one because a line feed takes its place, and a last line that lacks a break gets one.

The canonical form of a text has the last two differences and not the first, so the account is made
in two steps.  From the text to its canonical form the passes are followed one by one; from there to
the output the lines are the same, and a terminated one is a byte longer.

## Main statements

* `Utf8.length_encode`: the size of a text is the number of bytes of its encoding.
* `Canonical.byteSize_ofText`: the size of the canonical form.
* `byteSize_transform`: the size of what is written, by lines.
-/

namespace Semicolon

/-! ## Sizes -/

namespace Text

@[simp] theorem byteSize_nil : byteSize [] = 0 := rfl

@[simp] theorem byteSize_cons (c : Char) (rest : Text) :
    byteSize (c :: rest) = c.utf8Size + byteSize rest := rfl

@[simp] theorem byteSize_append (first second : Text) :
    byteSize (first ++ second) = byteSize first + byteSize second := by
  induction first with
  | nil => simp
  | cons c rest ih => rw [List.cons_append, byteSize_cons, byteSize_cons, ih, Nat.add_assoc]

/-- The size of lines that are written with a line feed each. -/
theorem byteSize_flatMap_feed (list : List Text) :
    byteSize (list.flatMap (· ++ ['\n'])) = (list.map byteSize).sum + list.length := by
  induction list with
  | nil => rfl
  | cons line rest ih =>
    have hfeed : byteSize ['\n'] = 1 := rfl
    rw [List.flatMap_cons, byteSize_append, byteSize_append, hfeed, ih, List.map_cons,
      List.sum_cons, List.length_cons]
    omega

end Text

/-- **The size of a text is the number of bytes of its encoding.** -/
theorem Utf8.length_encode (text : Text) : (encode text).length = Text.byteSize text := by
  induction text with
  | nil => rfl
  | cons c rest ih =>
    rw [encode_cons, List.length_append, String.length_utf8EncodeChar, ih, Text.byteSize_cons]

/-! ## Pairs -/

/-- How often a carriage return stands right before a line feed. -/
def countPairs (text : Text) : Nat :=
  (text.zip text.tail).count ('\r', '\n')

/-- A character makes a pair with the next one or with none. -/
theorem countPairs_cons_cons (c next : Char) (rest : Text) :
    countPairs (c :: next :: rest) =
      countPairs (next :: rest) + if c = '\r' ∧ next = '\n' then 1 else 0 := by
  simp [countPairs, List.count_cons]

/-- A character that begins no pair does not count. -/
theorem countPairs_cons_of_not_pair {c : Char} {rest : Text}
    (h : ∀ tail, c = '\r' → rest = '\n' :: tail → False) :
    countPairs (c :: rest) = countPairs rest := by
  cases rest with
  | nil => rfl
  | cons next tail =>
    have hpair : ¬ (c = '\r' ∧ next = '\n') := by
      rintro ⟨hc, rfl⟩
      exact h tail hc rfl
    rw [countPairs_cons_cons, if_neg hpair, Nat.add_zero]

/-- The second half of a pair begins none itself. -/
theorem countPairs_pair (rest : Text) :
    countPairs ('\r' :: '\n' :: rest) = countPairs rest + 1 := by
  rw [countPairs_cons_cons, if_pos ⟨rfl, rfl⟩, countPairs_cons_of_not_pair (by simp)]

example : countPairs ['x', '\r', '\n', '\r', '\r', '\n', '\n', '\r'] = 2 := by decide

/-! ## The canonical form -/

namespace Canonical

/-- Every pair that is joined is a byte less. -/
theorem byteSize_joinPairs (text : Text) :
    Text.byteSize (joinPairs text) + countPairs text = Text.byteSize text := by
  fun_induction joinPairs text with
  | case1 rest ih =>
    have hreturn : Char.utf8Size '\r' = 1 := rfl
    rw [Text.byteSize_cons, Text.byteSize_cons, Text.byteSize_cons, countPairs_pair, hreturn]
    omega
  | case2 c rest hpair ih =>
    rw [Text.byteSize_cons, Text.byteSize_cons, countPairs_cons_of_not_pair hpair]
    omega
  | case3 => rfl

theorem getLast?_joinPairs (text : Text) : (joinPairs text).getLast? = text.getLast? := by
  fun_induction joinPairs text with
  | case1 rest ih => simp [List.getLast?_cons, ih]
  | case2 c rest hpair ih => simp [List.getLast?_cons, ih]
  | case3 => rfl

/-- A carriage return is as long as a line feed. -/
theorem byteSize_feedLines (text : Text) :
    Text.byteSize (feedLines text) = Text.byteSize text := by
  induction text with
  | nil => rfl
  | cons c rest ih =>
    have hsize : (if c = '\r' then '\n' else c).utf8Size = c.utf8Size := by
      split
      · next hc => rw [hc]; rfl
      · rfl
    have hcons : feedLines (c :: rest) = (if c = '\r' then '\n' else c) :: feedLines rest := rfl
    rw [hcons, Text.byteSize_cons, hsize, ih, Text.byteSize_cons]

/-- The first two passes leave a line feed at the end where there was a break. -/
theorem getLast?_feedBreaks_iff (text : Text) :
    (feedBreaks text).getLast? = some '\n' ↔
      text.getLast? = some '\n' ∨ text.getLast? = some '\r' := by
  rw [feedBreaks, feedLines, List.getLast?_map, getLast?_joinPairs]
  cases text.getLast? with
  | none => simp
  | some c =>
    by_cases hc : c = '\r'
    · simp [hc]
    · simp [hc]

theorem feedBreaks_eq_nil_iff (text : Text) : feedBreaks text = [] ↔ text = [] := by
  rw [← List.getLast?_eq_none_iff, feedBreaks, feedLines, List.getLast?_map, getLast?_joinPairs,
    Option.map_eq_none_iff, List.getLast?_eq_none_iff]

/-- **The canonical form lacks a byte for every pair, and has one more for a last line that lacks a
break.** -/
theorem byteSize_ofText (text : Text) :
    Text.byteSize (ofText text) + countPairs text = Text.byteSize text +
      if text ≠ [] ∧ text.getLast? ≠ some '\n' ∧ text.getLast? ≠ some '\r' then 1 else 0 := by
  have hpasses : Text.byteSize (feedBreaks text) + countPairs text = Text.byteSize text := by
    rw [feedBreaks, byteSize_feedLines, byteSize_joinPairs]
  have hopen : (text ≠ [] ∧ text.getLast? ≠ some '\n' ∧ text.getLast? ≠ some '\r') ↔
      ¬ ((feedBreaks text).isEmpty || (feedBreaks text).getLast? == some '\n') = true := by
    simp only [Bool.or_eq_true, List.isEmpty_iff, beq_iff_eq, getLast?_feedBreaks_iff,
      feedBreaks_eq_nil_iff, not_or]
  rw [ofText_eq_endLast, endLast]
  by_cases hended : ((feedBreaks text).isEmpty || (feedBreaks text).getLast? == some '\n') = true
  · rw [if_pos hended, if_neg (by rw [hopen, not_not]; exact hended), hpasses, Nat.add_zero]
  · have hfeed : Text.byteSize ['\n'] = 1 := rfl
    rw [if_neg hended, if_pos (hopen.2 hended), Text.byteSize_append, hfeed]
    omega

end Canonical

/-! ## What is written -/

theorem Tally.terminated_ofLines (list : List Text) :
    (Tally.ofLines list).terminated = list.countP endsStatement := by
  rw [Tally.ofLines_eq_ofDecisions, (Tally.accounts_ofDecisions _).terminated, List.countP_map]
  rfl

/-- A line that ends a statement is written with one byte more. -/
theorem DecidedLine.byteSize_display (line : Text) :
    Text.byteSize (DecidedLine.ofLine line).display =
      Text.byteSize line + if endsStatement line then 1 else 0 := by
  have hterminator : Text.byteSize [terminator] = 1 := rfl
  rw [endsStatement]
  cases hdecision : decideLine line with
  | passThrough => simp [DecidedLine.display_ofLine_of_passThrough hdecision]
  | terminate reason =>
    simp [DecidedLine.display_ofLine_of_terminate hdecision, hterminator, -Text.byteSize_cons]

theorem sum_byteSize_display (list : List Text) :
    ((list.map fun line => (DecidedLine.ofLine line).display).map Text.byteSize).sum =
      (list.map Text.byteSize).sum + list.countP endsStatement := by
  induction list with
  | nil => rfl
  | cons line rest ih =>
    rw [List.map_cons, List.map_cons, List.sum_cons, DecidedLine.byteSize_display, ih,
      List.map_cons, List.sum_cons, List.countP_cons]
    omega

/-- **What is written has the bytes of the lines**, one more for each line and one more for each
terminator. -/
theorem byteSize_transform (text : Text) :
    Text.byteSize (transform text) =
      ((lines text).map Text.byteSize).sum + (lines text).length +
        (lines text).countP endsStatement := by
  rw [transform_eq_flatMap_feed, Text.byteSize_flatMap_feed, sum_byteSize_display,
    List.length_map]
  omega

/-- The output is the canonical form and a byte for each terminator. -/
theorem byteSize_transform_eq_ofText (text : Text) :
    Text.byteSize (transform text) =
      Text.byteSize (Canonical.ofText text) + (lines text).countP endsStatement := by
  rw [byteSize_transform, Canonical.ofText_eq_flatMap_feed, Text.byteSize_flatMap_feed]

/-- **No byte is lost or made up.**  The size of what is written is the size of what was processed,
with a byte for each terminator, without one for each pair, and with one for a last line that lacks
a break.  It is also the size of the lines, with a byte for each of them and a byte for each
terminator.  The size that is reported is that of the text in bytes. -/
theorem Transformation.bytes_balance (settings : Settings) (text : Text) :
    let result := ofText settings text
    result.bytesProcessed = (Utf8.encode text).length ∧
    ((Utf8.encode result.text).length : Int) =
      result.bytesProcessed + result.tally.terminated - countPairs text +
        (if text ≠ [] ∧ text.getLast? ≠ some '\n' ∧ text.getLast? ≠ some '\r' then 1 else 0) ∧
    (Utf8.encode result.text).length =
      ((lines text).map fun line => (Utf8.encode line).length).sum + result.tally.lines +
        result.tally.terminated := by
  intro result
  have hbytes : result.bytesProcessed = Text.byteSize text := rfl
  have hlines : result.tally.lines = (lines text).length := by
    rw [tally_ofText, Tally.lines_ofLines]
  have hterminated : result.tally.terminated = (lines text).countP endsStatement := by
    rw [tally_ofText, Tally.terminated_ofLines]
  have hsize : (Utf8.encode result.text).length = Text.byteSize (transform text) := by
    rw [Utf8.length_encode, text_ofText]
  rw [hsize, hbytes, hlines, hterminated]
  refine ⟨(Utf8.length_encode text).symm, ?_, ?_⟩
  · have hoff := byteSize_transform_eq_ofText text
    have hcanonical := Canonical.byteSize_ofText text
    by_cases hopen : text ≠ [] ∧ text.getLast? ≠ some '\n' ∧ text.getLast? ≠ some '\r'
    · rw [if_pos hopen] at hcanonical ⊢
      omega
    · rw [if_neg hopen] at hcanonical ⊢
      omega
  · simp only [Utf8.length_encode]
    exact byteSize_transform text

end Semicolon
