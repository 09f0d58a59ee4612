import Semicolon.Lines.Basic
import Semicolon.Text.Utf8

/-!
# Lines of encoded text

The lines of a text can be found in its encoding, byte by byte: the bytes of the two break
characters occur in the encoding of no other character.  Each step cuts the bytes at an offset
and skips one or two of them.

Bytes that stand for a text may be cut only between two characters.  The scan is given once more
with every cut checked: it fails as soon as it would cut past the end or inside of a character.

## Main definitions

* `ByteScan.nextLine?`, `ByteScan.lines`: the scan.
* `ByteScan.isBoundary`: where bytes may be cut.
* `ByteScan.checkedNext`, `ByteScan.checkedLines`: the scan with its cuts checked.
-/

namespace Semicolon.ByteScan

/-- The byte of the line feed. -/
def lineFeed : UInt8 := 0x0a

/-- The byte of the carriage return. -/
def carriageReturn : UInt8 := 0x0d

/-- Whether a byte ends a line. -/
def isBreak (byte : UInt8) : Bool :=
  byte == lineFeed || byte == carriageReturn

/-- The offset of the first byte that ends a line. -/
def breakAt? (bytes : Bytes) : Option Nat :=
  bytes.findIdx? isBreak

/-- The number of bytes in the break at an offset. -/
def breakSize (bytes : Bytes) (offset : Nat) : Nat :=
  if bytes[offset]? == some carriageReturn && bytes[offset + 1]? == some lineFeed then 2 else 1

/-- The bytes of the first line and those after its break. -/
def nextLine? (bytes : Bytes) : Option (Bytes × Bytes) :=
  if bytes.isEmpty then none
  else
    match breakAt? bytes with
    | some offset => some (bytes.take offset, bytes.drop (offset + breakSize bytes offset))
    | none => some (bytes, [])

theorem length_lt_of_nextLine? {bytes line rest : Bytes}
    (h : nextLine? bytes = some (line, rest)) : rest.length < bytes.length := by
  unfold nextLine? at h
  split at h
  · simp at h
  · next nonempty =>
    have positive : 0 < bytes.length := by
      cases bytes with
      | nil => simp at nonempty
      | cons byte tail => simp
    split at h
    · next offset _ =>
      simp only [Option.some.injEq, Prod.mk.injEq] at h
      have size : 1 ≤ breakSize bytes offset := by
        unfold breakSize
        split <;> omega
      rw [← h.2, List.length_drop]
      omega
    · simp only [Option.some.injEq, Prod.mk.injEq] at h
      rw [← h.2]
      exact positive

/-- The bytes of all lines, in order. -/
def lines (bytes : Bytes) : List Bytes :=
  match _h : nextLine? bytes with
  | none => []
  | some (line, rest) => line :: lines rest
termination_by bytes.length
decreasing_by exact length_lt_of_nextLine? _h

theorem lines_nil : lines [] = [] := by
  rw [lines]
  rfl

theorem lines_eq_cons {bytes line rest : Bytes} (h : nextLine? bytes = some (line, rest)) :
    lines bytes = line :: lines rest := by
  rw [lines]
  split
  · simp_all
  · simp_all

/-! ## Checked cuts -/

/-- Whether bytes may be cut at an offset: at their beginning, at their end, and before every byte
that does not continue a character. -/
def isBoundary (bytes : Bytes) (offset : Nat) : Bool :=
  offset == 0 || offset == bytes.length || bytes[offset]?.any (!Utf8.isContinuation ·)

/-- An offset at which bytes were to be cut, but may not be. -/
structure BadCut where
  offset : Nat
  deriving DecidableEq, Repr

/-- The bytes before an offset. -/
def cutBefore (bytes : Bytes) (offset : Nat) : Except BadCut Bytes :=
  if isBoundary bytes offset then .ok (bytes.take offset) else .error ⟨offset⟩

/-- The bytes from an offset on. -/
def cutAfter (bytes : Bytes) (offset : Nat) : Except BadCut Bytes :=
  if isBoundary bytes offset then .ok (bytes.drop offset) else .error ⟨offset⟩

/-- The bytes of the first line and those after its break, if they may be cut there. -/
def checkedNext (bytes : Bytes) : Except BadCut (Option (Bytes × Bytes)) :=
  if bytes.isEmpty then .ok none
  else
    match breakAt? bytes with
    | some offset => do
      let line ← cutBefore bytes offset
      let rest ← cutAfter bytes (offset + breakSize bytes offset)
      return some (line, rest)
    | none => .ok (some (bytes, []))

theorem cutBefore_eq_ok {bytes front : Bytes} {offset : Nat}
    (h : cutBefore bytes offset = .ok front) : front = bytes.take offset := by
  unfold cutBefore at h
  split at h
  · exact (Except.ok.inj h).symm
  · exact absurd h (by simp)

theorem cutAfter_eq_ok {bytes back : Bytes} {offset : Nat}
    (h : cutAfter bytes offset = .ok back) : back = bytes.drop offset := by
  unfold cutAfter at h
  split at h
  · exact (Except.ok.inj h).symm
  · exact absurd h (by simp)

/-- Where no cut fails, the checks make no difference. -/
theorem nextLine?_of_checkedNext {bytes : Bytes} {read? : Option (Bytes × Bytes)}
    (h : checkedNext bytes = .ok read?) : nextLine? bytes = read? := by
  by_cases hempty : bytes.isEmpty = true
  · rw [checkedNext, if_pos hempty] at h
    rw [nextLine?, if_pos hempty]
    exact Except.ok.inj h
  · rw [checkedNext, if_neg hempty] at h
    rw [nextLine?, if_neg hempty]
    cases hbreak : breakAt? bytes with
    | none =>
      rw [hbreak] at h
      exact Except.ok.inj h
    | some offset =>
      rw [hbreak] at h
      cases hbefore : cutBefore bytes offset with
      | error fault => simp [hbefore, bind, Except.bind] at h
      | ok line =>
        cases hafter : cutAfter bytes (offset + breakSize bytes offset) with
        | error fault => simp [hbefore, hafter, bind, Except.bind] at h
        | ok rest =>
          simp only [hbefore, hafter, bind, Except.bind, pure, Except.pure, Except.ok.injEq] at h
          rw [← h, cutBefore_eq_ok hbefore, cutAfter_eq_ok hafter]

/-- The bytes of all lines, in order, if they may be cut there. -/
def checkedLines (bytes : Bytes) : Except BadCut (List Bytes) :=
  match _h : checkedNext bytes with
  | .error fault => .error fault
  | .ok none => .ok []
  | .ok (some (line, rest)) => (checkedLines rest).map (line :: ·)
termination_by bytes.length
decreasing_by exact length_lt_of_nextLine? (nextLine?_of_checkedNext _h)

theorem checkedLines_nil : checkedLines [] = .ok [] := by
  rw [checkedLines]
  rfl

theorem checkedLines_eq_map {bytes line rest : Bytes}
    (h : checkedNext bytes = .ok (some (line, rest))) :
    checkedLines bytes = (checkedLines rest).map (line :: ·) := by
  rw [checkedLines]
  split
  · simp_all
  · simp_all
  · simp_all

end Semicolon.ByteScan
