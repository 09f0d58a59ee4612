import Mathlib.Data.List.Lex
import Semicolon.Proofs.Layout
import Semicolon.Proofs.Utf8

/-!
# The order of paths

Paths are compared component by component, and names byte by byte.  The comparison that is made goes
by numbers that stand for components and by the code points of names; it comes to the same, because
UTF-8 keeps the order of code points: of two characters the one with the smaller number has the
smaller bytes, at the first place where they differ.

The order is strict up to spelling: of two paths one comes before the other, or they have the same
components.

## Main definitions

* `Path.Precedes`: a path comes before another.

## Main statements

* `Utf8.lex_encode_iff`: texts are in the order of their bytes.
* `Path.precedes_iff`: the order by which paths are sorted.
* `Path.mergeSort_eq_foldr`: how paths are sorted.
-/

namespace Semicolon

/-! ## Lexicographic orders -/

namespace Text

variable {α β : Type}

/-- Unequal lists are compared at the first place where they differ. -/
theorem lexLe_and_ne_iff [DecidableEq α] {le : α → α → Bool} {first second : List α} :
    lexLe le first second = true ∧ first ≠ second ↔
      List.Lex (fun a b => le a b = true ∧ a ≠ b) first second := by
  induction first generalizing second with
  | nil =>
    cases second with
    | nil => simp
    | cons b others => simp [lexLe]
  | cons a rest ih =>
    cases second with
    | nil => simp [lexLe]
    | cons b others =>
      rw [List.cons_lex_cons_iff, ← ih]
      by_cases hab : a = b
      · simp [lexLe, hab]
      · simp [lexLe, hab]

/-- Lists are compared by what their elements stand for, if no two stand for the same. -/
theorem lex_map_iff {f : α → β} (hf : Function.Injective f) {r : β → β → Prop}
    {first second : List α} :
    List.Lex r (first.map f) (second.map f) ↔ List.Lex (fun a b => r (f a) (f b)) first second := by
  induction first generalizing second with
  | nil => cases second <;> simp
  | cons a rest ih =>
    cases second with
    | nil => simp
    | cons b others => simp [List.cons_lex_cons_iff, ih, hf.eq_iff]

end Text

/-! ## The order of bytes -/

theorem Text.map_toNat_injective : Function.Injective (List.map Char.toNat) := by
  refine List.map_injective_iff.2 ?_
  intro c d h
  rw [← Char.ofNat_toNat c, ← Char.ofNat_toNat d, h]

namespace Utf8

/-- Continuation bytes are the digits of a number, so the smaller number has the smaller ones. -/
theorem lex_of_codePoint_lt {lead other : Nat} {first second : Bytes}
    (hlength : first.length = second.length)
    (hfirst : ∀ byte ∈ first, 0x80 ≤ byte.toNat ∧ byte.toNat ≤ 0xbf)
    (hsecond : ∀ byte ∈ second, 0x80 ≤ byte.toNat ∧ byte.toNat ≤ 0xbf)
    (h : codePoint lead first < codePoint other second) (before after : Bytes) :
    lead < other ∨ lead = other ∧ List.Lex (· < ·) (first ++ before) (second ++ after) := by
  induction first generalizing second lead other with
  | nil =>
    obtain rfl : second = [] := List.eq_nil_of_length_eq_zero hlength.symm
    exact .inl h
  | cons a rest ih =>
    cases second with
    | nil => simp at hlength
    | cons b others =>
      obtain ⟨ha, hrest⟩ := List.forall_mem_cons.1 hfirst
      obtain ⟨hb, hothers⟩ := List.forall_mem_cons.1 hsecond
      rw [codePoint_cons, codePoint_cons] at h
      simp only [List.cons_append, List.cons_lex_cons_iff, UInt8.lt_iff_toNat_lt,
        ← UInt8.toNat_inj]
      rcases ih (by simpa using hlength) hrest hothers h with hless | ⟨hequal, hlex⟩
      · have hdigits : lead < other ∨ lead = other ∧ a.toNat < b.toNat := by omega
        exact hdigits.imp_right fun hdigit => ⟨hdigit.1, .inl hdigit.2⟩
      · have hdigits : lead < other ∨ lead = other ∧ a.toNat = b.toNat := by omega
        exact hdigits.imp_right fun hdigit => ⟨hdigit.1, .inr ⟨hdigit.2, hlex⟩⟩

/-- A sequence is a first byte and the continuation bytes it announces. -/
theorem Sequence.exists_lead {c : Char} {bytes : Bytes} (h : Sequence c bytes) :
    ∃ (first : UInt8) (rest : Bytes) (lead : Nat), bytes = first :: rest ∧
      (∀ byte ∈ rest, 0x80 ≤ byte.toNat ∧ byte.toNat ≤ 0xbf) ∧ c.toNat = codePoint lead rest ∧
      (rest.length = 0 ∧ first.toNat = lead ∧ c.toNat < 0x80 ∧ first.toNat < 0x80 ∨
        rest.length = 1 ∧ first.toNat = lead + 0xc0 ∧ 0x80 ≤ c.toNat ∧ c.toNat < 0x800 ∧
          first.toNat < 0xe0 ∨
        rest.length = 2 ∧ first.toNat = lead + 0xe0 ∧ 0x800 ≤ c.toNat ∧ c.toNat < 0x10000 ∧
          first.toNat < 0xf0 ∨
        rest.length = 3 ∧ first.toNat = lead + 0xf0 ∧ 0x10000 ≤ c.toNat) := by
  cases h with
  | @one first hfirst hcode =>
    exact ⟨first, [], first.toNat, rfl, List.forall_mem_nil _, hcode,
      .inl ⟨rfl, rfl, by omega, hfirst⟩⟩
  | @two first second hfirst hsecond hcode =>
    rw [isContinuation_iff] at hsecond
    refine ⟨first, [second], first.toNat - 0xc0, rfl, List.forall_mem_singleton.2 hsecond, hcode,
      .inr (.inl ⟨rfl, by omega, ?_⟩)⟩
    simp only [codePoint_cons, codePoint_nil] at hcode
    omega
  | @three first second third hfirst hsecond hthird hcode =>
    rw [isSecondOfThree_iff] at hsecond
    rw [isContinuation_iff] at hthird
    have hrest : ∀ byte ∈ [second, third], 0x80 ≤ byte.toNat ∧ byte.toNat ≤ 0xbf :=
      List.forall_mem_cons.2 ⟨by omega, List.forall_mem_singleton.2 hthird⟩
    refine ⟨first, [second, third], first.toNat - 0xe0, rfl, hrest, hcode,
      .inr (.inr (.inl ⟨rfl, by omega, ?_⟩))⟩
    simp only [codePoint_cons, codePoint_nil] at hcode
    omega
  | @four first second third fourth hfirst hsecond hthird hfourth hcode =>
    rw [isSecondOfFour_iff] at hsecond
    rw [isContinuation_iff] at hthird hfourth
    have hrest : ∀ byte ∈ [second, third, fourth], 0x80 ≤ byte.toNat ∧ byte.toNat ≤ 0xbf :=
      List.forall_mem_cons.2 ⟨by omega, List.forall_mem_cons.2 ⟨hthird,
        List.forall_mem_singleton.2 hfourth⟩⟩
    refine ⟨first, [second, third, fourth], first.toNat - 0xf0, rfl, hrest, hcode,
      .inr (.inr (.inr ⟨rfl, by omega, ?_⟩))⟩
    simp only [codePoint_cons, codePoint_nil] at hcode
    omega

/-- The character with the smaller number has the smaller bytes. -/
theorem Sequence.lex_append {c d : Char} {first second : Bytes} (hfirst : Sequence c first)
    (hsecond : Sequence d second) (h : c.toNat < d.toNat) (before after : Bytes) :
    List.Lex (· < ·) (first ++ before) (second ++ after) := by
  obtain ⟨a, rest, lead, rfl, hrest, hc, hshape⟩ := hfirst.exists_lead
  obtain ⟨b, others, other, rfl, hothers, hd, hshape'⟩ := hsecond.exists_lead
  simp only [List.cons_append, List.cons_lex_cons_iff, UInt8.lt_iff_toNat_lt, ← UInt8.toNat_inj]
  by_cases hlength : rest.length = others.length
  · rw [hc, hd] at h
    rcases lex_of_codePoint_lt hlength hrest hothers h before after with hlead | ⟨hlead, hlex⟩
    · left
      omega
    · right
      exact ⟨by omega, hlex⟩
  · -- More bytes are announced by a greater first byte.
    left
    omega

theorem lex_encode_of_lex {first second : Text}
    (h : List.Lex (· < ·) (first.map Char.toNat) (second.map Char.toNat)) :
    List.Lex (· < ·) (encode first) (encode second) := by
  induction first generalizing second with
  | nil =>
    cases second with
    | nil => simp at h
    | cons d others =>
      obtain ⟨b, rest, lead, hbytes, -⟩ := (sequence_encode d).exists_lead
      rw [encode_cons, hbytes]
      exact .nil
  | cons c rest ih =>
    cases second with
    | nil => simp at h
    | cons d others =>
      rw [encode_cons, encode_cons]
      rcases List.cons_lex_cons_iff.1 h with hless | ⟨hequal, hrest⟩
      · exact (sequence_encode c).lex_append (sequence_encode d) hless _ _
      · obtain rfl : c = d := by
          rw [← Char.ofNat_toNat c, ← Char.ofNat_toNat d, hequal]
        exact List.Lex.append_left _ (ih hrest) _

/-- **Texts are in the order of their bytes.** -/
theorem lex_encode_iff {first second : Text} :
    List.Lex (· < ·) (encode first) (encode second) ↔
      List.Lex (· < ·) (first.map Char.toNat) (second.map Char.toNat) := by
  refine ⟨?_, lex_encode_of_lex⟩
  intro h
  -- Otherwise the texts would be equal or in the other order, and so would their bytes.
  rcases trichotomous_of (List.Lex (· < ·)) (first.map Char.toNat) (second.map Char.toNat) with
    hless | hequal | hgreater
  · exact hless
  · rw [Text.map_toNat_injective hequal] at h
    exact absurd h (irrefl _)
  · exact absurd h (asymm (lex_encode_of_lex hgreater))

end Utf8

/-! ## Components -/

namespace Path

/-- The kinds of components in their order. -/
def Component.rank : Component → Nat
  | root => 0
  | here => 1
  | up => 2
  | name _ => 3

/-- A component comes before another: the root first, then a leading `.`, then `..`, then names in
the order of their bytes. -/
def Component.Precedes : Component → Component → Prop
  | name first, name second => List.Lex (· < ·) (Utf8.encode first) (Utf8.encode second)
  | first, second => first.rank < second.rank

theorem Component.key_injective : Function.Injective Component.key := by
  intro first second h
  cases first <;> cases second <;> simp [key] at h ⊢
  exact Text.map_toNat_injective h

/-- Components are in the order of the numbers by which they are compared. -/
theorem Component.precedes_iff {first second : Component} :
    first.Precedes second ↔ List.Lex (· < ·) first.key second.key := by
  -- The first number of a key is the rank, and only names have more.
  cases first <;> cases second <;>
    simp only [Precedes, rank, key, List.cons_lex_cons_iff, List.not_lex_nil, Nat.lt_irrefl,
      Nat.reduceLT, Nat.reduceEqDiff, reduceCtorEq, true_and, false_and, or_false, false_or,
      Utf8.lex_encode_iff]

/-! ## Paths -/

/-- The path comes before the other, at the first component in which they differ. -/
def Precedes (path other : Path) : Prop :=
  List.Lex Component.Precedes path.components other.components

variable {path other third : Path}

theorem same_iff : path.same other = true ↔ path.components = other.components := by
  simp [same]

theorem key_eq_key_iff : path.key = other.key ↔ path.components = other.components :=
  (List.map_injective_iff.2 Component.key_injective).eq_iff

theorem map_key (paths : List Path) :
    paths.map key = (paths.map components).map (List.map Component.key) :=
  List.map_map.symm

/-- Paths are sorted by a linear order of what stands for them. -/
theorem isLinear_keys :
    Text.IsLinear (Text.lexLe (Text.lexLe fun a b : Nat => decide (a ≤ b))) := by
  refine Text.IsLinear.lexLe (Text.IsLinear.lexLe ⟨?_, ?_, ?_⟩)
  · intro a b
    simp only [Bool.or_eq_true, decide_eq_true_eq]
    omega
  · intro a b c hab hbc
    simp only [decide_eq_true_eq] at hab hbc ⊢
    omega
  · intro a b hab hba
    simp only [decide_eq_true_eq] at hab hba
    omega

/-- **Sorting puts a path before the ones it precedes**, and tells it from all but its other
spellings. -/
theorem precedes_iff :
    path.Precedes other ↔ path.le other = true ∧ path.components ≠ other.components := by
  have hnumbers : (fun a b : Nat => decide (a ≤ b) = true ∧ a ≠ b) = (· < ·) := by
    funext a b
    simp only [decide_eq_true_eq, eq_iff_iff]
    omega
  have hcomponents : (fun a b : Component =>
      Text.lexLe (fun a b => decide (a ≤ b)) a.key b.key = true ∧ a.key ≠ b.key) =
        Component.Precedes := by
    funext a b
    rw [Text.lexLe_and_ne_iff, hnumbers, ← Component.precedes_iff]
  rw [Ne, ← key_eq_key_iff, le, ← Ne, Text.lexLe_and_ne_iff, key, key,
    Text.lex_map_iff Component.key_injective, hcomponents, Precedes]

theorem le_trans (h : path.le other = true) (h' : other.le third = true) :
    path.le third = true :=
  isLinear_keys.trans _ _ _ h h'

theorem le_total (path other : Path) : (path.le other || other.le path) = true :=
  isLinear_keys.total _ _

theorem components_eq_of_le (h : path.le other = true) (h' : other.le path = true) :
    path.components = other.components :=
  key_eq_key_iff.1 (isLinear_keys.antisymm _ _ h h')

theorem Precedes.trans_le (h : path.Precedes other) (h' : other.le third = true) :
    path.Precedes third := by
  rw [precedes_iff] at h ⊢
  refine ⟨le_trans h.1 h', ?_⟩
  intro hsame
  rw [← key_eq_key_iff] at hsame
  have hback : other.le path = true := by rwa [le, hsame]
  exact h.2 (components_eq_of_le h.1 hback)

/-! ## Sorting -/

/-- Puts a path before the first of sorted paths that it is not above. -/
def insertInto (path : Path) (sorted : List Path) : List Path :=
  sorted.takeWhile (fun other => !path.le other) ++
    path :: sorted.dropWhile fun other => !path.le other

/-- **Paths are sorted by inserting them one by one**, the last one first. -/
theorem mergeSort_eq_foldr (paths : List Path) :
    paths.mergeSort le = paths.foldr insertInto [] := by
  induction paths with
  | nil => exact List.mergeSort_nil
  | cons path rest ih =>
    have htrans : ∀ first second third : Path,
        first.le second = true → second.le third = true → first.le third = true := by
      intro _ _ _ h h'
      exact le_trans h h'
    obtain ⟨front, back, hsorted, hrest, hfront⟩ :=
      List.mergeSort_cons htrans le_total path rest
    have hpairwise := List.pairwise_mergeSort htrans le_total (path :: rest)
    rw [hsorted, List.pairwise_append, List.pairwise_cons] at hpairwise
    rw [List.foldr_cons, ← ih, hrest, hsorted, insertInto,
      List.takeWhile_append_of_pos hfront, List.dropWhile_append_of_pos hfront]
    -- What comes behind is not below the path, so the search ends there.
    cases back with
    | nil => simp
    | cons next more =>
      have hnext : path.le next = true := hpairwise.2.1.1 next (by simp)
      simp [hnext]

end Path

end Semicolon
