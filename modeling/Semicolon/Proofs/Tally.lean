import Semicolon.Tally

/-!
# Merging tallies

The tally of a list of lines can be taken piece by piece: the tally of two lists, one after the
other, is the merge of their tallies.  Everything about the counts by rule goes through one view
of them, the entry that a name has.  Entries stand in ascending order, so the view determines
the counts, and merging adds it up name by name.

## Main statements

* `RuleCounts.ext_entryOf`: counts with the same entries are equal.
* `RuleCounts.entryOf_merge`: what merging does to an entry.
* `Tally.ofLines_append`: the tally of two lists of lines.
* `Tally.foldl_merge_ofLines`: the tally of any number of lists of lines.
-/

namespace Semicolon

/-! ## Entries of ascending lists -/

namespace RuleCounts

/-- The entry of a name is the first one with that name. -/
theorem lookup_cons_eq_if (name key : String) (value : Nat) (rest : List (String × Nat)) :
    ((key, value) :: rest).lookup name = if name = key then some value else rest.lookup name := by
  rw [List.lookup_cons]
  by_cases h : name = key
  · simp [h]
  · have hbeq : (name == key) = false := by simpa using h
    simp [h, hbeq]

/-- A name that stands before all others has no entry. -/
theorem lookup_eq_none_of_lt {name : String} {entries : List (String × Nat)}
    (h : ∀ entry ∈ entries, name < entry.1) : entries.lookup name = none := by
  rw [List.lookup_eq_none_iff]
  intro entry hmem
  have hne : name ≠ entry.1 := by
    intro heq
    exact String.lt_irrefl name (heq ▸ h entry hmem)
  simpa using hne

/-- In an ascending list a name has one entry at most, so looking it up finds that one. -/
theorem mem_iff_lookup {entries : List (String × Nat)} (h : Ascending entries) {name : String}
    {count : Nat} : (name, count) ∈ entries ↔ entries.lookup name = some count := by
  induction entries with
  | nil => simp
  | cons first rest ih =>
    obtain ⟨key, value⟩ := first
    obtain ⟨below, tail⟩ := List.pairwise_cons.1 h
    rw [lookup_cons_eq_if]
    by_cases hkey : name = key
    · subst hkey
      have absent : (name, count) ∉ rest := by
        intro hmem
        exact String.lt_irrefl name (below _ hmem)
      simp [absent, eq_comm]
    · simpa [hkey] using ih tail

/-- **Ascending lists with the same entries are equal.** -/
theorem eq_of_lookup_eq {first second : List (String × Nat)} (hfirst : Ascending first)
    (hsecond : Ascending second) (h : ∀ name, first.lookup name = second.lookup name) :
    first = second := by
  have distinct {entries : List (String × Nat)} (asc : Ascending entries) : entries.Nodup := by
    refine asc.imp ?_
    rintro a b hlt rfl
    exact String.lt_irrefl a.1 hlt
  have same : first.Perm second := by
    rw [List.perm_ext_iff_of_nodup (distinct hfirst) (distinct hsecond)]
    rintro ⟨name, count⟩
    rw [mem_iff_lookup hfirst, mem_iff_lookup hsecond, h]
  refine same.eq_of_pairwise ?_ hfirst hsecond
  intro a b _ _ hab hba
  exact absurd hba (String.lt_asymm hab)

/-- Adding to an entry makes it if it is not there, and leaves all others alone. -/
theorem lookup_addEntry {entries : List (String × Nat)} (h : Ascending entries)
    (name other : String) (count : Nat) :
    (addEntry name count entries).lookup other =
      (entries.lookup other).merge (· + ·) (if other = name then some count else none) := by
  induction entries with
  | nil => simp [addEntry, lookup_cons_eq_if]
  | cons first rest ih =>
    obtain ⟨key, value⟩ := first
    obtain ⟨below, tail⟩ := List.pairwise_cons.1 h
    unfold addEntry
    split
    · next lt =>
      -- The new entry goes to the front: nothing behind it has its name.
      have absent : ((key, value) :: rest).lookup name = none := by
        refine lookup_eq_none_of_lt ?_
        intro entry hmem
        rcases List.mem_cons.1 hmem with rfl | hmem
        · exact lt
        · exact String.lt_trans lt (below entry hmem)
      rw [lookup_cons_eq_if]
      by_cases hother : other = name
      · subst hother
        simp [absent]
      · simp [hother]
    · split
      · next heq =>
        subst heq
        by_cases hother : other = name <;> simp [lookup_cons_eq_if, hother]
      · next hne =>
        by_cases hother : other = key
        · subst hother
          simp [Ne.symm hne]
        · simpa [lookup_cons_eq_if, hother] using ih tail

/-! ## The view of counts by name -/

/-- The entry of `name`, if there is one. -/
def entryOf (counts : RuleCounts) (name : String) : Option Nat :=
  counts.entries.lookup name

/-- Counts with the same entries are equal. -/
theorem ext_entryOf {first second : RuleCounts}
    (h : ∀ name, first.entryOf name = second.entryOf name) : first = second := by
  ext1
  exact eq_of_lookup_eq first.ascending second.ascending h

@[simp] theorem entryOf_empty (name : String) : empty.entryOf name = none := rfl

@[simp] theorem entryOf_add (counts : RuleCounts) (name other : String) (count : Nat) :
    (counts.add name count).entryOf other =
      (counts.entryOf other).merge (· + ·) (if other = name then some count else none) :=
  lookup_addEntry counts.ascending name other count

/-- Adding entries one by one adds each of them once, because no two have the same name. -/
theorem entryOf_foldl_add {entries : List (String × Nat)} (h : Ascending entries)
    (counts : RuleCounts) (name : String) :
    (entries.foldl (fun sum entry => sum.add entry.1 entry.2) counts).entryOf name =
      (counts.entryOf name).merge (· + ·) (entries.lookup name) := by
  induction entries generalizing counts with
  | nil => simp
  | cons first rest ih =>
    obtain ⟨key, value⟩ := first
    obtain ⟨below, tail⟩ := List.pairwise_cons.1 h
    rw [List.foldl_cons, ih tail, entryOf_add, lookup_cons_eq_if]
    by_cases hname : name = key
    · subst hname
      simp [lookup_eq_none_of_lt below]
    · simp [hname]

/-- **Merging adds up the two entries of every name.** -/
@[simp] theorem entryOf_merge (counts other : RuleCounts) (name : String) :
    (counts.merge other).entryOf name =
      (counts.entryOf name).merge (· + ·) (other.entryOf name) :=
  entryOf_foldl_add other.ascending counts name

@[simp] theorem merge_empty (counts : RuleCounts) : counts.merge empty = counts := rfl

/-- Counting after a merge is counting in the part that was merged in. -/
theorem add_merge (counts other : RuleCounts) (name : String) (count : Nat) :
    (counts.merge other).add name count = counts.merge (other.add name count) := by
  refine ext_entryOf ?_
  intro key
  simp only [entryOf_add, entryOf_merge]
  exact Std.Associative.assoc _ _ _

end RuleCounts

/-! ## Tallies -/

namespace Tally

@[simp] theorem merge_zero (tally : Tally) : tally.merge zero = tally := rfl

/-- One decision counted after a merge is counted in the part that was merged in. -/
theorem record_merge (tally other : Tally) (decision : Decision) :
    (tally.merge other).record decision = tally.merge (other.record decision) := by
  cases decision with
  | passThrough => rfl
  | terminate reason =>
    ext1
    · rfl
    · rfl
    · exact RuleCounts.add_merge _ _ _ _

/-- The same for any number of decisions. -/
theorem foldl_record_merge (tally other : Tally) (decisions : List Decision) :
    decisions.foldl record (tally.merge other) = tally.merge (decisions.foldl record other) := by
  induction decisions generalizing other with
  | nil => rfl
  | cons decision rest ih => rw [List.foldl_cons, record_merge, ih, List.foldl_cons]

@[simp] theorem ofLines_nil : ofLines [] = zero := rfl

/-- **The tally of two lists of lines is the merge of their tallies.** -/
theorem ofLines_append (first second : List Text) :
    ofLines (first ++ second) = (ofLines first).merge (ofLines second) := by
  have split : ofLines (first ++ second) =
      (second.map decideLine).foldl record (ofLines first) := by
    rw [ofLines, List.map_append, List.foldl_append, ofLines]
  rw [split, ← merge_zero (ofLines first), foldl_record_merge]
  rfl

theorem ofLines_cons (line : Text) (rest : List Text) :
    ofLines (line :: rest) = (ofLines [line]).merge (ofLines rest) :=
  ofLines_append [line] rest

/-- Every line is counted. -/
theorem lines_ofLines (list : List Text) : (ofLines list).lines = list.length := by
  induction list with
  | nil => rfl
  | cons line rest ih =>
    have single : (ofLines [line]).lines = 1 := by
      cases h : decideLine line <;> simp [ofLines, record, zero, Decision.reason?, h]
    rw [ofLines_cons, merge, single, ih, List.length_cons, Nat.add_comm]

/-- Where every line passes through, there is nothing to count but lines. -/
theorem ofLines_of_passThrough {list : List Text}
    (h : ∀ line ∈ list, decideLine line = .passThrough) :
    ofLines list = { zero with lines := list.length } := by
  induction list with
  | nil => rfl
  | cons line rest ih =>
    obtain ⟨hline, hrest⟩ := List.forall_mem_cons.1 h
    have single : ofLines [line] = { zero with lines := 1 } := by
      simp [ofLines, record, zero, Decision.reason?, hline]
    rw [ofLines_cons, single, ih hrest, List.length_cons, Nat.add_comm]
    rfl

/-- Tallies of lists of lines, merged in order onto the tally of the lines before them. -/
theorem foldl_merge_ofLines (before : List Text) (parts : List (List Text)) :
    (parts.map ofLines).foldl merge (ofLines before) = ofLines (before ++ parts.flatten) := by
  induction parts generalizing before with
  | nil => simp
  | cons part rest ih =>
    rw [List.map_cons, List.foldl_cons, ← ofLines_append, ih, List.flatten_cons, List.append_assoc]

end Tally

end Semicolon
