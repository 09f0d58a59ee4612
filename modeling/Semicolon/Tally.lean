import Semicolon.Decision

/-!
# Tallies

A tally counts the lines that were decided, those that got a terminator, and how often each
rule fired.  The counts of the rules are kept in ascending order of the rules' names, and a
rule that never fired has no entry.

Two tallies are merged by adding up all their counts.  Counts are natural numbers, so no sum
ever wraps.

## Main definitions

* `RuleCounts`: counts by name, in ascending order.
* `Tally.record`: counts one decision.
* `Tally.merge`: adds another tally.
* `Tally.Step`: what may happen to a tally over time.
-/

namespace Semicolon

/-! ## Counts by name -/

namespace RuleCounts

/-- Names stand in strictly ascending order. -/
abbrev Ascending (entries : List (String × Nat)) : Prop :=
  entries.Pairwise (·.1 < ·.1)

/-- Adds `count` to the entry of `name`, which is made in its place if there is none. -/
def addEntry (name : String) (count : Nat) : List (String × Nat) → List (String × Nat)
  | [] => [(name, count)]
  | (key, value) :: rest =>
    if name < key then (name, count) :: (key, value) :: rest
    else if name = key then (key, value + count) :: rest
    else (key, value) :: addEntry name count rest

theorem mem_addEntry {name : String} {count : Nat} {entries : List (String × Nat)}
    {entry : String × Nat} (h : entry ∈ addEntry name count entries) :
    entry.1 = name ∨ ∃ other ∈ entries, other.1 = entry.1 := by
  induction entries with
  | nil => simp_all [addEntry]
  | cons first rest ih =>
    obtain ⟨key, value⟩ := first
    unfold addEntry at h
    split at h
    · rcases List.mem_cons.1 h with rfl | h
      · exact .inl rfl
      · exact .inr ⟨entry, h, rfl⟩
    · split at h
      · rcases List.mem_cons.1 h with rfl | h
        · exact .inr ⟨(key, value), by simp, rfl⟩
        · exact .inr ⟨entry, List.mem_cons_of_mem _ h, rfl⟩
      · rcases List.mem_cons.1 h with rfl | h
        · exact .inr ⟨(key, value), by simp, rfl⟩
        · rcases ih h with h | ⟨other, hmem, heq⟩
          · exact .inl h
          · exact .inr ⟨other, List.mem_cons_of_mem _ hmem, heq⟩

theorem ascending_addEntry {name : String} {count : Nat} {entries : List (String × Nat)}
    (h : Ascending entries) : Ascending (addEntry name count entries) := by
  induction entries with
  | nil => simp [addEntry, Ascending]
  | cons first rest ih =>
    obtain ⟨key, value⟩ := first
    obtain ⟨below, tail⟩ := List.pairwise_cons.1 h
    unfold addEntry
    split
    · next lt =>
      refine List.pairwise_cons.2 ⟨?_, h⟩
      intro entry hmem
      rcases List.mem_cons.1 hmem with rfl | hmem
      · exact lt
      · exact String.lt_trans lt (below entry hmem)
    · split
      · exact List.pairwise_cons.2 ⟨below, tail⟩
      · next notLt notEq =>
        refine List.pairwise_cons.2 ⟨?_, ih tail⟩
        intro entry hmem
        rcases mem_addEntry hmem with heq | ⟨other, hother, heq⟩
        · rw [heq]
          refine String.not_le.1 fun le => notEq ?_
          exact String.le_antisymm le (String.not_lt.1 notLt)
        · exact heq ▸ below other hother

end RuleCounts

/-- Counts by rule name, in strictly ascending order of the names. -/
@[ext] structure RuleCounts where
  entries : List (String × Nat)
  ascending : RuleCounts.Ascending entries

namespace RuleCounts

/-- No rule has fired. -/
def empty : RuleCounts := ⟨[], .nil⟩

/-- Adds `count` to the entry of `name`. -/
def add (counts : RuleCounts) (name : String) (count : Nat) : RuleCounts :=
  ⟨addEntry name count counts.entries, ascending_addEntry counts.ascending⟩

/-- How often the rule called `name` fired: zero if it has no entry. -/
def count (counts : RuleCounts) (name : String) : Nat :=
  (counts.entries.lookup name).getD 0

/-- Adds every entry of `other`. -/
def merge (counts other : RuleCounts) : RuleCounts :=
  other.entries.foldl (fun sum entry => sum.add entry.1 entry.2) counts

/-- The sum of all counts. -/
def total (counts : RuleCounts) : Nat :=
  counts.entries.foldr (fun entry sum => entry.2 + sum) 0

end RuleCounts

/-! ## Tallies -/

/-- How many lines were decided, how many were terminated, and by which rules. -/
@[ext] structure Tally where
  lines : Nat
  terminated : Nat
  byRule : RuleCounts

namespace Tally

/-- Nothing has been decided yet. -/
def zero : Tally := ⟨0, 0, .empty⟩

/-- Counts one decision. -/
def record (tally : Tally) (decision : Decision) : Tally :=
  match decision.reason? with
  | some reason =>
    ⟨tally.lines + 1, tally.terminated + 1, tally.byRule.add reason.name 1⟩
  | none => { tally with lines := tally.lines + 1 }

/-- Adds the counts of `other`. -/
def merge (tally other : Tally) : Tally :=
  ⟨tally.lines + other.lines, tally.terminated + other.terminated,
    tally.byRule.merge other.byRule⟩

/-- How many lines were left as they are. -/
def passedThrough (tally : Tally) : Nat :=
  tally.lines - tally.terminated

/-- The tally of a list of lines. -/
def ofLines (lines : List Text) : Tally :=
  (lines.map decideLine).foldl record zero

/-- Something that happens to a tally. -/
inductive Step
  /-- A line is decided and counted. -/
  | record (line : Text)
  /-- The tally of some lines is merged in. -/
  | merge (lines : List Text)
  /-- The tally is merged with itself. -/
  | mergeSelf
  /-- Counting starts again. -/
  | reset

/-- The tally after one step. -/
def step (tally : Tally) : Step → Tally
  | .record line => tally.record (decideLine line)
  | .merge lines => tally.merge (ofLines lines)
  | .mergeSelf => tally.merge tally
  | .reset => zero

/-- The tallies after each of the steps, beginning from `tally`. -/
def history (tally : Tally) : List Step → List Tally
  | [] => []
  | step :: rest => tally.step step :: history (tally.step step) rest

end Tally

end Semicolon
