import Semicolon.Tally

/-!
# Tallies of bounded counters

A counter in a machine word holds no number above `Counter.largest`.  The operations on tallies are
given once more for such counters: each forms its sums one by one and has no result as soon as one
of them is too large.  Where they have a result, it is that of the operations without bounds.

A tally does not say which decisions it has counted.  `Tally.recorded` does: it is the list of
them, in which a decision occurs as often as it was counted.

## Main definitions

* `Counter.add?`, `Counter.sub?`: what can be done with bounded counters.
* `Tally.step?`, `Tally.history?`: steps and runs on bounded counters.
* `Tally.recorded`: the decisions that a run has counted.
-/

namespace Semicolon

namespace Counter

/-- The largest number that a counter holds. -/
def largest : Nat := Nat.pow 2 64 - 1

/-- The sum of two counters, if a counter holds it. -/
def add? (first second : Nat) : Option Nat :=
  if first + second ≤ largest then some (first + second) else none

/-- What is left of the first counter, if the second is not the larger one. -/
def sub? (first second : Nat) : Option Nat :=
  if second ≤ first then some (first - second) else none

end Counter

namespace RuleCounts

/-- Adds `count` to the entry of `name`, if a counter holds the sum. -/
def add? (counts : RuleCounts) (name : String) (count : Nat) : Option RuleCounts :=
  (Counter.add? (counts.count name) count).map fun _ => counts.add name count

/-- Adds every entry of `other`. -/
def merge? (counts other : RuleCounts) : Option RuleCounts :=
  other.entries.foldlM (fun sum entry => sum.add? entry.1 entry.2) counts

end RuleCounts

namespace Tally

/-- Counts one decision. -/
def record? (tally : Tally) (decision : Decision) : Option Tally := do
  let lines ← Counter.add? tally.lines 1
  match decision.reason? with
  | some reason =>
    let terminated ← Counter.add? tally.terminated 1
    let byRule ← tally.byRule.add? reason.name 1
    return ⟨lines, terminated, byRule⟩
  | none => return { tally with lines }

/-- Adds the counts of `other`. -/
def merge? (tally other : Tally) : Option Tally := do
  let lines ← Counter.add? tally.lines other.lines
  let terminated ← Counter.add? tally.terminated other.terminated
  let byRule ← tally.byRule.merge? other.byRule
  return ⟨lines, terminated, byRule⟩

/-- How many lines were left as they are. -/
def passedThrough? (tally : Tally) : Option Nat :=
  Counter.sub? tally.lines tally.terminated

/-- The tally of a list of lines. -/
def ofLines? (lines : List Text) : Option Tally :=
  (lines.map decideLine).foldlM record? zero

/-- The tally after one step. -/
def step? (tally : Tally) : Step → Option Tally
  | .record line => tally.record? (decideLine line)
  | .merge lines => (ofLines? lines).bind tally.merge?
  | .mergeSelf => tally.merge? tally
  | .reset => some zero

/-- The tallies after each of the steps. -/
def history? (tally : Tally) : List Step → Option (List Tally)
  | [] => some []
  | step :: rest => do
    let next ← tally.step? step
    let later ← next.history? rest
    return next :: later

/-- The decisions that are counted after a step, if `before` are counted before it. -/
def Step.recorded (before : List Decision) : Step → List Decision
  | .record line => before ++ [decideLine line]
  | .merge lines => before ++ lines.map decideLine
  | .mergeSelf => before ++ before
  | .reset => []

/-- The decisions that are counted after all of the steps. -/
def recorded (steps : List Step) : List Decision :=
  steps.foldl Step.recorded []

end Tally

end Semicolon
