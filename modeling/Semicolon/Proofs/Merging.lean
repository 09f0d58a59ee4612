import Mathlib.Algebra.BigOperators.Group.List.Basic
import Semicolon.Proofs.Tally
import Semicolon.Rendering

/-!
# Tallies are merged in any order

Merging adds up the entries of every name, and sums do not depend on how they are formed.  So the
tallies are a commutative monoid, and the tally of a list of lines is the sum of the tallies of its
single lines: neither the order of the lines nor the way in which they are handed out and gathered
again can be seen in it.

A plan says how tallies are gathered: which of them are merged first, and which of the results after
that.  Merging from left to right, pairwise, and as the tallies come in are all plans.

## Main definitions

* `Tally.Plan`: tallies with an order and a grouping.

## Main statements

* `Tally.merge_assoc`, `Tally.merge_comm`, `Tally.zero_merge`: the laws.
* `Tally.ofLines_eq_sum`: the tally of a list of lines is a sum.
* `Tally.Plan.result_eq_sum`: a plan comes to the sum of its parts.
-/

namespace Semicolon

/-! ## The laws -/

namespace RuleCounts

@[simp] theorem empty_merge (counts : RuleCounts) : empty.merge counts = counts := by
  refine ext_entryOf ?_
  intro name
  simp only [entryOf_merge, entryOf_empty, Option.merge_none_left]

theorem merge_assoc (first second third : RuleCounts) :
    (first.merge second).merge third = first.merge (second.merge third) := by
  refine ext_entryOf ?_
  intro name
  simp only [entryOf_merge]
  exact Std.Associative.assoc _ _ _

theorem merge_comm (first second : RuleCounts) : first.merge second = second.merge first := by
  refine ext_entryOf ?_
  intro name
  simp only [entryOf_merge]
  exact Std.Commutative.comm _ _

end RuleCounts

namespace Tally

@[simp] theorem zero_merge (tally : Tally) : zero.merge tally = tally := by
  ext1
  · exact Nat.zero_add _
  · exact Nat.zero_add _
  · exact RuleCounts.empty_merge _

theorem merge_assoc (first second third : Tally) :
    (first.merge second).merge third = first.merge (second.merge third) := by
  ext1
  · exact Nat.add_assoc _ _ _
  · exact Nat.add_assoc _ _ _
  · exact RuleCounts.merge_assoc _ _ _

theorem merge_comm (first second : Tally) : first.merge second = second.merge first := by
  ext1
  · exact Nat.add_comm _ _
  · exact Nat.add_comm _ _
  · exact RuleCounts.merge_comm _ _

instance : Zero Tally := ⟨zero⟩

/-- Tallies are added by merging them. -/
instance : Add Tally := ⟨merge⟩

instance : AddCommMonoid Tally where
  add_assoc := merge_assoc
  zero_add := zero_merge
  add_zero := merge_zero
  add_comm := merge_comm
  nsmul := nsmulRec

/-! ## Sums of tallies -/

/-- **The tally of a list of lines is the sum of the tallies of its lines.** -/
theorem ofLines_eq_sum (list : List Text) :
    ofLines list = (list.map fun line => ofLines [line]).sum := by
  induction list with
  | nil => rfl
  | cons line rest ih =>
    rw [ofLines_cons, ih, List.map_cons, List.sum_cons]
    rfl

/-- The order of the lines is not seen in their tally. -/
theorem ofLines_perm {first second : List Text} (h : first.Perm second) :
    ofLines first = ofLines second := by
  rw [ofLines_eq_sum, ofLines_eq_sum]
  exact (h.map _).sum_eq

theorem sum_map_ofLines (parts : List (List Text)) :
    (parts.map ofLines).sum = ofLines parts.flatten := by
  induction parts with
  | nil => rfl
  | cons part rest ih =>
    rw [List.map_cons, List.sum_cons, ih, List.flatten_cons, ofLines_append]
    rfl

/-! ## Plans -/

/-- How tallies are gathered to one. -/
inductive Plan
  /-- Nothing is gathered. -/
  | nothing
  /-- A tally is taken as it is. -/
  | part (tally : Tally)
  /-- What the first plan comes to is merged with what the second comes to. -/
  | both (first second : Plan)

namespace Plan

/-- The tallies that are gathered, from left to right. -/
def parts : Plan → List Tally
  | nothing => []
  | part tally => [tally]
  | both first second => first.parts ++ second.parts

/-- What the plan comes to. -/
def result : Plan → Tally
  | nothing => zero
  | part tally => tally
  | both first second => first.result.merge second.result

/-- **A plan comes to the sum of its parts**, whatever is merged first. -/
theorem result_eq_sum (plan : Plan) : plan.result = plan.parts.sum := by
  induction plan with
  | nothing => rfl
  | part tally => exact List.sum_singleton.symm
  | both first second hfirst hsecond =>
    rw [result, parts, hfirst, hsecond, List.sum_append]
    rfl

/-- A plan for the tallies of some chunks, in any order, comes to the tally of their lines. -/
theorem result_of_perm {plan : Plan} {chunks : List (List Text)}
    (h : plan.parts.Perm (chunks.map ofLines)) : plan.result = ofLines chunks.flatten := by
  rw [result_eq_sum, h.sum_eq, sum_map_ofLines]

end Plan

end Tally

/-- The tally of renderings that are put together is the sum of their tallies. -/
theorem Rendering.tally_join (parts : List Rendering) :
    (Rendering.join parts).tally = (parts.map (·.tally)).sum := by
  rw [List.sum_eq_foldl, List.foldl_map]
  rfl

namespace Tally

/-- **Tallies may be merged in any order and grouping.**  Merging is associative and commutative,
and the tally of nothing changes nothing on either side.  The tally of rendered lines takes
concatenation to merging and does not depend on the order of the lines.  So if the lines, in any
order, are cut into chunks anywhere, the tallies of the chunks come to the same under every plan
that takes each of them once, and also when the chunks are put together from left to right in any
order. -/
theorem merged_in_any_order :
    (∀ first second third : Tally,
      (first.merge second).merge third = first.merge (second.merge third)) ∧
    (∀ first second : Tally, first.merge second = second.merge first) ∧
    (∀ tally : Tally, zero.merge tally = tally ∧ tally.merge zero = tally) ∧
    (∀ first second : List Text,
      (Rendering.ofLines (first ++ second)).tally =
        (Rendering.ofLines first).tally.merge (Rendering.ofLines second).tally) ∧
    (∀ first second : List Text, first.Perm second →
      (Rendering.ofLines first).tally = (Rendering.ofLines second).tally) ∧
    (∀ (lines : List Text) (chunks : List (List Text)) (plan : Plan),
      chunks.flatten.Perm lines →
      plan.parts.Perm (chunks.map fun chunk => (Rendering.ofLines chunk).tally) →
      plan.result = (Rendering.ofLines lines).tally) ∧
    ∀ (lines : List Text) (chunks : List (List Text)) (parts : List Rendering),
      chunks.flatten.Perm lines → parts.Perm (chunks.map Rendering.ofLines) →
      (Rendering.join parts).tally = (Rendering.ofLines lines).tally := by
  refine ⟨merge_assoc, merge_comm, fun tally => ⟨zero_merge tally, merge_zero tally⟩,
    ofLines_append, fun _ _ => ofLines_perm, ?_, ?_⟩
  · intro lines chunks plan hlines hparts
    exact (Plan.result_of_perm hparts).trans (ofLines_perm hlines)
  · intro lines chunks parts hlines hparts
    have htallies := (hparts.map (·.tally)).sum_eq
    rw [List.map_map] at htallies
    rw [Rendering.tally_join, htallies]
    exact (sum_map_ofLines chunks).trans (ofLines_perm hlines)

/-- Three lines are cut into two chunks, of which the second is merged first and something empty in
between. -/
theorem merged_in_any_order_backwards :
    [[['x']], [[], ['i', '+', '+']]].flatten.Perm [['i', '+', '+'], ['x'], []] ∧
    (Plan.both (.part (ofLines [[], ['i', '+', '+']]))
      (.both .nothing (.part (ofLines [['x']])))).result =
      (Rendering.ofLines [['i', '+', '+'], ['x'], []]).tally := by
  have hlines : [[['x']], [[], ['i', '+', '+']]].flatten.Perm
      [['i', '+', '+'], ['x'], []] := by decide
  exact ⟨hlines, merged_in_any_order.2.2.2.2.2.1 _ _ _ hlines (List.Perm.swap _ _ _)⟩

end Tally

end Semicolon
