import Mathlib.Data.List.Induction
import Mathlib.Data.List.Nodup
import Semicolon.Proofs.Tally
import Semicolon.Tally.Bounded

/-!
# Tallies account for decisions

Whatever happens to a tally, it is at all times the tally of a list of decisions: those that were
recorded, each as often as it was counted.  So one description of the tally of a list is enough.
It has all lines as its first counter, the terminated ones as its second, and for every name the
number of decisions with that name, where a name that never occurs has no entry.

No counter exceeds the number of lines.  On bounded counters a run therefore goes through as long
as the lines can be counted, and no other sum is ever too large.

## Main statements

* `Tally.accounts_ofDecisions`: the tally of a list of decisions.
* `Tally.step_ofDecisions`, `Tally.getElem?_history`: a run is the tally of what was recorded.
* `Tally.step?_ofDecisions`, `Tally.history?_ofDecisions`: the same on bounded counters.
-/

namespace Semicolon

/-! ## Names of rules -/

theorem Reason.mem_all (reason : Reason) : reason ∈ Reason.all := by
  cases reason with
  | suffix which => simp [Reason.all, which.mem_all]
  | token rule => simp [Reason.all, rule.mem_all]

/-- No two rules are counted under the same name. -/
theorem Reason.name_injective : Function.Injective Reason.name := by
  have hnodup : (Reason.all.map Reason.name).Nodup := by decide
  intro first second h
  exact List.inj_on_of_nodup_map hnodup first.mem_all second.mem_all h

/-! ## Sums of counts -/

namespace RuleCounts

theorem count_eq_getD (counts : RuleCounts) (name : String) :
    counts.count name = (counts.entryOf name).getD 0 := rfl

@[simp] theorem total_add (counts : RuleCounts) (name : String) (count : Nat) :
    (counts.add name count).total = counts.total + count := by
  simp only [total, add]
  induction counts.entries with
  | nil => simp [addEntry]
  | cons first rest ih =>
    unfold addEntry
    split
    · simp only [List.foldr_cons]
      omega
    · split
      · simp only [List.foldr_cons]
        omega
      · simp only [List.foldr_cons, ih]
        omega

theorem count_le_total (counts : RuleCounts) (name : String) :
    counts.count name ≤ counts.total := by
  simp only [count, total]
  induction counts.entries with
  | nil => simp
  | cons first rest ih =>
    rw [lookup_cons_eq_if]
    by_cases h : name = first.1
    · simp [h]
    · simp only [h, if_false, List.foldr_cons]
      omega

/-- Entries are added as long as their sum can be counted. -/
theorem foldlM_add?_eq_some {entries : List (String × Nat)} {counts : RuleCounts}
    (h : counts.total + entries.foldr (fun entry sum => entry.2 + sum) 0 ≤ Counter.largest) :
    entries.foldlM (fun sum entry => sum.add? entry.1 entry.2) counts =
      some (entries.foldl (fun sum entry => sum.add entry.1 entry.2) counts) := by
  induction entries generalizing counts with
  | nil => rfl
  | cons first rest ih =>
    rw [List.foldr_cons] at h
    have hcount := counts.count_le_total first.1
    have hfirst : counts.count first.1 + first.2 ≤ Counter.largest := by omega
    have hadd : counts.add? first.1 first.2 = some (counts.add first.1 first.2) := by
      simp [add?, Counter.add?, hfirst]
    have htotal := counts.total_add first.1 first.2
    rw [List.foldlM_cons, hadd, List.foldl_cons]
    apply ih
    omega

/-- Counts are merged as long as their sum can be counted. -/
theorem merge?_eq_some {counts other : RuleCounts}
    (h : counts.total + other.total ≤ Counter.largest) :
    counts.merge? other = some (counts.merge other) :=
  foldlM_add?_eq_some h

end RuleCounts

/-! ## The tally of a list of decisions -/

namespace Tally

/-- The tally of a list of decisions. -/
def ofDecisions (decisions : List Decision) : Tally :=
  decisions.foldl record zero

theorem ofLines_eq_ofDecisions (lines : List Text) :
    ofLines lines = ofDecisions (lines.map decideLine) := rfl

theorem ofDecisions_concat (decisions : List Decision) (decision : Decision) :
    ofDecisions (decisions ++ [decision]) = (ofDecisions decisions).record decision := by
  simp [ofDecisions]

theorem ofDecisions_append (first second : List Decision) :
    ofDecisions (first ++ second) = (ofDecisions first).merge (ofDecisions second) := by
  simp only [ofDecisions, List.foldl_append]
  rw [← foldl_record_merge, merge_zero]

@[simp] theorem record_passThrough (tally : Tally) :
    tally.record .passThrough = { tally with lines := tally.lines + 1 } := rfl

@[simp] theorem record_terminate (tally : Tally) (reason : Reason) :
    tally.record (.terminate reason) =
      ⟨tally.lines + 1, tally.terminated + 1, tally.byRule.add reason.name 1⟩ := rfl

/-- How many of the decisions are counted under the name. -/
def firings (name : String) (decisions : List Decision) : Nat :=
  decisions.countP fun decision => decision.reason?.map Reason.name == some name

@[simp] theorem firings_concat_passThrough (name : String) (decisions : List Decision) :
    firings name (decisions ++ [.passThrough]) = firings name decisions := by
  simp [firings, Decision.reason?]

@[simp] theorem firings_concat_terminate (name : String) (decisions : List Decision)
    (reason : Reason) :
    firings name (decisions ++ [.terminate reason]) =
      firings name decisions + if name = reason.name then 1 else 0 := by
  by_cases h : name = reason.name
  · simp [firings, Decision.reason?, h]
  · have hother : reason.name ≠ name := Ne.symm h
    simp [firings, Decision.reason?, h, hother]

/-- The tally counts these decisions: all of them, those that terminate, and those of every name.
A name that does not occur has no entry. -/
structure Accounts (tally : Tally) (decisions : List Decision) : Prop where
  lines : tally.lines = decisions.length
  terminated : tally.terminated = decisions.countP (·.terminates)
  total : tally.byRule.total = decisions.countP (·.terminates)
  entryOf : ∀ name, tally.byRule.entryOf name =
    if firings name decisions = 0 then none else some (firings name decisions)

/-- Recording a decision keeps the account. -/
theorem Accounts.record {tally : Tally} {decisions : List Decision}
    (h : tally.Accounts decisions) (decision : Decision) :
    (tally.record decision).Accounts (decisions ++ [decision]) := by
  cases decision with
  | passThrough =>
    constructor
    · simp [h.lines]
    · simp [h.terminated]
    · simp [h.total]
    · intro name
      simp [h.entryOf]
  | terminate reason =>
    constructor
    · simp [h.lines]
    · simp [h.terminated]
    · simp [h.total]
    · intro name
      rw [record_terminate, RuleCounts.entryOf_add, h.entryOf, firings_concat_terminate]
      by_cases hname : name = reason.name
      · -- The entry is made by the first decision of its name.
        by_cases hzero : firings name decisions = 0 <;> simp [hname, hname ▸ hzero]
      · simp [hname]

/-- **The tally of a list of decisions accounts for it.** -/
theorem accounts_ofDecisions (decisions : List Decision) :
    (ofDecisions decisions).Accounts decisions := by
  induction decisions using List.reverseRecOn with
  | nil => exact ⟨rfl, rfl, rfl, fun _ => rfl⟩
  | append_singleton decisions decision ih =>
    rw [ofDecisions_concat]
    exact ih.record decision

section Consequences

variable {tally : Tally} {decisions : List Decision}

theorem Accounts.terminated_le_lines (h : tally.Accounts decisions) :
    tally.terminated ≤ tally.lines := by
  rw [h.terminated, h.lines]
  exact List.countP_le_length

theorem Accounts.count_eq_firings (h : tally.Accounts decisions) (name : String) :
    tally.byRule.count name = firings name decisions := by
  rw [RuleCounts.count_eq_getD, h.entryOf]
  by_cases hzero : firings name decisions = 0 <;> simp [hzero]

/-- Under the name of a rule its own decisions are counted, and no others. -/
theorem firings_name (reason : Reason) (decisions : List Decision) :
    firings reason.name decisions = decisions.count (.terminate reason) := by
  rw [firings, List.count]
  apply List.countP_congr
  intro decision _
  cases decision with
  | passThrough => simp [Decision.reason?]
  | terminate other =>
    by_cases h : other = reason
    · simp [Decision.reason?, h]
    · have hname : other.name ≠ reason.name := Reason.name_injective.ne h
      simp [Decision.reason?, h, hname]

/-- Every entry has been made by a decision. -/
theorem Accounts.of_mem_entries (h : tally.Accounts decisions) {entry : String × Nat}
    (hentry : entry ∈ tally.byRule.entries) :
    1 ≤ entry.2 ∧ ∃ reason : Reason, entry.1 = reason.name := by
  have hlookup : tally.byRule.entryOf entry.1 = some entry.2 :=
    (RuleCounts.mem_iff_lookup tally.byRule.ascending).1 hentry
  rw [h.entryOf] at hlookup
  by_cases hzero : firings entry.1 decisions = 0
  · simp [hzero] at hlookup
  · have hcount : firings entry.1 decisions = entry.2 := by simpa [hzero] using hlookup
    obtain ⟨decision, -, hdecision⟩ := List.countP_pos_iff.1 (Nat.pos_of_ne_zero hzero)
    obtain ⟨reason, -, hname⟩ : ∃ reason, decision.reason? = some reason ∧
        reason.name = entry.1 := by simpa using hdecision
    exact ⟨by omega, reason, hname.symm⟩

theorem Accounts.passedThrough_eq (h : tally.Accounts decisions) :
    tally.passedThrough = decisions.count .passThrough := by
  have hsplit := List.length_eq_countP_add_countP (·.terminates) (l := decisions)
  have hpassed : decisions.countP (fun decision => ¬ decision.terminates) =
      decisions.count .passThrough := by
    rw [List.count]
    apply List.countP_congr
    intro decision _
    cases decision <;> simp
  rw [passedThrough, h.lines, h.terminated]
  omega

end Consequences

/-! ## Runs -/

/-- **After a step, the tally is that of the decisions which are then counted.** -/
theorem step_ofDecisions (decisions : List Decision) (step : Step) :
    (ofDecisions decisions).step step = ofDecisions (step.recorded decisions) := by
  cases step with
  | record line => exact (ofDecisions_concat decisions (decideLine line)).symm
  | merge lines => exact (ofDecisions_append decisions (lines.map decideLine)).symm
  | mergeSelf => exact (ofDecisions_append decisions decisions).symm
  | reset => rfl

/-- **After any number of steps, the tally is that of the decisions which are then counted.** -/
theorem getElem?_history (decisions : List Decision) (steps : List Step) (i : Nat) :
    (ofDecisions decisions :: (ofDecisions decisions).history steps)[i]? =
      if i ≤ steps.length then
        some (ofDecisions ((steps.take i).foldl Step.recorded decisions))
      else none := by
  induction steps generalizing decisions i with
  | nil => cases i <;> simp [history]
  | cons step rest ih =>
    cases i with
    | zero => simp
    | succ i => simp [history, step_ofDecisions, ih]

/-! ## Runs on bounded counters -/

section Bounded

variable {tally other : Tally} {decisions more : List Decision}

theorem Accounts.record?_eq (h : tally.Accounts decisions) (decision : Decision) :
    tally.record? decision =
      if decisions.length + 1 ≤ Counter.largest then some (tally.record decision) else none := by
  have hle := h.terminated_le_lines
  have hlines := h.lines
  by_cases hfits : decisions.length + 1 ≤ Counter.largest
  · have hfirst : tally.lines + 1 ≤ Counter.largest := by omega
    have hsecond : tally.terminated + 1 ≤ Counter.largest := by omega
    cases decision with
    | passThrough => simp [record?, Decision.reason?, Counter.add?, hfirst, hfits]
    | terminate reason =>
      have hcount := tally.byRule.count_le_total reason.name
      have hentry : tally.byRule.count reason.name + 1 ≤ Counter.largest := by
        rw [h.total, ← h.terminated] at hcount
        omega
      simp [record?, Decision.reason?, Counter.add?, RuleCounts.add?, hfirst, hsecond, hentry,
        hfits]
  · have hfirst : ¬ tally.lines + 1 ≤ Counter.largest := by omega
    simp [record?, Counter.add?, hfirst, hfits]

theorem Accounts.merge?_eq (h : tally.Accounts decisions) (hother : other.Accounts more) :
    tally.merge? other =
      if decisions.length + more.length ≤ Counter.largest then some (tally.merge other)
      else none := by
  have hle := h.terminated_le_lines
  have hotherLe := hother.terminated_le_lines
  have hlines := h.lines
  have hotherLines := hother.lines
  by_cases hfits : decisions.length + more.length ≤ Counter.largest
  · have hfirst : tally.lines + other.lines ≤ Counter.largest := by omega
    have hsecond : tally.terminated + other.terminated ≤ Counter.largest := by omega
    have hentries : tally.byRule.merge? other.byRule = some (tally.byRule.merge other.byRule) := by
      apply RuleCounts.merge?_eq_some
      rw [h.total, hother.total, ← h.terminated, ← hother.terminated]
      exact hsecond
    simp [merge?, merge, Counter.add?, hfirst, hsecond, hentries, hfits]
  · have hfirst : ¬ tally.lines + other.lines ≤ Counter.largest := by omega
    simp [merge?, Counter.add?, hfirst, hfits]

theorem foldlM_record?_ofDecisions {decisions : List Decision}
    (h : decisions.length ≤ Counter.largest) (more : List Decision) :
    more.foldlM record? (ofDecisions decisions) =
      if decisions.length + more.length ≤ Counter.largest then
        some (ofDecisions (decisions ++ more))
      else none := by
  induction more generalizing decisions with
  | nil => simp [h]
  | cons decision rest ih =>
    rw [List.foldlM_cons, (accounts_ofDecisions decisions).record?_eq, ← ofDecisions_concat]
    by_cases hfits : decisions.length + 1 ≤ Counter.largest
    · have hnext : (decisions ++ [decision]).length ≤ Counter.largest := by simpa using hfits
      simp only [hfits, if_true, Option.bind_eq_bind, Option.bind_some, ih hnext]
      simp [Nat.add_assoc, Nat.add_comm 1]
    · have hall : ¬ decisions.length + (decision :: rest).length ≤ Counter.largest := by
        rw [List.length_cons]
        omega
      simp only [hfits, hall, if_false]
      rfl

/-- **A step on bounded counters goes through exactly if the lines can be counted after it.** -/
theorem step?_ofDecisions (decisions : List Decision) (step : Step) :
    (ofDecisions decisions).step? step =
      if (step.recorded decisions).length ≤ Counter.largest then
        some (ofDecisions (step.recorded decisions))
      else none := by
  have haccounts := accounts_ofDecisions decisions
  rw [← step_ofDecisions]
  cases step with
  | record line => simp [step?, Tally.step, Step.recorded, haccounts.record?_eq]
  | mergeSelf => simp [step?, Tally.step, Step.recorded, haccounts.merge?_eq haccounts]
  | reset => simp [step?, Tally.step, Step.recorded]
  | merge lines =>
    have hlines : ofLines? lines =
        if lines.length ≤ Counter.largest then some (ofLines lines) else none := by
      have hempty : ([] : List Decision).length ≤ Counter.largest := Nat.zero_le _
      have hfold := foldlM_record?_ofDecisions hempty (lines.map decideLine)
      rw [List.length_nil, Nat.zero_add, List.length_map] at hfold
      exact hfold
    have hmerge := haccounts.merge?_eq (accounts_ofDecisions (lines.map decideLine))
    rw [← ofLines_eq_ofDecisions, List.length_map] at hmerge
    simp only [step?, Tally.step, Step.recorded, List.length_append, List.length_map, hlines]
    by_cases hfits : lines.length ≤ Counter.largest
    · simp [hfits, hmerge]
    · have hall : ¬ decisions.length + lines.length ≤ Counter.largest := by omega
      simp [hfits, hall]

end Bounded

/-- **A run on bounded counters goes through exactly if the lines can be counted at all times.** -/
theorem history?_ofDecisions (decisions : List Decision) (steps : List Step) :
    (ofDecisions decisions).history? steps = some ((ofDecisions decisions).history steps) ↔
      ∀ tally ∈ (ofDecisions decisions).history steps, tally.lines ≤ Counter.largest := by
  induction steps generalizing decisions with
  | nil => simp [history?, history]
  | cons step rest ih =>
    have hlines := (accounts_ofDecisions (step.recorded decisions)).lines
    rw [history?, history, step?_ofDecisions, step_ofDecisions, List.forall_mem_cons, hlines, ← ih]
    by_cases hfits : (step.recorded decisions).length ≤ Counter.largest
    · simp [hfits, Option.bind_eq_some_iff]
    · simp [hfits]

/-! ## All together -/

/-- **A tally accounts for every decision of its run.**  Of the fourteen rules no two share a name.
In every state that a run from zero reaches, no more lines are terminated than counted, the counts
by rule add up to the terminated ones, and each of them is the number of decisions with that name,
counted as often as they were recorded or merged; entries stand in ascending order, none is zero
and each belongs to a rule.  So on bounded counters all sums of a run can be formed if only the
lines can be counted, and the lines that passed through can always be told. -/
theorem history_accounts_for_decisions (steps : List Step) :
    (zero.history? steps = some (zero.history steps) ↔
      ∀ tally ∈ zero.history steps, tally.lines ≤ Nat.pow 2 64 - 1) ∧
    Reason.all.length = 14 ∧ (∀ reason : Reason, reason ∈ Reason.all) ∧
    Function.Injective Reason.name ∧
    ∀ (i : Nat) (tally : Tally), (zero :: zero.history steps)[i]? = some tally →
      tally.lines = (recorded (steps.take i)).length ∧
      tally.terminated ≤ tally.lines ∧
      tally.byRule.total = tally.terminated ∧
      (∀ entry ∈ tally.byRule.entries,
        1 ≤ entry.2 ∧ ∃ reason ∈ Reason.all, entry.1 = reason.name) ∧
      (tally.byRule.entries.map (·.1)).Pairwise (· < ·) ∧
      (∀ name, tally.byRule.count name = (recorded (steps.take i)).countP
        fun decision => decision.reason?.map Reason.name == some name) ∧
      (∀ reason : Reason,
        tally.byRule.count reason.name = (recorded (steps.take i)).count (.terminate reason)) ∧
      tally.passedThrough? = some tally.passedThrough ∧
      tally.passedThrough = (recorded (steps.take i)).count .passThrough := by
  refine ⟨history?_ofDecisions [] steps, rfl, Reason.mem_all, Reason.name_injective, ?_⟩
  intro i tally hi
  have haccounts : tally.Accounts (recorded (steps.take i)) := by
    have hhistory := getElem?_history [] steps i
    by_cases hle : i ≤ steps.length
    · rw [if_pos hle] at hhistory
      rw [← Option.some.inj (hhistory.symm.trans hi)]
      exact accounts_ofDecisions _
    · rw [if_neg hle] at hhistory
      exact absurd (hhistory.symm.trans hi) (by simp)
  have hle := haccounts.terminated_le_lines
  refine ⟨haccounts.lines, hle, ?_, ?_, ?_, haccounts.count_eq_firings, ?_, ?_,
    haccounts.passedThrough_eq⟩
  · rw [haccounts.total, haccounts.terminated]
  · intro entry hentry
    obtain ⟨hpos, reason, hname⟩ := haccounts.of_mem_entries hentry
    exact ⟨hpos, reason, reason.mem_all, hname⟩
  · exact List.pairwise_map.2 tally.byRule.ascending
  · intro reason
    rw [haccounts.count_eq_firings, firings_name]
  · simp [passedThrough?, passedThrough, Counter.sub?, hle]

/-- Two rules have fired once when the tally is merged with itself, and twice after that; then
counting starts again. -/
theorem history_accounts_for_decisions_merged :
    (∀ tally ∈ zero.history [.record ['x'], .merge [['x', ')'], []], .mergeSelf, .reset],
      tally.lines ≤ Nat.pow 2 64 - 1) ∧
    zero.history? [.record ['x'], .merge [['x', ')'], []], .mergeSelf, .reset] =
      some (zero.history [.record ['x'], .merge [['x', ')'], []], .mergeSelf, .reset]) ∧
    ∃ tally, (zero :: zero.history [.record ['x'], .merge [['x', ')'], []], .mergeSelf,
        .reset])[3]? = some tally ∧
      tally.byRule.count "close-paren" = 2 ∧ tally.passedThrough = 2 := by
  have hlines : ∀ tally ∈ zero.history [.record ['x'], .merge [['x', ')'], []], .mergeSelf,
      .reset], tally.lines ≤ Nat.pow 2 64 - 1 := by decide
  have hrun := history_accounts_for_decisions [.record ['x'], .merge [['x', ')'], []],
    .mergeSelf, .reset]
  have hstate := hrun.2.2.2.2 3 _ rfl
  refine ⟨hlines, hrun.1.2 hlines, _, rfl, ?_, ?_⟩
  · have hcount := hstate.2.2.2.2.2.2.1 (.suffix .closeParen)
    exact hcount.trans (by decide)
  · exact hstate.2.2.2.2.2.2.2.2.trans (by decide)

end Tally

end Semicolon
