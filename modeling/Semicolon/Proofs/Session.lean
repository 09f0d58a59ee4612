import Semicolon.Lines.Position
import Semicolon.Proofs.Segmentation

/-!
# Sessions follow positions

A session knows the text that is left at each of its places; positions know how many lines of one
fixed list lie before them.  The two go together as long as the lines that are left at a place are
the lines of the list from its position on.  Every step keeps this and answers alike on both sides,
so sessions and positions cannot be told apart by any list of steps.

Reading at a place shortens what is left there, so it comes to an end, and nothing that is done
with the plain lines is seen by the decided ones or the other way round.

## Main statements

* `LineSession.At.step`: one step, seen from both sides.
* `LineSession.At.run`: any number of steps.
* `LineSession.Reads.run_replicate`: reading to the end and beyond it.
* `LineSession.answersTo_run`: steps that do not touch each other.
-/

namespace Semicolon

/-- What is read next, where the lines that are left are those of a list from a position on. -/
theorem nextLine?_of_lines_eq_drop {text : Text} {all : List Text} {i : Nat}
    (h : lines text = all.drop i) :
    (nextLine? text = none ∧ all[i]? = none) ∨
    ∃ line rest, nextLine? text = some (line, rest) ∧ all[i]? = some line ∧
      lines rest = all.drop (i + 1) := by
  cases hnext : nextLine? text with
  | none =>
    rw [eq_nil_of_nextLine?_eq_none hnext, lines_nil] at h
    have hlength := congrArg List.length h
    simp only [List.length_nil, List.length_drop] at hlength
    exact .inl ⟨rfl, List.getElem?_eq_none (by omega)⟩
  | some read =>
    rw [lines_eq_cons hnext] at h
    refine .inr ⟨read.1, read.2, rfl, ?_, ?_⟩
    · rw [← List.head?_drop, ← h, List.head?_cons]
    · rw [← List.tail_drop, ← h, List.tail_cons]

namespace LineSession

/-! ## Places and positions -/

/-- At each place of the session are left the lines of `all` from its position on. -/
structure At (all : List Text) (positions : LinePositions) (session : LineSession) : Prop where
  plain : lines session.plain = all.drop positions.plain
  decided : lines session.decided = all.drop positions.decided
  saved : lines session.saved = all.drop positions.saved

variable {all : List Text} {positions : LinePositions} {session : LineSession}

/-- **A step has the same answer on both sides**, and places and positions still go together after
it. -/
theorem At.step (h : session.At all positions) (step : Step) :
    (session.step step).1 = (positions.step all step).1 ∧
      (session.step step).2.At all (positions.step all step).2 := by
  cases step with
  | next =>
    rcases nextLine?_of_lines_eq_drop h.plain with ⟨hnone, hend⟩ | ⟨line, rest, hnext, hline, hrest⟩
    · simp only [LineSession.step, LinePositions.step, hnone, hend]
      exact ⟨trivial, h⟩
    · simp only [LineSession.step, LinePositions.step, hnext, hline]
      exact ⟨trivial, hrest, h.decided, h.saved⟩
  | nextDecided =>
    rcases nextLine?_of_lines_eq_drop h.decided with
      ⟨hnone, hend⟩ | ⟨line, rest, hnext, hline, hrest⟩
    · simp only [LineSession.step, LinePositions.step, hnone, hend]
      exact ⟨trivial, h⟩
    · simp only [LineSession.step, LinePositions.step, hnext, hline]
      exact ⟨trivial, h.plain, hrest, h.saved⟩
  | save => exact ⟨rfl, h.plain, h.decided, h.plain⟩
  | restore => exact ⟨rfl, h.saved, h.decided, h.saved⟩
  | countRest =>
    refine ⟨?_, h⟩
    simp [LineSession.step, LinePositions.step, h.plain]
  | rest =>
    refine ⟨?_, h⟩
    simp [LineSession.step, LinePositions.step, h.plain]
  | restDecided =>
    refine ⟨?_, h⟩
    simp only [LineSession.step, LinePositions.step, decidedLines, h.decided, List.map_map]
    rfl

/-- **Any list of steps has the same answers on both sides.** -/
theorem At.run (h : session.At all positions) (steps : List Step) :
    session.run steps = positions.run all steps := by
  induction steps generalizing session positions with
  | nil => rfl
  | cons step rest ih =>
    obtain ⟨hanswer, hnext⟩ := h.step step
    simp only [LineSession.run, LinePositions.run, hanswer, ih hnext]

theorem at_start (text : Text) : (start text).At (lines text) {} :=
  ⟨List.drop_zero.symm, List.drop_zero.symm, List.drop_zero.symm⟩

/-! ## Reading to the end -/

/-- The step reads a line off a place and gives the answer that is made of it. -/
structure Reads (step : Step) (place : LineSession → Text) (answer : Option Text → Answer) :
    Prop where
  exhausted : ∀ session, nextLine? (place session) = none →
    session.step step = (answer none, session)
  line : ∀ session line rest, nextLine? (place session) = some (line, rest) →
    (session.step step).1 = answer (some line) ∧ place (session.step step).2 = rest

theorem reads_next : Reads .next (·.plain) .line := by
  constructor
  · intro session hnone
    simp only [LineSession.step, hnone]
  · intro session line rest hsome
    simp only [LineSession.step, hsome]
    exact ⟨trivial, trivial⟩

theorem reads_nextDecided :
    Reads .nextDecided (·.decided) fun line? => .decided (line?.map .ofLine) := by
  constructor
  · intro session hnone
    simp only [LineSession.step, hnone]
    rfl
  · intro session line rest hsome
    simp only [LineSession.step, hsome]
    exact ⟨rfl, trivial⟩

section Reads

variable {step : Step} {place : LineSession → Text} {answer : Option Text → Answer}

/-- What is left at the place gets shorter. -/
theorem Reads.length_lt (h : Reads step place answer) {session : LineSession}
    (hne : place session ≠ []) :
    (place (session.step step).2).length < (place session).length := by
  have hnext := nextLine?_of_ne_nil hne
  rw [(h.line session _ _ hnext).2]
  exact length_lt_of_nextLine? hnext

theorem Reads.run_replicate_of_nil (h : Reads step place answer) {session : LineSession}
    (hnil : place session = []) (count : Nat) :
    session.run (List.replicate count step) = List.replicate count (answer none) := by
  induction count with
  | zero => rfl
  | succ count ih =>
    have hstep := h.exhausted session (by rw [hnil, nextLine?_nil])
    simp [List.replicate_succ, LineSession.run, hstep, ih]

/-- **Reading gives the lines that are left, each of them once, and none ever after.** -/
theorem Reads.run_replicate (h : Reads step place answer) (session : LineSession) (count : Nat) :
    session.run (List.replicate ((lines (place session)).length + count) step) =
      (lines (place session)).map (fun line => answer (some line)) ++
        List.replicate count (answer none) := by
  induction hplace : place session using lines.induct generalizing session with
  | case1 text hnone =>
    have hnil := eq_nil_of_nextLine?_eq_none hnone
    rw [hnil] at hplace ⊢
    simp [h.run_replicate_of_nil hplace]
  | case2 text line rest hsome ih =>
    have hread := h.line session line rest (by rw [hplace, hsome])
    have hrest := ih (session.step step).2 hread.2
    rw [lines_eq_cons hsome, List.length_cons, Nat.add_right_comm, List.replicate_succ]
    simp only [LineSession.run, hread.1, hrest, List.map_cons, List.cons_append]

end Reads

/-! ## Steps that do not touch each other -/

@[simp] theorem decided_step_next (session : LineSession) :
    (session.step .next).2.decided = session.decided := by
  simp only [LineSession.step]
  cases nextLine? session.plain <;> rfl

@[simp] theorem saved_step_next (session : LineSession) :
    (session.step .next).2.saved = session.saved := by
  simp only [LineSession.step]
  cases nextLine? session.plain <;> rfl

@[simp] theorem plain_step_nextDecided (session : LineSession) :
    (session.step .nextDecided).2.plain = session.plain := by
  simp only [LineSession.step]
  cases nextLine? session.decided <;> rfl

@[simp] theorem saved_step_nextDecided (session : LineSession) :
    (session.step .nextDecided).2.saved = session.saved := by
  simp only [LineSession.step]
  cases nextLine? session.decided <;> rfl

/-- The steps that are about decided lines; all others are about plain ones. -/
def Step.onDecided : Step → Bool
  | .nextDecided | .restDecided => true
  | .next | .save | .restore | .countRest | .rest => false

/-- The answers to those of the steps that satisfy `p`. -/
def answersTo (p : Step → Bool) (steps : List Step) (answers : List Answer) : List Answer :=
  ((steps.zip answers).filter fun pair => p pair.1).map (·.2)

/-- **Steps are answered as if they were alone**, if they see no more of a session than is `same`
in two sessions, and the other steps leave that alone. -/
theorem answersTo_run (p : Step → Bool) (same : LineSession → LineSession → Prop)
    (hseen : ∀ first second step, same first second → p step = true →
      (first.step step).1 = (second.step step).1 ∧
        same (first.step step).2 (second.step step).2)
    (hother : ∀ first second step, same first second → p step = false →
      same (first.step step).2 second)
    {first second : LineSession} (h : same first second) (steps : List Step) :
    answersTo p steps (first.run steps) = second.run (steps.filter p) := by
  induction steps generalizing first second with
  | nil => rfl
  | cons step rest ih =>
    cases hp : p step with
    | true =>
      obtain ⟨hanswer, hnext⟩ := hseen first second step h hp
      have hrest := ih hnext
      simp only [answersTo] at hrest
      simp [answersTo, LineSession.run, hp, hanswer, hrest]
    | false =>
      have hrest := ih (hother first second step h hp)
      simp only [answersTo] at hrest
      simp [answersTo, LineSession.run, hp, hrest]

/-- Steps about decided lines are answered as if there were no others. -/
theorem answersTo_onDecided_run (session : LineSession) (steps : List Step) :
    answersTo Step.onDecided steps (session.run steps) =
      session.run (steps.filter Step.onDecided) := by
  refine answersTo_run _ (fun first second => first.decided = second.decided) ?_ ?_ rfl steps
  · intro first second step hsame hstep
    cases step with
    | nextDecided =>
      simp only [LineSession.step, hsame]
      cases nextLine? second.decided <;> simp [hsame]
    | restDecided => simp [LineSession.step, hsame]
    | _ => exact absurd hstep (by decide)
  · intro first second step hsame hstep
    cases step with
    | next => simpa using hsame
    | nextDecided | restDecided => exact absurd hstep (by decide)
    | _ => exact hsame

/-- Steps about plain lines are answered as if there were no others. -/
theorem answersTo_onPlain_run (session : LineSession) (steps : List Step) :
    answersTo (fun step => !step.onDecided) steps (session.run steps) =
      session.run (steps.filter fun step => !step.onDecided) := by
  refine answersTo_run _ (fun first second =>
    first.plain = second.plain ∧ first.saved = second.saved) ?_ ?_ ⟨rfl, rfl⟩ steps
  · intro first second step hsame hstep
    cases step with
    | next =>
      simp only [LineSession.step, hsame.1]
      cases nextLine? second.plain <;> simp [hsame]
    | nextDecided | restDecided => exact absurd hstep (by decide)
    | _ => simp [LineSession.step, hsame]
  · intro first second step hsame hstep
    cases step with
    | nextDecided => simpa using hsame
    | restDecided => exact hsame
    | _ => exact absurd hstep (by decide)

/-! ## All together -/

/-- **A session is three positions in one list of lines.**  Whatever list of steps is asked of it,
its answers are those of the positions, from the beginning of the list on.  Reading shortens what
is left at its place until nothing is left, so all lines are read once and then none any more.  It
leaves the other places where they are, and steps about plain lines and steps about decided lines
are answered as if they were alone. -/
theorem run_follows_positions (text : Text) (steps : List Step) :
    (start text).run steps = LinePositions.run (lines text) {} steps ∧
    (∀ session : LineSession, session.plain ≠ [] →
      (session.step .next).2.plain.length < session.plain.length) ∧
    (∀ session : LineSession, session.decided ≠ [] →
      (session.step .nextDecided).2.decided.length < session.decided.length) ∧
    (∀ (session : LineSession) (count : Nat),
      session.run (List.replicate ((lines session.plain).length + count) .next) =
        (lines session.plain).map (fun line => .line (some line)) ++
          List.replicate count (.line none)) ∧
    (∀ (session : LineSession) (count : Nat),
      session.run (List.replicate ((lines session.decided).length + count) .nextDecided) =
        (lines session.decided).map (fun line => .decided (some (.ofLine line))) ++
          List.replicate count (.decided none)) ∧
    (∀ session : LineSession,
      (session.step .next).2.decided = session.decided ∧
      (session.step .next).2.saved = session.saved ∧
      (session.step .nextDecided).2.plain = session.plain ∧
      (session.step .nextDecided).2.saved = session.saved) ∧
    ∀ session : LineSession,
      answersTo Step.onDecided steps (session.run steps) =
        session.run (steps.filter Step.onDecided) ∧
      answersTo (fun step => !step.onDecided) steps (session.run steps) =
        session.run (steps.filter fun step => !step.onDecided) := by
  refine ⟨(at_start text).run steps, ?_, ?_, reads_next.run_replicate,
    reads_nextDecided.run_replicate, ?_, ?_⟩
  · intro session hne
    exact reads_next.length_lt hne
  · intro session hne
    exact reads_nextDecided.length_lt hne
  · intro session
    exact ⟨decided_step_next session, saved_step_next session, plain_step_nextDecided session,
      saved_step_nextDecided session⟩
  · intro session
    exact ⟨answersTo_onDecided_run session steps, answersTo_onPlain_run session steps⟩

/-- The last line is read twice, because the place before it was saved; the decided lines are
still at the second line. -/
theorem run_follows_positions_restored :
    (start ['a', '\r', '\n', 'b']).plain ≠ [] ∧
    ((start ['a', '\r', '\n', 'b']).step .next).2.plain.length < 4 ∧
    (start ['a', '\r', '\n', 'b']).run [.next, .save, .nextDecided, .next, .next, .restore,
      .countRest, .next, .restDecided] =
      [.line (some ['a']), .done, .decided (some ⟨['a'], .terminate (.token .identifier)⟩),
        .line (some ['b']), .line none, .done, .count 1, .line (some ['b']),
        .texts [['b', ';']]] := by
  have hne : (start ['a', '\r', '\n', 'b']).plain ≠ [] := List.cons_ne_nil _ _
  have hlines : lines ['a', '\r', '\n', 'b'] = [['a'], ['b']] := by
    simp [lines, nextLine?, skipBreak, isBreak]
  refine ⟨hne, (run_follows_positions [] []).2.1 _ hne, ?_⟩
  rw [(run_follows_positions _ _).1, hlines]
  decide

end LineSession

end Semicolon
