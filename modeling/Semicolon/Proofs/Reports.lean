import Semicolon.Proofs.JsonReading
import Semicolon.Proofs.JsonWriting
import Semicolon.Proofs.Utf8
import Semicolon.Report.Reader

/-!
# Reports lose nothing

Reports are written as one JSON array, in one of two layouts, and both are texts that the grammar
derives for that array and for nothing else.  The array holds the documents in their order, and each
of its objects tells everything about its document.  So the documents can be had back from what was
written, and different documents are never written alike.

Which values the times are is left open: the documents are told apart whatever they are.

## Main definitions

* `Report.document`: what a report tells of its document.

## Main statements

* `Report.ofJson?_toJson`: one report.
* `Report.document_writeAll`: what the written text stands for.
* `Report.readAll?_writeAll`: the reports are had back.
-/

namespace Semicolon

namespace Report

/-! ## Plain values -/

@[simp] theorem count?_count (number : Nat) : (count number).count? = some number := rfl

/-! ## Tallies and reports -/

/-- What is read one by one is read as a whole. -/
theorem mapM_map_eq_some {α β : Type} {write : α → β} {read : β → Option α}
    (h : ∀ a, read (write a) = some a) (list : List α) :
    (list.map write).mapM read = some list := by
  rw [List.mapM_map]
  simp only [Function.comp_def, h]
  exact List.mapM_pure.trans (congrArg some (List.map_id' list))

@[simp] theorem ruleCounts?_object (counts : RuleCounts) :
    ruleCounts? (object (counts.entries.map fun (name, number) => (name, count number))) =
      some counts := by
  have hentries : (counts.entries.map fun (name, number) => (name.toList, count number)).mapM
      (fun (key, value) => value.count?.map fun number => (String.ofList key, number)) =
      some counts.entries := by
    refine mapM_map_eq_some ?_ counts.entries
    intro (name, number)
    simp
  simp [object, ruleCounts?, Function.comp_def, hentries, counts.ascending]

/-- A member is the first one with its key. -/
@[simp] theorem member?_object_cons (wanted key : String) (value : Json.Value)
    (rest : List (String × Json.Value)) :
    (object ((key, value) :: rest)).member? wanted =
      if wanted = key then some value else (object rest).member? wanted := by
  by_cases heq : wanted = key
  · simp [object, Json.Value.member?, heq]
  · have hne : (wanted.toList == key.toList) = false := by
      simpa [String.toList_inj] using heq
    simp [object, Json.Value.member?, List.lookup_cons, hne, heq]

@[simp] theorem tally?_tallyJson (tally : Tally) : tally? (tallyJson tally) = some tally := by
  simp [tally?, tallyJson]

/-- **The report that an object was made of is read from it.** -/
@[simp] theorem ofJson?_toJson (report : Report) : ofJson? report.toJson = some report := by
  simp [ofJson?, toJson, Json.Value.text?]

theorem allOfJson?_map_toJson (reports : List Report) :
    allOfJson? (.array (reports.map toJson)) = some reports :=
  mapM_map_eq_some ofJson?_toJson reports

/-! ## Written reports -/

/-- What a report tells of its document, which is all but the time. -/
def document (report : Report) : Text × Transformation :=
  (report.source, report.result)

/-- The array of the reports is written without white space around it. -/
theorem denotes_array (layout : Json.Layout) (reports : List Report) :
    Json.Denotes ((Json.Value.array (reports.map toJson)).write layout 0)
      (.array (reports.map toJson)) :=
  Json.Value.denotes_write layout 0 _

/-- **What is written stands for the array of the reports**, in either layout. -/
theorem document_writeAll (layout : Json.Layout) (reports : List Report) :
    Json.Document (writeAll layout reports) (.array (reports.map toJson)) :=
  ⟨[], _, ['\n'], Json.space_nil, denotes_array layout reports, by simp [Json.Space], rfl⟩

theorem parse?_writeAll (layout : Json.Layout) (reports : List Report) :
    Json.parse? (writeAll layout reports) = some (.array (reports.map toJson)) :=
  Json.parse?_of_document (document_writeAll layout reports)

/-- **The reports are had back from what is written.** -/
theorem readAll?_writeAll (layout : Json.Layout) (reports : List Report) :
    readAll? (writeAll layout reports) = some reports := by
  rw [readAll?, parse?_writeAll, Option.bind_some]
  exact allOfJson?_map_toJson reports

/-- **Written reports lose nothing.**  Whatever values the times are, what is written is one JSON
value and a line feed, in either layout, and by the grammar of JSON that value is the array of the
reports and nothing else; it is also what the reader makes of the whole.  From the array the reports
are had back in their order, each with its source, text, counts, dispatch and size.  So both layouts
stand for the same value, and different documents are never written with the same bytes, not even
with other times or in different layouts. -/
theorem written_reports_lose_nothing :
    (∀ layout reports, ∃ json, writeAll layout reports = json ++ ['\n'] ∧
      (∀ value, Json.Denotes json value ↔ value = .array (reports.map toJson)) ∧
      Json.parse? (writeAll layout reports) = some (.array (reports.map toJson))) ∧
    (∀ reports : List Report, allOfJson? (.array (reports.map toJson)) = some reports) ∧
    (∀ reports, Json.parse? (writeAll .indented reports) =
      Json.parse? (writeAll .compact reports)) ∧
    (∀ layout otherLayout (reports others : List Report),
      reports.map document ≠ others.map document →
      Utf8.encode (writeAll layout reports) ≠ Utf8.encode (writeAll otherLayout others)) ∧
    ∀ layout reports, readAll? (writeAll layout reports) = some reports := by
  refine ⟨?_, allOfJson?_map_toJson, ?_, ?_, readAll?_writeAll⟩
  · intro layout reports
    refine ⟨_, rfl, ?_, parse?_writeAll layout reports⟩
    intro value
    constructor
    · intro hvalue
      exact hvalue.unique (denotes_array layout reports)
    · rintro rfl
      exact denotes_array layout reports
  · intro reports
    rw [parse?_writeAll, parse?_writeAll]
  · intro layout otherLayout reports others hne hbytes
    -- The same text is read as both lists of reports, so both tell of the same documents.
    have hread := readAll?_writeAll layout reports
    rw [Utf8.encode_injective hbytes, readAll?_writeAll] at hread
    exact hne (congrArg (List.map document) (Option.some.inj hread).symm)

/-- A line feed is told from a backslash and the letter that is written for one after it, although
the times are the same. -/
theorem written_reports_tell_escapes_apart :
    Utf8.encode (writeAll .indented
        [⟨['\x22'], ⟨⟨['\n', '\x00'], .zero⟩, .sequential, 2⟩, milliseconds 1⟩]) ≠
      Utf8.encode (writeAll .compact
        [⟨['\x22'], ⟨⟨['\\', 'n', '\x00'], .zero⟩, .sequential, 2⟩, milliseconds 1⟩]) := by
  refine written_reports_lose_nothing.2.2.2.1 _ _ _ _ ?_
  intro heq
  simp [document] at heq

end Report

end Semicolon
