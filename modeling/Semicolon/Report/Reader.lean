import Semicolon.Json.Reader
import Semicolon.Report

/-!
# Reading reports

Reports are read back from the JSON that they are written as.  Members are found by their keys,
in any order, and members that no report has are passed over.

## Main definitions

* `Report.ofJson?`
* `Report.readAll?`: the reports that a text holds.
-/

namespace Semicolon

/-! ## Members and plain values -/

namespace Json.Value

/-- The member of an object with the given key. -/
def member? (key : String) : Value → Option Value
  | .object members => members.lookup key.toList
  | _ => none

/-- A string. -/
def text? : Value → Option Text
  | .string text => some text
  | _ => none

/-- A natural number without an exponent. -/
def count? : Value → Option Nat
  | .number (.ofNat mantissa) 0 => some mantissa
  | _ => none

end Json.Value

/-- The dispatch with exactly this name. -/
def Dispatch.ofName? (name : String) : Option Dispatch :=
  [sequential, parallel].find? (·.name == name)

@[simp] theorem Dispatch.ofName?_name (dispatch : Dispatch) :
    ofName? dispatch.name = some dispatch := by
  cases dispatch <;> decide

/-! ## Reports -/

namespace Report

/-- The counts of the rules.  They must stand in ascending order of their names. -/
def ruleCounts? : Json.Value → Option RuleCounts
  | .object members => do
    let entries ← members.mapM fun (key, value) =>
      value.count?.map fun number => (String.ofList key, number)
    if h : RuleCounts.Ascending entries then some ⟨entries, h⟩ else none
  | _ => none

/-- The tally that an object holds. -/
def tally? (value : Json.Value) : Option Tally := do
  return {
    lines := ← (← value.member? "lines").count?
    terminated := ← (← value.member? "terminated").count?
    byRule := ← ruleCounts? (← value.member? "by_rule") }

/-- The report that an object holds. -/
def ofJson? (value : Json.Value) : Option Report := do
  let metadata ← value.member? "metadata"
  return {
    source := ← (← value.member? "source").text?
    result := {
      rendering := {
        text := ← (← value.member? "text").text?
        tally := ← tally? (← value.member? "stats") }
      dispatch := ← Dispatch.ofName?
        (String.ofList (← (← metadata.member? "execution_mode").text?))
      bytesProcessed := ← (← metadata.member? "bytes_processed").count? }
    time := ← metadata.member? "processing_time_ms" }

/-- The reports of an array. -/
def allOfJson? : Json.Value → Option (List Report)
  | .array elements => elements.mapM ofJson?
  | _ => none

/-- The reports that a text holds. -/
def readAll? (text : Text) : Option (List Report) :=
  (Json.parse? text).bind allOfJson?

end Report

end Semicolon
