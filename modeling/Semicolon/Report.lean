import Semicolon.Json.Value
import Semicolon.Transformation

/-!
# Reports

A report says what became of a document: its text, its tally, and how it was processed.  Reports
are written as one JSON array, which ends with a line feed.

A report holds the time as it is to be written, and nothing looks into it.

## Main definitions

* `Report`
* `Report.toJson`
* `Report.writeAll`
-/

namespace Semicolon

/-- What became of a document. -/
@[ext] structure Report where
  /-- The name of the source. -/
  source : Text
  result : Transformation
  /-- The time it took, as it is written. -/
  time : Json.Value

namespace Report

/-- A number of nanoseconds without its trailing zeros, of which at most `limit` are dropped, and
how many were. -/
def dropZeros : Nat → Nat → Nat × Nat
  | 0, value => (value, 0)
  | limit + 1, value =>
    if value % 10 = 0 then
      let (rest, dropped) := dropZeros limit (value / 10)
      (rest, dropped + 1)
    else (value, 0)

/-- A time in milliseconds: no more places than needed, but at least one. -/
def milliseconds (nanoseconds : Nat) : Json.Value :=
  let (mantissa, dropped) := dropZeros 5 nanoseconds
  .number mantissa (dropped - 6)

/-- A count. -/
def count (number : Nat) : Json.Value :=
  .number number 0

/-- An object with the given members. -/
def object (members : List (String × Json.Value)) : Json.Value :=
  .object (members.map fun (key, value) => (key.toList, value))

/-- The counts of a tally. -/
def tallyJson (tally : Tally) : Json.Value :=
  object [
    ("lines", count tally.lines),
    ("terminated", count tally.terminated),
    ("by_rule", object (tally.byRule.entries.map fun (name, number) => (name, count number)))]

/-- The report as a JSON object. -/
def toJson (report : Report) : Json.Value :=
  object [
    ("source", .string report.source),
    ("text", .string report.result.text),
    ("stats", tallyJson report.result.tally),
    ("metadata", object [
      ("execution_mode", .string report.result.dispatch.name.toList),
      ("processing_time_ms", report.time),
      ("bytes_processed", count report.result.bytesProcessed)])]

/-- Writes all reports as one array. -/
def writeAll (layout : Json.Layout) (reports : List Report) : Text :=
  (Json.Value.array (reports.map toJson)).write layout 0 ++ ['\n']

end Report

end Semicolon
