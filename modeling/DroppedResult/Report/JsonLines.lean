import DroppedResult.Json
import DroppedResult.Run

/-!
# Reports in JSON lines

One object a line: the violations in order, then a summary.  A violation whose
path is no text has no line of its own; the summary counts it.
-/

namespace DroppedResult

namespace Violation

/-- The record of a violation, if its path is a text. -/
def record? (v : Violation) : Option Json.Record := do
  let file ← v.file.toText?
  some [
    ("type", .text "violation"),
    ("rule", .text v.ruleId.text),
    ("file", .text file),
    ("line", .number v.line.toNat),
    ("column", .number v.column.toNat),
    ("end_line", .number v.endLine.toNat),
    ("end_column", .number v.endColumn.toNat),
    ("severity", .text v.severity.name),
    ("snippet", .text v.snippet),
    ("message", .text v.message)]

end Violation

namespace Outcome

def summary (o : Outcome) : Json.Record :=
  [("type", .text "summary"),
    ("files_checked", .number o.filesChecked),
    ("files_skipped", .number o.filesSkipped),
    ("violations", .number o.violations.length),
    ("errors", .number (o.count .error)),
    ("warnings", .number (o.count .warning)),
    ("passed", .truth (o.count .error == 0))]

def records (o : Outcome) : List Json.Record :=
  o.violations.filterMap (·.record?) ++ [o.summary]

/-- The report in JSON lines. -/
def jsonLines (o : Outcome) : String :=
  String.ofList (o.records.flatMap fun r => r.write ++ ['\n'])

end Outcome

end DroppedResult
