import DroppedResult.Proofs.JsonReading
import DroppedResult.Report.JsonLines

/-!
# What a report in JSON lines tells

A reader of the report takes it apart at the line ends and reads each line as a JSON
record.  `Violation.ofRecord?` is the violation that a record denotes, by the names of
its fields.  Every violation whose path is a text is read back from its line, whatever
characters its texts have, and the last line counts all violations:
`Outcome.jsonLines_read_back`.
-/

namespace DroppedResult

namespace Json.Record

def text? (r : Record) (name : String) : Option String :=
  match r.lookup name with
  | some (.text s) => some s
  | _ => none

def number? (r : Record) (name : String) : Option Nat :=
  match r.lookup name with
  | some (.number n) => some n
  | _ => none

/-- A number that fits in 32 bits. -/
def word? (r : Record) (name : String) : Option UInt32 := do
  let n ← r.number? name
  if n < UInt32.size then some (.ofNat n) else none

end Json.Record

namespace Violation

/-- The violation that a record denotes. -/
def ofRecord? (r : Json.Record) : Option Violation := do
  let ruleId ← (r.text? "rule").bind RuleId.ofText?
  let severity ← (r.text? "severity").bind Severity.ofName?
  if r.text? "type" = some "violation" then
    some {
      ruleId
      file := .ofText (← r.text? "file")
      line := ← r.word? "line"
      column := ← r.word? "column"
      endLine := ← r.word? "end_line"
      endColumn := ← r.word? "end_column"
      snippet := ← r.text? "snippet"
      message := ← r.text? "message"
      severity }
  else none

end Violation

theorem FilePath.ofText_of_toText? {path : FilePath} {text : String}
    (h : path.toText? = some text) : FilePath.ofText text = path := by
  unfold toText? String.fromUTF8? at h
  split at h
  · obtain rfl := Option.some.inj h
    rfl
  · cases h

theorem RuleId.ofText?_text (id : RuleId) : RuleId.ofText? id.text = some id := by
  rw [ofText?, dif_pos id.valid]

theorem Severity.ofName?_name (s : Severity) : Severity.ofName? s.name = some s := by
  cases s <;> decide

namespace Violation

/-- The record of a violation denotes it. -/
theorem ofRecord?_record {v : Violation} {r : Json.Record} (h : v.record? = some r) :
    ofRecord? r = some v := by
  obtain ⟨file, hfile, hr⟩ := Option.bind_eq_some_iff.mp h
  obtain rfl := Option.some.inj hr
  simp [ofRecord?, Json.Record.text?, Json.Record.word?, Json.Record.number?, List.lookup_cons,
    RuleId.ofText?_text, Severity.ofName?_name, FilePath.ofText_of_toText? hfile,
    UInt32.toNat_lt_size]

theorem isSome_record? (v : Violation) : v.record?.isSome = v.file.toText?.isSome := by
  unfold record?
  cases v.file.toText? <;> rfl

/-- The violation that a line of a report denotes. -/
def ofLine? (line : List Char) : Option Violation :=
  (Json.Record.read line).bind ofRecord?

/-- The lines of the violations whose path is a text denote them, in order. -/
theorem map_ofLine?_lines (violations : List Violation) :
    (violations.filterMap record?).map (fun r => ofLine? r.write) =
      (violations.filter (·.file.toText?.isSome)).map some := by
  induction violations with
  | nil => rfl
  | cons v violations ih =>
    cases hrecord : v.record? with
    | none =>
      have hfile : v.file.toText?.isSome = false := by rw [← isSome_record?, hrecord]; rfl
      rw [List.filterMap_cons_none hrecord, List.filter_cons_of_neg (by simp [hfile]), ih]
    | some r =>
      have hfile : v.file.toText?.isSome = true := by rw [← isSome_record?, hrecord]; rfl
      have hline : ofLine? r.write = some v := by
        rw [ofLine?, Json.Record.read_write, Option.bind_some, ofRecord?_record hrecord]
      rw [List.filterMap_cons_some hrecord, List.filter_cons_of_pos (by exact hfile), List.map_cons,
        List.map_cons, hline, ih]

end Violation

namespace Outcome

/-- A report in JSON lines is a sequence of lines, each with its line end.  All but the
last denote, in order, the violations whose path is a text; the last is the summary,
which counts all violations. -/
theorem jsonLines_read_back (o : Outcome) :
    ∃ (lines : List (List Char)) (last : List Char),
      o.jsonLines.toList = (lines ++ [last]).flatMap (· ++ ['\n']) ∧
        (∀ line ∈ lines ++ [last], '\n' ∉ line) ∧
        lines.map Violation.ofLine? = (o.violations.filter (·.file.toText?.isSome)).map some ∧
        Json.Record.read last = some [
          ("type", .text "summary"),
          ("files_checked", .number o.filesChecked),
          ("files_skipped", .number o.filesSkipped),
          ("violations", .number o.violations.length),
          ("errors", .number (o.violations.countP (·.severity == .error))),
          ("warnings", .number (o.violations.countP (·.severity == .warning))),
          ("passed", .truth (o.violations.countP (·.severity == .error) == 0))] := by
  refine ⟨(o.violations.filterMap (·.record?)).map (·.write), o.summary.write, ?_, ?_, ?_, ?_⟩
  · rw [jsonLines, String.toList_ofList, records]
    simp only [List.flatMap_append, List.flatMap_map, List.flatMap_singleton]
  · intro line hline
    rcases List.mem_append.mp hline with hline | hline
    · obtain ⟨r, _, rfl⟩ := List.mem_map.mp hline
      exact r.newline_not_mem_write
    · rw [List.mem_singleton.mp hline]
      exact o.summary.newline_not_mem_write
  · rw [List.map_map]
    exact Violation.map_ofLine?_lines o.violations
  · exact Json.Record.read_write o.summary

end Outcome

end DroppedResult
