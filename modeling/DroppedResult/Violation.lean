import DroppedResult.Language
import DroppedResult.RuleId
import DroppedResult.Severity
import DroppedResult.Source

/-!
# Violations

A violation is a finding with its place in a file.  Lines and columns start at
one and are 32-bit words; columns count bytes.
-/

namespace DroppedResult

structure Violation where
  ruleId : RuleId
  file : FilePath
  line : UInt32
  column : UInt32
  endLine : UInt32
  endColumn : UInt32
  snippet : String
  message : String
  severity : Severity
  deriving DecidableEq

namespace Violation

/-- The violation that spans a node. -/
def ofLabel (ruleId : RuleId) (severity : Severity) (file : FilePath) (source : String)
    (message : String) (l : Label) : Violation :=
  let start := Source.positionAt source l.start
  let stop := Source.positionAt source l.stop
  { ruleId
    file
    line := start.row.toUInt32 + 1
    column := start.column.toUInt32 + 1
    endLine := stop.row.toUInt32 + 1
    endColumn := stop.column.toUInt32 + 1
    snippet := Source.snippetBetween source l.start l.stop
    message
    severity }

end Violation

end DroppedResult
