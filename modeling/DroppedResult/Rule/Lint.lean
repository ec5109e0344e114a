import DroppedResult.Rule.Check

/-!
# Rules

A rule has an identifier, the languages it is for, and a function from a file's
path, tree and text to its violations.
-/

namespace DroppedResult

structure LintRule where
  id : RuleId
  description : String
  /-- The languages that the rule is for; none stands for all. -/
  languages : List Language
  severity : Severity
  run : FilePath → Tree → String → List Violation

namespace LintRule

def appliesTo (r : LintRule) (language : Language) : Bool :=
  r.languages.isEmpty || r.languages.contains language

end LintRule

/-- The rule about dropped Results as a rule among others. -/
def ResultRule.toLintRule (rule : ResultRule) : LintRule where
  id := ResultRule.id
  description := ResultRule.message
  languages := ResultRule.languages
  severity := rule.severity
  run := rule.violations

end DroppedResult
