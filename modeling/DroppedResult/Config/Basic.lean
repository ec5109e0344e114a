import DroppedResult.Report.Choice
import DroppedResult.Rule.Check

/-!
# Configurations

A configuration has three sections: which files are checked, the settings of the
rule, and the form of the report.  Every setting has a default.
-/

namespace DroppedResult

structure FileSettings where
  languages : List Language := Language.all
  /-- Patterns of which a checked file matches one. -/
  included : List String := ["**/*"]
  /-- Patterns of which a checked file matches none. -/
  excluded : List String := []
  deriving DecidableEq

structure RuleSettings where
  targetModule : String := "neverthrow"
  severity : Severity := .error
  heuristic : Bool := true
  /-- Names that the heuristic leaves alone, besides the standard ones. -/
  exclusions : List String := []
  deriving DecidableEq

structure OutputSettings where
  format : ReportFormat := .standard
  color : ColorChoice := .standard
  deriving DecidableEq

structure Config where
  files : FileSettings := {}
  rule : RuleSettings := {}
  output : OutputSettings := {}
  deriving DecidableEq

namespace Config

def standard : Config := {}

/-- The rule with the configured settings. -/
def toRule (c : Config) : ResultRule where
  targetModule := c.rule.targetModule
  severity := c.rule.severity
  heuristic := (Heuristic.standard.withEnabled c.rule.heuristic).withExclusions c.rule.exclusions

end Config

end DroppedResult
