/-!
# Severities
-/

namespace DroppedResult

/-- How much a finding weighs.  Only errors fail a run. -/
inductive Severity where
  | error
  | warning
  deriving DecidableEq

namespace Severity

def all : List Severity :=
  [error, warning]

def standard : Severity :=
  error

def name : Severity → String
  | error => "error"
  | warning => "warning"

def ofName? (s : String) : Option Severity :=
  all.find? (·.name == s)

end Severity

end DroppedResult
