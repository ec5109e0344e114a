import DroppedResult.Config.Load

/-!
# Errors of a check

What can go wrong on the way from a text to its findings.  The rule itself never
fails.
-/

namespace DroppedResult

/-- Why a source text has no tree. -/
inductive GrammarError where
  | unsupported (language : Language)
  | unusable (language : Language) (reason : String)
  | noTree (language : Language)
  deriving DecidableEq

namespace GrammarError

def message : GrammarError → String
  | unsupported language =>
    "No grammar available for " ++ language.title ++ " (enable the matching cargo feature)"
  | unusable language reason => "Failed to load grammar for " ++ language.title ++ ": " ++ reason
  | noTree language => "tree-sitter produced no tree for " ++ language.name ++ " source"

end GrammarError

inductive LintError where
  | config (cause : ConfigError)
  | grammar (cause : GrammarError)
  | io (reason : String)
  deriving DecidableEq

namespace LintError

/-- What the cause says. -/
def reason : LintError → String
  | config cause => cause.message
  | grammar cause => cause.message
  | io reason => reason

def message : LintError → String
  | config cause => "Configuration error: " ++ cause.message
  | grammar cause => "Parse error: " ++ cause.message
  | io reason => "I/O error: " ++ reason

end LintError

end DroppedResult
