import DroppedResult.Rule.Lint
import DroppedResult.Search

/-!
# Runs

A run checks files with rules.  A file without a language, or without a text, is
skipped; a file that no rule is for is not read.  The violations of all files are
put in the order of paths, lines and columns, and those at one place stay in the
order in which they were found.
-/

namespace DroppedResult

/-- The grammars: the tree of a text in a language. -/
abbrev Grammars := Language → String → Tree

/-- What a run finds. -/
structure Outcome where
  violations : List Violation
  filesChecked : Nat
  filesSkipped : Nat
  rulesExecuted : Nat
  deriving DecidableEq

namespace Violation

/-- The order of places. -/
def comparePlace (a b : Violation) : Ordering :=
  (a.file.compare b.file).then ((compare a.line b.line).then (compare a.column b.column))

def notAfter (a b : Violation) : Bool :=
  (comparePlace a b).isLE

end Violation

/-- The violations of one file, or nothing when it is skipped. -/
def checkFile (grammars : Grammars) (fs : FileSystem) (rules : List LintRule) (file : SourceFile) :
    Option (List Violation) :=
  match file.language with
  | none => none
  | some language =>
    match rules.filter (·.appliesTo language) with
    | [] => some []
    | rules =>
      match fs.readText file.path with
      | .error _ => none
      | .ok text =>
        let tree := grammars language text
        some (rules.flatMap fun r => r.run file.path tree text)

/-- Check all files. -/
def runRules (grammars : Grammars) (fs : FileSystem) (rules : List LintRule)
    (files : List SourceFile) : Outcome :=
  let results := files.map (checkFile grammars fs rules)
  { violations := (results.filterMap id).flatten.mergeSort Violation.notAfter
    filesChecked := files.length
    filesSkipped := results.countP (·.isNone)
    rulesExecuted := rules.length }

namespace Outcome

def count (o : Outcome) (severity : Severity) : Nat :=
  o.violations.countP (·.severity == severity)

/-- No violation is an error. -/
def passed (o : Outcome) : Bool :=
  !o.violations.any (·.severity == .error)

end Outcome

end DroppedResult
