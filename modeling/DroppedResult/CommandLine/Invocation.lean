import DroppedResult.Report.Choice

/-!
# Invocations

What a command line asks for: to check paths, or to write a configuration file.
The choice of color and the wish for more messages may be given before or after
the name of the command.
-/

namespace DroppedResult

structure CheckRequest where
  paths : List String
  format : Option ReportFormat
  config : Option String
  deriving DecidableEq

inductive Command where
  | check (request : CheckRequest)
  | init (force : Bool)
  deriving DecidableEq

structure Invocation where
  command : Command
  color : Option ColorChoice
  verbose : Bool
  deriving DecidableEq

/-- Why a command line gives no invocation: it asks for help or for the version,
or something in it is wrong. -/
inductive UsageError where
  | help
  | version
  /-- Nothing is given at all. -/
  | nothingGiven
  | missingSubcommand
  | unknownSubcommand
  | unknownArgument
  /-- The value of an option is missing, empty or not one of its values. -/
  | invalidValue
  /-- An option is given twice. -/
  | repeated
  /-- A flag is given a value. -/
  | unwantedValue
  deriving DecidableEq

namespace UsageError

/-- Help and the version are answers, not failures. -/
def isFailure : UsageError → Bool
  | help | version => false
  | _ => true

end UsageError

end DroppedResult
