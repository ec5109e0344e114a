import DroppedResult.Config.Load

/-!
# Writing a configuration file

`FileSystem.initConfig` writes a commented configuration file into a directory.
An existing file is replaced only by force.
-/

namespace DroppedResult

namespace Config

/-- The lines of a new configuration file. -/
def templateLines : List String :=
  ["# must-use-result configuration",
    "",
    "[check]",
    "languages = [\"typescript\", \"tsx\", \"javascript\"]",
    "include = [\"**/*\"]",
    "exclude = [\"**/dist/**\", \"**/build/**\"]",
    "",
    "[rule]",
    "# Module whose ok/err/okAsync/errAsync imports are tracked",
    "target_module = \"neverthrow\"",
    "severity = \"error\"",
    "# Also flag calls such as fetchResult() whose name contains \"result\"",
    "heuristic = true",
    "# Helpers whose names contain \"result\" but which do not return a Result",
    "heuristic_exclude = []",
    "",
    "[output]",
    "format = \"human\"",
    "color = \"auto\""]

/-- The text of a new configuration file. -/
def template : String :=
  String.ofList (templateLines.flatMap fun line => line.toList ++ ['\n'])

end Config

inductive InitOutcome where
  | created
  | overwritten
  deriving DecidableEq

inductive InitError where
  | alreadyExists
  | io (cause : IoError)
  deriving DecidableEq

namespace InitOutcome

def message : InitOutcome → String
  | created => "Created must-use-result.toml."
  | overwritten => "Overwrote must-use-result.toml with the defaults."

end InitOutcome

namespace InitError

def message : InitError → String
  | alreadyExists => Config.fileName ++ " already exists (use --force to overwrite)"
  | io cause => "I/O error: " ++ cause.message

end InitError

namespace FileSystem

/-- Write a configuration file into a directory: what comes of it, and the file system
afterwards. -/
def initConfig (fs : FileSystem) (directory : FilePath) (force : Bool) :
    Except InitError InitOutcome × FileSystem :=
  let path := directory.join (FilePath.ofText Config.fileName).bytes
  let existed := fs.pathExists path
  if existed && !force then (.error .alreadyExists, fs)
  else
    match fs.writeText path Config.template with
    | (.error cause, after) => (.error (.io cause), after)
    | (.ok (), after) => (.ok (if existed then .overwritten else .created), after)

end FileSystem

end DroppedResult
