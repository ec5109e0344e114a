import DroppedResult.CommandLine.Init
import DroppedResult.CommandLine.Reading
import DroppedResult.Report.Human
import DroppedResult.Report.JsonLines

/-!
# The program

`Program.run` gives the answer to a command line: the exit code, what is printed,
and the file system afterwards.

The exit code is 0 when no error was found, 1 when one was, 2 when the run could
not be made, and 3 when its configuration is malformed or unsound.
-/

namespace DroppedResult

/-- Why a check cannot be made. -/
inductive CheckError where
  | config (cause : ConfigError)
  | search (cause : SearchError)
  deriving DecidableEq

namespace CheckError

def message : CheckError → String
  | config cause => "Configuration error: " ++ cause.message
  | search cause => "File walker error: " ++ cause.message

end CheckError

namespace ExitCode

def success : Nat := 0
def violations : Nat := 1
def failure : Nat := 2
def badConfig : Nat := 3

def ofCheckError : CheckError → Nat
  | .config (.malformed) | .config (.unsound _) => badConfig
  | .config (.unreadable _) | .search _ => failure

end ExitCode

/-- What one check is asked for. -/
structure CheckOptions where
  paths : List String
  format : Option ReportFormat
  config : Option FilePath
  color : Option ColorChoice

namespace CheckOptions

def ofRequest (request : CheckRequest) (color : Option ColorChoice) : CheckOptions where
  paths := request.paths
  format := request.format
  config := request.config.map FilePath.ofText
  color

/-- The paths to search; without any, the working directory. -/
def roots (o : CheckOptions) : List String :=
  if o.paths.isEmpty then ["."] else o.paths

end CheckOptions

/-- The surroundings of a run. -/
structure Environment where
  grammars : Grammars
  terminal : Terminal

/-- What a run answers. -/
structure Answer where
  exitCode : Nat
  output : String := ""
  /-- Lines for standard error. -/
  complaint : String := ""

namespace Program

def versionText : String :=
  "must-use-result 0.1.0\n"

def usageText : String :=
  "Find neverthrow Results that are created but never handled\n\n" ++
  "Usage: must-use-result [OPTIONS] <COMMAND>\n\n" ++
  "Commands:\n" ++
  "  check  Check files for unhandled Results\n" ++
  "  init   Write a default must-use-result.toml\n" ++
  "  help   Print this message or the help of the given subcommand(s)\n"

/-- The source files that a configuration selects below a path. -/
def selectBelow (fs : FileSystem) (config : Config) (path : String) :
    Except SearchError (List SourceFile) := do
  let filter ← FileFilter.ofPatterns config.files.included config.files.excluded config.files.languages
  fs.search filter (.ofText path)

/-- The source files that a configuration selects below the given paths, each file
once, in the order of the paths.  The first error ends the search. -/
def selectFiles (fs : FileSystem) (config : Config) (paths : List String) :
    Except SearchError (List SourceFile) := do
  let gathered ← paths.foldlM
    (fun gathered path => return gathered.addAll fs (← selectBelow fs config path))
    FileSystem.Gathered.nothing
  return gathered.kept.reverse

/-- Check the given paths: the configuration of the check, and what it finds. -/
def findViolations (grammars : Grammars) (fs : FileSystem) (options : CheckOptions) :
    Except CheckError (Config × Outcome) := do
  let config ← (Config.find fs options.config).mapError .config
  let files ← (selectFiles fs config options.roots).mapError .search
  .ok (config, runRules grammars fs [config.toRule.toLintRule] files)

/-- The report in the chosen form.  A choice on the command line counts before
one in the configuration. -/
def report (terminal : Terminal) (config : Config) (format : Option ReportFormat)
    (color : Option ColorChoice) (outcome : Outcome) : String :=
  match format.getD config.output.format with
  | .human => outcome.human ((color.getD config.output.color).colors terminal)
  | .jsonLines => outcome.jsonLines

def complain (message : String) : String :=
  "Error: " ++ message ++ "\n"

def check (env : Environment) (fs : FileSystem) (options : CheckOptions) : Answer :=
  match findViolations env.grammars fs options with
  | .error e => { exitCode := ExitCode.ofCheckError e, complaint := complain e.message }
  | .ok (config, outcome) =>
    { exitCode := if outcome.passed then ExitCode.success else ExitCode.violations
      output := report env.terminal config options.format options.color outcome }

def init (fs : FileSystem) (force : Bool) : Answer × FileSystem :=
  match fs.initConfig (.ofText ".") force with
  | (.ok outcome, after) =>
    ({ exitCode := ExitCode.success, output := outcome.message ++ "\n" }, after)
  | (.error e, after) => ({ exitCode := ExitCode.failure, complaint := complain e.message }, after)

def refuse : UsageError → Answer
  | .help => { exitCode := ExitCode.success, output := usageText }
  | .version => { exitCode := ExitCode.success, output := versionText }
  | _ => { exitCode := ExitCode.failure, complaint := usageText }

/-- The answer to a command line, and the file system afterwards. -/
def run (env : Environment) (fs : FileSystem) (args : List String) : Answer × FileSystem :=
  match Invocation.ofArgs args with
  | .error e => (refuse e, fs)
  | .ok ⟨.check request, color, _⟩ => (check env fs (.ofRequest request color), fs)
  | .ok ⟨.init force, _, _⟩ => init fs force

end Program

end DroppedResult
