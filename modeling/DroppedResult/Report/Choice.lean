/-!
# Choices about a report

Its format, and whether it is colored.
-/

namespace DroppedResult

inductive ReportFormat where
  | human
  | jsonLines
  deriving DecidableEq

namespace ReportFormat

def all : List ReportFormat :=
  [human, jsonLines]

def standard : ReportFormat :=
  human

def name : ReportFormat → String
  | human => "human"
  | jsonLines => "jsonl"

def ofName? (s : String) : Option ReportFormat :=
  all.find? (·.name == s)

end ReportFormat

inductive ColorChoice where
  | auto
  | always
  | never
  deriving DecidableEq

/-- What is known of the terminal from the environment: `TERM`, and whether
`NO_COLOR` is set. -/
structure Terminal where
  term : Option String
  noColor : Bool

namespace ColorChoice

def all : List ColorChoice :=
  [auto, always, never]

def standard : ColorChoice :=
  auto

def name : ColorChoice → String
  | auto => "auto"
  | always => "always"
  | never => "never"

def ofName? (s : String) : Option ColorChoice :=
  all.find? (·.name == s)

/-- Whether to color on a terminal.  Left to itself, a report is colored on a
terminal that has a type other than `dumb`, unless color is declined. -/
def colors (choice : ColorChoice) (terminal : Terminal) : Bool :=
  match choice with
  | always => true
  | never => false
  | auto =>
    match terminal.term with
    | none => false
    | some term => term != "dumb" && !terminal.noColor

end ColorChoice

end DroppedResult
