import DroppedResult.Run

/-!
# Reports for people

A report is a sequence of pieces of text, some of them in a style.
`Outcome.pieces` says what is written; `plainText` writes it without styles, and
`coloredText` with the control sequences of a terminal.  A styled piece starts
with a reset and the sequences of its style, and ends with a reset.
-/

namespace DroppedResult

inductive Color where
  | red
  | green
  | yellow
  deriving DecidableEq

structure Style where
  bold : Bool := false
  dimmed : Bool := false
  color : Option Color := none
  deriving DecidableEq

inductive Piece where
  | plain (text : String)
  | styled (style : Style) (text : String)
  deriving DecidableEq

namespace Color

def code : Color → String
  | red => "31"
  | green => "32"
  | yellow => "33"

def ofSeverity : Severity → Color
  | .error => red
  | .warning => yellow

end Color

namespace Style

/-- The control sequence with a code. -/
def sequence (code : String) : String :=
  "\x1b[" ++ code ++ "m"

def reset : String :=
  sequence "0"

/-- What switches a terminal to the style. -/
def start (s : Style) : String :=
  reset ++ (if s.bold then sequence "1" else "") ++ (if s.dimmed then sequence "2" else "") ++
    (match s.color with
    | some color => sequence color.code
    | none => "")

end Style

namespace Piece

def text : Piece → String
  | plain text => text
  | styled _ text => text

def colored : Piece → String
  | plain text => text
  | styled style text => style.start ++ text ++ Style.reset

end Piece

def plainText (pieces : List Piece) : String :=
  String.join (pieces.map Piece.text)

def coloredText (pieces : List Piece) : String :=
  String.join (pieces.map Piece.colored)

/-- The first line of a text, without its line end.  A carriage return belongs to
the line end only before a newline. -/
def firstLine (s : String) : String :=
  let line := s.toList.takeWhile (· != '\n')
  let ended := s.toList.contains '\n'
  String.ofList (if ended ∧ line.getLast? = some '\r' then line.dropLast else line)

/-- A number in decimal digits. -/
def decimal (n : Nat) : String :=
  String.ofList (Nat.toDigits 10 n)

namespace Violation

def pieces (v : Violation) : List Piece :=
  [.styled { bold := true }
      (v.file.display ++ ":" ++ decimal v.line.toNat ++ ":" ++ decimal v.column.toNat ++ ":"),
    .styled { bold := true, color := some (.ofSeverity v.severity) } (" " ++ v.severity.name),
    .plain ("[" ++ v.ruleId.text ++ "] " ++ v.message ++ "\n"),
    .styled { dimmed := true } ("    " ++ firstLine v.snippet ++ "\n")]

end Violation

namespace Outcome

/-- Errors that the report counts. -/
def errors (o : Outcome) : Nat :=
  o.count .error

/-- Violations that are not errors. -/
def warnings (o : Outcome) : Nat :=
  o.violations.length - o.errors

def verdict (o : Outcome) : Piece :=
  if o.violations.isEmpty then .styled { color := some .green } "No unhandled Results found"
  else
    .styled { bold := true, color := some (if 0 < o.errors then .red else .yellow) }
      (decimal o.violations.length ++ " unhandled Result(s): " ++ decimal o.errors ++
        " error(s), " ++ decimal o.warnings ++ " warning(s)")

/-- The report for people. -/
def pieces (o : Outcome) : List Piece :=
  o.violations.flatMap (·.pieces) ++
    (if o.violations.isEmpty then [] else [.plain "\n"]) ++
    [o.verdict, .plain (" in " ++ decimal o.filesChecked ++ " file(s)\n")] ++
    (if 0 < o.filesSkipped then
      [.plain (decimal o.filesSkipped ++ " file(s) could not be read or parsed\n")]
    else [])

def human (o : Outcome) (colored : Bool) : String :=
  if colored then coloredText o.pieces else plainText o.pieces

end Outcome

end DroppedResult
