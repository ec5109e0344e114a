import DroppedResult.FilePath
import DroppedResult.Glob.Match
import DroppedResult.Text.Blank

/-!
# Ignore rules

An ignore file holds one rule a line.  A rule is a pattern for paths below the
file's directory: `!` in front keeps what it matches, a slash at the end restricts
it to directories, and a pattern without a slash applies at any depth.  Empty
lines, comments and malformed patterns give no rule.

Of the rules of one file the last one that matches decides.
-/

namespace DroppedResult

/-- What a rule says of a path. -/
inductive Verdict where
  | ignored
  | kept
  deriving DecidableEq

structure IgnoreRule where
  glob : Glob
  verdict : Verdict
  onlyDirectories : Bool

namespace IgnoreRule

/-- The line without the blanks at its end.  A last blank after a backslash is
meant. -/
def trimLine (line : List Char) : List Char :=
  if [' ', '\\'].isPrefixOf line.reverse then line else trimBlankEnd line

/-- Take off the marks at the start of a line: what the rule says, whether it is
bound to the file's own directory, and the rest.  A backslash takes the meaning
off a mark. -/
def readMarks : List Char → Verdict × Bool × List Char
  | '\\' :: '!' :: rest => (.ignored, false, '!' :: rest)
  | '\\' :: '#' :: rest => (.ignored, false, '#' :: rest)
  | '!' :: '/' :: rest => (.kept, true, rest)
  | '!' :: rest => (.kept, false, rest)
  | '/' :: rest => (.ignored, true, rest)
  | line => (.ignored, false, line)

/-- Take off a slash at the end, and a backslash before it. -/
def readDirectoryMark (line : List Char) : Bool × List Char :=
  match line.reverse with
  | '/' :: '\\' :: rest => (true, rest.reverse)
  | '/' :: rest => (true, rest.reverse)
  | _ => (false, line)

/-- The pattern for paths below the file's directory.  A pattern without a slash
applies at any depth, and a double star at the end asks for something below. -/
def placed (anchored : Bool) (pattern : List Char) : List Char :=
  let pattern :=
    if anchored || pattern.contains '/' || pattern == ['*', '*'] then pattern
    else '*' :: '*' :: '/' :: pattern
  if ['*', '*', '/'].isPrefixOf pattern.reverse then pattern ++ ['/', '*'] else pattern

def ofLine? (line : String) : Option IgnoreRule :=
  let line := line.toList
  if line.head? = some '#' then none
  else
    let line := trimLine line
    if line.isEmpty then none
    else
      let (verdict, anchored, line) := readMarks line
      let (onlyDirectories, line) := readDirectoryMark line
      match Glob.parseWith true (String.ofList (placed anchored line)) with
      | .ok glob => some { glob, verdict, onlyDirectories }
      | .error _ => none

/-- The rule is about the path, given by the bytes below the rule's directory. -/
def applies (r : IgnoreRule) (isDirectory : Bool) (below : List UInt8) : Bool :=
  (isDirectory || !r.onlyDirectories) && r.glob.matchesWith true below

/-- What the last rule that is about the path says. -/
def judge (rules : List IgnoreRule) (isDirectory : Bool) (below : List UInt8) : Option Verdict :=
  (rules.reverse.find? (·.applies isDirectory below)).map (·.verdict)

/-! ## Ignore files -/

def newline : UInt8 := 10
def carriageReturn : UInt8 := 13

/-- The lines of a file.  A line end is a newline, or a carriage return and a
newline; a file that ends in one has no line after it. -/
def lines : List UInt8 → List (List UInt8)
  | [] => []
  | b :: rest =>
    if b == newline then [] :: lines rest
    else if b == carriageReturn && rest.head? == some newline then lines rest
    else
      match lines rest with
      | [] => [[b]]
      | line :: more => (b :: line) :: more

/-- The texts of the lines up to the first one that is not text. -/
def textsOf : List (List UInt8) → List String
  | [] => []
  | line :: rest =>
    match String.fromUTF8? ⟨line.toArray⟩ with
    | some text => text :: textsOf rest
    | none => []

def byteOrderMark : Char := '\uFEFF'

/-- The rules of an ignore file.  Byte order marks at its start are skipped. -/
def ofContent (content : ByteArray) : List IgnoreRule :=
  match textsOf (lines content.toList) with
  | [] => []
  | first :: rest =>
    (String.ofList (first.toList.dropWhile (· == byteOrderMark)) :: rest).filterMap ofLine?

end IgnoreRule

end DroppedResult
