/-!
# Glob patterns

A pattern is read into tokens.  `*` stands for any run, `?` for one byte,
`[a-z]` for a class, `{a,b}` for alternatives, and a backslash makes the next
character literal.  A double star is recursive at the start before a slash, at
the end after a slash, and between slashes; anywhere else it is a plain star.

`Glob.parse` reads a pattern.  It stops at the first fault: an invalid range or
an unclosed class where it stands, a dangling escape and a closing brace too many
where they stand, and a missing closing brace at the end.
-/

namespace DroppedResult

namespace Glob

inductive Token where
  | literal (c : Char)
  /-- One byte. -/
  | any
  /-- Any run of bytes. -/
  | star
  /-- `**/` at the start, or `**` alone. -/
  | anyDirectories
  /-- `/**` at the end. -/
  | anythingBelow
  /-- `/**/` in between. -/
  | directoriesBetween
  | charClass (negated : Bool) (ranges : List (Char × Char))
  | alternatives (branches : List (List Token))

/-- Why a pattern cannot be read. -/
inductive Fault where
  | unclosedClass
  | invalidRange (low high : Char)
  | unopenedAlternatives
  | unclosedAlternatives
  | danglingEscape
  deriving DecidableEq

namespace Fault

def message : Fault → String
  | unclosedClass => "unclosed character class; missing ']'"
  | invalidRange low high =>
    "invalid range; '" ++ low.toString ++ "' > '" ++ high.toString ++ "'"
  | unopenedAlternatives =>
    "unopened alternate group; missing '\x7b' (maybe escape '\x7d' with '[\x7d]'?)"
  | unclosedAlternatives =>
    "unclosed alternate group; missing '\x7d' (maybe escape '\x7b' with '[\x7b]'?)"
  | danglingEscape => "dangling '\\'"

end Fault

/-! ## Classes -/

/-- A class while it is read.  `ranges` has the latest range first;
`awaitsEnd` tells that a hyphen waits for the end of the latest range. -/
structure ClassDraft where
  ranges : List (Char × Char)
  awaitsEnd : Bool

namespace ClassDraft

def start : ClassDraft :=
  ⟨[], false⟩

def addSingle (d : ClassDraft) (c : Char) : ClassDraft :=
  ⟨(c, c) :: d.ranges, false⟩

/-- End the latest range at `c`. -/
def endRange (d : ClassDraft) (c : Char) : Except Fault ClassDraft :=
  match d.ranges with
  | [] => .ok (d.addSingle c)
  | (low, _) :: rest => if c < low then .error (.invalidRange low c) else .ok ⟨(low, c) :: rest, false⟩

/-- Take one more character.  A hyphen is literal in first place and as the end
of a range. -/
def add (d : ClassDraft) (c : Char) : Except Fault ClassDraft :=
  if d.awaitsEnd then d.endRange c
  else if c = '-' ∧ d.ranges ≠ [] then .ok { d with awaitsEnd := true }
  else .ok (d.addSingle c)

/-- The ranges in order.  A hyphen in last place is literal. -/
def finish (d : ClassDraft) : List (Char × Char) :=
  (if d.awaitsEnd then ('-', '-') :: d.ranges else d.ranges).reverse

/-- Read up to the closing bracket: the ranges, and what follows the bracket.  A
closing bracket in first place is literal. -/
def read (d : ClassDraft) : List Char → Except Fault (List (Char × Char) × List Char)
  | [] => .error .unclosedClass
  | c :: rest =>
    if c = ']' ∧ d.ranges ≠ [] then .ok (d.finish, rest)
    else
      match d.add c with
      | .error fault => .error fault
      | .ok d => d.read rest

end ClassDraft

/-- Read a class after its opening bracket. -/
def readClass : List Char → Except Fault (Token × List Char)
  | c :: rest =>
    if c = '!' ∨ c = '^' then
      (ClassDraft.start.read rest).map fun (ranges, rest) => (.charClass true ranges, rest)
    else
      (ClassDraft.start.read (c :: rest)).map fun (ranges, rest) => (.charClass false ranges, rest)
  | [] => .error .unclosedClass

/-! ## Patterns -/

/-- An alternation that is still open: its finished branches, latest first, and
the tokens that stand before it. -/
structure Group where
  finished : List (List Token)
  before : List Token

/-- A pattern while it is read.  `tokens` has the latest token of the current
branch first, `groups` the innermost open alternation first. -/
structure Draft where
  tokens : List Token
  groups : List Group
  /-- An unclosed class was met and taken literally. -/
  classesClosed : Bool

namespace Draft

def start : Draft :=
  ⟨[], [], true⟩

def push (d : Draft) (t : Token) : Draft :=
  { d with tokens := t :: d.tokens }

def openGroup (d : Draft) : Draft :=
  { d with tokens := [], groups := ⟨[], d.tokens⟩ :: d.groups }

def comma (d : Draft) : Draft :=
  match d.groups with
  | [] => d.push (.literal ',')
  | g :: groups =>
    { d with tokens := [], groups := { g with finished := d.tokens.reverse :: g.finished } :: groups }

def closeGroup (d : Draft) : Except Fault Draft :=
  match d.groups with
  | [] => .error .unopenedAlternatives
  | g :: groups =>
    let branches := (d.tokens.reverse :: g.finished).reverse
    .ok { d with tokens := .alternatives branches :: g.before, groups }

/-- Put a recursive token in place of the slash before it.  Next to a recursive
token at the start or the end it adds nothing. -/
def recursive (d : Draft) (t : Token) : Draft :=
  match d.tokens with
  | .anyDirectories :: _ | .anythingBelow :: _ => d
  | _ :: tokens => { d with tokens := t :: tokens }
  | [] => d.push t

/-- A star after a star adds nothing. -/
def pushStar (d : Draft) : Draft :=
  match d.tokens with
  | .star :: _ => d
  | _ => d.push .star

/-- Read a double star, given the character before it and what follows it: the
draft, the latest character read, and what is left. -/
def doubleStar (d : Draft) (before : Option Char) (rest : List Char) :
    Draft × Option Char × List Char :=
  if d.tokens.isEmpty then
    match rest with
    | [] => (d.push .anyDirectories, some '*', [])
    | '/' :: rest => (d.push .anyDirectories, some '/', rest)
    | _ => (d.pushStar, some '*', rest)
  else if before = some '/' ∨ (d.groups ≠ [] ∧ (before = some ',' ∨ before = some '\x7b')) then
    match rest with
    | [] => (d.recursive .anythingBelow, some '*', [])
    | '/' :: rest => (d.recursive .directoriesBetween, some '/', rest)
    | c :: _ =>
      if (c = ',' ∨ c = '\x7d') ∧ d.groups ≠ [] then (d.recursive .anythingBelow, some '*', rest)
      else (d.pushStar, some '*', rest)
  else
    (d.pushStar, some '*', rest)

/-- Read the first characters of a non-empty rest.  `literalBracket` makes the
opening bracket of an unclosed class literal. -/
def step (literalBracket : Bool) (d : Draft) (before : Option Char) (c : Char) (rest : List Char) :
    Except Fault (Draft × Option Char × List Char) :=
  match c, rest with
  | '?', _ => .ok (d.push .any, some c, rest)
  | '*', '*' :: rest => .ok (d.doubleStar before rest)
  | '*', _ => .ok (d.pushStar, some c, rest)
  | '[', _ =>
    if d.classesClosed then
      match readClass rest with
      | .ok (token, rest) => .ok (d.push token, some ']', rest)
      | .error .unclosedClass =>
        if literalBracket then
          .ok ({ d with tokens := .literal c :: d.tokens, classesClosed := false }, some c, rest)
        else
          .error .unclosedClass
      | .error fault => .error fault
    else
      .ok (d.push (.literal c), some c, rest)
  | '\x7b', _ => .ok (d.openGroup, some c, rest)
  | '\x7d', _ => d.closeGroup.map fun d => (d, some c, rest)
  | ',', _ => .ok (d.comma, some c, rest)
  | '\\', [] => .error .danglingEscape
  | '\\', e :: rest => .ok (d.push (.literal e), some e, rest)
  | _, _ => .ok (d.push (.literal c), some c, rest)

/-- Read on to the end.  Every step reads a character, so as many steps as there
are characters are enough. -/
def run (literalBracket : Bool) : Nat → Draft → Option Char → List Char → Except Fault Draft
  | _, d, _, [] => .ok d
  | 0, d, _, _ => .ok d
  | steps + 1, d, before, c :: rest =>
    match d.step literalBracket before c rest with
    | .error fault => .error fault
    | .ok (d, before, rest) => run literalBracket steps d before rest

end Draft

end Glob

/-- A pattern that has been read. -/
structure Glob where
  tokens : List Glob.Token

namespace Glob

def parseWith (literalBracket : Bool) (pattern : String) : Except Fault Glob := do
  let cs := pattern.toList
  let d ← Draft.start.run literalBracket cs.length none cs
  if d.groups.isEmpty then .ok ⟨d.tokens.reverse⟩ else .error .unclosedAlternatives

def parse (pattern : String) : Except Fault Glob :=
  parseWith false pattern

/-- What is said of a pattern with a fault. -/
def faultMessage (pattern : String) (fault : Fault) : String :=
  "error parsing glob '" ++ pattern ++ "': " ++ fault.message

end Glob

end DroppedResult
