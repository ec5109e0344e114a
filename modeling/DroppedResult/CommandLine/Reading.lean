import DroppedResult.CommandLine.Invocation

/-!
# Reading command lines

Arguments are read from left to right, first those of the program and, after the
name of a subcommand, those of the subcommand.  An option waits for its value and
is taken into account when the next option, flag or path is met, or at the end; a
value that is attached to its option is taken into account at once.  So an unknown
argument is reported before a bad value that still waits, and what is wrong after
a subcommand before a bad value that waits in front of it.

After `--` every argument is a plain word.
-/

namespace DroppedResult

/-- Where options are read. -/
inductive Scope where
  | program
  | check
  | init
  deriving DecidableEq

/-- Options that take a value. -/
inductive Setting where
  | color
  | format
  | config
  deriving DecidableEq

inductive Flag where
  | verbose
  | force
  | help
  | version
  deriving DecidableEq

inductive Switch where
  | setting (s : Setting)
  | flag (f : Flag)
  deriving DecidableEq

namespace Scope

/-- The option with a long name. -/
def long? (scope : Scope) (name : String) : Option Switch :=
  match scope, name with
  | _, "color" => some (.setting .color)
  | _, "verbose" => some (.flag .verbose)
  | _, "help" => some (.flag .help)
  | .program, "version" => some (.flag .version)
  | .check, "format" => some (.setting .format)
  | .check, "config" => some (.setting .config)
  | .init, "force" => some (.flag .force)
  | _, _ => none

/-- The option with a short name. -/
def short? (scope : Scope) (name : Char) : Option Switch :=
  match scope, name with
  | _, 'v' => some (.flag .verbose)
  | _, 'h' => some (.flag .help)
  | .program, 'V' => some (.flag .version)
  | .check, 'f' => some (.setting .format)
  | .check, 'c' => some (.setting .config)
  | _, _ => none

end Scope

/-- The form of an argument. -/
inductive Argument where
  /-- The mark `--`, after which all arguments are words. -/
  | escape
  | long (name : String) (value : Option String)
  | short (names : List Char)
  | word (text : String)
  deriving DecidableEq

namespace Argument

def ofText (text : String) : Argument :=
  match text.toList with
  | ['-', '-'] => .escape
  | '-' :: '-' :: rest =>
    let name := String.ofList (rest.takeWhile (· != '='))
    match rest.dropWhile (· != '=') with
    | [] => .long name none
    | _ :: value => .long name (some (String.ofList value))
  | '-' :: c :: rest => .short (c :: rest)
  | _ => .word text

end Argument

/-- What has been taken into account in a scope. -/
structure Given where
  color : Option ColorChoice := none
  verbose : Bool := false
  format : Option ReportFormat := none
  config : Option String := none
  force : Bool := false
  paths : List String := []
  deriving DecidableEq

namespace Given

/-- Put in a value that is given once. -/
def once {α : Type} (old : Option α) (value : Option α) (put : α → Given) :
    Except UsageError Given :=
  if old.isSome then .error .repeated
  else
    match value with
    | some v => .ok (put v)
    | none => .error .invalidValue

def set (g : Given) (s : Setting) (value : String) : Except UsageError Given :=
  match s with
  | .color => once g.color (ColorChoice.ofName? value) fun c => { g with color := some c }
  | .format => once g.format (ReportFormat.ofName? value) fun f => { g with format := some f }
  | .config =>
    once g.config (if value = "" then none else some value) fun c => { g with config := some c }

def raise (g : Given) : Flag → Except UsageError Given
  | .help => .error .help
  | .version => .error .version
  | .verbose => if g.verbose then .error .repeated else .ok { g with verbose := true }
  | .force => if g.force then .error .repeated else .ok { g with force := true }

end Given

/-- An option that has not been taken into account, with its value if that has
been read. -/
structure Pending where
  setting : Setting
  value : Option String
  deriving DecidableEq

/-- A scope while its arguments are read. -/
structure Progress where
  given : Given := {}
  pending : Option Pending := none
  /-- All that follows are words. -/
  onlyWords : Bool := false
  deriving DecidableEq

namespace Progress

/-- The option that waits for its value. -/
def awaiting (p : Progress) : Option Setting :=
  match p.pending with
  | some ⟨s, none⟩ => some s
  | _ => none

/-- Take the pending option into account. -/
def settle (p : Progress) : Except UsageError Progress :=
  match p.pending with
  | none => .ok p
  | some ⟨_, none⟩ => .error .invalidValue
  | some ⟨s, some value⟩ => do .ok { p with given := ← p.given.set s value, pending := none }

/-- Take a flag into account. -/
def flag (p : Progress) (f : Flag) : Except UsageError Progress := do
  let p ← p.settle
  .ok { p with given := ← p.given.raise f }

/-- Take in an option, with the value that is attached to it. -/
def option (p : Progress) (s : Setting) (attached : Option String) : Except UsageError Progress := do
  let p ← p.settle
  match attached with
  | some value => .ok { p with given := ← p.given.set s value }
  | none => .ok { p with pending := some ⟨s, none⟩ }

/-- The value attached to a short option, with or without an equals sign. -/
def attachedTo : List Char → Option String
  | [] => none
  | '=' :: rest => some (String.ofList rest)
  | rest => some (String.ofList rest)

/-- Read short options that are written together.  One that takes a value ends
them. -/
def shorts (scope : Scope) : Progress → List Char → Except UsageError Progress
  | p, [] => .ok p
  | p, c :: rest =>
    match scope.short? c with
    | none => .error .unknownArgument
    | some (.flag f) => do shorts scope (← p.flag f) rest
    | some (.setting s) => p.option s (attachedTo rest)

def long (scope : Scope) (p : Progress) (name : String) (value : Option String) :
    Except UsageError Progress :=
  match scope.long? name with
  | none => .error .unknownArgument
  | some (.setting s) => p.option s value
  | some (.flag f) => if value.isSome then .error .unwantedValue else p.flag f

def subcommandNames : List String :=
  ["check", "init", "help"]

/-- Read a word that is no option's value. -/
def word (scope : Scope) (p : Progress) (text : String) : Except UsageError Progress :=
  match scope with
  | .check => do
    let p ← p.settle
    .ok { p with given := { p.given with paths := p.given.paths ++ [text] } }
  | .init => .error .unknownArgument
  | .program =>
    .error (if p.onlyWords ∧ text ∈ subcommandNames then .unknownArgument else .unknownSubcommand)

/-- Read one argument. -/
def step (scope : Scope) (p : Progress) (text : String) : Except UsageError Progress :=
  if p.onlyWords then p.word scope text
  else
    match Argument.ofText text with
    | .escape => .ok { p with onlyWords := true }
    | .long name value => p.long scope name value
    | .short names => p.shorts scope names
    | .word text =>
      match p.awaiting with
      | some s => .ok { p with pending := some ⟨s, some text⟩ }
      | none => p.word scope text

/-- Read all arguments of a scope. -/
def all (scope : Scope) (args : List String) : Except UsageError Given := do
  let p ← args.foldlM (step scope) {}
  .ok (← p.settle).given

end Progress

namespace Invocation

/-- The help command takes the name of a subcommand, and nothing after it. -/
def helpTopic : List String → UsageError
  | [] => .help
  | [name] => if name ∈ Progress.subcommandNames then .help else .unknownSubcommand
  | _ => .unknownSubcommand

/-- What is given after the subcommand counts before what is given in front. -/
def ofGiven (outer inner : Given) (command : Command) : Invocation where
  command
  color := inner.color.or outer.color
  verbose := outer.verbose || inner.verbose

/-- The check that is asked for.  Without paths it is of the working directory. -/
def checkOf (g : Given) : Command :=
  .check ⟨if g.paths.isEmpty then ["."] else g.paths, g.format, g.config⟩

/-- Read arguments up to the subcommand, and the subcommand with its own. -/
def read : Progress → List String → Except UsageError Invocation
  | p, [] => do
    let p ← p.settle
    .error (if p.given = {} then .nothingGiven else .missingSubcommand)
  | p, text :: rest =>
    if p.onlyWords ∨ p.awaiting.isSome ∨ text ∉ Progress.subcommandNames then
      match p.step .program text with
      | .error e => .error e
      | .ok p => read p rest
    else if text = "check" then do
      let inner ← Progress.all .check rest
      let p ← p.settle
      .ok (ofGiven p.given inner (checkOf inner))
    else if text = "init" then do
      let inner ← Progress.all .init rest
      let p ← p.settle
      .ok (ofGiven p.given inner (.init inner.force))
    else .error (helpTopic rest)

/-- The invocation that a command line gives, from the arguments after the
program's name. -/
def ofArgs (args : List String) : Except UsageError Invocation :=
  read {} args

end Invocation

end DroppedResult
