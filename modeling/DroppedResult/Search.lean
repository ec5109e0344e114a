import DroppedResult.Ignore.Level
import DroppedResult.Language

/-!
# Searching for source files

A search starts from a root path.  A root that is a file is found itself; below a
root that is a directory every file is found that the ignore rules do not pass
over, under the root's path joined with the names that lead to it.  Links below
the root are not files.  A directory that cannot be listed is met as an error, and
the search goes on beside it.

`FileFilter` then keeps the files that an include pattern matches, no exclude
pattern matches, and that are in a wanted language.  Errors pass the filter.
-/

namespace DroppedResult

/-- A file to check.  A file without a language cannot be checked. -/
structure SourceFile where
  path : FilePath
  language : Option Language
  deriving DecidableEq

namespace SourceFile

/-- A file with the language that its name tells. -/
def ofPath (path : FilePath) : SourceFile :=
  ⟨path, Language.detect path⟩

end SourceFile

/-- Why a search fails. -/
inductive SearchError where
  | badPattern (pattern : String) (fault : Glob.Fault)
  | unreadable (path : FilePath) (cause : IoError)
  deriving DecidableEq

namespace SearchError

def message : SearchError → String
  | badPattern pattern fault =>
    "Invalid glob pattern '" ++ pattern ++ "': " ++ Glob.faultMessage pattern fault
  | unreadable path cause =>
    "Walk error: " ++ path.display ++ ": IO error for operation on " ++ path.display ++ ": " ++
      cause.message

end SearchError

structure FileFilter where
  /-- A file must match one of these, if there are any. -/
  included : List Glob
  excluded : List Glob
  languages : List Language

namespace FileFilter

def readPattern (pattern : String) : Except SearchError Glob :=
  (Glob.parse pattern).mapError (.badPattern pattern)

/-- Patterns that are always excluded. -/
def alwaysExcluded : List String :=
  ["**/.git/**", "**/node_modules/**"]

def ofPatterns (included excluded : List String) (languages : List Language := Language.all) :
    Except SearchError FileFilter := do
  let included ← included.mapM readPattern
  let excluded ← (excluded ++ alwaysExcluded).mapM readPattern
  .ok { included, excluded, languages }

def admitsPath (f : FileFilter) (path : FilePath) : Bool :=
  (f.included.isEmpty || f.included.any (·.isMatch path.bytes)) &&
    !f.excluded.any (·.isMatch path.bytes)

def admits (f : FileFilter) (file : SourceFile) : Bool :=
  f.admitsPath file.path && file.language.any f.languages.contains

end FileFilter

namespace FileSystem

/-- The root that stands for standard input, where nothing is found. -/
def standardInput : FilePath :=
  .ofText "-"

/-- A search from `start` comes to the entry at `names` below it: every directory on
the way can be listed, and nothing on the way is passed over. -/
def reaches (fs : FileSystem) (root : FilePath) (start names : Location) (isDirectory : Bool) :
    Bool :=
  (List.range names.length).all fun i =>
    fs.canEnter (start ++ names.take i) &&
      !fs.passesOver root start (names.take (i + 1)) (isDirectory || i + 1 < names.length)

/-- What a search from `start` makes of an entry: a file is found, and a directory that
cannot be listed is an error. -/
def meet? (fs : FileSystem) (root : FilePath) (start : Location) (e : Location × Entry) :
    Option (Except SearchError FilePath) :=
  let names := e.1.drop start.length
  let isMet := start.isPrefixOf e.1 && fs.reaches root start names e.2.isDirectory
  match e.2 with
  | .file _ _ => if isMet then some (.ok (root.joinAll names)) else none
  | .directory access =>
    if !access.reads && isMet then some (.error (.unreadable (root.joinAll names) .denied))
    else none
  | .link _ => none

/-- What a search from the root meets, one after the other: the paths of the files that
it finds, and errors. -/
def filesBelow (fs : FileSystem) (root : FilePath) : List (Except SearchError FilePath) :=
  if root = standardInput then []
  else
    match fs.resolve root with
    | .error cause => [.error (.unreadable root cause)]
    | .ok (.file _ _ _) => [.ok root]
    | .ok (.directory start _) => fs.entries.filterMap (fs.meet? root start)
    | .ok (.free _) => [.error (.unreadable root .notFound)]

/-- The source files that a search from the root finds and the filter admits, and the
errors that it meets. -/
def walk (fs : FileSystem) (filter : FileFilter) (root : FilePath) :
    List (Except SearchError SourceFile) :=
  ((fs.filesBelow root).map (·.map .ofPath)).filter (·.toOption.all filter.admits)

/-- All source files of a search, or the first error that it meets. -/
def search (fs : FileSystem) (filter : FileFilter) (root : FilePath) :
    Except SearchError (List SourceFile) :=
  (fs.walk filter root).mapM id

/-! ## Several searches -/

/-- What tells files apart: where a file is, or the path to it where that leads
nowhere. -/
inductive Identity where
  | located (location : Location)
  | unlocated (components : List FilePath.Component)
  deriving DecidableEq

def identity (fs : FileSystem) (path : FilePath) : Identity :=
  match fs.canonical? path with
  | some location => .located location
  | none => .unlocated path.components

/-- What searches have found so far. -/
structure Gathered where
  /-- The identities of the files in `kept`. -/
  seen : List Identity
  /-- The files, the latest first. -/
  kept : List SourceFile

namespace Gathered

def nothing : Gathered :=
  ⟨[], []⟩

/-- Keep a found file unless it has been found before. -/
def add (fs : FileSystem) (g : Gathered) (file : SourceFile) : Gathered :=
  let key := fs.identity file.path
  if key ∈ g.seen then g else ⟨key :: g.seen, file :: g.kept⟩

/-- Add the files of one search in turn. -/
def addAll (fs : FileSystem) (g : Gathered) (files : List SourceFile) : Gathered :=
  files.foldl (add fs) g

end Gathered

end FileSystem

end DroppedResult
