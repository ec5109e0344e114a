import DroppedResult.FileSystem
import DroppedResult.Ignore.Rule

/-!
# Levels of ignore files

Every directory on the way from the root to an entry may hold ignore files; each such
directory is a level.  A level has three sources of rules: the file `.ignore`, the file
`.gitignore`, and the exclude file of a repository that starts there.  The last
two count only inside a repository, and only up to the nearest one's directory.

For each source the innermost level that has an opinion decides; between sources
`.ignore` comes first, then `.gitignore`, then the exclude file.  The ignore file of the
user comes last, inside any repository.
-/

namespace DroppedResult

namespace Ignore

/-- A path that rules are asked about: as it was found, and by its names below
the directory where the search began. -/
structure Candidate where
  found : FilePath
  names : Location
  isDirectory : Bool

/-- How a level's directory sees candidates. -/
inductive Outlook where
  /-- The directory is part of the search, under this path. -/
  | within (directory : FilePath)
  /-- The search began below the directory, on this way. -/
  | above (way : Location)

/-- The bytes without a leading `./`. -/
def dropHere : List UInt8 → List UInt8
  | a :: b :: rest => if a == FilePath.dot && b == FilePath.slash then rest else a :: b :: rest
  | bytes => bytes

/-- The part of a path below a directory, if the directory's path is written at
its start.  A bare name stays as it is. -/
def below (directory path : List UInt8) : List UInt8 :=
  if directory == [FilePath.dot] || !path.contains FilePath.slash then path
  else if directory.isPrefixOf path then
    match path.drop directory.length with
    | b :: rest => if b == FilePath.slash then rest else b :: rest
    | [] => []
  else path

/-- The bytes that a level's patterns are matched against. -/
def Outlook.view : Outlook → Candidate → List UInt8
  | within directory, c => below (dropHere directory.bytes) (dropHere (dropHere c.found.bytes))
  | above way, c => List.intercalate [FilePath.slash] (way ++ c.names)

structure Level where
  outlook : Outlook
  ignoreFile : List IgnoreRule
  gitignoreFile : List IgnoreRule
  excludeFile : List IgnoreRule
  /-- A repository starts here. -/
  isRepository : Bool

namespace Level

def judge (l : Level) (rules : List IgnoreRule) (c : Candidate) : Option Verdict :=
  IgnoreRule.judge rules c.isDirectory (l.outlook.view c)

end Level

/-- The levels from the innermost to the one where a repository starts, if there
is one. -/
def repositoryLevels (levels : List Level) : List Level :=
  match levels.findIdx? (·.isRepository) with
  | some i => levels.take (i + 1)
  | none => []

/-- What the levels, innermost first, say of a candidate, and inside a repository the
rules of the user where no level has an opinion. -/
def judge (levels : List Level) (user : Level) (c : Candidate) : Option Verdict :=
  let inside := repositoryLevels levels
  (levels.findSome? fun l => l.judge l.ignoreFile c)
    |>.or (inside.findSome? fun l => l.judge l.gitignoreFile c)
    |>.or (inside.findSome? fun l => l.judge l.excludeFile c)
    |>.or (if inside.isEmpty then none else user.judge user.gitignoreFile c)

end Ignore

/-! ## Reading levels -/

namespace FileSystem

open Ignore

/-- The rules in the file under a path, if it can be read. -/
def rulesIn (fs : FileSystem) (path : FilePath) : List IgnoreRule :=
  match fs.readBytes path with
  | .ok content => IgnoreRule.ofContent content
  | .error _ => []

/-- The first line of a text file. -/
def firstLine? (fs : FileSystem) (path : FilePath) : Option String := do
  let content ← (fs.readBytes path).toOption
  (IgnoreRule.textsOf (IgnoreRule.lines content.toList)).head?

/-- The path of the directory with a repository's own files.  The mark `.git` is that
directory, or a file with the path of a directory that holds the way to it. -/
def repositoryHome (fs : FileSystem) (directory : FilePath) : Option FilePath :=
  let mark := directory.join (FilePath.ofText ".git").bytes
  match fs.resolve mark with
  | .ok (.file _ _ _) => do
    let home ← (← fs.firstLine? mark).dropPrefix? "gitdir: "
    let home := FilePath.ofText home.toString
    let common ← fs.firstLine? (home.join (FilePath.ofText "commondir").bytes)
    if common.startsWith "." then some (home.join (FilePath.ofText common).bytes)
    else some (FilePath.ofText common)
  | _ => some mark

/-- The level of a directory. -/
def levelAt (fs : FileSystem) (directory : FilePath) (outlook : Outlook) : Level where
  outlook
  ignoreFile := fs.rulesIn (directory.join (FilePath.ofText ".ignore").bytes)
  gitignoreFile := fs.rulesIn (directory.join (FilePath.ofText ".gitignore").bytes)
  excludeFile :=
    match fs.repositoryHome directory with
    | some home => fs.rulesIn (home.join (FilePath.ofText "info/exclude").bytes)
    | none => []
  isRepository := fs.pathExists (directory.join (FilePath.ofText ".git").bytes)

/-- The rules of the user, which are seen from the working directory. -/
def userLevel (fs : FileSystem) : Level where
  outlook := .within (absolutePath fs.workingDirectory)
  ignoreFile := []
  gitignoreFile :=
    match fs.userIgnore with
    | some path => fs.rulesIn path
    | none => []
  excludeFile := []
  isRepository := false

/-- The levels of a directory inside a search and of all directories around it, up to
the root and innermost first.  The search began at `start`, reached under the path
`root`; `names` leads from there to the directory. -/
def levelsAround (fs : FileSystem) (root : FilePath) (start names : Location) : List Level :=
  let inner := (List.range (names.length + 1)).map fun i =>
    let directory := root.joinAll (names.take i)
    fs.levelAt directory (.within directory)
  let outer := (List.range start.length).map fun i =>
    fs.levelAt (absolutePath (start.take i)) (.above (start.drop i))
  inner.reverse ++ outer.reverse

/-- The search passes over the entry. -/
def passesOver (fs : FileSystem) (root : FilePath) (start names : Location) (isDirectory : Bool) :
    Bool :=
  let levels := fs.levelsAround root start names.dropLast
  judge levels fs.userLevel ⟨root.joinAll names, names, isDirectory⟩ == some .ignored

end FileSystem

end DroppedResult
