import DroppedResult.CommandLine.Program
import DroppedResult.Tree.RowText

/-!
# Command line

Takes a picture of the files that a command line can concern, asks `Program.run` for
the answer to it, writes the files that the answer changes, and prints.

The picture has all that is below the working directory, below the paths on the command
line, and below the places that links in the picture lead to.  Of the directories above
these it has the ignore files and the marks of repositories.  A link is recorded with
the place that it leads to.  One that leads nowhere is left out: nothing can be read
through it, and what is written under its name is written through it.

The tree of a source file is read from the file beside it whose name has `.tree`
added.  A source file without one counts as empty.
-/

namespace DroppedResult

namespace Main

def locationOf (path : String) : Location :=
  (FilePath.ofText path).pieces.filter (· ≠ [])

def pathOf (location : Location) : String :=
  (FileSystem.absolutePath location).display

/-- The place that a path leads to, if there is something. -/
def realLocation? (path : String) : IO (Option Location) := do
  try
    return some (locationOf (← IO.FS.realPath path).toString)
  catch _ =>
    return none

/-- The names in a directory, unless it cannot be listed. -/
def namesIn? (location : Location) : IO (Option (List Name)) := do
  try
    let listed ← (IO.FS.DirEntry.mk "" (pathOf location)).path.readDir
    return some (listed.toList.map fun e => (FilePath.ofText e.fileName).bytes)
  catch _ =>
    return none

def fileAt (location : Location) : IO Entry := do
  try
    return .file (← IO.FS.readBinFile (pathOf location)) .full
  catch _ =>
    return .file .empty .denied

/-- The entry at a location, without what is below it. -/
def entryAt? (location : Location) : IO (Option Entry) := do
  try
    match (← (IO.FS.DirEntry.mk "" (pathOf location)).path.symlinkMetadata).type with
    | .dir =>
      return some (.directory (if (← namesIn? location).isSome then .full else .denied))
    | .file => return some (← fileAt location)
    | .symlink =>
      return (← realLocation? (pathOf location)).map fun place =>
        .link (FileSystem.absolutePath place)
    | .other => return none
  catch _ =>
    return none

/-- What the directories above a place are looked at for. -/
def marks : List String :=
  [".ignore", ".gitignore", ".git", ".git/info", ".git/info/exclude"]

/-- Put the directories above a place into the picture. -/
def approach (fs : FileSystem) (location : Location) : IO FileSystem :=
  (List.range location.length).foldlM (fun fs i => do
    let above := location.take i
    (above :: marks.map (above ++ locationOf ·)).foldlM (fun fs l => do
      match ← entryAt? l with
      | some entry => return fs.put l entry
      | none => return fs) fs) fs

/-- Put all that is at or below some places into the picture. -/
partial def picture (fs : FileSystem) (seen : List Location) : List Location → IO FileSystem
  | [] => return fs
  | location :: rest => do
    if location ∈ seen then
      picture fs seen rest
    else
      match ← entryAt? location with
      | none => picture fs (location :: seen) rest
      | some entry =>
        let fs := fs.put location entry
        match entry with
        | .directory _ =>
          let below := ((← namesIn? location).getD []).map fun name => location ++ [name]
          picture fs (location :: seen) (below ++ rest)
        | .link target =>
          let place := locationOf target.display
          picture (← approach fs place) (location :: seen) (place :: rest)
        | .file _ _ => picture fs (location :: seen) rest

def workIn (fs : FileSystem) (location : Location) : FileSystem :=
  if h : fs.entries.hasDirectory location = true then
    { fs with workingDirectory := location, working := h }
  else fs

/-- The ignore file of the user in its usual place. -/
def userIgnore? : IO (Option String) := do
  match ← IO.getEnv "XDG_CONFIG_HOME", ← IO.getEnv "HOME" with
  | some settings, _ => return some (settings ++ "/git/ignore")
  | none, some home => return some (home ++ "/.config/git/ignore")
  | none, none => return none

/-- The paths on a command line. -/
def pathsIn (args : List String) : List String :=
  match Invocation.ofArgs args with
  | .ok ⟨.check request, _, _⟩ => request.paths ++ request.config.toList
  | _ => []

/-- The picture of what a command line can concern. -/
def pictureFor (args : List String) : IO FileSystem := do
  let here := locationOf (← IO.currentDir).toString
  let user ← userIgnore?
  let named := pathsIn args ++ user.toList
  let places := here :: (← named.mapM realLocation?).filterMap id
  let fs ← (places ++ named.map locationOf).foldlM approach .empty
  let fs := workIn (← picture fs [] places) here
  return { fs with userIgnore := user.map .ofText }

/-- The texts of the files that have a tree beside them, with their trees. -/
def treesIn (fs : FileSystem) : List (String × Tree) :=
  fs.entries.filterMap fun (location, _) => do
    let path := FileSystem.absolutePath location
    let rows ← (fs.readText ⟨path.bytes ++ (FilePath.ofText ".tree").bytes⟩).toOption
    some (← (fs.readText path).toOption, ← Tree.ofText? rows)

def emptyTree : Tree :=
  .node ⟨.program, true, 0, 0, none⟩ []

def grammarsOf (fs : FileSystem) : Grammars :=
  let trees := treesIn fs
  fun _ text => (trees.lookup text).getD emptyTree

/-- Write the files that differ between two pictures. -/
def writeChanges (old new : FileSystem) : IO Unit :=
  new.entries.forM fun (location, entry) => do
    match entry with
    | .file content _ =>
      if old.entryAt location != some entry then
        IO.FS.writeBinFile (pathOf location) content
    | _ => pure ()

end Main

end DroppedResult

open DroppedResult in
def main (args : List String) : IO UInt32 := do
  let fs ← Main.pictureFor args
  let terminal : Terminal :=
    { term := ← IO.getEnv "TERM", noColor := (← IO.getEnv "NO_COLOR").isSome }
  let (answer, after) := Program.run ⟨Main.grammarsOf fs, terminal⟩ fs args
  Main.writeChanges fs after
  IO.print answer.output
  IO.eprint answer.complaint
  return answer.exitCode.toUInt32
