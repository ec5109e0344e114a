import DroppedResult.FilePath

/-!
# File systems

A file system holds files, directories and symbolic links, each at its location.  A
location is the list of names on the way down from the root; it has no links, no dots
and no double slashes.  Every entry lies in a directory, and one of the directories is
the working directory.

A path is turned into a location by `FileSystem.resolve`.  It starts from the root or
from the working directory and follows links, forty at most, wherever they lead.
Reading, writing and looking go through `resolve`, so they all agree on what a path
means.

What may be done with a file or a directory is part of its entry.  A directory that may
not be read can neither be listed nor entered.
-/

namespace DroppedResult

/-- A name in a directory. -/
abbrev Name := List UInt8

/-- The names on the way down from the root. -/
abbrev Location := List Name

/-- What may be done with a file or a directory.  What may be written may be read. -/
inductive Access where
  | denied
  | readOnly
  | full
  deriving DecidableEq

namespace Access

def reads : Access → Bool
  | denied => false
  | readOnly | full => true

def writes : Access → Bool
  | denied | readOnly => false
  | full => true

end Access

inductive Entry where
  | file (content : ByteArray) (access : Access)
  | directory (access : Access)
  | link (target : FilePath)
  deriving BEq

def Entry.isDirectory : Entry → Bool
  | directory _ => true
  | file _ _ | link _ => false

/-- Why an operation on a path fails. -/
inductive IoError where
  | notFound
  | denied
  | notDirectory
  | isDirectory
  | tooManyLinks
  | notText
  deriving DecidableEq

namespace IoError

def message : IoError → String
  | notFound => "No such file or directory (os error 2)"
  | denied => "Permission denied (os error 13)"
  | notDirectory => "Not a directory (os error 20)"
  | isDirectory => "Is a directory (os error 21)"
  | tooManyLinks => "Too many levels of symbolic links (os error 40)"
  | notText => "stream did not contain valid UTF-8"

end IoError

/-! ## Entries -/

/-- Entries by location. -/
abbrev Entries := List (Location × Entry)

namespace Entries

def at? (entries : Entries) (location : Location) : Option Entry :=
  (entries.find? (·.1 == location)).map (·.2)

def hasDirectory (entries : Entries) (location : Location) : Bool :=
  (entries.at? location).any (·.isDirectory)

/-- The entries with one in place of what was at its location. -/
def put (entries : Entries) (location : Location) (entry : Entry) : Entries :=
  if entries.any (·.1 == location) then
    entries.map fun e => if e.1 = location then (location, entry) else e
  else
    entries ++ [(location, entry)]

/-- There is a directory for the entry, and it takes no directory's place unless it is
one. -/
def fits (entries : Entries) (location : Location) (entry : Entry) : Bool :=
  entries.hasDirectory location.dropLast && (entry.isDirectory || !entries.hasDirectory location)

theorem at?_put (entries : Entries) (location : Location) (entry : Entry) (l : Location) :
    (entries.put location entry).at? l = if l = location then some entry else entries.at? l := by
  unfold put at?
  split
  · rename_i hany
    have hkeys : ((fun e : Location × Entry => e.1 == l) ∘ fun e =>
        if e.1 = location then (location, entry) else e) = fun e => e.1 == l := by
      funext e
      by_cases he : e.1 = location <;> simp [he]
    rw [List.find?_map, hkeys]
    cases hfind : entries.find? (·.1 == l) with
    | none =>
      have hl : l ≠ location := by
        intro hl
        obtain ⟨e, he, hkey⟩ := List.any_eq_true.mp hany
        exact List.find?_eq_none.mp hfind e he (hl ▸ hkey)
      rw [if_neg hl]
      rfl
    | some e =>
      have hkey := List.find?_some hfind
      obtain rfl : e.1 = l := eq_of_beq hkey
      by_cases hl : e.1 = location <;> simp [hl]
  · rename_i hany
    rw [List.find?_append]
    by_cases hl : l = location
    · have hnone : entries.find? (·.1 == l) = none := by
        rw [List.find?_eq_none]
        intro e he hkey
        exact hany (List.any_eq_true.mpr ⟨e, he, hl ▸ hkey⟩)
      rw [hnone]
      simp [hl]
    · simp [hl, Ne.symm hl]

theorem map_fst_put (entries : Entries) (location : Location) (entry : Entry) :
    (entries.put location entry).map Prod.fst =
      if entries.any (·.1 == location) then entries.map Prod.fst
      else entries.map Prod.fst ++ [location] := by
  unfold put
  split
  · rw [List.map_map]
    refine List.map_congr_left ?_
    intro e _
    by_cases he : e.1 = location <;> simp [he]
  · simp

theorem nodup_put {entries : Entries} (h : (entries.map Prod.fst).Nodup) (location : Location)
    (entry : Entry) : ((entries.put location entry).map Prod.fst).Nodup := by
  rw [map_fst_put]
  split
  · exact h
  · rename_i hany
    rw [List.nodup_append]
    refine ⟨h, List.pairwise_singleton _ _, ?_⟩
    intro l hl l' hl' heq
    obtain ⟨e, he, rfl⟩ := List.mem_map.mp hl
    refine hany (List.any_eq_true.mpr ⟨e, he, ?_⟩)
    rw [heq, List.mem_singleton.mp hl']
    exact beq_self_eq_true _

theorem fst_of_mem_put {entries : Entries} {location : Location} {entry : Entry}
    {e : Location × Entry} (h : e ∈ entries.put location entry) :
    e.1 = location ∨ e.1 ∈ entries.map Prod.fst := by
  have hkey : e.1 ∈ (entries.put location entry).map Prod.fst := List.mem_map_of_mem h
  rw [map_fst_put] at hkey
  split at hkey
  · exact .inr hkey
  · rcases List.mem_append.mp hkey with hold | hnew
    · exact .inr hold
    · exact .inl (List.mem_singleton.mp hnew)

/-- An entry that fits leaves all directories where they are. -/
theorem hasDirectory_put {entries : Entries} {location l : Location} {entry : Entry}
    (hfits : entries.fits location entry = true) (h : entries.hasDirectory l = true) :
    (entries.put location entry).hasDirectory l = true := by
  unfold hasDirectory
  rw [at?_put]
  split
  · rename_i hl
    subst hl
    unfold fits at hfits
    rw [h] at hfits
    simpa using (Bool.and_eq_true_iff.mp hfits).2
  · exact h

theorem at?_eq_some_iff {entries : Entries} (h : (entries.map Prod.fst).Nodup)
    {location : Location} {entry : Entry} :
    entries.at? location = some entry ↔ (location, entry) ∈ entries := by
  unfold at?
  induction entries with
  | nil => simp
  | cons e entries ih =>
    obtain ⟨hhead, htail⟩ := List.nodup_cons.mp h
    by_cases hkey : e.1 = location
    · have hnot : (location, entry) ∉ entries := by
        intro hmem
        exact hhead (hkey ▸ List.mem_map_of_mem hmem)
      rw [List.find?_cons_of_pos (by simpa using hkey), List.mem_cons]
      subst hkey
      simp [hnot, Prod.ext_iff, eq_comm]
    · have hne : (location, entry) ≠ e := by
        intro heq
        exact hkey (heq ▸ rfl)
      rw [List.find?_cons_of_neg (by simpa using hkey), ih htail, List.mem_cons]
      simp [hne]

end Entries

/-- Entries, each location once and each in a directory, with a working directory among
them. -/
structure FileSystem where
  entries : Entries
  workingDirectory : Location
  /-- The ignore file of the user, which holds in every repository. -/
  userIgnore : Option FilePath
  nodup : (entries.map Prod.fst).Nodup
  inDirectory : ∀ e ∈ entries, entries.hasDirectory e.1.dropLast = true
  working : entries.hasDirectory workingDirectory = true

namespace FileSystem

/-- The root alone. -/
def empty : FileSystem where
  entries := [([], .directory .full)]
  workingDirectory := []
  userIgnore := none
  nodup := by simp
  inDirectory := by simp [Entries.hasDirectory, Entries.at?, Entry.isDirectory]
  working := rfl

/-- What is at a location. -/
def entryAt (fs : FileSystem) (location : Location) : Option Entry :=
  fs.entries.at? location

/-- Put an entry at a location, in place of the one that was there.  Where it does not
fit nothing changes. -/
def put (fs : FileSystem) (location : Location) (entry : Entry) : FileSystem :=
  if h : fs.entries.fits location entry = true then
    { fs with
      entries := fs.entries.put location entry
      nodup := Entries.nodup_put fs.nodup location entry
      inDirectory := by
        intro e he
        refine Entries.hasDirectory_put h ?_
        rcases Entries.fst_of_mem_put he with hnew | hold
        · rw [hnew]
          exact (Bool.and_eq_true_iff.mp h).1
        · obtain ⟨old, hmem, heq⟩ := List.mem_map.mp hold
          rw [← heq]
          exact fs.inDirectory old hmem
      working := Entries.hasDirectory_put h fs.working }
  else fs

/-- The directory at the location may be listed and entered. -/
def canEnter (fs : FileSystem) (location : Location) : Bool :=
  match fs.entryAt location with
  | some (.directory access) => access.reads
  | _ => false

/-- New entries may be made in the directory at the location. -/
def canAdd (fs : FileSystem) (location : Location) : Bool :=
  match fs.entryAt location with
  | some (.directory access) => access.writes
  | _ => false

/-! ## Paths -/

/-- Where a path leads, links followed. -/
inductive Target where
  | file (location : Location) (content : ByteArray) (access : Access)
  | directory (location : Location) (access : Access)
  /-- There is a directory for the name, and nothing under it. -/
  | free (location : Location)

/-- The location of what is there. -/
def Target.found? : Target → Option Location
  | file location _ _ | directory location _ => some location
  | free _ => none

/-- Where a path starts when it is followed from a directory. -/
def startFrom (directory : Location) (path : FilePath) : Location :=
  if path.isAbsolute then [] else directory

/-- Follow the pieces of a path from a directory.  `follow` goes on with the pieces of
a link. -/
def walkPieces (fs : FileSystem) (follow : Location → List Name → Except IoError Target) :
    Location → List Name → Except IoError Target
  | here, [] =>
    match fs.entryAt here with
    | some (.directory access) => .ok (.directory here access)
    | _ => .error .notFound
  | here, piece :: rest =>
    if piece = [] then walkPieces fs follow here rest
    else if fs.canEnter here = false then .error .denied
    else if piece = [FilePath.dot] then walkPieces fs follow here rest
    else if piece = [FilePath.dot, FilePath.dot] then walkPieces fs follow here.dropLast rest
    else
      match fs.entryAt (here ++ [piece]) with
      | none => if rest = [] then .ok (.free (here ++ [piece])) else .error .notFound
      | some (.directory _) => walkPieces fs follow (here ++ [piece]) rest
      | some (.file content access) =>
        if rest = [] then .ok (.file (here ++ [piece]) content access) else .error .notDirectory
      | some (.link target) =>
        if target.bytes = [] then .error .notFound
        else follow (startFrom here target) (target.pieces ++ rest)

/-- Follow pieces through a bounded number of links. -/
def resolveFrom (fs : FileSystem) : Nat → Location → List Name → Except IoError Target
  | 0 => fs.walkPieces fun _ _ => .error .tooManyLinks
  | links + 1 => fs.walkPieces (fs.resolveFrom links)

def maxLinks : Nat :=
  40

/-- Where a path leads.  The empty path leads nowhere. -/
def resolve (fs : FileSystem) (path : FilePath) : Except IoError Target :=
  if path.bytes = [] then .error .notFound
  else fs.resolveFrom maxLinks (startFrom fs.workingDirectory path) path.pieces

/-- The path from the root to a location. -/
def absolutePath (location : Location) : FilePath :=
  ⟨FilePath.slash :: List.intercalate [FilePath.slash] location⟩

/-! ## Operations -/

/-- The location of what the path leads to. -/
def canonical? (fs : FileSystem) (path : FilePath) : Option Location :=
  (fs.resolve path).toOption.bind (·.found?)

def pathExists (fs : FileSystem) (path : FilePath) : Bool :=
  (fs.canonical? path).isSome

def readBytes (fs : FileSystem) (path : FilePath) : Except IoError ByteArray := do
  match ← fs.resolve path with
  | .file _ content access => if access.reads then .ok content else .error .denied
  | .directory _ access => if access.reads then .error .isDirectory else .error .denied
  | .free _ => .error .notFound

def readText (fs : FileSystem) (path : FilePath) : Except IoError String := do
  match String.fromUTF8? (← fs.readBytes path) with
  | some text => .ok text
  | none => .error .notText

/-- Write a file, creating it if its directory is there, and give the file system
afterwards.  Links are followed, also to a file that is not there yet. -/
def writeBytes (fs : FileSystem) (path : FilePath) (content : ByteArray) :
    Except IoError Unit × FileSystem :=
  match fs.resolve path with
  | .error cause => (.error cause, fs)
  | .ok (.directory _ _) => (.error .isDirectory, fs)
  | .ok (.file location _ access) =>
    if access.writes then (.ok (), fs.put location (.file content access))
    else (.error .denied, fs)
  | .ok (.free location) =>
    if fs.canAdd location.dropLast then (.ok (), fs.put location (.file content .full))
    else (.error .denied, fs)

def writeText (fs : FileSystem) (path : FilePath) (text : String) :
    Except IoError Unit × FileSystem :=
  fs.writeBytes path text.toByteArray

end FileSystem

end DroppedResult
