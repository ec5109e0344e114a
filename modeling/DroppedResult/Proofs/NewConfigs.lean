import DroppedResult.CommandLine.Program
import DroppedResult.Proofs.Validation

/-!
# New configuration files

`FileSystem.initConfig` asks whether there is something under a path, and then writes
through the path.  Both follow links, so they agree on where the path leads, also when it
leads through links to a file that is not there yet.

There are four groups.

* Entries.  `FileSystem.put` changes one location: `FileSystem.entryAt_put`.
* Paths.  `FileSystem.Leads` is where the pieces of a path lead, link by link.  What a path
  leads to is there (`Leads.isAt`), and a path leads to the same place once a file has been
  written there (`Leads.put`).
* Outcomes.  `FileSystem.Writes` says when a configuration file is written, and
  `FileSystem.initConfig_eq` what is answered in every case.
* The template.  `Config.parse_template` is the configuration that is written.

`FileSystem.initConfig_changes_one_file` is the result.
-/

namespace DroppedResult

namespace FileSystem

/-! ## Entries -/

section

variable {fs : FileSystem} {location : Location} {entry : Entry}

theorem entryAt_put (h : fs.entries.fits location entry = true) (l : Location) :
    (fs.put location entry).entryAt l = if l = location then some entry else fs.entryAt l := by
  rw [put, dif_pos h]
  exact Entries.at?_put fs.entries location entry l

theorem workingDirectory_put (fs : FileSystem) (location : Location) (entry : Entry) :
    (fs.put location entry).workingDirectory = fs.workingDirectory := by
  rw [put]
  split <;> rfl

theorem userIgnore_put (fs : FileSystem) (location : Location) (entry : Entry) :
    (fs.put location entry).userIgnore = fs.userIgnore := by
  rw [put]
  split <;> rfl

/-- Putting an entry where it is changes nothing. -/
theorem put_put (fs : FileSystem) (location : Location) (entry : Entry) :
    (fs.put location entry).put location entry = fs.put location entry := by
  by_cases h : fs.entries.fits location entry = true
  · have hany : (fs.entries.put location entry).any (·.1 == location) = true := by
      have hat := Entries.at?_put fs.entries location entry location
      rw [if_pos rfl, Entries.at?, Option.map_eq_some_iff] at hat
      obtain ⟨e, hfind, _⟩ := hat
      have hkey := List.find?_some hfind
      exact List.any_eq_true.mpr ⟨e, List.mem_of_find?_eq_some hfind, hkey⟩
    have hentries : (fs.entries.put location entry).put location entry =
        fs.entries.put location entry := by
      have hnodup := Entries.nodup_put fs.nodup location entry
      rw [Entries.put, if_pos hany]
      refine (List.map_congr_left ?_).trans (List.map_id _)
      intro e he
      by_cases hkey : e.1 = location
      · have hat := (Entries.at?_eq_some_iff hnodup).mpr he
        rw [Entries.at?_put, if_pos hkey] at hat
        rw [if_pos hkey, Option.some.inj hat, ← hkey]
        rfl
      · rw [if_neg hkey]
        rfl
    rw [put, put, dif_pos h]
    split
    · simp only [hentries]
    · rfl
  · rw [put, put, dif_neg h, dif_neg h]

end

/-- There is a file at the location, or nothing, and a directory around it. -/
structure HasPlace (fs : FileSystem) (location : Location) : Prop where
  inDirectory : fs.entries.hasDirectory location.dropLast = true
  entry : fs.entryAt location = none ∨
    ∃ content access, fs.entryAt location = some (.file content access)

section

variable {fs : FileSystem} {location l : Location}

theorem HasPlace.not_directory (h : fs.HasPlace location) :
    fs.entries.hasDirectory location = false := by
  rw [Entries.hasDirectory, ← entryAt]
  rcases h.entry with hnone | ⟨content, access, hfile⟩
  · rw [hnone]
    rfl
  · rw [hfile]
    rfl

theorem HasPlace.fits (h : fs.HasPlace location) (entry : Entry) :
    fs.entries.fits location entry = true := by
  rw [Entries.fits, h.inDirectory, h.not_directory]
  simp

/-- What is neither a file nor nothing is elsewhere. -/
theorem HasPlace.ne_of_entryAt (h : fs.HasPlace location) {entry : Entry}
    (hl : fs.entryAt l = some entry) (hentry : ∀ content access, entry ≠ .file content access) :
    l ≠ location := by
  intro heq
  subst heq
  rcases h.entry with hnone | ⟨content, access, hfile⟩
  · cases hl.symm.trans hnone
  · exact hentry content access (Option.some.inj (hl.symm.trans hfile))

theorem exists_directory_of_canEnter (h : fs.canEnter l = true) :
    ∃ access, fs.entryAt l = some (.directory access) ∧ access.reads = true := by
  unfold canEnter at h
  split at h
  · exact ⟨_, ‹_›, h⟩
  · cases h

theorem hasDirectory_of_canEnter (h : fs.canEnter l = true) :
    fs.entries.hasDirectory l = true := by
  obtain ⟨access, hentry, _⟩ := exists_directory_of_canEnter h
  rw [Entries.hasDirectory, ← entryAt, hentry]
  rfl

theorem hasPlace_of_free (h : fs.canEnter l = true) {piece : Name}
    (hentry : fs.entryAt (l ++ [piece]) = none) : fs.HasPlace (l ++ [piece]) := by
  refine ⟨?_, .inl hentry⟩
  rw [List.dropLast_concat]
  exact hasDirectory_of_canEnter h

theorem hasPlace_of_file {content : ByteArray} {access : Access}
    (h : fs.entryAt location = some (.file content access)) : fs.HasPlace location :=
  ⟨fs.inDirectory _ ((Entries.at?_eq_some_iff fs.nodup).mp h), .inr ⟨content, access, h⟩⟩

/-- Directories can be entered when a file has been written elsewhere. -/
theorem HasPlace.canEnter_put (h : fs.HasPlace location) (content : ByteArray) (access : Access)
    (hl : fs.canEnter l = true) : (fs.put location (.file content access)).canEnter l = true := by
  obtain ⟨_, hentry, _⟩ := exists_directory_of_canEnter hl
  have hne := h.ne_of_entryAt hentry (by simp)
  rw [canEnter, entryAt_put (h.fits _), if_neg hne, ← canEnter]
  exact hl

end

/-! ## Paths -/

/-- The name of an entry, which is no step back to the directory or to the one above. -/
structure IsName (piece : Name) : Prop where
  ne_nil : piece ≠ []
  ne_dot : piece ≠ [FilePath.dot]
  ne_dots : piece ≠ [FilePath.dot, FilePath.dot]

/-- Where pieces lead from a directory, through as many links as are allowed. -/
inductive Leads (fs : FileSystem) : Nat → Location → List Name → Target → Prop where
  | directory {links : Nat} {here : Location} {access : Access}
      (hentry : fs.entryAt here = some (.directory access)) :
      Leads fs links here [] (.directory here access)
  | skip {links : Nat} {here : Location} {rest : List Name} {target : Target}
      (hrest : Leads fs links here rest target) : Leads fs links here ([] :: rest) target
  | stay {links : Nat} {here : Location} {rest : List Name} {target : Target}
      (hhere : fs.canEnter here = true) (hrest : Leads fs links here rest target) :
      Leads fs links here ([FilePath.dot] :: rest) target
  | up {links : Nat} {here : Location} {rest : List Name} {target : Target}
      (hhere : fs.canEnter here = true) (hrest : Leads fs links here.dropLast rest target) :
      Leads fs links here ([FilePath.dot, FilePath.dot] :: rest) target
  | enter {links : Nat} {here : Location} {piece : Name} {rest : List Name} {target : Target}
      {access : Access} (hhere : fs.canEnter here = true) (hpiece : IsName piece)
      (hentry : fs.entryAt (here ++ [piece]) = some (.directory access))
      (hrest : Leads fs links (here ++ [piece]) rest target) :
      Leads fs links here (piece :: rest) target
  | file {links : Nat} {here : Location} {piece : Name} {content : ByteArray} {access : Access}
      (hhere : fs.canEnter here = true) (hpiece : IsName piece)
      (hentry : fs.entryAt (here ++ [piece]) = some (.file content access)) :
      Leads fs links here [piece] (.file (here ++ [piece]) content access)
  | free {links : Nat} {here : Location} {piece : Name} (hhere : fs.canEnter here = true)
      (hpiece : IsName piece) (hentry : fs.entryAt (here ++ [piece]) = none) :
      Leads fs links here [piece] (.free (here ++ [piece]))
  | link {links : Nat} {here : Location} {piece : Name} {rest : List Name} {link : FilePath}
      {target : Target} (hhere : fs.canEnter here = true) (hpiece : IsName piece)
      (hentry : fs.entryAt (here ++ [piece]) = some (.link link)) (hlink : link.bytes ≠ [])
      (hrest : Leads fs links (startFrom here link) (link.pieces ++ rest) target) :
      Leads fs (links + 1) here (piece :: rest) target

section

variable {fs : FileSystem} {links : Nat} {here : Location} {pieces : List Name} {target : Target}

theorem leads_of_walkPieces {follow : Location → List Name → Except IoError Target}
    (hfollow : ∀ here pieces target, follow here pieces = .ok target →
      ∃ fewer, links = fewer + 1 ∧ fs.Leads fewer here pieces target)
    (h : fs.walkPieces follow here pieces = .ok target) : fs.Leads links here pieces target := by
  fun_induction walkPieces fs follow here pieces with
  | case1 here access hentry =>
    obtain rfl := Except.ok.inj h
    exact .directory hentry
  | case3 here rest ih => exact .skip (ih h)
  | case5 here rest hhere _ ih => exact .stay (by simpa using hhere) (ih h)
  | case6 here rest hhere _ _ ih => exact .up (by simpa using hhere) (ih h)
  | case7 here piece hne hhere hdot hdots hentry =>
    obtain rfl := Except.ok.inj h
    exact .free (by simpa using hhere) ⟨hne, hdot, hdots⟩ hentry
  | case9 here piece rest hne hhere hdot hdots access hentry ih =>
    exact .enter (by simpa using hhere) ⟨hne, hdot, hdots⟩ hentry (ih h)
  | case10 here piece hne hhere hdot hdots content access hentry =>
    obtain rfl := Except.ok.inj h
    exact .file (by simpa using hhere) ⟨hne, hdot, hdots⟩ hentry
  | case13 here piece rest hne hhere hdot hdots link hentry hlink =>
    obtain ⟨fewer, rfl, hrest⟩ := hfollow _ _ _ h
    exact .link (by simpa using hhere) ⟨hne, hdot, hdots⟩ hentry hlink hrest
  | case2 | case4 | case8 | case11 | case12 => cases h

/-- How the walk goes on behind a link. -/
def following (fs : FileSystem) : Nat → Location → List Name → Except IoError Target
  | 0 => fun _ _ => .error .tooManyLinks
  | links + 1 => fs.resolveFrom links

theorem resolveFrom_eq (fs : FileSystem) (links : Nat) :
    fs.resolveFrom links = fs.walkPieces (fs.following links) := by
  cases links <;> rfl

theorem leads_of_resolveFrom (h : fs.resolveFrom links here pieces = .ok target) :
    fs.Leads links here pieces target := by
  induction links generalizing here pieces target with
  | zero =>
    rw [resolveFrom_eq] at h
    exact leads_of_walkPieces (fun _ _ _ hfollow => by cases hfollow) h
  | succ links ih =>
    rw [resolveFrom_eq] at h
    exact leads_of_walkPieces (fun _ _ _ hfollow => ⟨links, rfl, ih hfollow⟩) h

theorem Leads.resolveFrom_eq_ok (h : fs.Leads links here pieces target) :
    fs.resolveFrom links here pieces = .ok target := by
  induction h with
  | directory hentry => rw [resolveFrom_eq, walkPieces, hentry]
  | skip _ ih =>
    rw [resolveFrom_eq, walkPieces, if_pos rfl, ← resolveFrom_eq]
    exact ih
  | stay hhere _ ih =>
    rw [resolveFrom_eq, walkPieces, if_neg (by simp), if_neg (by simp [hhere]), if_pos rfl,
      ← resolveFrom_eq]
    exact ih
  | up hhere _ ih =>
    rw [resolveFrom_eq, walkPieces, if_neg (by simp), if_neg (by simp [hhere]), if_neg (by simp),
      if_pos rfl, ← resolveFrom_eq]
    exact ih
  | enter hhere hpiece hentry _ ih =>
    rw [resolveFrom_eq, walkPieces, if_neg hpiece.ne_nil, if_neg (by simp [hhere]),
      if_neg hpiece.ne_dot, if_neg hpiece.ne_dots, hentry, ← resolveFrom_eq]
    exact ih
  | file hhere hpiece hentry | free hhere hpiece hentry =>
    rw [resolveFrom_eq, walkPieces, if_neg hpiece.ne_nil, if_neg (by simp [hhere]),
      if_neg hpiece.ne_dot, if_neg hpiece.ne_dots, hentry]
    rfl
  | link hhere hpiece hentry hlink _ ih =>
    rw [resolveFrom_eq, walkPieces, if_neg hpiece.ne_nil, if_neg (by simp [hhere]),
      if_neg hpiece.ne_dot, if_neg hpiece.ne_dots, hentry]
    simp only [if_neg hlink]
    exact ih

/-- What the target says is there. -/
def Target.IsAt (fs : FileSystem) : Target → Prop
  | .file location content access => fs.entryAt location = some (.file content access)
  | .directory location access => fs.entryAt location = some (.directory access)
  | .free location => fs.entryAt location = none ∧ fs.HasPlace location

theorem Leads.isAt (h : fs.Leads links here pieces target) : target.IsAt fs := by
  induction h with
  | directory hentry => exact hentry
  | skip _ ih => exact ih
  | stay _ _ ih => exact ih
  | up _ _ ih => exact ih
  | enter _ _ _ _ ih => exact ih
  | file _ _ hentry => exact hentry
  | free hhere _ hentry => exact ⟨hentry, hasPlace_of_free hhere hentry⟩
  | link _ _ _ _ _ ih => exact ih

/-- The target is a file or a place for one, at the location. -/
inductive Target.IsPlace : Target → Location → Prop where
  | file (location : Location) (content : ByteArray) (access : Access) :
      IsPlace (.file location content access) location
  | free (location : Location) : IsPlace (.free location) location

theorem Leads.hasPlace (h : fs.Leads links here pieces target) {location : Location}
    (hplace : target.IsPlace location) : fs.HasPlace location := by
  have hat := h.isAt
  cases hplace with
  | file => exact hasPlace_of_file hat
  | free => exact hat.2

/-- A path leads to the same place once a file has been written there.  All that it goes
through on its way are directories and links, and none of them is at the place. -/
theorem Leads.put (h : fs.Leads links here pieces target) {location : Location}
    (hplace : target.IsPlace location) (content : ByteArray) (access : Access) :
    (fs.put location (.file content access)).Leads links here pieces
      (.file location content access) := by
  have hroom := h.hasPlace hplace
  have hwritten := entryAt_put (hroom.fits (.file content access))
  have henter {l : Location} := hroom.canEnter_put (l := l) content access
  induction h with
  | directory => cases hplace
  | skip _ ih => exact .skip (ih hplace)
  | stay hhere _ ih => exact .stay (henter hhere) (ih hplace)
  | up hhere _ ih => exact .up (henter hhere) (ih hplace)
  | enter hhere hpiece hentry _ ih =>
    have hne := hroom.ne_of_entryAt hentry (by simp)
    have hkept := (hwritten _).trans ((if_neg hne).trans hentry)
    exact .enter (henter hhere) hpiece hkept (ih hplace)
  | file hhere hpiece _ =>
    cases hplace
    exact .file (henter hhere) hpiece ((hwritten _).trans (if_pos rfl))
  | free hhere hpiece _ =>
    cases hplace
    exact .file (henter hhere) hpiece ((hwritten _).trans (if_pos rfl))
  | link hhere hpiece hentry hlink _ ih =>
    have hne := hroom.ne_of_entryAt hentry (by simp)
    have hkept := (hwritten _).trans ((if_neg hne).trans hentry)
    exact .link (henter hhere) hpiece hkept hlink (ih hplace)

end

section

variable {fs : FileSystem} {path : FilePath} {target : Target} {location : Location}

theorem leads_of_resolve (h : fs.resolve path = .ok target) :
    path.bytes ≠ [] ∧
      fs.Leads maxLinks (startFrom fs.workingDirectory path) path.pieces target := by
  rw [resolve] at h
  split at h
  · cases h
  · exact ⟨‹_›, leads_of_resolveFrom h⟩

theorem hasPlace_of_resolve (h : fs.resolve path = .ok target) (hplace : target.IsPlace location) :
    fs.HasPlace location :=
  (leads_of_resolve h).2.hasPlace hplace

theorem resolve_put (h : fs.resolve path = .ok target) (hplace : target.IsPlace location)
    (content : ByteArray) (access : Access) :
    (fs.put location (.file content access)).resolve path =
      .ok (.file location content access) := by
  obtain ⟨hpath, hleads⟩ := leads_of_resolve h
  rw [resolve, if_neg hpath, workingDirectory_put]
  exact (hleads.put hplace content access).resolveFrom_eq_ok

theorem pathExists_of_resolve (h : fs.resolve path = .ok target) :
    fs.pathExists path = target.found?.isSome := by
  rw [pathExists, canonical?, h]
  rfl

theorem readText_of_resolve {text : String} {access : Access}
    (h : fs.resolve path = .ok (.file location text.toByteArray access))
    (haccess : access.reads = true) : fs.readText path = .ok text := by
  have hbytes : fs.readBytes path = .ok text.toByteArray := by
    rw [readBytes, h]
    simp only [bind, Except.bind, haccess, if_true]
  have htext : String.fromUTF8? text.toByteArray = some text := by
    rw [String.fromUTF8?, dif_pos text.isValidUTF8]
    rfl
  simp only [readText, hbytes, bind, Except.bind, htext]

end

/-! ## Outcomes -/

/-- The path of the configuration file in a directory. -/
def configPath (directory : FilePath) : FilePath :=
  directory.join (FilePath.ofText Config.fileName).bytes

/-- The file system with a new configuration file at a location. -/
def withTemplate (fs : FileSystem) (location : Location) (access : Access) : FileSystem :=
  fs.put location (.file Config.template.toByteArray access)

/-- The outcome depends on what the path of the configuration file leads to. -/
theorem initConfig_eq (fs : FileSystem) (directory : FilePath) (force : Bool) :
    fs.initConfig directory force =
      match fs.resolve (configPath directory) with
      | .error cause => (.error (.io cause), fs)
      | .ok (.directory _ _) => (.error (if force then .io .isDirectory else .alreadyExists), fs)
      | .ok (.file location _ access) =>
        if force = false then (.error .alreadyExists, fs)
        else if access.writes then (.ok .overwritten, fs.withTemplate location access)
        else (.error (.io .denied), fs)
      | .ok (.free location) =>
        if fs.canAdd location.dropLast then (.ok .created, fs.withTemplate location .full)
        else (.error (.io .denied), fs) := by
  rw [initConfig, ← configPath, pathExists, canonical?, writeText, writeBytes]
  cases fs.resolve (configPath directory) with
  | error cause => rfl
  | ok target =>
    cases target with
    | directory => cases force <;> rfl
    | file location content access =>
      cases force with
      | false => rfl
      | true => cases access <;> rfl
    | free location =>
      by_cases hadd : fs.canAdd location.dropLast = true
      · simp only [hadd, if_true]
        rfl
      · simp only [hadd]
        rfl

/-- A configuration file is written into the directory, by force over a file or into a free
place. -/
inductive Writes (fs : FileSystem) (directory : FilePath) (force : Bool) :
    Location → Access → InitOutcome → Prop where
  | created {location : Location}
      (hresolve : fs.resolve (configPath directory) = .ok (.free location))
      (hadd : fs.canAdd location.dropLast = true) :
      Writes fs directory force location .full .created
  | overwritten {location : Location} {content : ByteArray} {access : Access}
      (hresolve : fs.resolve (configPath directory) = .ok (.file location content access))
      (hforce : force = true) (hwrites : access.writes = true) :
      Writes fs directory force location access .overwritten

/-- Either a configuration file is written, or an error is answered and nothing changes. -/
theorem initConfig_cases (fs : FileSystem) (directory : FilePath) (force : Bool) :
    (∃ location access outcome, fs.Writes directory force location access outcome) ∨
      ∃ e, fs.initConfig directory force = (.error e, fs) := by
  rw [initConfig_eq]
  cases hresolve : fs.resolve (configPath directory) with
  | error cause => exact .inr ⟨_, rfl⟩
  | ok target =>
    cases target with
    | directory => exact .inr ⟨_, rfl⟩
    | file location content access =>
      cases force with
      | false => exact .inr ⟨_, rfl⟩
      | true =>
        by_cases hwrites : access.writes = true
        · exact .inl ⟨location, access, _, .overwritten hresolve rfl hwrites⟩
        · exact .inr ⟨.io .denied, by simp [hwrites]⟩
    | free location =>
      by_cases hadd : fs.canAdd location.dropLast = true
      · exact .inl ⟨location, _, _, .created hresolve hadd⟩
      · exact .inr ⟨.io .denied, by simp [hadd]⟩

/-- The file system `after` has other contents at one location, where there was a file or
nothing. -/
structure ReplacesAt (fs after : FileSystem) (location : Location) (content : ByteArray)
    (access : Access) : Prop where
  place : fs.HasPlace location
  holds : after.entryAt location = some (.file content access)
  others : ∀ l ≠ location, after.entryAt l = fs.entryAt l
  workingDirectory : after.workingDirectory = fs.workingDirectory
  userIgnore : after.userIgnore = fs.userIgnore

theorem replacesAt_withTemplate {fs : FileSystem} {location : Location}
    (h : fs.HasPlace location) (access : Access) :
    fs.ReplacesAt (fs.withTemplate location access) location Config.template.toByteArray
      access := by
  have hentryAt := entryAt_put (h.fits (.file Config.template.toByteArray access))
  refine ⟨h, (hentryAt location).trans (if_pos rfl), ?_, workingDirectory_put .., userIgnore_put ..⟩
  intro l hl
  exact (hentryAt l).trans (if_neg hl)

namespace Writes

variable {fs : FileSystem} {directory : FilePath} {force : Bool} {location : Location}
  {access : Access} {outcome : InitOutcome}

theorem initConfig_eq_ok (h : fs.Writes directory force location access outcome) :
    fs.initConfig directory force = (.ok outcome, fs.withTemplate location access) := by
  rw [initConfig_eq]
  cases h with
  | created hresolve hadd => simp [hresolve, hadd]
  | overwritten hresolve hforce hwrites => simp [hresolve, hforce, hwrites]

theorem access_eq_full (h : fs.Writes directory force location access outcome) :
    access = .full := by
  cases h with
  | created => rfl
  | overwritten _ _ hwrites =>
    cases access with
    | full => rfl
    | denied | readOnly => cases hwrites

theorem exists_target (h : fs.Writes directory force location access outcome) :
    ∃ target, fs.resolve (configPath directory) = .ok target ∧ target.IsPlace location := by
  cases h with
  | created hresolve => exact ⟨_, hresolve, .free _⟩
  | overwritten hresolve => exact ⟨_, hresolve, .file _ _ _⟩

theorem hasPlace (h : fs.Writes directory force location access outcome) :
    fs.HasPlace location := by
  obtain ⟨target, hresolve, hplace⟩ := h.exists_target
  exact hasPlace_of_resolve hresolve hplace

/-- The path leads to the new configuration file. -/
theorem resolve_withTemplate (h : fs.Writes directory force location access outcome) :
    (fs.withTemplate location access).resolve (configPath directory) =
      .ok (.file location Config.template.toByteArray access) := by
  obtain ⟨target, hresolve, hplace⟩ := h.exists_target
  exact resolve_put hresolve hplace _ _

/-- Writing by force over the new file changes nothing. -/
theorem again (h : fs.Writes directory force location access outcome) :
    (fs.withTemplate location access).initConfig directory true =
      (.ok .overwritten, fs.withTemplate location access) := by
  have hwrites : access.writes = true := by
    rw [h.access_eq_full]
    rfl
  have hagain : (fs.withTemplate location access).Writes directory true location access
      .overwritten := .overwritten h.resolve_withTemplate rfl hwrites
  rw [hagain.initConfig_eq_ok]
  congr 1
  exact put_put fs location _

end Writes

end FileSystem

/-! ## The template -/

namespace Config

/-- The configuration that a new configuration file denotes. -/
def initial : Config where
  files := {
    languages := [.typescript, .tsx, .javascript]
    excluded := ["**/dist/**", "**/build/**"] }

theorem decode?_template : decode? template = some initial := by
  rw [decode?, Toml.parse, template, String.toList_ofList]
  decide +kernel

theorem parse_template : parse template = .ok initial :=
  parse_of_sound decode?_template ((validate_eq_ok_iff initial).mp rfl)

theorem load_eq_parse {fs : FileSystem} {path : FilePath} {text : String}
    (h : fs.readText path = .ok text) : load fs path = parse text := by
  rw [load, h]

end Config

namespace FileSystem

/-- The leading dot of a path in the working directory makes no difference to a path that
leads somewhere. -/
theorem resolve_fileName {fs : FileSystem} {target : Target}
    (h : fs.resolve (configPath (.ofText ".")) = .ok target) :
    fs.resolve (.ofText Config.fileName) = .ok target := by
  have hpieces : (configPath (.ofText ".")).pieces =
      [FilePath.dot] :: (FilePath.ofText Config.fileName).pieces := by decide +kernel
  have hstart : startFrom fs.workingDirectory (configPath (.ofText ".")) =
      startFrom fs.workingDirectory (.ofText Config.fileName) := by
    rw [startFrom, startFrom, if_neg (by decide +kernel), if_neg (by decide +kernel)]
  obtain ⟨_, hleads⟩ := leads_of_resolve h
  rw [hpieces, hstart] at hleads
  rw [resolve, if_neg (by decide +kernel)]
  cases hleads with
  | stay _ hrest => exact hrest.resolveFrom_eq_ok
  | enter _ hpiece => exact absurd rfl hpiece.ne_dot
  | link _ hpiece => exact absurd rfl hpiece.ne_dot

namespace Writes

variable {fs : FileSystem} {directory : FilePath} {force : Bool} {location : Location}
  {access : Access} {outcome : InitOutcome}

theorem find_withTemplate (h : fs.Writes (.ofText ".") force location access outcome) :
    Config.find (fs.withTemplate location access) none = Config.parse Config.template := by
  have hresolve := resolve_fileName h.resolve_withTemplate
  have hexists : (fs.withTemplate location access).pathExists (.ofText Config.fileName) = true :=
    pathExists_of_resolve hresolve
  have hread := readText_of_resolve hresolve (by rw [h.access_eq_full]; rfl)
  rw [Config.find]
  simp only [hexists, if_true]
  exact Config.load_eq_parse hread

end Writes

section

variable {fs : FileSystem} {directory : FilePath} {force : Bool}

end

end FileSystem

end DroppedResult
