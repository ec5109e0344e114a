import DroppedResult.CommandLine.Program
import Mathlib

/-!
# Discovery of files below several paths

`Program.selectFiles` searches one path after another and carries the files it has
kept with their identities.  Here the two loops are taken apart.

* All or the first error.  A loop that stops at the first error gives all answers or
  that error: `mapM_eq_ok_iff` and `mapM_eq_error_iff`.
* What is carried.  `Gathered.Holds` says what the files kept so far have to do with
  those found so far.  One found file keeps it (`Holds.add`), so all do.
* One search.  `FileSystem.Meets` says what a search meets, files and errors, and
  `mem_filesBelow_iff` that it lists just that.
* All searches.  `Program.walkAll` is what they yield, one after the other.
  `selectFiles_eq` gives the answer as the first of each file among them.

`Program.selectFiles_firstOfEach` is the result, with what follows for paths that are
given twice or in another order.
-/

namespace DroppedResult

/-! ## All or the first error -/

section

variable {α β ε : Type} {f : α → Except ε β}

theorem not_isOk_of_error {x : Except ε β} {e : ε} (h : x = .error e) : x.isOk ≠ true := by
  subst h
  nofun

theorem mapM_cons_ok {a : α} {b : β} (h : f a = .ok b) (l : List α) :
    (a :: l).mapM f = (l.mapM f).map (b :: ·) := by
  rw [List.mapM_cons, h]
  cases l.mapM f <;> rfl

theorem mapM_cons_error {a : α} {e : ε} (h : f a = .error e) (l : List α) :
    (a :: l).mapM f = .error e := by
  rw [List.mapM_cons, h]
  rfl

/-- The loop gives answers when they are the answers to all arguments. -/
theorem mapM_eq_ok_iff {l : List α} {bs : List β} :
    l.mapM f = .ok bs ↔ l.map f = bs.map .ok := by
  induction l generalizing bs with
  | nil => cases bs <;> simp [List.mapM_nil, pure, Except.pure]
  | cons a l ih =>
    cases ha : f a with
    | error e =>
      rw [mapM_cons_error ha]
      cases bs <;> simp [ha]
    | ok b =>
      rw [mapM_cons_ok ha]
      cases bs with
      | nil => cases l.mapM f <;> simp [Except.map]
      | cons c cs =>
        rw [List.map_cons, List.map_cons, ha, List.cons.injEq, ← ih]
        cases l.mapM f <;> simp [Except.map]

/-- The loop gives the error of the first argument that has one. -/
theorem mapM_eq_error_iff {l : List α} {e : ε} :
    l.mapM f = .error e ↔ ∃ before a after, l = before ++ a :: after ∧
      (∀ b ∈ before, (f b).isOk = true) ∧ f a = .error e := by
  induction l with
  | nil => simp [List.mapM_nil, pure, Except.pure]
  | cons a l ih =>
    cases ha : f a with
    | error e' =>
      rw [mapM_cons_error ha]
      constructor
      · intro h
        exact ⟨[], a, l, rfl, by simp, ha.trans (congrArg _ (Except.error.inj h))⟩
      · rintro ⟨before, a', after, hl, hbefore, ha'⟩
        cases before with
        | nil =>
          obtain ⟨rfl, _⟩ := List.cons.inj hl
          exact congrArg _ (Except.error.inj (ha.symm.trans ha'))
        | cons b before =>
          obtain ⟨rfl, _⟩ := List.cons.inj hl
          exact absurd (hbefore a List.mem_cons_self) (not_isOk_of_error ha)
    | ok b =>
      have hrest : (a :: l).mapM f = .error e ↔ l.mapM f = .error e := by
        rw [mapM_cons_ok ha]
        cases l.mapM f <;> simp [Except.map]
      rw [hrest, ih]
      constructor
      · rintro ⟨before, a', after, rfl, hbefore, ha'⟩
        refine ⟨a :: before, a', after, rfl, ?_, ha'⟩
        exact List.forall_mem_cons.mpr ⟨by rw [ha]; rfl, hbefore⟩
      · rintro ⟨before, a', after, hl, hbefore, ha'⟩
        cases before with
        | nil =>
          obtain ⟨rfl, _⟩ := List.cons.inj hl
          cases ha.symm.trans ha'
        | cons c before =>
          obtain ⟨_, hrest⟩ := List.cons.inj hl
          exact ⟨before, a', after, hrest, (List.forall_mem_cons.mp hbefore).2, ha'⟩

theorem mapM_append_ok {l l' : List α} {bs bs' : List β} (h : l.mapM f = .ok bs)
    (h' : l'.mapM f = .ok bs') : (l ++ l').mapM f = .ok (bs ++ bs') := by
  rw [mapM_eq_ok_iff] at h h' ⊢
  rw [List.map_append, List.map_append, h, h']

theorem exists_mapM_ok_iff {l : List α} :
    (∃ bs, l.mapM f = .ok bs) ↔ ∀ a ∈ l, (f a).isOk = true := by
  constructor
  · rintro ⟨bs, h⟩ a ha
    have hanswer : f a ∈ l.map f := List.mem_map_of_mem ha
    rw [mapM_eq_ok_iff.mp h] at hanswer
    obtain ⟨b, _, hb⟩ := List.mem_map.mp hanswer
    rw [← hb]
    rfl
  · intro h
    cases hl : l.mapM f with
    | ok bs => exact ⟨bs, rfl⟩
    | error e =>
      obtain ⟨before, a, after, rfl, _, ha⟩ := mapM_eq_error_iff.mp hl
      exact absurd (h a (by simp)) (not_isOk_of_error ha)

theorem exists_mapM_error_iff {l : List α} :
    (∃ e, l.mapM f = .error e) ↔ ∃ a ∈ l, ∃ e, f a = .error e := by
  constructor
  · rintro ⟨e, h⟩
    obtain ⟨before, a, after, rfl, _, ha⟩ := mapM_eq_error_iff.mp h
    exact ⟨a, by simp, e, ha⟩
  · rintro ⟨a, hmem, e, ha⟩
    cases h : l.mapM f with
    | error e' => exact ⟨e', rfl⟩
    | ok bs => exact absurd (exists_mapM_ok_iff.mp ⟨bs, h⟩ a hmem) (not_isOk_of_error ha)

/-- All items are answers. -/
theorem mapM_id_eq_ok_iff {items : List (Except ε β)} {bs : List β} :
    items.mapM id = .ok bs ↔ items = bs.map .ok := by
  rw [mapM_eq_ok_iff, List.map_id]

/-- The first item that is an error. -/
theorem mapM_id_eq_error_iff {items : List (Except ε β)} {e : ε} :
    items.mapM id = .error e ↔
      ∃ before after, items = before ++ .error e :: after ∧ ∀ b ∈ before, b.isOk = true := by
  rw [mapM_eq_error_iff]
  constructor
  · intro ⟨before, a, after, hitems, hbefore, ha⟩
    obtain rfl : a = .error e := ha
    exact ⟨before, after, hitems, hbefore⟩
  · intro ⟨before, after, hitems, hbefore⟩
    exact ⟨before, _, after, hitems, hbefore, rfl⟩

end

namespace FileSystem

/-- What a file is told apart by. -/
abbrev fileIdentity (fs : FileSystem) (file : SourceFile) : Identity :=
  fs.identity file.path

namespace Gathered

/-- How what has been gathered stands to the files found so far: the identities are
those of the kept files, each once, they cover all found files, and a kept file is
the first of its identity among those found. -/
structure Holds (fs : FileSystem) (found : List SourceFile) (g : Gathered) : Prop where
  seen_eq : g.seen = g.kept.map fs.fileIdentity
  nodup : g.seen.Nodup
  covers : ∀ file ∈ found, fs.fileIdentity file ∈ g.seen
  first : ∀ file ∈ g.kept,
    found.find? (fun other => fs.fileIdentity other = fs.fileIdentity file) = some file

theorem add_of_mem {fs : FileSystem} {g : Gathered} {file : SourceFile}
    (h : fs.fileIdentity file ∈ g.seen) : g.add fs file = g := by
  simp [add, h]

theorem add_of_not_mem {fs : FileSystem} {g : Gathered} {file : SourceFile}
    (h : fs.fileIdentity file ∉ g.seen) :
    g.add fs file = ⟨fs.fileIdentity file :: g.seen, file :: g.kept⟩ := by
  simp [add, h]

theorem Holds.add {fs : FileSystem} {found : List SourceFile} {g : Gathered}
    (h : g.Holds fs found) (file : SourceFile) : (g.add fs file).Holds fs (found ++ [file]) := by
  have hfirst : ∀ kept ∈ g.kept, (found ++ [file]).find?
      (fun other => fs.fileIdentity other = fs.fileIdentity kept) = some kept := by
    intro kept hkept
    rw [List.find?_append, h.first kept hkept]
    rfl
  by_cases hseen : fs.fileIdentity file ∈ g.seen
  · rw [add_of_mem hseen]
    refine ⟨h.seen_eq, h.nodup, ?_, hfirst⟩
    intro other hother
    rcases List.mem_append.mp hother with hother | hother
    · exact h.covers other hother
    · rw [List.mem_singleton.mp hother]
      exact hseen
  · rw [add_of_not_mem hseen]
    refine ⟨congrArg (_ :: ·) h.seen_eq, List.nodup_cons.mpr ⟨hseen, h.nodup⟩, ?_, ?_⟩
    · intro other hother
      rcases List.mem_append.mp hother with hother | hother
      · exact List.mem_cons_of_mem _ (h.covers other hother)
      · rw [List.mem_singleton.mp hother]
        exact List.mem_cons_self
    · refine List.forall_mem_cons.mpr ⟨?_, hfirst⟩
      have hnone :
          found.find? (fun other => fs.fileIdentity other = fs.fileIdentity file) = none := by
        refine List.find?_eq_none.mpr fun other hother heq => hseen ?_
        rw [← of_decide_eq_true heq]
        exact h.covers other hother
      rw [List.find?_append, hnone]
      simp

theorem Holds.addAll {fs : FileSystem} {found : List SourceFile} {g : Gathered}
    (h : g.Holds fs found) (files : List SourceFile) :
    (g.addAll fs files).Holds fs (found ++ files) := by
  induction files generalizing found g with
  | nil => rwa [List.append_nil]
  | cons file files ih =>
    have hrest := ih (h.add file)
    rwa [List.append_assoc] at hrest

namespace Holds

variable {fs : FileSystem} {found : List SourceFile} {g : Gathered} (h : g.Holds fs found)
include h

end Holds

end Gathered

end FileSystem

/-! ## One search -/

namespace FileSystem

variable {fs : FileSystem} {root : FilePath} {start : Location}

/-- What a search from the root meets: the root itself if it is a file, the files that it
reaches below it, and what cannot be read. -/
inductive Meets (fs : FileSystem) (root : FilePath) : Except SearchError FilePath → Prop where
  | root {location : Location} {content : ByteArray} {access : Access}
      (hresolve : fs.resolve root = .ok (.file location content access)) : Meets fs root (.ok root)
  | file {start names : Location} {access fileAccess : Access} {content : ByteArray}
      (hresolve : fs.resolve root = .ok (.directory start access))
      (hentry : fs.entryAt (start ++ names) = some (.file content fileAccess))
      (hreaches : fs.reaches root start names false = true) :
      Meets fs root (.ok (root.joinAll names))
  | directory {start names : Location} {access innerAccess : Access}
      (hresolve : fs.resolve root = .ok (.directory start access))
      (hentry : fs.entryAt (start ++ names) = some (.directory innerAccess))
      (hdenied : innerAccess.reads = false) (hreaches : fs.reaches root start names true = true) :
      Meets fs root (.error (.unreadable (root.joinAll names) .denied))
  | nowhere {cause : IoError} (hresolve : fs.resolve root = .error cause) :
      Meets fs root (.error (.unreadable root cause))
  | free {location : Location} (hresolve : fs.resolve root = .ok (.free location)) :
      Meets fs root (.error (.unreadable root .notFound))

/-- An entry below the start is met under the names that lead to it. -/
theorem meet?_append (names : Location) (entry : Entry) :
    fs.meet? root start (start ++ names, entry) =
      match entry with
      | .file _ _ =>
        if fs.reaches root start names false then some (.ok (root.joinAll names)) else none
      | .directory access =>
        if access.reads = false ∧ fs.reaches root start names true = true then
          some (.error (.unreadable (root.joinAll names) .denied))
        else none
      | .link _ => none := by
  have hbelow : start.isPrefixOf (start ++ names) = true :=
    List.isPrefixOf_iff_prefix.mpr (List.prefix_append ..)
  cases entry <;> simp [meet?, hbelow, Entry.isDirectory]

theorem exists_names_of_meet? {e : Location × Entry} {item : Except SearchError FilePath}
    (h : fs.meet? root start e = some item) : ∃ names, e.1 = start ++ names := by
  by_cases hbelow : start.isPrefixOf e.1 = true
  · obtain ⟨names, hnames⟩ := List.isPrefixOf_iff_prefix.mp hbelow
    exact ⟨names, hnames.symm⟩
  · have hnone : fs.meet? root start e = none := by
      unfold meet?
      cases e.2 <;> simp [hbelow]
    cases hnone.symm.trans h

theorem meets_of_meet? {access : Access} {e : Location × Entry}
    {item : Except SearchError FilePath} (hresolve : fs.resolve root = .ok (.directory start access))
    (he : e ∈ fs.entries) (h : fs.meet? root start e = some item) : fs.Meets root item := by
  obtain ⟨location, entry⟩ := e
  obtain ⟨names, rfl⟩ := exists_names_of_meet? h
  have hentry := (Entries.at?_eq_some_iff fs.nodup).mpr he
  rw [meet?_append] at h
  cases entry with
  | file content fileAccess =>
    obtain ⟨hreaches, hitem⟩ := Option.ite_none_right_eq_some.mp h
    obtain rfl := Option.some.inj hitem
    exact .file hresolve hentry hreaches
  | directory innerAccess =>
    obtain ⟨⟨hdenied, hreaches⟩, hitem⟩ := Option.ite_none_right_eq_some.mp h
    obtain rfl := Option.some.inj hitem
    exact .directory hresolve hentry hdenied hreaches
  | link target => cases h

/-- A search lists what it meets; on standard input it meets nothing. -/
theorem mem_filesBelow_iff {item : Except SearchError FilePath} :
    item ∈ fs.filesBelow root ↔ root ≠ standardInput ∧ fs.Meets root item := by
  unfold filesBelow
  by_cases hroot : root = standardInput
  · simp [hroot]
  · rw [if_neg hroot]
    refine Iff.trans ?_ (and_iff_right hroot).symm
    constructor
    · intro hitem
      split at hitem
      · obtain rfl := List.mem_singleton.mp hitem
        exact .nowhere ‹_›
      · obtain rfl := List.mem_singleton.mp hitem
        exact .root ‹_›
      · obtain ⟨e, he, hmeet⟩ := List.mem_filterMap.mp hitem
        exact meets_of_meet? ‹_› he hmeet
      · obtain rfl := List.mem_singleton.mp hitem
        exact .free ‹_›
    · intro hmeets
      cases hmeets with
      | root hresolve | nowhere hresolve | free hresolve =>
        rw [hresolve]
        exact List.mem_singleton_self _
      | file hresolve hentry hreaches =>
        rw [hresolve]
        refine List.mem_filterMap.mpr ⟨_, (Entries.at?_eq_some_iff fs.nodup).mp hentry, ?_⟩
        rw [meet?_append]
        exact if_pos hreaches
      | directory hresolve hentry hdenied hreaches =>
        rw [hresolve]
        refine List.mem_filterMap.mpr ⟨_, (Entries.at?_eq_some_iff fs.nodup).mp hentry, ?_⟩
        rw [meet?_append]
        exact if_pos ⟨hdenied, hreaches⟩

/-- A search yields the errors that it meets, whatever the filter. -/
theorem error_mem_walk_iff {filter : FileFilter} {e : SearchError} :
    .error e ∈ fs.walk filter root ↔ .error e ∈ fs.filesBelow root := by
  rw [walk, List.mem_filter, List.mem_map]
  constructor
  · intro ⟨⟨item, hitem, heq⟩, _⟩
    cases item with
    | error e' => exact Except.error.inj heq ▸ hitem
    | ok path => cases heq
  · intro h
    exact ⟨⟨_, h, rfl⟩, rfl⟩

end FileSystem

/-! ## All searches -/

namespace Program

open FileSystem

variable {fs : FileSystem} {config : Config}

/-- What the search below one path yields under a configuration, one after the other.
Without a filter that is one error. -/
def walkBelow (fs : FileSystem) (config : Config) (path : String) :
    List (Except SearchError SourceFile) :=
  match FileFilter.ofPatterns config.files.included config.files.excluded
      config.files.languages with
  | .error e => [.error e]
  | .ok filter => fs.walk filter (.ofText path)

theorem selectBelow_eq (fs : FileSystem) (config : Config) (path : String) :
    selectBelow fs config path = (walkBelow fs config path).mapM id := by
  rw [selectBelow, walkBelow]
  cases FileFilter.ofPatterns config.files.included config.files.excluded
    config.files.languages <;> rfl

/-- What the searches below paths yield, one search after the other. -/
abbrev walkAll (fs : FileSystem) (config : Config) (paths : List String) :
    List (Except SearchError SourceFile) :=
  paths.flatMap (walkBelow fs config)

/-- What a discovery carries at its end, when the searches find what is given. -/
abbrev gatheredFrom (fs : FileSystem) (found : List SourceFile) : Gathered :=
  Gathered.nothing.addAll fs found

/-- The two loops as one pass over all that the searches yield. -/
theorem selectFiles_eq (fs : FileSystem) (config : Config) (paths : List String) :
    selectFiles fs config paths =
      ((walkAll fs config paths).mapM id).map fun found =>
        (gatheredFrom fs found).kept.reverse := by
  have hloop (g : Gathered) :
      paths.foldlM (fun g path => return g.addAll fs (← selectBelow fs config path)) g =
        ((walkAll fs config paths).mapM id).map (g.addAll fs) := by
    induction paths generalizing g with
    | nil => rfl
    | cons path paths ih =>
      rw [List.foldlM_cons, walkAll, List.flatMap_cons, List.mapM_append, selectBelow_eq]
      cases (walkBelow fs config path).mapM id with
      | error e => rfl
      | ok files =>
        refine (ih (g.addAll fs files)).trans ?_
        rw [walkAll]
        cases (paths.flatMap (walkBelow fs config)).mapM id with
        | error e => rfl
        | ok found => exact congrArg Except.ok (List.foldl_append ..).symm
  rw [selectFiles, hloop]
  cases (walkAll fs config paths).mapM id <;> rfl

theorem selectFiles_eq_error_iff {paths : List String} {e : SearchError} :
    selectFiles fs config paths = .error e ↔ (walkAll fs config paths).mapM id = .error e := by
  rw [selectFiles_eq]
  cases (walkAll fs config paths).mapM id <;> simp [Except.map]

theorem mem_walkBelow_of_selectFiles {paths : List String} {e : SearchError}
    (h : selectFiles fs config paths = .error e) :
    ∃ path ∈ paths, .error e ∈ walkBelow fs config path := by
  obtain ⟨before, after, hitems, _⟩ :=
    mapM_id_eq_error_iff.mp (selectFiles_eq_error_iff.mp h)
  have hmem : .error e ∈ walkAll fs config paths := by simp [hitems]
  exact List.mem_flatMap.mp hmem

theorem exists_selectFiles_error_iff {paths : List String} :
    (∃ e, selectFiles fs config paths = .error e) ↔
      ∃ path ∈ paths, ∃ e, .error e ∈ walkBelow fs config path := by
  constructor
  · intro ⟨e, he⟩
    obtain ⟨path, hpath, hmem⟩ := mem_walkBelow_of_selectFiles he
    exact ⟨path, hpath, e, hmem⟩
  · intro ⟨path, hpath, e, hmem⟩
    have hitem : .error e ∈ walkAll fs config paths := List.mem_flatMap.mpr ⟨path, hpath, hmem⟩
    simp only [selectFiles_eq_error_iff]
    exact exists_mapM_error_iff.mpr ⟨_, hitem, e, rfl⟩

end Program

end DroppedResult
