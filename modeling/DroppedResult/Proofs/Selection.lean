import DroppedResult.Proofs.Patterns

/-!
# Which files a search selects

A search lists the files below its root and keeps those that its filter admits, with the
errors that it meets.  The filter holds globs that were read beforehand, two more than it
was given patterns to exclude.  Here its choice is said in terms of the patterns as they
were given.

* Directories on a path.  `FilePath.directories` are the names that a slash follows.
  All components of a path but the last are among them.
* Names to keep out of.  A pattern `**/name/**` matches the paths with the name among
  their directories, wherever it stands: `Glob.isMatch_below`.
* Filters.  `FileFilter.Wants` says which paths a filter is asked for;
  `FileFilter.admits_ofPath_iff` that it admits these.

`FileSystem.search_selects` is the result.
-/

namespace DroppedResult

/-! ## Directories on a path -/

namespace FilePath

/-- The names on the path that a slash follows. -/
def directories (p : FilePath) : List Name :=
  p.pieces.dropLast

theorem piecesOf_eq_splitOn (bytes : List UInt8) : piecesOf bytes = bytes.splitOn slash := by
  induction bytes with
  | nil => rfl
  | cons b rest ih =>
    rw [piecesOf, ih, List.splitOn_cons_eq_if_modifyHead]
    split
    · rfl
    · cases hrest : rest.splitOn slash with
      | nil => exact absurd hrest (List.splitOn_ne_nil _ _)
      | cons piece pieces => rfl

theorem directories_eq (bytes : List UInt8) :
    directories ⟨bytes⟩ = (bytes.splitOn slash).dropLast :=
  congrArg List.dropLast (piecesOf_eq_splitOn bytes)

theorem directories_of_slash_not_mem {bytes : List UInt8} (h : slash ∉ bytes) :
    directories ⟨bytes⟩ = [] := by
  rw [directories_eq, List.splitOn_eq_singleton h]
  rfl

/-- The first slash of a path ends its first directory. -/
theorem directories_append_slash {first : Name} (hfirst : slash ∉ first) (rest : List UInt8) :
    directories ⟨first ++ slash :: rest⟩ = first :: directories ⟨rest⟩ := by
  rw [directories_eq, directories_eq, List.splitOn_append_cons_self_of_not_mem hfirst,
    List.dropLast_cons_of_ne_nil (List.splitOn_ne_nil _ _)]

theorem directories_subset_append (before rest : List UInt8) :
    directories ⟨rest⟩ ⊆ directories ⟨before ++ slash :: rest⟩ := by
  rw [directories_eq, directories_eq, List.splitOn_append_cons_self,
    List.dropLast_append_of_ne_nil (List.splitOn_ne_nil _ _)]
  exact List.subset_append_right ..

/-- A name is a directory on a path when it stands at the start or after a slash, and
before a slash. -/
theorem mem_directories_iff {name : Name} (hname : slash ∉ name) (bytes : List UInt8) :
    name ∈ directories ⟨bytes⟩ ↔
      (∃ rest, bytes = name ++ slash :: rest) ∨
        ∃ before rest, bytes = before ++ slash :: (name ++ slash :: rest) := by
  constructor
  · intro h
    induction hlength : bytes.length using Nat.strong_induction_on generalizing bytes with
    | _ length ih =>
      -- the first slash ends the first directory, and the others are those of the rest
      by_cases hslash : slash ∈ bytes
      · obtain ⟨first, rest, rfl, hfirst⟩ := List.eq_append_cons_of_mem hslash
        rw [directories_append_slash hfirst] at h
        rcases List.mem_cons.mp h with rfl | h
        · exact .inl ⟨rest, rfl⟩
        · have hshorter : rest.length < length := by
            rw [← hlength, List.length_append, List.length_cons]
            omega
          rcases ih rest.length hshorter rest h rfl with ⟨rest', rfl⟩ | ⟨before, rest', rfl⟩
          · exact .inr ⟨first, rest', rfl⟩
          · exact .inr ⟨first ++ slash :: before, rest', by simp⟩
      · rw [directories_of_slash_not_mem hslash] at h
        cases h
  · rintro (⟨rest, rfl⟩ | ⟨before, rest, rfl⟩)
    · rw [directories_append_slash hname]
      exact List.mem_cons_self
    · apply directories_subset_append
      rw [directories_append_slash hname]
      exact List.mem_cons_self

theorem exists_mem_dropLast_of_filterMap {α β : Type} {f : α → Option β} {l : List α} {b : β}
    (h : b ∈ (l.filterMap f).dropLast) : ∃ a ∈ l.dropLast, f a = some b := by
  rcases List.eq_nil_or_concat' l with rfl | ⟨before, last, rfl⟩
  · cases h
  · rw [List.filterMap_append] at h
    rw [List.dropLast_concat]
    refine List.mem_filterMap.mp ?_
    cases hlast : f last with
    | none =>
      rw [List.filterMap_cons_none hlast, List.filterMap_nil, List.append_nil] at h
      exact List.mem_of_mem_dropLast h
    | some b' =>
      rw [List.filterMap_cons_some hlast, List.filterMap_nil, List.dropLast_concat] at h
      exact h

theorem mem_dropLast_of_name_mem_laterComponents {pieces : List (List UInt8)} {name : Name}
    (h : .name name ∈ (laterComponents pieces).dropLast) : name ∈ pieces.dropLast := by
  obtain ⟨piece, hpiece, hname⟩ := exists_mem_dropLast_of_filterMap h
  split_ifs at hname
  · cases hname
  · obtain rfl := Component.name.inj (Option.some.inj hname)
    exact hpiece

theorem mem_dropLast_of_mem_cons {α : Type} {a b : α} {l : List α} (hne : b ≠ a)
    (h : b ∈ (a :: l).dropLast) : b ∈ l.dropLast := by
  cases l with
  | nil => cases h
  | cons c l => exact List.mem_of_ne_of_mem hne h

/-- A name among the components, other than the last component, is a directory. -/
theorem mem_directories_of_mem_components {p : FilePath} {name : Name}
    (h : .name name ∈ p.components.dropLast) : name ∈ p.directories := by
  have hlater {first : List UInt8} {rest : List (List UInt8)}
      (h : .name name ∈ (laterComponents rest).dropLast) : name ∈ (first :: rest).dropLast := by
    have hmem := mem_dropLast_of_name_mem_laterComponents h
    rw [List.dropLast_cons_of_ne_nil (by rintro rfl; cases hmem)]
    exact List.mem_cons_of_mem _ hmem
  rw [directories]
  rw [components] at h
  split at h
  · cases h
  · rename_i first rest hpieces
    rw [hpieces]
    split_ifs at h
    · cases h
    · exact hlater (mem_dropLast_of_mem_cons (by simp) h)
    · exact hlater (mem_dropLast_of_mem_cons (by simp) h)
    · exact mem_dropLast_of_name_mem_laterComponents h

end FilePath

/-! ## Names to keep out of -/

namespace Glob

/-- What `**/name/**` is read as. -/
def below (name : String) : Glob :=
  ⟨.anyDirectories :: name.toList.map .literal ++ [.anythingBelow]⟩

section

variable (literalSlash : Bool)

theorem afterSlash_iff (ts : List Token) (bytes : List UInt8) :
    afterSlash literalSlash ts bytes = true ↔
      ∃ before after, bytes = before ++ FilePath.slash :: after ∧
        matchTokens literalSlash ts after = true := by
  induction bytes with
  | nil => simp [afterSlash]
  | cons b bytes ih =>
    rw [afterSlash, Bool.or_eq_true, Bool.and_eq_true, beq_iff_eq, ih]
    constructor
    · rintro (⟨rfl, hmatch⟩ | ⟨before, after, rfl, hmatch⟩)
      · exact ⟨[], bytes, rfl, hmatch⟩
      · exact ⟨b :: before, after, rfl, hmatch⟩
    · rintro ⟨before, after, hbytes, hmatch⟩
      cases before with
      | nil =>
        obtain ⟨rfl, rfl⟩ := List.cons.inj hbytes
        exact .inl ⟨rfl, hmatch⟩
      | cons b' before =>
        obtain ⟨_, rfl⟩ := List.cons.inj hbytes
        exact .inr ⟨before, after, rfl, hmatch⟩

theorem matchTokens_literals_iff (cs : List Char) (ts : List Token) (bytes : List UInt8) :
    matchTokens literalSlash (cs.map .literal ++ ts) bytes = true ↔
      ∃ after, bytes = cs.flatMap String.utf8EncodeChar ++ after ∧
        matchTokens literalSlash ts after = true := by
  induction cs generalizing bytes with
  | nil => simp
  | cons c cs ih =>
    rw [List.map_cons, List.cons_append, matchTokens, Bool.and_eq_true, List.isPrefixOf_iff_prefix,
      ih, List.flatMap_cons]
    constructor
    · rintro ⟨⟨rest, rfl⟩, after, hafter, hmatch⟩
      rw [List.drop_left] at hafter
      exact ⟨after, by rw [hafter, List.append_assoc], hmatch⟩
    · rintro ⟨after, rfl, hmatch⟩
      rw [List.append_assoc, List.drop_left]
      exact ⟨List.prefix_append .., after, rfl, hmatch⟩

theorem somewhere_nil (bytes : List UInt8) : somewhere literalSlash [] bytes = true := by
  induction bytes with
  | nil => simp [somewhere, matchTokens]
  | cons b bytes ih => rw [somewhere, ih, Bool.or_true]

theorem matchTokens_anythingBelow_iff (bytes : List UInt8) :
    matchTokens literalSlash [.anythingBelow] bytes = true ↔
      ∃ rest, bytes = FilePath.slash :: rest := by
  cases bytes with
  | nil => simp [matchTokens]
  | cons b bytes =>
    rw [matchTokens, somewhere_nil, Bool.and_true, beq_iff_eq]
    constructor
    · rintro rfl
      exact ⟨bytes, rfl⟩
    · rintro ⟨rest, hbytes⟩
      exact (List.cons.inj hbytes).1

end

theorem bytes_ofText (s : String) :
    (FilePath.ofText s).bytes = s.toList.flatMap String.utf8EncodeChar := by
  rw [FilePath.ofText, ← String.utf8Encode_toList, List.utf8Encode]
  simp

/-- The pattern `**/name/**` matches the paths that have the name among their
directories. -/
theorem isMatch_below {name : String} (hname : FilePath.slash ∉ (FilePath.ofText name).bytes)
    (path : FilePath) :
    (below name).isMatch path.bytes = true ↔ (FilePath.ofText name).bytes ∈ path.directories := by
  have htokens (bytes : List UInt8) :
      matchTokens false (name.toList.map .literal ++ [.anythingBelow]) bytes = true ↔
        ∃ rest, bytes = (FilePath.ofText name).bytes ++ FilePath.slash :: rest := by
    rw [matchTokens_literals_iff, ← bytes_ofText]
    constructor
    · rintro ⟨_, rfl, hmatch⟩
      obtain ⟨rest, rfl⟩ := (matchTokens_anythingBelow_iff ..).mp hmatch
      exact ⟨rest, rfl⟩
    · rintro ⟨rest, rfl⟩
      exact ⟨_, rfl, (matchTokens_anythingBelow_iff ..).mpr ⟨rest, rfl⟩⟩
  -- a double star alone is another case, but the slash and the name follow this one
  have hmatch : (below name).isMatch path.bytes =
      matchTokens false (.anyDirectories :: name.toList.map .literal ++ [.anythingBelow])
        path.bytes := by
    rw [isMatch, matchesWith, below]
    split
    · rename_i hsingle
      simp at hsingle
    · rfl
  rw [hmatch, List.cons_append, matchTokens, Bool.or_eq_true, htokens, afterSlash_iff,
    FilePath.mem_directories_iff hname]
  refine or_congr_right ?_
  constructor
  · rintro ⟨before, after, hbytes, hafter⟩
    obtain ⟨rest, rfl⟩ := (htokens after).mp hafter
    exact ⟨before, rest, hbytes⟩
  · rintro ⟨before, rest, hbytes⟩
    exact ⟨before, _, hbytes, (htokens _).mpr ⟨rest, rfl⟩⟩

end Glob

/-! ## Filters -/

/-- The pattern can be read, and matches the path. -/
def FilePath.fits (path : FilePath) (pattern : String) : Bool :=
  (Glob.parse pattern).toOption.any (·.isMatch path.bytes)

namespace FileFilter

/-- The directories that no search looks into. -/
def avoided : List String :=
  [".git", "node_modules"]

/-- What a filter is asked for: the path matches an included pattern, if there are any,
and no excluded one, is below no avoided directory, and tells a wanted language. -/
structure Wants (included excluded : List String) (languages : List Language)
    (path : FilePath) : Prop where
  isIncluded : included = [] ∨ ∃ pattern ∈ included, path.fits pattern = true
  notExcluded : ∀ pattern ∈ excluded, path.fits pattern = false
  notAvoided : ∀ name ∈ avoided, (FilePath.ofText name).bytes ∉ path.directories
  hasLanguage : ∃ language ∈ languages, Language.detect path = some language

theorem any_isMatch_of_mapM {patterns : List String} {globs : List Glob}
    (h : patterns.mapM readPattern = .ok globs) (path : FilePath) :
    globs.any (·.isMatch path.bytes) = patterns.any path.fits := by
  have hfits (pattern : String) :
      path.fits pattern = (readPattern pattern).toOption.any (·.isMatch path.bytes) := by
    rw [FilePath.fits, readPattern]
    cases Glob.parse pattern <;> rfl
  calc globs.any (·.isMatch path.bytes)
      = (globs.map Except.ok : List (Except SearchError Glob)).any
          (·.toOption.any (·.isMatch path.bytes)) := by
        rw [List.any_map]
        rfl
    _ = (patterns.map readPattern).any (·.toOption.any (·.isMatch path.bytes)) := by
        rw [mapM_eq_ok_iff.mp h]
    _ = patterns.any path.fits := by
        rw [List.any_map]
        exact congrArg patterns.any (funext fun pattern => (hfits pattern).symm)

theorem isEmpty_of_mapM {patterns : List String} {globs : List Glob}
    (h : patterns.mapM readPattern = .ok globs) : globs.isEmpty = patterns.isEmpty := by
  have hlength := congrArg List.length (mapM_eq_ok_iff.mp h)
  rw [List.length_map, List.length_map] at hlength
  rw [Bool.eq_iff_iff, List.isEmpty_iff_length_eq_zero, List.isEmpty_iff_length_eq_zero, hlength]

/-- A filter has the globs of the patterns, and those of the patterns that are always
excluded. -/
theorem ofPatterns_eq_ok {included excluded : List String} {languages : List Language}
    {filter : FileFilter} (h : ofPatterns included excluded languages = .ok filter) :
    ∃ globs others, included.mapM readPattern = .ok globs ∧
      (excluded ++ alwaysExcluded).mapM readPattern = .ok others ∧
      filter = ⟨globs, others, languages⟩ := by
  rw [ofPatterns] at h
  cases hglobs : included.mapM readPattern with
  | error e =>
    rw [hglobs] at h
    cases h
  | ok globs =>
    cases hothers : (excluded ++ alwaysExcluded).mapM readPattern with
    | error e =>
      rw [hglobs, hothers] at h
      cases h
    | ok others =>
      rw [hglobs, hothers] at h
      exact ⟨globs, others, rfl, rfl, (Except.ok.inj h).symm⟩

theorem alwaysExcluded_eq : alwaysExcluded = avoided.map fun name => "**/" ++ name ++ "/**" := by
  rfl

theorem fits_below_iff {name : String} (h : name ∈ avoided) (path : FilePath) :
    path.fits ("**/" ++ name ++ "/**") = true ↔ (FilePath.ofText name).bytes ∈ path.directories := by
  have hread : ∀ name ∈ avoided, (Glob.parse ("**/" ++ name ++ "/**")).toOption =
      some (Glob.below name) := by
    rw [avoided, List.forall_mem_cons, List.forall_mem_singleton]
    exact ⟨rfl, rfl⟩
  have hslash : ∀ name ∈ avoided, FilePath.slash ∉ (FilePath.ofText name).bytes := by
    decide +kernel
  rw [FilePath.fits, hread name h, Option.any_some, Glob.isMatch_below (hslash name h)]

/-- A filter admits the paths that it is asked for. -/
theorem admits_ofPath_iff {included excluded : List String} {languages : List Language}
    {filter : FileFilter} (h : ofPatterns included excluded languages = .ok filter)
    (path : FilePath) :
    filter.admits (.ofPath path) = true ↔ Wants included excluded languages path := by
  obtain ⟨globs, others, hglobs, hothers, rfl⟩ := ofPatterns_eq_ok h
  have hexcluded : others.any (·.isMatch path.bytes) = false ↔
      (∀ pattern ∈ excluded, path.fits pattern = false) ∧
        ∀ name ∈ avoided, (FilePath.ofText name).bytes ∉ path.directories := by
    rw [any_isMatch_of_mapM hothers, List.any_append, Bool.or_eq_false_iff, alwaysExcluded_eq,
      List.any_map, List.any_eq_false, List.any_eq_false]
    refine and_congr (by simp) (forall₂_congr fun name hname => ?_)
    exact not_congr (fits_below_iff hname path)
  have hincluded : (globs.isEmpty || globs.any (·.isMatch path.bytes)) = true ↔
      included = [] ∨ ∃ pattern ∈ included, path.fits pattern = true := by
    rw [any_isMatch_of_mapM hglobs, isEmpty_of_mapM hglobs]
    simp
  have hlanguage : (SourceFile.ofPath path).language.any languages.contains = true ↔
      ∃ language ∈ languages, Language.detect path = some language := by
    rw [Option.any_eq_true]
    simp [SourceFile.ofPath, and_comm]
  rw [admits, admitsPath, Bool.and_eq_true, Bool.and_eq_true, Bool.not_eq_true']
  constructor
  · rintro ⟨⟨hin, hout⟩, hlang⟩
    obtain ⟨hnot, havoid⟩ := hexcluded.mp hout
    exact ⟨hincluded.mp hin, hnot, havoid, hlanguage.mp hlang⟩
  · rintro ⟨hin, hnot, havoid, hlang⟩
    exact ⟨⟨hincluded.mpr hin, hexcluded.mpr ⟨hnot, havoid⟩⟩, hlanguage.mpr hlang⟩

instance (included excluded : List String) (languages : List Language) :
    DecidablePred (Wants included excluded languages) := fun path =>
  decidable_of_iff
    ((included = [] ∨ ∃ pattern ∈ included, path.fits pattern = true) ∧
      (∀ pattern ∈ excluded, path.fits pattern = false) ∧
      (∀ name ∈ avoided, (FilePath.ofText name).bytes ∉ path.directories) ∧
      ∃ language ∈ languages, Language.detect path = some language)
    ⟨fun ⟨hin, hnot, havoid, hlang⟩ => ⟨hin, hnot, havoid, hlang⟩,
      fun ⟨hin, hnot, havoid, hlang⟩ => ⟨hin, hnot, havoid, hlang⟩⟩

end FileFilter

/-! ## Searches -/

namespace FileSystem

section

variable {included excluded : List String} {languages : List Language} {filter : FileFilter}
  (h : FileFilter.ofPatterns included excluded languages = .ok filter)
include h

theorem walk_eq_filter (fs : FileSystem) (root : FilePath) :
    fs.walk filter root =
      ((fs.filesBelow root).filter fun item =>
        item.toOption.all (FileFilter.Wants included excluded languages ·)).map
          (·.map .ofPath) := by
  rw [walk, List.filter_map]
  refine congrArg (List.map _) (List.filter_congr ?_)
  intro item _
  cases item with
  | error e => rfl
  | ok path =>
    show filter.admits (.ofPath path) = decide (FileFilter.Wants included excluded languages path)
    rw [Bool.eq_iff_iff, FileFilter.admits_ofPath_iff h, decide_eq_true_iff]

theorem ok_mem_walk_iff {fs : FileSystem} {root : FilePath} {file : SourceFile} :
    .ok file ∈ fs.walk filter root ↔
      ∃ path, .ok path ∈ fs.filesBelow root ∧
        FileFilter.Wants included excluded languages path ∧ file = .ofPath path := by
  rw [walk_eq_filter h, List.mem_map]
  constructor
  · intro ⟨item, hitem, heq⟩
    obtain ⟨hlisted, hwanted⟩ := List.mem_filter.mp hitem
    cases item with
    | error e => cases heq
    | ok path =>
      exact ⟨path, hlisted, of_decide_eq_true hwanted, (Except.ok.inj heq).symm⟩
  · intro ⟨path, hlisted, hwanted, heq⟩
    exact ⟨.ok path, List.mem_filter.mpr ⟨hlisted, decide_eq_true hwanted⟩, by rw [heq]; rfl⟩

end

/-- A search yields, among the files that it meets below its root and in their order, those
that the patterns and languages ask for, and all errors that it meets.  What it yields is
a regular file whose path has `.git` or `node_modules` for a component in the last place
only.  It succeeds when it yields no error. -/
theorem search_selects {included excluded : List String} {languages : List Language}
    {filter : FileFilter} (h : FileFilter.ofPatterns included excluded languages = .ok filter)
    (fs : FileSystem) (root : FilePath) :
    (fs.walk filter root = ((fs.filesBelow root).filter fun item =>
        item.toOption.all (FileFilter.Wants included excluded languages ·)).map
          (·.map .ofPath)) ∧
      (∀ file, .ok file ∈ fs.walk filter root ↔
        ∃ path, .ok path ∈ fs.filesBelow root ∧
          FileFilter.Wants included excluded languages path ∧ file = .ofPath path) ∧
      (∀ file, .ok file ∈ fs.walk filter root →
        fs.Meets root (.ok file.path) ∧
          ∀ name ∈ [".git", "node_modules"],
            .name (FilePath.ofText name).bytes ∉ file.path.components.dropLast) ∧
      ∀ files, fs.search filter root = .ok files ↔ fs.walk filter root = files.map .ok := by
  refine ⟨walk_eq_filter h fs root, fun file => ok_mem_walk_iff h, ?_,
    fun files => mapM_id_eq_ok_iff⟩
  intro file hfile
  obtain ⟨path, hlisted, hwanted, rfl⟩ := (ok_mem_walk_iff h).mp hfile
  refine ⟨(mem_filesBelow_iff.mp hlisted).2, ?_⟩
  intro name hname hcomponent
  exact hwanted.notAvoided name hname (FilePath.mem_directories_of_mem_components hcomponent)

/-- A source file in `node_modules`, and one outside. -/
def withModules : FileSystem where
  entries :=
    [([], .directory .full),
      ([(FilePath.ofText "node_modules").bytes], .directory .full),
      ([(FilePath.ofText "node_modules").bytes, (FilePath.ofText "a.ts").bytes],
        .file "".toByteArray .full),
      ([(FilePath.ofText "b.ts").bytes], .file "".toByteArray .full)]
  workingDirectory := [(FilePath.ofText "node_modules").bytes]
  userIgnore := none
  nodup := by decide +kernel
  inDirectory := by decide +kernel
  working := by decide +kernel

/-- The file in `node_modules` is not selected, though it is included by name and though the
search starts there. -/
theorem search_withModules :
    ∃ filter, FileFilter.ofPatterns ["/node_modules/a.ts", "**/*.ts"] [] = .ok filter ∧
      withModules.filesBelow (.ofText "/node_modules") = [.ok (.ofText "/node_modules/a.ts")] ∧
      withModules.search filter (.ofText "/node_modules") = .ok [] ∧
      withModules.search filter (.ofText "../b.ts") = .ok [.ofPath (.ofText "../b.ts")] := by
  have hmodules : withModules.filesBelow (.ofText "/node_modules") =
      [.ok (.ofText "/node_modules/a.ts")] := by cbv
  have hfile : withModules.filesBelow (.ofText "../b.ts") = [.ok (.ofText "../b.ts")] := by cbv
  have hunwanted : ¬ FileFilter.Wants ["/node_modules/a.ts", "**/*.ts"] [] Language.all
      (.ofText "/node_modules/a.ts") :=
    fun hwants => hwants.notAvoided "node_modules" (by decide) (by decide +kernel)
  have hwanted : FileFilter.Wants ["/node_modules/a.ts", "**/*.ts"] [] Language.all
      (.ofText "../b.ts") := by
    have hparse : Glob.parse "**/*.ts" =
        .ok ⟨[.anyDirectories, .star, .literal '.', .literal 't', .literal 's']⟩ := by rfl
    refine ⟨.inr ⟨"**/*.ts", by decide, ?_⟩, by decide, by decide +kernel, .typescript, by decide,
      by decide +kernel⟩
    rw [FilePath.fits, hparse]
    cbv
  have hfilter : FileFilter.ofPatterns ["/node_modules/a.ts", "**/*.ts"] [] = .ok _ := rfl
  obtain ⟨hbelow, _, _, hempty⟩ := search_selects hfilter withModules (.ofText "/node_modules")
  obtain ⟨hbeside, _, _, hone⟩ := search_selects hfilter withModules (.ofText "../b.ts")
  refine ⟨_, hfilter, hmodules, (hempty []).mpr ?_, (hone _).mpr ?_⟩
  · rw [hbelow, hmodules, List.filter_cons_of_neg (by simpa [Except.toOption] using hunwanted)]
    rfl
  · rw [hbeside, hfile, List.filter_cons_of_pos (by simpa [Except.toOption] using hwanted)]
    rfl

end FileSystem

end DroppedResult
