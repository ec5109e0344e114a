import DroppedResult.Proofs.Discovery
import DroppedResult.Proofs.Validation

/-!
# Patterns of configurations

A configuration's patterns are read when it is validated, one after the other, and
again for every search, together with those that are always excluded.

* A pattern that passes the first reading passes the second, so a search under a
  configuration that was found fails only where the files cannot be listed:
  `Program.error_mem_walkBelow_iff`.
* A pattern that fails the second reading fails the first.  Both readings stop at the same
  pattern with the same fault: `Config.checkPatterns_of_mapM_error`,
  `FileFilter.ofPatterns_eq_error`.

`Program.patterns_readable_of_parse` is the result.
-/

namespace DroppedResult

namespace Config

/-- All patterns of a configuration that validates can be read. -/
theorem isOk_parse_of_validate {c : Config} (h : c.validate = .ok ()) :
    ∀ p ∈ c.files.included ++ c.files.excluded, (Glob.parse p).isOk = true := by
  have hsound := (validate_eq_ok_iff c).mp h
  intro p hp
  obtain ⟨glob, hglob⟩ := (List.mem_append.mp hp).elim (hsound.included p) (hsound.excluded p)
  rw [hglob]
  rfl

theorem validate_standard : standard.validate = .ok () := by
  rfl

theorem validate_of_parse {text : String} {c : Config} (h : parse text = .ok c) :
    c.validate = .ok () :=
  (validate_eq_ok_iff c).mpr (parse_eq_ok_iff.mp h).2

/-- A configuration that is found validates. -/
theorem validate_of_find {fs : FileSystem} {explicit : Option FilePath} {c : Config}
    (h : find fs explicit = .ok c) : c.validate = .ok () := by
  have hload {path : FilePath} (h : load fs path = .ok c) : c.validate = .ok () := by
    unfold load at h
    split at h
    · cases h
    · exact validate_of_parse h
  unfold find at h
  split at h
  · exact hload h
  · simp only at h
    split at h
    · exact hload h
    · rw [← Except.ok.inj h]
      exact validate_standard

end Config

namespace FileFilter

theorem isOk_readPattern (pattern : String) :
    (readPattern pattern).isOk = (Glob.parse pattern).isOk := by
  unfold readPattern
  cases Glob.parse pattern <;> rfl

theorem isOk_parse_alwaysExcluded : ∀ p ∈ alwaysExcluded, (Glob.parse p).isOk = true := by
  decide

theorem exists_ofPatterns {included excluded : List String}
    (h : ∀ p ∈ included ++ excluded, (Glob.parse p).isOk = true) (languages : List Language) :
    ∃ filter, ofPatterns included excluded languages = .ok filter := by
  rw [List.forall_mem_append] at h
  obtain ⟨globs, hglobs⟩ := exists_mapM_ok_iff.mpr fun p hp => (isOk_readPattern p).trans (h.1 p hp)
  have hexcluded : ∀ p ∈ excluded ++ alwaysExcluded, (Glob.parse p).isOk = true :=
    List.forall_mem_append.mpr ⟨h.2, isOk_parse_alwaysExcluded⟩
  obtain ⟨others, hothers⟩ := exists_mapM_ok_iff.mpr fun p hp =>
    (isOk_readPattern p).trans (hexcluded p hp)
  exact ⟨⟨globs, others, languages⟩, by rw [ofPatterns, hglobs, hothers]; rfl⟩

theorem ofPatterns_eq_error {included excluded : List String} {languages : List Language}
    {e : SearchError} (h : ofPatterns included excluded languages = .error e) :
    included.mapM readPattern = .error e ∨
      (∃ globs, included.mapM readPattern = .ok globs) ∧ excluded.mapM readPattern = .error e := by
  rw [ofPatterns] at h
  cases hincluded : included.mapM readPattern with
  | error e' =>
    rw [hincluded] at h
    exact .inl (congrArg _ (Except.error.inj h))
  | ok globs =>
    refine .inr ⟨⟨globs, rfl⟩, ?_⟩
    cases hexcluded : excluded.mapM readPattern with
    | error e' =>
      have hall : (excluded ++ alwaysExcluded).mapM readPattern = .error e' := by
        obtain ⟨before, pattern, after, rfl, hbefore, hpattern⟩ := mapM_eq_error_iff.mp hexcluded
        exact mapM_eq_error_iff.mpr ⟨before, pattern, after ++ alwaysExcluded, by simp, hbefore,
          hpattern⟩
      rw [hincluded, hall] at h
      exact congrArg _ (Except.error.inj h)
    | ok others =>
      obtain ⟨always, halways⟩ := exists_mapM_ok_iff.mpr fun p hp =>
        (isOk_readPattern p).trans (isOk_parse_alwaysExcluded p hp)
      rw [hincluded, mapM_append_ok hexcluded halways] at h
      cases h

end FileFilter

namespace Config

/-- Reading the patterns of a list stops where checking them stops. -/
theorem checkPatterns_of_mapM_error {patterns : List String} {e : SearchError}
    (h : patterns.mapM FileFilter.readPattern = .error e) (list : PatternList) :
    ∃ pattern fault, e = .badPattern pattern fault ∧
      checkPatterns list patterns = .error (.badPattern list pattern fault) := by
  induction patterns with
  | nil => cases h
  | cons pattern patterns ih =>
    rw [checkPatterns]
    cases hparse : Glob.parse pattern with
    | error fault =>
      have hread : FileFilter.readPattern pattern = .error (.badPattern pattern fault) := by
        rw [FileFilter.readPattern, hparse]
        rfl
      rw [mapM_cons_error hread] at h
      exact ⟨pattern, fault, (Except.error.inj h).symm, rfl⟩
    | ok glob =>
      have hread : FileFilter.readPattern pattern = .ok glob := by
        rw [FileFilter.readPattern, hparse]
        rfl
      rw [mapM_cons_ok hread] at h
      cases hrest : patterns.mapM FileFilter.readPattern with
      | error e' =>
        rw [hrest] at h
        obtain rfl := Except.error.inj h
        exact ih hrest
      | ok globs =>
        rw [hrest] at h
        cases h

theorem checkPatterns_of_mapM_ok {patterns : List String} {globs : List Glob}
    (h : patterns.mapM FileFilter.readPattern = .ok globs) (list : PatternList) :
    checkPatterns list patterns = .ok () := by
  rw [checkPatterns_eq_report, report_eq_ok_iff, patternFaults_eq_nil_iff]
  intro p hp
  have hread := exists_mapM_ok_iff.mp ⟨globs, h⟩ p hp
  rw [FileFilter.isOk_readPattern] at hread
  cases hparse : Glob.parse p with
  | ok glob => exact ⟨glob, rfl⟩
  | error fault =>
    rw [hparse] at hread
    cases hread

/-- A configuration whose patterns a search cannot read does not validate.  Unless it has
no languages, the fault is the one that the search meets. -/
theorem validate_of_ofPatterns_error {c : Config} {languages : List Language} {e : SearchError}
    (h : FileFilter.ofPatterns c.files.included c.files.excluded languages = .error e) :
    c.files.languages = [] ∧ c.validate = .error .noLanguages ∨
      ∃ list pattern fault, e = .badPattern pattern fault ∧
        c.validate = .error (.badPattern list pattern fault) := by
  cases hlanguages : c.files.languages with
  | nil => exact .inl ⟨rfl, by simp [validate, hlanguages, bind, Except.bind]⟩
  | cons language others =>
    refine .inr ?_
    rcases FileFilter.ofPatterns_eq_error h with hincluded | ⟨⟨globs, hglobs⟩, hexcluded⟩
    · obtain ⟨pattern, fault, rfl, hcheck⟩ := checkPatterns_of_mapM_error hincluded .included
      refine ⟨.included, pattern, fault, rfl, ?_⟩
      simp [validate, hlanguages, hcheck, bind, Except.bind]
    · have hok := checkPatterns_of_mapM_ok hglobs .included
      obtain ⟨pattern, fault, rfl, hcheck⟩ := checkPatterns_of_mapM_error hexcluded .excluded
      refine ⟨.excluded, pattern, fault, rfl, ?_⟩
      simp [validate, hlanguages, hok, hcheck, bind, Except.bind]

end Config

namespace Program

/-- Under a configuration that validates, a search below a path yields the errors that it
meets there. -/
theorem error_mem_walkBelow_iff {fs : FileSystem} {config : Config}
    (h : config.validate = .ok ()) {path : String} {e : SearchError} :
    .error e ∈ walkBelow fs config path ↔ .error e ∈ fs.filesBelow (.ofText path) := by
  obtain ⟨filter, hfilter⟩ := FileFilter.exists_ofPatterns (Config.isOk_parse_of_validate h)
    config.files.languages
  rw [walkBelow, hfilter]
  exact FileSystem.error_mem_walk_iff

/-- A search meets no pattern. -/
theorem badPattern_not_mem_filesBelow (fs : FileSystem) (root : FilePath) (pattern : String)
    (fault : Glob.Fault) : .error (.badPattern pattern fault) ∉ fs.filesBelow root := by
  intro h
  cases (FileSystem.mem_filesBelow_iff.mp h).2

theorem selectFiles_ne_badPattern {config : Config} (hvalid : config.validate = .ok ())
    (fs : FileSystem) (paths : List String) (pattern : String) (fault : Glob.Fault) :
    selectFiles fs config paths ≠ .error (.badPattern pattern fault) := by
  intro h
  obtain ⟨path, _, hmem⟩ := mem_walkBelow_of_selectFiles h
  exact badPattern_not_mem_filesBelow fs _ pattern fault ((error_mem_walkBelow_iff hvalid).mp hmem)

theorem findViolations_ne_badPattern (grammars : Grammars) (fs : FileSystem)
    (options : CheckOptions) (pattern : String) (fault : Glob.Fault) :
    findViolations grammars fs options ≠ .error (.search (.badPattern pattern fault)) := by
  intro h
  cases hfind : Config.find fs options.config with
  | error e => simp [findViolations, hfind, Except.mapError, bind, Except.bind] at h
  | ok config =>
    have hvalid := Config.validate_of_find hfind
    cases hfiles : selectFiles fs config options.roots with
    | ok files => simp [findViolations, hfind, hfiles, Except.mapError, bind, Except.bind] at h
    | error e =>
      have he : e = .badPattern pattern fault := by
        simpa [findViolations, hfind, hfiles, Except.mapError, bind, Except.bind] using h
      subst he
      exact selectFiles_ne_badPattern hvalid fs _ pattern fault hfiles

/-- A text that parses gives a configuration whose patterns every search can read, so no
check ends at a pattern.  A text with patterns that a search cannot read is refused when
it is validated: for the pattern that the search would stop at, unless it has no
languages. -/
theorem patterns_readable_of_parse :
    (∀ text config, Config.parse text = .ok config →
      ∃ filter, FileFilter.ofPatterns config.files.included config.files.excluded
          config.files.languages = .ok filter ∧
        ∀ fs root, selectBelow fs config root = fs.search filter (.ofText root)) ∧
      (∀ grammars fs options pattern fault,
        findViolations grammars fs options ≠ .error (.search (.badPattern pattern fault))) ∧
      ∀ text config languages e, (Toml.parse text).bind Config.ofDocument? = some config →
        FileFilter.ofPatterns config.files.included config.files.excluded languages = .error e →
        ∃ fault : ConfigFault, Config.parse text = .error (.unsound fault.message) ∧
          (config.files.languages = [] ∧ fault = .noLanguages ∨
            ∃ list pattern why, e = .badPattern pattern why ∧
              fault = .badPattern list pattern why) := by
  refine ⟨?_, findViolations_ne_badPattern, ?_⟩
  · intro text config hparse
    have hreadable := Config.isOk_parse_of_validate (Config.validate_of_parse hparse)
    obtain ⟨filter, hfilter⟩ := FileFilter.exists_ofPatterns hreadable config.files.languages
    refine ⟨filter, hfilter, ?_⟩
    intro fs root
    rw [selectBelow, hfilter]
    rfl
  · intro text config languages e hdecode herror
    rcases Config.validate_of_ofPatterns_error herror with
      ⟨hnone, hvalidate⟩ | ⟨list, pattern, why, rfl, hvalidate⟩
    · exact ⟨_, Config.parse_of_validate_error hdecode hvalidate, .inl ⟨hnone, rfl⟩⟩
    · exact ⟨_, Config.parse_of_validate_error hdecode hvalidate,
        .inr ⟨list, pattern, why, rfl, rfl⟩⟩

/-- A class that is not closed is refused when the text is parsed, and one that is closed
gives a filter. -/
theorem parse_excludedClass :
    (∃ list : PatternList, Config.parse "check.exclude = ['[a']" =
        .error (.unsound (ConfigFault.badPattern list "[a" .unclosedClass).message)) ∧
      ∃ config filter, Config.parse "check.exclude = ['[a]']" = .ok config ∧
        FileFilter.ofPatterns config.files.included config.files.excluded
          config.files.languages = .ok filter := by
  obtain ⟨hreadable, _, hrefused⟩ := patterns_readable_of_parse
  refine ⟨?_, ?_⟩
  · have hdecode : (Toml.parse "check.exclude = ['[a']").bind Config.ofDocument? =
        some { files := { excluded := ["[a"] } } := by decide +kernel
    obtain ⟨fault, hparse, hfault⟩ := hrefused _ _ Language.all (.badPattern "[a" .unclosedClass)
      hdecode rfl
    rcases hfault with ⟨hnone, _⟩ | ⟨list, pattern, why, he, rfl⟩
    · cases hnone
    · obtain ⟨rfl, rfl⟩ := SearchError.badPattern.inj he
      exact ⟨list, hparse⟩
  · have hparse : Config.parse "check.exclude = ['[a]']" =
        .ok { files := { excluded := ["[a]"] } } := by decide +kernel
    obtain ⟨filter, hfilter, _⟩ := hreadable _ _ hparse
    exact ⟨_, filter, hparse, hfilter⟩

end Program

end DroppedResult
