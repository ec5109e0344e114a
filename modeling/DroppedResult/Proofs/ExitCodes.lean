import DroppedResult.Proofs.Patterns
import DroppedResult.Proofs.Runs

/-!
# Exit codes of a check

A check finds its configuration, searches the files, runs the rule over them and
reports.  Each stage can end it, and the exit code tells which one did.  The three
conditions here say what has to be the case in the file system for each code, without
the stages:

* `Program.ConfigRejected`: the configuration is malformed or unsound;
* `Program.CheckImpossible`: the configuration or the files cannot be read;
* `Program.ErrorFound`: a file has a finding, and findings are errors.

`check_of_find_error`, `check_of_search_error` and `check_of_files` say what is answered
when a check ends at each of its stages; no other proof looks into them.
`Program.check_exitCode` is the result.
-/

namespace DroppedResult

/-! ## What a run finds -/

/-- A file has violations when it has a text that the rule finds something in. -/
theorem ResultRule.violationsIn_ne_nil_iff {rule : ResultRule} {grammars : Grammars}
    {fs : FileSystem} {file : SourceFile} :
    rule.violationsIn grammars fs file ≠ [] ↔
      ∃ language text, file.language = some language ∧ fs.readText file.path = .ok text ∧
        rule.check (grammars language text) text ≠ [] := by
  unfold violationsIn
  split
  · rename_i language text hlanguage hread
    simp [hlanguage, hread, violations]
  · rename_i hnone
    simp only [ne_eq, not_true_eq_false, false_iff, not_exists, not_and]
    intro language text hlanguage hread
    exact absurd hread (hnone language text hlanguage)

/-- A run fails when the rule's findings are errors and some file has one. -/
theorem passed_runRules (grammars : Grammars) (fs : FileSystem) (rule : ResultRule)
    (files : List SourceFile) :
    (runRules grammars fs [rule.toLintRule] files).passed = false ↔
      rule.severity = .error ∧ ∃ file ∈ files, rule.violationsIn grammars fs file ≠ [] := by
  rw [runRules_eq]
  simp only [Outcome.passed, Bool.not_eq_false', List.any_eq_true, beq_iff_eq]
  constructor
  · rintro ⟨v, hv, hseverity⟩
    obtain ⟨file, hfile, hv⟩ := List.mem_flatMap.mp (List.mem_mergeSort.mp hv)
    rw [(ResultRule.of_mem_violationsIn hv).2] at hseverity
    exact ⟨hseverity, file, hfile, List.ne_nil_of_mem hv⟩
  · rintro ⟨hseverity, file, hfile, hne⟩
    obtain ⟨v, hv⟩ := List.exists_mem_of_ne_nil _ hne
    refine ⟨v, List.mem_mergeSort.mpr (List.mem_flatMap.mpr ⟨file, hfile, hv⟩), ?_⟩
    rw [(ResultRule.of_mem_violationsIn hv).2, hseverity]

namespace Program

/-! ## The stages -/

section

variable {env : Environment} {fs : FileSystem} {options : CheckOptions}

theorem check_of_find_error {e : ConfigError} (h : Config.find fs options.config = .error e) :
    check env fs options =
      { exitCode := ExitCode.ofCheckError (.config e)
        complaint := complain (CheckError.config e).message } := by
  rw [check, findViolations, h]
  rfl

theorem check_of_search_error {config : Config} {e : SearchError}
    (hfind : Config.find fs options.config = .ok config)
    (hfiles : selectFiles fs config options.roots = .error e) :
    check env fs options =
      { exitCode := ExitCode.failure
        complaint := complain (CheckError.search e).message } := by
  rw [check, findViolations, hfind]
  simp only [Except.mapError, bind, Except.bind, hfiles]
  rfl

theorem check_of_files {config : Config} {files : List SourceFile}
    (hfind : Config.find fs options.config = .ok config)
    (hfiles : selectFiles fs config options.roots = .ok files) :
    check env fs options =
      let outcome := runRules env.grammars fs [config.toRule.toLintRule] files
      { exitCode := if outcome.passed then ExitCode.success else ExitCode.violations
        output := report env.terminal config options.format options.color outcome } := by
  rw [check, findViolations, hfind]
  simp only [Except.mapError, bind, Except.bind, hfiles]

end

/-! ## The conditions -/

/-- The configuration is no configuration document, or does not validate. -/
def ConfigRejected (fs : FileSystem) (options : CheckOptions) : Prop :=
  Config.find fs options.config = .error .malformed ∨
    ∃ reason, Config.find fs options.config = .error (.unsound reason)

/-- The configuration cannot be read, or the search below a path meets an error. -/
def CheckImpossible (fs : FileSystem) (options : CheckOptions) : Prop :=
  (∃ reason, Config.find fs options.config = .error (.unreadable reason)) ∨
    ∃ config, Config.find fs options.config = .ok config ∧
      ∃ path ∈ options.roots, ∃ e, .error e ∈ fs.filesBelow (.ofText path)

/-- The files are discovered, findings are errors, and the text of a file has one. -/
def ErrorFound (grammars : Grammars) (fs : FileSystem) (options : CheckOptions) : Prop :=
  ∃ config files, Config.find fs options.config = .ok config ∧
    selectFiles fs config options.roots = .ok files ∧ config.rule.severity = .error ∧
    ∃ file ∈ files, ∃ language text, file.language = some language ∧
      fs.readText file.path = .ok text ∧
      config.toRule.check (grammars language text) text ≠ []

section

variable {env : Environment} {fs : FileSystem} {options : CheckOptions}

theorem check_of_configRejected (h : ConfigRejected fs options) :
    (check env fs options).exitCode = 3 ∧ (check env fs options).output = "" := by
  rcases h with h | ⟨reason, h⟩ <;> rw [check_of_find_error h] <;> exact ⟨rfl, rfl⟩

/-- The files cannot be selected when the search below some path meets an error. -/
theorem exists_selectFiles_error_iff_of_validate {config : Config}
    (hvalid : config.validate = .ok ()) {paths : List String} :
    (∃ e, selectFiles fs config paths = .error e) ↔
      ∃ path ∈ paths, ∃ e, .error e ∈ fs.filesBelow (.ofText path) := by
  simp only [exists_selectFiles_error_iff, error_mem_walkBelow_iff hvalid]

theorem check_of_checkImpossible (h : CheckImpossible fs options) :
    (check env fs options).exitCode = 2 ∧ (check env fs options).output = "" := by
  rcases h with ⟨reason, h⟩ | ⟨config, hfind, hpath⟩
  · rw [check_of_find_error h]
    exact ⟨rfl, rfl⟩
  · obtain ⟨e, he⟩ :=
      (exists_selectFiles_error_iff_of_validate (Config.validate_of_find hfind)).mpr hpath
    rw [check_of_search_error hfind he]
    exact ⟨rfl, rfl⟩

theorem exitCode_of_errorFound (h : ErrorFound env.grammars fs options) :
    (check env fs options).exitCode = 1 := by
  obtain ⟨config, files, hfind, hfiles, hseverity, file, hfile, htext⟩ := h
  have hfailed := (passed_runRules env.grammars fs config.toRule files).mpr
    ⟨hseverity, file, hfile, ResultRule.violationsIn_ne_nil_iff.mpr htext⟩
  rw [check_of_files hfind hfiles]
  simp only [hfailed]
  rfl

/-- Whatever is none of the three ends well. -/
theorem exitCode_of_none (hrejected : ¬ ConfigRejected fs options)
    (himpossible : ¬ CheckImpossible fs options) (hfound : ¬ ErrorFound env.grammars fs options) :
    (check env fs options).exitCode = 0 := by
  cases hfind : Config.find fs options.config with
  | error e =>
    cases e with
    | malformed => exact absurd (.inl hfind) hrejected
    | unsound reason => exact absurd (.inr ⟨reason, hfind⟩) hrejected
    | unreadable reason => exact absurd (.inl ⟨reason, hfind⟩) himpossible
  | ok config =>
    cases hfiles : selectFiles fs config options.roots with
    | error e =>
      have hpath :=
        (exists_selectFiles_error_iff_of_validate (Config.validate_of_find hfind)).mp ⟨e, hfiles⟩
      exact absurd (.inr ⟨config, hfind, hpath⟩) himpossible
    | ok files =>
      rw [check_of_files hfind hfiles]
      cases hpassed : (runRules env.grammars fs [config.toRule.toLintRule] files).passed with
      | true => simp [hpassed, ExitCode.success]
      | false =>
        obtain ⟨hseverity, file, hfile, hne⟩ := (passed_runRules ..).mp hpassed
        exact absurd ⟨config, files, hfind, hfiles, hseverity, file, hfile,
          ResultRule.violationsIn_ne_nil_iff.mp hne⟩ hfound

/-- The conditions lead to different codes, so each code tells its condition. -/
theorem exitCode_check_iff (env : Environment) (fs : FileSystem) (options : CheckOptions) :
    ((check env fs options).exitCode = 3 ↔ ConfigRejected fs options) ∧
      ((check env fs options).exitCode = 2 ↔ CheckImpossible fs options) ∧
      ((check env fs options).exitCode = 1 ↔ ErrorFound env.grammars fs options) ∧
      ((check env fs options).exitCode = 0 ↔ ¬ ConfigRejected fs options ∧
        ¬ CheckImpossible fs options ∧ ¬ ErrorFound env.grammars fs options) := by
  have hrejected : ConfigRejected fs options → (check env fs options).exitCode = 3 :=
    fun h => (check_of_configRejected h).1
  have himpossible : CheckImpossible fs options → (check env fs options).exitCode = 2 :=
    fun h => (check_of_checkImpossible h).1
  have hfound : ErrorFound env.grammars fs options → (check env fs options).exitCode = 1 :=
    exitCode_of_errorFound
  have hnone : ¬ ConfigRejected fs options → ¬ CheckImpossible fs options →
      ¬ ErrorFound env.grammars fs options → (check env fs options).exitCode = 0 :=
    exitCode_of_none
  by_cases hr : ConfigRejected fs options <;> by_cases hi : CheckImpossible fs options <;>
    by_cases hf : ErrorFound env.grammars fs options <;> grind

theorem output_check_of_failure
    (h : (check env fs options).exitCode = 2 ∨ (check env fs options).exitCode = 3) :
    (check env fs options).output = "" := by
  obtain ⟨hthree, htwo, _⟩ := exitCode_check_iff env fs options
  rcases h with hcode | hcode
  · exact (check_of_checkImpossible (htwo.mp hcode)).2
  · exact (check_of_configRejected (hthree.mp hcode)).2

end

end Program

end DroppedResult
