import DroppedResult.Config.Load

/-!
# Faults of configurations

Validation stops at the first fault that it meets.  `Config.faults` lists all faults of a
configuration, in the order of the checks and within a list in the order of its elements,
and `Config.Sound` says what a configuration without faults is like.

* Reporting.  `report` gives the first of some faults.  Checks that follow one another
  report the first of all their faults: `report_append`.
* Checks.  Each check reports the faults of its own kind, so that validation reports the
  first of all faults: `Config.validate_eq_report`.
* Sound configurations are those without faults: `Config.sound_iff`.

`Config.parse_iff_sound` is the result.
-/

namespace DroppedResult

/-! ## Reporting -/

/-- The outcome of checks that find the given faults: the first of them. -/
def report : List ConfigFault → Except ConfigFault Unit
  | [] => .ok ()
  | fault :: _ => .error fault

theorem report_append (first others : List ConfigFault) :
    report (first ++ others) = (report first).bind fun _ => report others := by
  cases first <;> rfl

theorem report_eq_ok_iff {faults : List ConfigFault} : report faults = .ok () ↔ faults = [] := by
  cases faults <;> simp [report]

theorem report_eq_error_iff {faults : List ConfigFault} {fault : ConfigFault} :
    report faults = .error fault ↔ faults.head? = some fault := by
  cases faults <;> simp [report]

/-! ## Identifiers -/

/-- A letter, an underscore or a dollar sign, and then as many of these and of numbers as
there are. -/
def IsIdentifier (name : String) : Prop :=
  ∃ first rest, name.toList = first :: rest ∧
    (isAlphabetic first = true ∨ first = '_' ∨ first = '$') ∧
    ∀ c ∈ rest, isAlphanumeric c = true ∨ c = '_' ∨ c = '$'

theorem isIdentifier_iff {name : String} : isIdentifier name = true ↔ IsIdentifier name := by
  rw [isIdentifier, IsIdentifier]
  cases name.toList with
  | nil => simp
  | cons first rest =>
    simp only [Bool.and_eq_true, List.all_eq_true, startsIdentifier, continuesIdentifier,
      Bool.or_eq_true, beq_iff_eq, or_assoc]
    constructor
    · rintro ⟨hfirst, hrest⟩
      exact ⟨first, rest, rfl, hfirst, hrest⟩
    · rintro ⟨_, _, heq, hfirst, hrest⟩
      obtain ⟨rfl, rfl⟩ := List.cons.inj heq
      exact ⟨hfirst, hrest⟩

instance (name : String) : Decidable (IsIdentifier name) :=
  decidable_of_iff _ isIdentifier_iff

namespace Config

/-! ## Checks -/

/-- What is wrong with a pattern of a list, if it cannot be read. -/
def patternFault? (list : PatternList) (pattern : String) : Option ConfigFault :=
  match Glob.parse pattern with
  | .ok _ => none
  | .error why => some (.badPattern list pattern why)

/-- All faults of a configuration, in the order of the checks. -/
def faults (c : Config) : List ConfigFault :=
  (if c.files.languages = [] then [.noLanguages] else []) ++
    c.files.included.filterMap (patternFault? .included) ++
    c.files.excluded.filterMap (patternFault? .excluded) ++
    (if c.rule.targetModule.toList.all isBlank then [.blankTargetModule] else []) ++
    (c.rule.exclusions.filter (¬ IsIdentifier ·)).map .notIdentifier

theorem checkPatterns_eq_report (list : PatternList) (patterns : List String) :
    checkPatterns list patterns = report (patterns.filterMap (patternFault? list)) := by
  induction patterns with
  | nil => rfl
  | cons pattern patterns ih =>
    rw [checkPatterns, List.filterMap_cons, patternFault?]
    cases Glob.parse pattern with
    | ok glob => exact ih
    | error why => rfl

/-- A check of one condition reports its fault, and otherwise the next checks run. -/
theorem guard_eq_report (p : Prop) [Decidable p] (fault : ConfigFault)
    (next : Unit → Except ConfigFault Unit) :
    (if p then (Except.error fault).bind next else next ()) =
      (report (if p then [fault] else [])).bind next := by
  split <;> rfl

theorem find?_eq_head?_filter (names : List String) :
    names.find? (!isIdentifier ·) = (names.filter (¬ IsIdentifier ·)).head? := by
  have hfilter : names.filter (¬ IsIdentifier ·) = names.filter (!isIdentifier ·) := by
    refine List.filter_congr fun name _ => ?_
    simp [← isIdentifier_iff]
  rw [hfilter, List.head?_filter]

/-- Validation reports the first fault. -/
theorem validate_eq_report (c : Config) : c.validate = report c.faults := by
  have hlanguages : c.files.languages.isEmpty = true ↔ c.files.languages = [] := List.isEmpty_iff
  simp only [faults, List.append_assoc, report_append, ← checkPatterns_eq_report]
  unfold validate
  simp only [bind, allBlank, hlanguages, guard_eq_report, find?_eq_head?_filter]
  cases c.rule.exclusions.filter (¬ IsIdentifier ·) <;> rfl

/-! ## Sound configurations -/

/-- What validation asks of a configuration. -/
structure Sound (c : Config) : Prop where
  languages : c.files.languages ≠ []
  included : ∀ pattern ∈ c.files.included, ∃ glob, Glob.parse pattern = .ok glob
  excluded : ∀ pattern ∈ c.files.excluded, ∃ glob, Glob.parse pattern = .ok glob
  targetModule : ∃ ch ∈ c.rule.targetModule.toList, isBlank ch = false
  exclusions : ∀ name ∈ c.rule.exclusions, IsIdentifier name

theorem patternFaults_eq_nil_iff (list : PatternList) (patterns : List String) :
    patterns.filterMap (patternFault? list) = [] ↔
      ∀ pattern ∈ patterns, ∃ glob, Glob.parse pattern = .ok glob := by
  rw [List.filterMap_eq_nil_iff]
  refine forall₂_congr fun pattern _ => ?_
  rw [patternFault?]
  cases Glob.parse pattern <;> simp

theorem sound_iff (c : Config) : c.Sound ↔ c.faults = [] := by
  have hblank : ¬ c.rule.targetModule.toList.all isBlank = true ↔
      ∃ ch ∈ c.rule.targetModule.toList, isBlank ch = false := by
    simp
  simp only [faults, List.append_eq_nil_iff, patternFaults_eq_nil_iff, List.map_eq_nil_iff,
    List.filter_eq_nil_iff, decide_eq_true_eq, Classical.not_not, ite_eq_right_iff,
    List.cons_ne_self, imp_false, hblank]
  constructor
  · intro h
    exact ⟨⟨⟨⟨h.languages, h.included⟩, h.excluded⟩, h.targetModule⟩, h.exclusions⟩
  · rintro ⟨⟨⟨⟨hlanguages, hincluded⟩, hexcluded⟩, htarget⟩, hexclusions⟩
    exact ⟨hlanguages, hincluded, hexcluded, htarget, hexclusions⟩

theorem validate_eq_ok_iff (c : Config) : c.validate = .ok () ↔ c.Sound := by
  rw [validate_eq_report, report_eq_ok_iff, sound_iff]

theorem validate_eq_error_iff (c : Config) (fault : ConfigFault) :
    c.validate = .error fault ↔ c.faults.head? = some fault := by
  rw [validate_eq_report, report_eq_error_iff]

/-! ## Texts -/

/-- The configuration that a text denotes, whether it is sound or not. -/
def decode? (text : String) : Option Config :=
  (Toml.parse text).bind ofDocument?

theorem parse_of_decode?_none {text : String} (h : decode? text = none) :
    parse text = .error .malformed := by
  rw [parse, ← decode?, h]

theorem parse_of_sound {text : String} {c : Config} (h : decode? text = some c)
    (hsound : c.Sound) : parse text = .ok c := by
  rw [parse, ← decode?, h]
  simp only [(validate_eq_ok_iff c).mpr hsound]

theorem parse_of_validate_error {text : String} {c : Config} {fault : ConfigFault}
    (h : decode? text = some c) (hfault : c.validate = .error fault) :
    parse text = .error (.unsound fault.message) := by
  rw [parse, ← decode?, h]
  simp only [hfault]

theorem parse_eq_ok_iff {text : String} {c : Config} :
    parse text = .ok c ↔ decode? text = some c ∧ c.Sound := by
  constructor
  · intro hparse
    cases hdecode : decode? text with
    | none =>
      rw [parse_of_decode?_none hdecode] at hparse
      cases hparse
    | some d =>
      cases hvalidate : d.validate with
      | ok =>
        have hsound : d.Sound := (validate_eq_ok_iff d).mp hvalidate
        rw [parse_of_sound hdecode hsound] at hparse
        obtain rfl := Except.ok.inj hparse
        exact ⟨rfl, hsound⟩
      | error fault =>
        rw [parse_of_validate_error hdecode hvalidate] at hparse
        cases hparse
  · rintro ⟨hdecode, hsound⟩
    exact parse_of_sound hdecode hsound

/-- A configuration validates when it is sound, and otherwise validation gives the first of
its faults.  A text parses when it denotes a sound configuration, to that configuration. -/
theorem parse_iff_sound :
    (∀ c : Config, c.validate = .ok () ↔ c.Sound) ∧
      (∀ (c : Config) (fault : ConfigFault),
        c.validate = .error fault ↔ c.faults.head? = some fault) ∧
      (∀ (text : String) (c : Config), parse text = .ok c ↔ decode? text = some c ∧ c.Sound) ∧
      (∀ (text : String) (c : Config) (fault : ConfigFault), decode? text = some c →
        c.faults.head? = some fault → parse text = .error (.unsound fault.message)) ∧
      ∀ text : String, decode? text = none → parse text = .error .malformed := by
  refine ⟨validate_eq_ok_iff, validate_eq_error_iff, ?_, ?_, ?_⟩
  · intro text c
    exact parse_eq_ok_iff
  · intro text c fault hdecode hfault
    exact parse_of_validate_error hdecode ((validate_eq_error_iff c fault).mpr hfault)
  · intro text hdecode
    exact parse_of_decode?_none hdecode

/-- A configuration with a fault of most kinds. -/
def faulty : Config where
  files := { excluded := ["a", "[b", "[c"] }
  rule := { targetModule := " \t", exclusions := ["$étéResult", "get-result"] }

/-- The pattern that is refused is the first unreadable one, before the target module and the
exclusions. -/
theorem parse_faulty :
    let text := "check.exclude = ['a', '[b', '[c']\n" ++
      "rule = \x7b target_module = ' \t', heuristic_exclude = ['$étéResult', 'get-result'] \x7d"
    let fault := ConfigFault.badPattern .excluded "[b" .unclosedClass
    decode? text = some faulty ∧ faulty.faults.length = 4 ∧ faulty.faults.head? = some fault ∧
      faulty.validate = .error fault ∧ ¬ faulty.Sound ∧
      parse text = .error (.unsound fault.message) := by
  intro text fault
  obtain ⟨hvalid, hfirst, _, hrefused, _⟩ := parse_iff_sound
  have hdecode : decode? text = some faulty := by decide +kernel
  have hfault : faulty.faults.head? = some fault := by decide +kernel
  have herror : faulty.validate = .error fault := (hfirst faulty fault).mpr hfault
  have hunsound : ¬ faulty.Sound := by
    intro hsound
    cases herror.symm.trans ((hvalid faulty).mpr hsound)
  exact ⟨hdecode, by decide +kernel, hfault, herror, hunsound,
    hrefused text faulty fault hdecode hfault⟩

end Config

end DroppedResult
