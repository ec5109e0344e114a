import DroppedResult.Config.Decode
import Mathlib.Data.List.Forall2
import Mathlib.Data.List.Perm.Basic
import Mathlib.Tactic.Choose

/-!
# Settings and their defaults

A document gives some settings of a configuration, and the others have their defaults.
There are two kinds of defaults: those of the settings, for a section that is given in part,
and those of the sections, for a section that is not given.

* Tables.  A table with distinct names may have its entries in any order.
* Values.  `Denotes` relations tell which values stand for a text, a truth value, a choice or a
  list of these, and the readers of values follow them.
* Settings.  `Config.Setting` lists the settings, each with its section, its name, the type
  of what it is set to and the values that set it.
* Documents.  What a document gives for a setting is `Setting.given?`.  A document whose
  sections are tables denotes the configuration that takes each setting from it, or else
  from the standard configuration: `Config.ofDocument?_eq_some_iff`.
* Other ways to write a document.  Two documents denote the same when they differ by the
  order of their entries, or by defaults that are written out in one of them.

`Config.settings_given_or_default` is the result.
-/

namespace DroppedResult

/-! ## Names -/

/-- Looking for a name among all members of a type with distinct names. -/
theorem find?_name_eq_some_iff {α : Type} {name : α → String} {all : List α}
    (hall : ∀ a, a ∈ all) (hname : Function.Injective name) {s : String} {a : α} :
    all.find? (name · == s) = some a ↔ name a = s := by
  constructor
  · intro h
    have hfound := List.find?_some h
    exact eq_of_beq hfound
  · rintro rfl
    cases hfind : all.find? (name · == name a) with
    | none => exact absurd (List.find?_eq_none.mp hfind a (hall a)) (by simp)
    | some b =>
      have hfound := List.find?_some hfind
      rw [hname (eq_of_beq hfound)]

theorem Language.ofName?_eq_some_iff {s : String} {l : Language} :
    ofName? s = some l ↔ l.name = s := by
  refine find?_name_eq_some_iff ?_ ?_
  · intro a
    cases a <;> decide
  · intro a b
    cases a <;> cases b <;> decide

theorem Severity.ofName?_eq_some_iff {s : String} {severity : Severity} :
    ofName? s = some severity ↔ severity.name = s := by
  refine find?_name_eq_some_iff ?_ ?_
  · intro a
    cases a <;> decide
  · intro a b
    cases a <;> cases b <;> decide

theorem ReportFormat.ofName?_eq_some_iff {s : String} {format : ReportFormat} :
    ofName? s = some format ↔ format.name = s := by
  refine find?_name_eq_some_iff ?_ ?_
  · intro a
    cases a <;> decide
  · intro a b
    cases a <;> cases b <;> decide

theorem ColorChoice.ofName?_eq_some_iff {s : String} {color : ColorChoice} :
    ofName? s = some color ↔ color.name = s := by
  refine find?_name_eq_some_iff ?_ ?_
  · intro a
    cases a <;> decide
  · intro a b
    cases a <;> cases b <;> decide

/-! ## Tables -/

namespace Toml.Table

theorem get?_cons (name : String) (v : Value) (entries : Table) (other : String) :
    Table.get? ((name, v) :: entries) other =
      if other = name then some v else entries.get? other := by
  by_cases hname : other = name
  · simp [Table.get?, hname]
  · rw [Table.get?, List.lookup_cons, beq_eq_false_iff_ne.mpr hname, if_neg hname]
    rfl

/-- In a table with distinct names the order of the entries does not matter. -/
theorem get?_perm {entries other : Table} (h : entries.Perm other)
    (hnodup : (entries.map Prod.fst).Nodup) (name : String) :
    entries.get? name = other.get? name := by
  induction h with
  | nil => rfl
  | cons entry _ ih =>
    rw [get?_cons, get?_cons, ih (List.nodup_cons.mp hnodup).2]
  | swap first second rest =>
    have hne : second.1 ≠ first.1 := fun heq => (List.nodup_cons.mp hnodup).1 (by simp [heq])
    rw [get?_cons, get?_cons, get?_cons, get?_cons]
    grind
  | trans hleft _ ihleft ihright =>
    exact (ihleft hnodup).trans (ihright ((hleft.map Prod.fst).nodup_iff.mp hnodup))

end Toml.Table

namespace Config

open Toml

/-! ## Values -/

/-- The value is a text. -/
def DenotesText (v : Value) (text : String) : Prop :=
  v = .string text

/-- The value is a truth value. -/
def DenotesTruth (v : Value) (truth : Bool) : Prop :=
  v = .boolean truth

/-- The value makes a choice: it is its name, or a table with the name only and nothing
under it. -/
inductive DenotesChoice {α : Type} (name : α → String) : Value → α → Prop where
  | text (a : α) : DenotesChoice name (.string (name a)) a
  | emptyTable (a : α) : DenotesChoice name (.table [(name a, .table [])]) a
  | emptyArray (a : α) : DenotesChoice name (.table [(name a, .array [])]) a

/-- The value is an array whose items denote the members of the list in turn. -/
def DenotesList {α : Type} (denotes : Value → α → Prop) (v : Value) (members : List α) : Prop :=
  ∃ items, v = .array items ∧ List.Forall₂ denotes items members

theorem text?_eq_some_iff {v : Value} {text : String} :
    text? v = some text ↔ DenotesText v text := by
  cases v <;> simp [text?, DenotesText]

theorem truth?_eq_some_iff {v : Value} {truth : Bool} :
    truth? v = some truth ↔ DenotesTruth v truth := by
  cases v <;> simp [truth?, DenotesTruth]

theorem isHollow_iff {v : Value} : isHollow v = true ↔ v = .table [] ∨ v = .array [] := by
  cases v <;> simp [isHollow]

theorem choice?_eq_some_iff {α : Type} {name : α → String} {ofName? : String → Option α}
    (hname : ∀ s a, ofName? s = some a ↔ name a = s) {v : Value} {a : α} :
    choice? ofName? v = some a ↔ DenotesChoice name v a := by
  constructor
  · intro h
    unfold choice? at h
    split at h
    · rw [← (hname _ _).mp h]
      exact .text a
    · split at h
      · rename_i hhollow
        rw [← (hname _ _).mp h]
        rcases isHollow_iff.mp hhollow with rfl | rfl
        · exact .emptyTable a
        · exact .emptyArray a
      · cases h
    · cases h
  · rintro (_ | _ | _)
    · exact (hname _ _).mpr rfl
    · exact (hname _ _).mpr rfl
    · exact (hname _ _).mpr rfl

theorem mapM_eq_some_iff {α β : Type} {read : α → Option β} {as : List α} {bs : List β} :
    as.mapM read = some bs ↔ List.Forall₂ (read · = some ·) as bs := by
  induction as generalizing bs with
  | nil => simp [eq_comm]
  | cons a as ih =>
    rw [List.mapM_cons]
    cases bs with
    | nil => cases read a <;> cases as.mapM read <;> simp
    | cons b bs =>
      rw [List.forall₂_cons, ← ih]
      cases read a <;> cases as.mapM read <;> simp

theorem list?_eq_some_iff {α : Type} {read : Value → Option α} {denotes : Value → α → Prop}
    (hread : ∀ v a, read v = some a ↔ denotes v a) {v : Value} {members : List α} :
    list? read v = some members ↔ DenotesList denotes v members := by
  obtain rfl : (fun v a => read v = some a) = denotes := by
    funext v a
    exact propext (hread v a)
  cases v with
  | array items => simp [list?, DenotesList, mapM_eq_some_iff]
  | string _ | integer _ | float _ | boolean _ | dateTime _ | table _ =>
    simp [list?, DenotesList]

/-! ## Settings -/

/-- The settings of a configuration. -/
inductive Setting where
  | languages
  | included
  | excluded
  | targetModule
  | severity
  | heuristic
  | exclusions
  | format
  | color
  deriving DecidableEq

namespace Setting

/-- The section that the setting belongs to. -/
def sectionName : Setting → String
  | languages | included | excluded => "check"
  | targetModule | severity | heuristic | exclusions => "rule"
  | format | color => "output"

/-- The name of the setting in its section. -/
def name : Setting → String
  | languages => "languages"
  | included => "include"
  | excluded => "exclude"
  | targetModule => "target_module"
  | severity => "severity"
  | heuristic => "heuristic"
  | exclusions => "heuristic_exclude"
  | format => "format"
  | color => "color"

/-- What the setting can be set to. -/
abbrev Domain : Setting → Type
  | languages => List Language
  | included | excluded | exclusions => List String
  | targetModule => String
  | severity => Severity
  | heuristic => Bool
  | format => ReportFormat
  | color => ColorChoice

/-- What the setting is in a configuration. -/
def get : (k : Setting) → Config → k.Domain
  | languages, c => c.files.languages
  | included, c => c.files.included
  | excluded, c => c.files.excluded
  | targetModule, c => c.rule.targetModule
  | severity, c => c.rule.severity
  | heuristic, c => c.rule.heuristic
  | exclusions, c => c.rule.exclusions
  | format, c => c.output.format
  | color, c => c.output.color

/-- The values that the setting has in a document, with what they set it to. -/
def Denotes : (k : Setting) → Value → k.Domain → Prop
  | languages => DenotesList (DenotesChoice Language.name)
  | included | excluded | exclusions => DenotesList DenotesText
  | targetModule => DenotesText
  | severity => DenotesChoice Severity.name
  | heuristic => DenotesTruth
  | format => DenotesChoice ReportFormat.name
  | color => DenotesChoice ColorChoice.name

/-- The reader of the setting's values. -/
def read : (k : Setting) → Value → Option k.Domain
  | languages => list? (choice? Language.ofName?)
  | included | excluded | exclusions => list? text?
  | targetModule => text?
  | severity => choice? Severity.ofName?
  | heuristic => truth?
  | format => choice? ReportFormat.ofName?
  | color => choice? ColorChoice.ofName?

theorem read_eq_some_iff {k : Setting} {v : Value} {a : k.Domain} :
    k.read v = some a ↔ k.Denotes v a := by
  cases k with
  | languages =>
    exact list?_eq_some_iff fun _ _ => choice?_eq_some_iff fun _ _ => Language.ofName?_eq_some_iff
  | included | excluded | exclusions => exact list?_eq_some_iff fun _ _ => text?_eq_some_iff
  | targetModule => exact text?_eq_some_iff
  | severity => exact choice?_eq_some_iff fun _ _ => Severity.ofName?_eq_some_iff
  | heuristic => exact truth?_eq_some_iff
  | format => exact choice?_eq_some_iff fun _ _ => ReportFormat.ofName?_eq_some_iff
  | color => exact choice?_eq_some_iff fun _ _ => ColorChoice.ofName?_eq_some_iff

end Setting

/-! ## Documents -/

/-- The entries of a section of a document, none if the section is not given. -/
def sectionEntries (document : Table) (name : String) : Table :=
  match document.get? name with
  | some (.table entries) => entries
  | _ => []

namespace Setting

/-- What a document gives for the setting. -/
def given? (k : Setting) (document : Table) : Option Value :=
  (sectionEntries document k.sectionName).get? k.name

/-- The setting is as it is given, or else as it is in the standard configuration. -/
def Takes (k : Setting) : Option Value → k.Domain → Prop
  | some v, a => k.Denotes v a
  | none, a => a = k.get standard

theorem setting_eq_some_iff (k : Setting) (entries : Table) (place : Nat) (a : k.Domain) :
    setting (fun _ name => entries.get? name) place k.name (k.get standard) k.read = some a ↔
      k.Takes (entries.get? k.name) a := by
  rw [setting]
  cases entries.get? k.name with
  | none => simp [Takes, eq_comm]
  | some v => exact read_eq_some_iff

end Setting

/-- The sections of the document are tables, as far as they are given. -/
def TableSections (document : Table) : Prop :=
  ∀ (k : Setting) (v : Value), document.get? k.sectionName = some v → ∃ entries, v = .table entries

/-- What the document gives for a setting has the type of the setting. -/
def WellTyped (document : Table) : Prop :=
  ∀ (k : Setting) (v : Value), k.given? document = some v → ∃ a, k.Denotes v a

/-- A section that is not given is like one that is given without entries, when the defaults
of the section are those of its settings. -/
theorem sectionOf_eq {α : Type} {document : Table} {name : String} {default : α}
    {read : Section → Option α}
    (htable : ∀ v, document.get? name = some v → ∃ entries, v = .table entries)
    (hdefault : read (fun _ _ => none) = some default) :
    sectionOf document name default read =
      read fun _ setting => (sectionEntries document name).get? setting := by
  rw [sectionOf, sectionEntries]
  cases hget : document.get? name with
  | none => exact hdefault.symm
  | some v =>
    obtain ⟨entries, rfl⟩ := htable v hget
    rfl

theorem fileSettings?_eq_some_iff {entries : Table} {settings : FileSettings} :
    fileSettings? (fun _ name => entries.get? name) = some settings ↔
      Setting.languages.Takes (entries.get? "languages") settings.languages ∧
        Setting.included.Takes (entries.get? "include") settings.included ∧
        Setting.excluded.Takes (entries.get? "exclude") settings.excluded := by
  constructor
  · intro h
    simp only [fileSettings?, bind, Option.bind_eq_some_iff] at h
    obtain ⟨_, hlanguages, _, hincluded, _, hexcluded, heq⟩ := h
    obtain rfl := Option.some.inj heq
    exact ⟨(Setting.languages.setting_eq_some_iff entries 0 _).mp hlanguages,
      (Setting.included.setting_eq_some_iff entries 1 _).mp hincluded,
      (Setting.excluded.setting_eq_some_iff entries 2 _).mp hexcluded⟩
  · rintro ⟨hlanguages, hincluded, hexcluded⟩
    simp only [fileSettings?, bind, Option.bind_eq_some_iff]
    exact ⟨_, (Setting.languages.setting_eq_some_iff entries 0 _).mpr hlanguages,
      _, (Setting.included.setting_eq_some_iff entries 1 _).mpr hincluded,
      _, (Setting.excluded.setting_eq_some_iff entries 2 _).mpr hexcluded, rfl⟩

theorem ruleSettings?_eq_some_iff {entries : Table} {settings : RuleSettings} :
    ruleSettings? (fun _ name => entries.get? name) = some settings ↔
      Setting.targetModule.Takes (entries.get? "target_module") settings.targetModule ∧
        Setting.severity.Takes (entries.get? "severity") settings.severity ∧
        Setting.heuristic.Takes (entries.get? "heuristic") settings.heuristic ∧
        Setting.exclusions.Takes (entries.get? "heuristic_exclude") settings.exclusions := by
  constructor
  · intro h
    simp only [ruleSettings?, bind, Option.bind_eq_some_iff] at h
    obtain ⟨_, htarget, _, hseverity, _, hheuristic, _, hexclusions, heq⟩ := h
    obtain rfl := Option.some.inj heq
    exact ⟨(Setting.targetModule.setting_eq_some_iff entries 0 _).mp htarget,
      (Setting.severity.setting_eq_some_iff entries 1 _).mp hseverity,
      (Setting.heuristic.setting_eq_some_iff entries 2 _).mp hheuristic,
      (Setting.exclusions.setting_eq_some_iff entries 3 _).mp hexclusions⟩
  · rintro ⟨htarget, hseverity, hheuristic, hexclusions⟩
    simp only [ruleSettings?, bind, Option.bind_eq_some_iff]
    exact ⟨_, (Setting.targetModule.setting_eq_some_iff entries 0 _).mpr htarget,
      _, (Setting.severity.setting_eq_some_iff entries 1 _).mpr hseverity,
      _, (Setting.heuristic.setting_eq_some_iff entries 2 _).mpr hheuristic,
      _, (Setting.exclusions.setting_eq_some_iff entries 3 _).mpr hexclusions, rfl⟩

theorem outputSettings?_eq_some_iff {entries : Table} {settings : OutputSettings} :
    outputSettings? (fun _ name => entries.get? name) = some settings ↔
      Setting.format.Takes (entries.get? "format") settings.format ∧
        Setting.color.Takes (entries.get? "color") settings.color := by
  constructor
  · intro h
    simp only [outputSettings?, bind, Option.bind_eq_some_iff] at h
    obtain ⟨_, hformat, _, hcolor, heq⟩ := h
    obtain rfl := Option.some.inj heq
    exact ⟨(Setting.format.setting_eq_some_iff entries 0 _).mp hformat,
      (Setting.color.setting_eq_some_iff entries 1 _).mp hcolor⟩
  · rintro ⟨hformat, hcolor⟩
    simp only [outputSettings?, bind, Option.bind_eq_some_iff]
    exact ⟨_, (Setting.format.setting_eq_some_iff entries 0 _).mpr hformat,
      _, (Setting.color.setting_eq_some_iff entries 1 _).mpr hcolor, rfl⟩

/-- A document denotes a configuration when every setting is as given, or else as in the
standard configuration. -/
theorem ofDocument?_eq_some_iff {document : Table} (h : TableSections document) {c : Config} :
    ofDocument? document = some c ↔ ∀ k : Setting, k.Takes (k.given? document) (k.get c) := by
  -- where the section is missing its own defaults apply; they are those of its settings
  have hfiles : sectionOf document "check" {} fileSettings? = _ := sectionOf_eq (h .languages) rfl
  have hrule : sectionOf document "rule" {} ruleSettings? = _ := sectionOf_eq (h .severity) rfl
  have houtput : sectionOf document "output" {} outputSettings? = _ := sectionOf_eq (h .color) rfl
  simp only [ofDocument?, hfiles, hrule, houtput, bind, Option.bind_eq_some_iff,
    fileSettings?_eq_some_iff, ruleSettings?_eq_some_iff, outputSettings?_eq_some_iff]
  constructor
  · rintro ⟨_, ⟨hlanguages, hincluded, hexcluded⟩, _,
      ⟨htarget, hseverity, hheuristic, hexclusions⟩, _, ⟨hformat, hcolor⟩, heq⟩ k
    obtain rfl := Option.some.inj heq
    cases k with
    | languages => exact hlanguages
    | included => exact hincluded
    | excluded => exact hexcluded
    | targetModule => exact htarget
    | severity => exact hseverity
    | heuristic => exact hheuristic
    | exclusions => exact hexclusions
    | format => exact hformat
    | color => exact hcolor
  · intro htakes
    exact ⟨c.files, ⟨htakes .languages, htakes .included, htakes .excluded⟩,
      c.rule, ⟨htakes .targetModule, htakes .severity, htakes .heuristic, htakes .exclusions⟩,
      c.output, ⟨htakes .format, htakes .color⟩, rfl⟩

/-- A configuration with the given settings. -/
def ofSettings (settings : (k : Setting) → k.Domain) : Config where
  files := ⟨settings .languages, settings .included, settings .excluded⟩
  rule := ⟨settings .targetModule, settings .severity, settings .heuristic, settings .exclusions⟩
  output := ⟨settings .format, settings .color⟩

theorem get_ofSettings (settings : (k : Setting) → k.Domain) (k : Setting) :
    k.get (ofSettings settings) = settings k := by
  cases k <;> rfl

theorem exists_ofDocument? {document : Table} (h : TableSections document)
    (htyped : WellTyped document) : ∃ c, ofDocument? document = some c := by
  have htakes (k : Setting) : ∃ a, k.Takes (k.given? document) a := by
    cases hgiven : k.given? document with
    | none => exact ⟨k.get standard, rfl⟩
    | some v => exact htyped k v hgiven
  choose settings hsettings using htakes
  refine ⟨ofSettings settings, (ofDocument?_eq_some_iff h).mpr fun k => ?_⟩
  rw [get_ofSettings]
  exact hsettings k

/-! ## Other ways to write a document -/

/-- Documents from which all settings are taken alike denote the same. -/
theorem ofDocument?_congr {document other : Table} (h : TableSections document)
    (hother : TableSections other)
    (hsame : ∀ (k : Setting) (a : k.Domain),
      k.Takes (k.given? document) a ↔ k.Takes (k.given? other) a) :
    ofDocument? document = ofDocument? other := by
  refine Option.ext fun c => ?_
  rw [ofDocument?_eq_some_iff h, ofDocument?_eq_some_iff hother]
  exact forall_congr' fun k => hsame k (k.get c)

theorem TableSections.cons {document : Table} (h : TableSections document) (name : String)
    (entries : Table) : TableSections ((name, .table entries) :: document) := by
  intro k v hv
  rw [Table.get?_cons] at hv
  split at hv
  · exact ⟨entries, (Option.some.inj hv).symm⟩
  · exact h k v hv

theorem Setting.given?_cons (k : Setting) (name : String) (entries document : Table) :
    k.given? ((name, .table entries) :: document) =
      if k.sectionName = name then entries.get? k.name else k.given? document := by
  by_cases hname : k.sectionName = name
  · rw [given?, sectionEntries, Table.get?_cons, if_pos hname, if_pos hname]
  · rw [given?, sectionEntries, Table.get?_cons, if_neg hname, if_neg hname]
    rfl

/-- Two ways to write a section denote the same when all its settings are taken alike. -/
theorem ofDocument?_section_congr {document : Table} (h : TableSections document) {name : String}
    {entries other : Table}
    (hsame : ∀ k : Setting, k.sectionName = name → ∀ a : k.Domain,
      k.Takes (entries.get? k.name) a ↔ k.Takes (other.get? k.name) a) :
    ofDocument? ((name, .table entries) :: document) =
      ofDocument? ((name, .table other) :: document) := by
  refine ofDocument?_congr (h.cons name entries) (h.cons name other) fun k a => ?_
  rw [k.given?_cons, k.given?_cons]
  split
  · exact hsame k ‹_› a
  · rfl

/-- A section without entries is like one that is not given. -/
theorem ofDocument?_emptySection {document : Table} (h : TableSections document) {name : String}
    (habsent : document.get? name = none) :
    ofDocument? ((name, .table []) :: document) = ofDocument? document := by
  refine ofDocument?_congr (h.cons name []) h fun k a => ?_
  rw [k.given?_cons]
  split
  · rename_i hname
    rw [Setting.given?, sectionEntries, hname, habsent]
  · rfl

/-- What is given sets a setting to one thing only. -/
theorem Setting.Takes.unique {k : Setting} {given : Option Value} {a b : k.Domain}
    (ha : k.Takes given a) (hb : k.Takes given b) : a = b := by
  cases given with
  | none => exact ha.trans hb.symm
  | some v =>
    rw [Takes, ← read_eq_some_iff] at ha hb
    exact Option.some.inj (ha.symm.trans hb)

/-- Defaults may be written out where nothing is given. -/
theorem ofDocument?_writtenOut {document : Table} (h : TableSections document) {name : String}
    {entries defaults : Table}
    (hdefaults : ∀ k : Setting, k.sectionName = name → entries.get? k.name = none →
      k.Takes (defaults.get? k.name) (k.get standard)) :
    ofDocument? ((name, .table (entries ++ defaults)) :: document) =
      ofDocument? ((name, .table entries) :: document) := by
  refine ofDocument?_section_congr h fun k hname a => ?_
  rw [Table.get?, List.lookup_append, ← Table.get?, ← Table.get?]
  cases hget : entries.get? k.name with
  | some v => rfl
  | none =>
    have hdefault := hdefaults k hname hget
    constructor
    · intro ha
      exact ha.unique hdefault
    · rintro rfl
      exact hdefault

/-- The order of the sections does not matter. -/
theorem ofDocument?_perm {document other : Table} (h : TableSections document)
    (hnodup : (document.map Prod.fst).Nodup) (hperm : document.Perm other) :
    ofDocument? document = ofDocument? other := by
  have hget := Table.get?_perm hperm hnodup
  refine ofDocument?_congr h (fun k v hv => h k v ((hget _).trans hv)) fun k a => ?_
  rw [Setting.given?, Setting.given?, sectionEntries, sectionEntries, hget]

/-- A document whose sections are tables, and whose settings are well typed, denotes a
configuration, in which each setting is as it is given or else as it is in the standard
configuration.  The configuration remains the same when an empty section is added, when
a section is written out with defaults at missing names, and when the entries of a
section or those of the document are put in another order. -/
theorem settings_given_or_default {document : Table} (h : TableSections document) :
    (WellTyped document →
      ∃ c, ofDocument? document = some c ∧
        ∀ k : Setting, k.Takes (k.given? document) (k.get c)) ∧
      (∀ name, document.get? name = none →
        ofDocument? ((name, .table []) :: document) = ofDocument? document) ∧
      (∀ name (entries defaults : Table),
        (∀ k : Setting, k.sectionName = name → entries.get? k.name = none →
          k.Takes (defaults.get? k.name) (k.get standard)) →
        ofDocument? ((name, .table (entries ++ defaults)) :: document) =
          ofDocument? ((name, .table entries) :: document)) ∧
      (∀ name (entries other : Table), (entries.map Prod.fst).Nodup → entries.Perm other →
        ofDocument? ((name, .table entries) :: document) =
          ofDocument? ((name, .table other) :: document)) ∧
      (∀ other : Table, (document.map Prod.fst).Nodup → document.Perm other →
        ofDocument? document = ofDocument? other) := by
  refine ⟨fun htyped => ?_, fun _ habsent => ofDocument?_emptySection h habsent,
    fun _ _ _ hdefaults => ofDocument?_writtenOut h hdefaults,
    fun _ _ _ hnodup hperm => ?_, fun _ hnodup hperm => ofDocument?_perm h hnodup hperm⟩
  · obtain ⟨c, hc⟩ := exists_ofDocument? h htyped
    exact ⟨c, hc, (ofDocument?_eq_some_iff h).mp hc⟩
  · refine ofDocument?_section_congr h fun k _ a => ?_
    rw [Table.get?_perm hperm hnodup]

/-- A document with one section in part, one that is empty, and entries that are not known. -/
def partialDocument : Table :=
  [("rule", .table [("strict", .integer 3), ("severity", .table [("warning", .table [])])]),
    ("output", .table []),
    ("owner", .string "tools")]

theorem settings_partialDocument :
    TableSections partialDocument ∧ WellTyped partialDocument ∧
      (∃ c, ofDocument? partialDocument = some c ∧ c.rule.severity = .warning ∧
        c.rule.targetModule = standard.rule.targetModule ∧ c.files.included = ["**/*"]) ∧
      ofDocument? (("check", .table []) :: partialDocument) = ofDocument? partialDocument ∧
      ofDocument?
          (("check", .table ([] ++ [("include", .array [.string "**/*"])])) :: partialDocument) =
        ofDocument? (("check", .table []) :: partialDocument) ∧
      ofDocument? partialDocument = ofDocument? partialDocument.reverse := by
  have htable : TableSections partialDocument := by
    intro k v hv
    cases k with
    | languages | included | excluded => cases hv
    | targetModule | severity | heuristic | exclusions | format | color =>
      exact ⟨_, (Option.some.inj hv).symm⟩
  have hwarning : DenotesChoice Severity.name (.table [("warning", .table [])]) .warning :=
    .emptyTable Severity.warning
  have htyped : WellTyped partialDocument := by
    intro k v hv
    cases k with
    | severity =>
      obtain rfl := Option.some.inj hv
      exact ⟨.warning, hwarning⟩
    | languages | included | excluded | targetModule | heuristic | exclusions | format | color =>
      cases hv
  obtain ⟨hdecoded, hempty, hwritten, _, horder⟩ := settings_given_or_default htable
  obtain ⟨c, hc, hsettings⟩ := hdecoded htyped
  refine ⟨htable, htyped, ⟨c, hc, ?_, hsettings .targetModule, hsettings .included⟩,
    hempty "check" rfl, hwritten "check" [] _ ?_, horder _ (by decide) ?_⟩
  · exact (hsettings .severity).unique hwarning
  · intro k hname _
    cases k with
    | included => exact ⟨_, rfl, .cons rfl .nil⟩
    | languages | excluded => rfl
    | targetModule | severity | heuristic | exclusions | format | color =>
      exact absurd hname (by decide)
  · exact (List.reverse_perm _).symm

end Config

end DroppedResult
