import DroppedResult.Config.Basic
import DroppedResult.Toml.Value

/-!
# Configurations from documents

A section is a table of settings by name, or an array of settings by place; what
is not known is passed over.  A setting that its section does not give has a default
of its own, and a section that is not given has the defaults of its structure.  A choice
is a text, or a table whose only name is the choice, with nothing under it.

The decoders give nothing when a setting has the wrong type.
-/

namespace DroppedResult

namespace Config

open Toml

/-- The settings of a section: what is given for a place and a name. -/
abbrev Section := Nat → String → Option Value

/-- A section as it is written.  A point in time gives no settings. -/
def section? : Value → Option Section
  | .table entries => some fun _ name => Table.get? entries name
  | .array items => some fun place _ => items[place]?
  | .dateTime _ => some fun _ _ => none
  | .string _ | .integer _ | .float _ | .boolean _ => none

/-- A setting of a section, or its default. -/
def setting {α : Type} (s : Section) (place : Nat) (name : String) (default : α)
    (read : Value → Option α) : Option α :=
  match s place name with
  | none => some default
  | some v => read v

def text? : Value → Option String
  | .string text => some text
  | _ => none

def truth? : Value → Option Bool
  | .boolean truth => some truth
  | _ => none

def list? {α : Type} (read : Value → Option α) : Value → Option (List α)
  | .array items => items.mapM read
  | _ => none

/-- The value has nothing in it. -/
def isHollow : Value → Bool
  | .table entries => entries.isEmpty
  | .array items => items.isEmpty
  | _ => false

/-- A choice, by its name. -/
def choice? {α : Type} (ofName? : String → Option α) : Value → Option α
  | .string name => ofName? name
  | .table [(name, v)] => if isHollow v then ofName? name else none
  | _ => none

def fileSettings? (s : Section) : Option FileSettings := do
  some {
    languages := ← setting s 0 "languages" Language.all (list? (choice? Language.ofName?))
    included := ← setting s 1 "include" ["**/*"] (list? text?)
    excluded := ← setting s 2 "exclude" [] (list? text?) }

def ruleSettings? (s : Section) : Option RuleSettings := do
  some {
    targetModule := ← setting s 0 "target_module" ResultRule.standard.targetModule text?
    severity := ← setting s 1 "severity" Severity.standard (choice? Severity.ofName?)
    heuristic := ← setting s 2 "heuristic" true truth?
    exclusions := ← setting s 3 "heuristic_exclude" [] (list? text?) }

def outputSettings? (s : Section) : Option OutputSettings := do
  some {
    format := ← setting s 0 "format" ReportFormat.standard (choice? ReportFormat.ofName?)
    color := ← setting s 1 "color" ColorChoice.standard (choice? ColorChoice.ofName?) }

/-- A section of a document, or its defaults. -/
def sectionOf {α : Type} (document : Table) (name : String) (default : α)
    (read : Section → Option α) : Option α :=
  match document.get? name with
  | none => some default
  | some v => (section? v).bind read

/-- The configuration that a document denotes. -/
def ofDocument? (document : Table) : Option Config := do
  some {
    files := ← sectionOf document "check" {} fileSettings?
    rule := ← sectionOf document "rule" {} ruleSettings?
    output := ← sectionOf document "output" {} outputSettings? }

end Config

end DroppedResult
