import DroppedResult.Config.Basic
import DroppedResult.Glob.Basic
import DroppedResult.Text.Blank

/-!
# Validation

A configuration is sound when it names a language, its patterns can be read, its
target module is not blank, and the names that it excludes are identifiers.
`Config.validate` reports the first fault in this order.
-/

namespace DroppedResult

/-- The lists of patterns in a configuration. -/
inductive PatternList where
  | included
  | excluded
  deriving DecidableEq

namespace PatternList

def name : PatternList → String
  | included => "include"
  | excluded => "exclude"

end PatternList

/-- What makes a configuration unsound. -/
inductive ConfigFault where
  | noLanguages
  | badPattern (list : PatternList) (pattern : String) (fault : Glob.Fault)
  | blankTargetModule
  | notIdentifier (name : String)
  deriving DecidableEq

namespace ConfigFault

def message : ConfigFault → String
  | noLanguages => "No languages configured. Add at least one entry to check.languages."
  | badPattern list pattern fault =>
    "Invalid " ++ list.name ++ " glob pattern '" ++ pattern ++ "': " ++
      Glob.faultMessage pattern fault
  | blankTargetModule => "rule.target_module must not be empty"
  | notIdentifier name => "rule.heuristic_exclude entry '" ++ name ++ "' is not an identifier"

end ConfigFault

/-- The character may stand first in an identifier. -/
def startsIdentifier (c : Char) : Bool :=
  isAlphabetic c || c == '_' || c == '$'

/-- The character may stand in an identifier after the first place. -/
def continuesIdentifier (c : Char) : Bool :=
  isAlphanumeric c || c == '_' || c == '$'

def isIdentifier (name : String) : Bool :=
  match name.toList with
  | [] => false
  | c :: rest => startsIdentifier c && rest.all continuesIdentifier

namespace Config

def checkPatterns (list : PatternList) : List String → Except ConfigFault Unit
  | [] => .ok ()
  | pattern :: rest =>
    match Glob.parse pattern with
    | .ok _ => checkPatterns list rest
    | .error fault => .error (.badPattern list pattern fault)

/-- The first fault of a configuration, if it has one. -/
def validate (c : Config) : Except ConfigFault Unit := do
  if c.files.languages.isEmpty then .error .noLanguages
  checkPatterns .included c.files.included
  checkPatterns .excluded c.files.excluded
  if allBlank c.rule.targetModule then .error .blankTargetModule
  match c.rule.exclusions.find? (!isIdentifier ·) with
  | some name => .error (.notIdentifier name)
  | none => .ok ()

end Config

end DroppedResult
