import DroppedResult.Text.Numeric

/-!
# Rule identifiers

A rule identifier is a non-empty text of alphanumeric characters, hyphens and
underscores.
-/

namespace DroppedResult

namespace RuleId

def allows (c : Char) : Bool :=
  isAlphanumeric c || c == '-' || c == '_'

def isValid (s : String) : Bool :=
  !s.toList.isEmpty && s.toList.all allows

end RuleId

structure RuleId where
  text : String
  valid : RuleId.isValid text = true

namespace RuleId

instance : DecidableEq RuleId := fun a b =>
  if h : a.text = b.text then
    .isTrue (by cases a; cases b; subst h; rfl)
  else
    .isFalse fun e => h (congrArg text e)

def ofText? (s : String) : Option RuleId :=
  if h : isValid s = true then some ⟨s, h⟩ else none

/-- What is said of a text that is no identifier. -/
def refusal : String :=
  "Invalid rule ID"

end RuleId

end DroppedResult
