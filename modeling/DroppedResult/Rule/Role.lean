import DroppedResult.Rule.Imports

/-!
# Roles of calls

There is no type checker, so what a call does with Results is read off its name
and off the imports of its unit.  `Heuristic.role` gives a node its role; the
roles for which `Role.isProducing` holds create a Result that has to be handled.

A factory counts only when its name is bound in the import table.  An identifier
that is no factory and has "result" in its name is taken to produce a Result,
unless it is excluded.
-/

namespace DroppedResult

inductive Role where
  /-- `new Ok(...)` or `new Err(...)`. -/
  | constructorCall
  /-- A call of an imported factory. -/
  | factoryCall
  /-- A call of an identifier that has "result" in its name. -/
  | heuristicCall
  /-- A method that discharges the duty to handle a Result. -/
  | handlingMethod
  /-- A method whose value has to be handled in turn. -/
  | transformingMethod
  | other
  deriving DecidableEq

namespace Role

def isProducing : Role → Bool
  | constructorCall | factoryCall | heuristicCall => true
  | handlingMethod | transformingMethod | other => false

end Role

def constructorNames : List String :=
  ["Ok", "Err"]

def factoryNames : List String :=
  ["ok", "err", "okAsync", "errAsync"]

def handlingMethods : List String :=
  ["match", "unwrapOr", "_unsafeUnwrap"]

def transformingMethods : List String :=
  ["map", "mapErr", "andThen", "orElse", "asyncAndThen", "asyncMap", "isOk", "isErr"]

/-- The role of a member access whose property has the given text. -/
def methodRole : Option String → Role
  | none => .other
  | some property =>
    if handlingMethods.contains property then .handlingMethod
    else if transformingMethods.contains property then .transformingMethod
    else .other

def memberRole (source : String) (member : Tree) : Role :=
  methodRole (member.fieldText "property" source)

def constructorRole (source : String) (creation : Tree) : Role :=
  match creation.childByField "constructor" with
  | none => .other
  | some callee =>
    if callee.kind == .identifier && constructorNames.contains (callee.text source) then
      .constructorCall
    else
      .other

/-- How names that are no factories are judged. -/
structure Heuristic where
  enabled : Bool := true
  exclusions : List String := []
  deriving DecidableEq

namespace Heuristic

/-- Names that hold "result" and give no Result. -/
def builtinExclusions : List String :=
  ["isResult", "getResults", "setResult", "setResults", "showResult", "showResults",
    "printResult", "logResult", "formatResult", "renderResult", "renderResults",
    "displayResult", "resultToString"]

def standard : Heuristic :=
  { enabled := true, exclusions := builtinExclusions }

def withExclusions (h : Heuristic) (names : List String) : Heuristic :=
  { h with exclusions := h.exclusions ++ names }

def withEnabled (h : Heuristic) (enabled : Bool) : Heuristic :=
  { h with enabled }

/-- The characters of `run` stand one after another somewhere in the list. -/
def hasRun (run : List Char) : List Char → Bool
  | [] => run.isEmpty
  | c :: cs => run.isPrefixOf (c :: cs) || hasRun run cs

/-- The name holds "result", in whatever mix of upper and lower case ASCII
letters. -/
def mentionsResult (name : String) : Bool :=
  hasRun "result".toList (name.toList.map Char.toLower)

def suspects (h : Heuristic) (name : String) : Bool :=
  h.enabled && mentionsResult name && !h.exclusions.contains name

/-- The binding makes a call of `name` a factory call. -/
def bindsFactory (name : String) : ImportedName → Bool
  | .named exported => factoryNames.contains exported || factoryNames.contains name
  | .defaultExport | .wholeModule => factoryNames.contains name

def identifierRole (h : Heuristic) (table : ImportTable) (name : String) : Role :=
  if (table.imported? name).any (bindsFactory name) then .factoryCall
  else if factoryNames.contains name then .other
  else if h.suspects name then .heuristicCall
  else .other

def callRole (h : Heuristic) (table : ImportTable) (source : String) (call : Tree) : Role :=
  match call.childByField "function" with
  | none => .other
  | some callee =>
    if callee.kind == .identifier then h.identifierRole table (callee.text source)
    else if callee.kind == .memberExpression then memberRole source callee
    else .other

/-- The role of a node in a unit whose imports so far are in `table`. -/
def role (h : Heuristic) (table : ImportTable) (source : String) (t : Tree) : Role :=
  if t.kind == .newExpression then constructorRole source t
  else if t.kind == .callExpression then h.callRole table source t
  else if t.kind == .memberExpression then memberRole source t
  else .other

end Heuristic

end DroppedResult
