import DroppedResult.Rule.Chain
import DroppedResult.Rule.Delegation
import DroppedResult.Violation

/-!
# The rule

A unit is read in pre-order.  Import statements go into the import table; every
other call is reported when it produces a Result under the imports met so far,
is not delegated, is not handled, and has not been reported yet.  `UnitReading`
holds what is known so far and `UnitReading.visit` reads one node.

`ResultRule.check` starts from an empty table.  `ResultRule.checkWith` runs on a
table that the caller keeps, forgetting its bindings before and after.
-/

namespace DroppedResult

/-- What is known of a unit while it is read. -/
structure UnitReading where
  table : ImportTable
  /-- The places of the nodes in `found`. -/
  reported : List Address
  /-- The reported nodes, the latest first. -/
  found : List Cursor

namespace UnitReading

def start (table : ImportTable) : UnitReading :=
  ⟨table, [], []⟩

def report (r : UnitReading) (c : Cursor) : UnitReading :=
  { r with reported := c.address :: r.reported, found := c :: r.found }

/-- Read one node. -/
def visit (h : Heuristic) (source : String) (r : UnitReading) (c : Cursor) : UnitReading :=
  if c.kind == .importStatement then
    { r with table := r.table.record source c.focus }
  else if !c.kind.isCallLike || r.reported.contains c.address then r
  else if c.isDelegated || c.isHandled source then r
  else if (h.role r.table source c.focus).isProducing then r.report c
  else r

/-- Read the nodes in turn. -/
def run (h : Heuristic) (source : String) (r : UnitReading) (cs : List Cursor) : UnitReading :=
  cs.foldl (visit h source) r

end UnitReading

/-- The settings of the rule. -/
structure ResultRule where
  targetModule : String := "neverthrow"
  severity : Severity := .standard
  heuristic : Heuristic := .standard

namespace ResultRule

def standard : ResultRule := {}

def id : RuleId :=
  ⟨"must-use-result", by decide +kernel⟩

/-- Said of every finding, whatever produced the Result. -/
def message : String :=
  "Result must be handled with either match, unwrapOr, or _unsafeUnwrap"

def languages : List Language :=
  [.typescript, .tsx, .javascript]

/-- The reported nodes of a unit, in pre-order, and the table as it is left. -/
def checkWith (rule : ResultRule) (table : ImportTable) (tree : Tree) (source : String) :
    List Cursor × ImportTable :=
  let last := UnitReading.run rule.heuristic source (.start table.reset) tree.nodes
  (last.found.reverse, last.table.reset)

/-- The reported nodes of a unit, in pre-order. -/
def check (rule : ResultRule) (tree : Tree) (source : String) : List Cursor :=
  (rule.checkWith (.empty rule.targetModule) tree source).1

/-- The violations of a file, in pre-order of their nodes. -/
def violations (rule : ResultRule) (file : FilePath) (tree : Tree) (source : String) :
    List Violation :=
  (rule.check tree source).map fun c =>
    .ofLabel id rule.severity file source message c.label

end ResultRule

end DroppedResult
