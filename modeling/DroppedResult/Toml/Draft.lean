import DroppedResult.Toml.Text
import DroppedResult.Toml.Value

/-!
# Tables while a document is read

A document may come back to a table under some conditions only, which depend on
how the table came about.  So a table keeps its origin until the document is
read: it has a header of its own, it lies on the way to a header, or it lies on the
way of a dotted key.

* A header may name a table that is new or lay on the way to another header.
* A header of an array of tables adds a table to the array.
* A dotted key may pass through tables without a header, and adds its last name to
  a table that dotted keys have made.
* On the way to a header, an array of tables stands for its latest table.

`putAt`, `openTable` and `openItem` add to a draft under these conditions, and
`entriesOf` forgets the origins.
-/

namespace DroppedResult

namespace Toml

/-- How a table came about. -/
inductive Origin where
  | header
  | implied
  | dotted
  deriving DecidableEq

inductive Node where
  /-- A value that is complete. -/
  | value (v : Value)
  | table (origin : Origin) (entries : List (String × Node))
  /-- An array of tables, the latest first. -/
  | tables (latestFirst : List (List (String × Node)))

/-- The entries of a table while a document is read. -/
abbrev Draft := List (String × Node)

mutual

def Node.toValue : Node → Value
  | .value v => v
  | .table _ entries => .table (entriesOf entries)
  | .tables latestFirst => .array (itemsOf latestFirst).reverse

def entriesOf : List (String × Node) → List (String × Value)
  | [] => []
  | (name, node) :: rest => (name, node.toValue) :: entriesOf rest

def itemsOf : List (List (String × Node)) → List Value
  | [] => []
  | entries :: rest => .table (entriesOf entries) :: itemsOf rest

end

namespace Draft

def set (d : Draft) (name : String) (node : Node) : Draft :=
  d.map fun (n, old) => if n = name then (n, node) else (n, old)

def add (d : Draft) (name : String) (node : Node) : Draft :=
  d ++ [(name, node)]

/-- Add a value under a new name. -/
def addNew (d : Draft) (name : String) (v : Value) : Option Draft :=
  if (d.lookup name).isSome then none else some (d.add name (.value v))

/-- Add a value under a dotted key. -/
def putAt (name : String) (v : Value) : List String → Draft → Option Draft
  | [], d => d.addNew name v
  | step :: path, d =>
    match d.lookup step with
    | none => do some (d.add step (.table .dotted (← putAt name v path [])))
    | some (.table .dotted inner) => do
      some (d.set step (.table .dotted (← putAt name v path inner)))
    | some (.table .implied inner) =>
      if path = [] then none
      else do some (d.set step (.table .implied (← putAt name v path inner)))
    | some (.tables (latest :: others)) =>
      if path = [] then none
      else do some (d.set step (.tables ((← putAt name v path latest) :: others)))
    | some (.table .header _) | some (.tables []) | some (.value _) => none

/-- Change the table at the end of a header's way, making the tables that are
not there. -/
def change (f : Draft → Option Draft) : List String → Draft → Option Draft
  | [], d => f d
  | step :: path, d =>
    match d.lookup step with
    | none => do some (d.add step (.table .implied (← change f path [])))
    | some (.table origin inner) => do some (d.set step (.table origin (← change f path inner)))
    | some (.tables (latest :: others)) => do
      some (d.set step (.tables ((← change f path latest) :: others)))
    | some (.tables []) | some (.value _) => none

/-- Open the table that a header names. -/
def openTable (d : Draft) (k : Key) : Option Draft :=
  d.change (fun d =>
    match d.lookup k.name with
    | none => some (d.add k.name (.table .header []))
    | some (.table .implied inner) => some (d.set k.name (.table .header inner))
    | _ => none) k.path

/-- Open a new table of the array that a header names. -/
def openItem (d : Draft) (k : Key) : Option Draft :=
  d.change (fun d =>
    match d.lookup k.name with
    | none => some (d.add k.name (.tables [[]]))
    | some (.tables latestFirst) => some (d.set k.name (.tables ([] :: latestFirst)))
    | _ => none) k.path

end Draft

end Toml

end DroppedResult
