import DroppedResult.Source

/-!
# Imported names

The import table of a unit holds the local names that its import statements bind
to exports of one module, the target.  `ImportTable.record` reads one node; nodes
other than import statements, and imports of other modules, leave the table as it
is.  The last binding of a name holds.

`Imports.bindings` lists what a statement binds, in document order, and
`Imports.moduleName?` the module it imports from.
-/

namespace DroppedResult

/-- What a local name stands for in the target module. -/
inductive ImportedName where
  /-- An export, under its own name or an alias. -/
  | named (exported : String)
  | defaultExport
  /-- The module as one object. -/
  | wholeModule
  deriving DecidableEq

namespace Imports

/-- The literal value of the module name of an import statement. -/
def moduleName? (source : String) (statement : Tree) : Option String :=
  (statement.childByField "source").map (·.literalValue source)

/-- What one specifier between braces binds: its alias, or else its own name. -/
def specifierBinding? (source : String) (specifier : Tree) : Option (String × ImportedName) :=
  if specifier.kind == .importSpecifier then
    (specifier.childByField "name").map fun name =>
      let bound := (specifier.childByField "alias").getD name
      (bound.literalValue source, .named (name.literalValue source))
  else
    none

/-- What one part of an import clause binds. -/
def partBindings (source : String) (part : Tree) : List (String × ImportedName) :=
  if part.kind == .identifier then
    [(part.text source, .defaultExport)]
  else if part.kind == .namespaceImport then
    ((part.namedChildren.find? (·.kind == .identifier)).map
      fun name => (name.text source, .wholeModule)).toList
  else if part.kind == .namedImports then
    part.namedChildren.filterMap (specifierBinding? source)
  else
    []

def clauseBindings (source : String) (clause : Tree) : List (String × ImportedName) :=
  clause.namedChildren.flatMap (partBindings source)

/-- What an import statement binds, in document order. -/
def bindings (source : String) (statement : Tree) : List (String × ImportedName) :=
  (statement.namedChildren.filter (·.kind == .importClause)).flatMap (clauseBindings source)

end Imports

/-- The local names bound to exports of `target`, each once. -/
@[ext] structure ImportTable where
  target : String
  bindings : List (String × ImportedName)
  nodup : (bindings.map Prod.fst).Nodup
  deriving DecidableEq

namespace ImportTable

def empty (target : String) : ImportTable :=
  ⟨target, [], .nil⟩

def imported? (table : ImportTable) (name : String) : Option ImportedName :=
  (table.bindings.find? (·.1 == name)).map (·.2)

def isBound (table : ImportTable) (name : String) : Bool :=
  table.bindings.any (·.1 == name)

def size (table : ImportTable) : Nat :=
  table.bindings.length

def isEmpty (table : ImportTable) : Bool :=
  table.bindings.isEmpty

/-- Bind a name, in place of what it was bound to.  The empty name is never
bound. -/
def bind (table : ImportTable) (name : String) (imported : ImportedName) : ImportTable :=
  if name.isEmpty then table
  else
    { table with
      bindings := (name, imported) :: table.bindings.filter (·.1 != name)
      nodup := by
        refine List.nodup_cons.mpr ⟨by simp, ?_⟩
        exact table.nodup.sublist (List.filter_sublist.map _) }

def bindAll (table : ImportTable) (bindings : List (String × ImportedName)) : ImportTable :=
  bindings.foldl (fun t (name, imported) => t.bind name imported) table

/-- Forget every binding and keep the target. -/
def reset (table : ImportTable) : ImportTable :=
  empty table.target

/-- Take up the bindings of a node, if it imports from the target. -/
def record (table : ImportTable) (source : String) (t : Tree) : ImportTable :=
  if t.kind == .importStatement && Imports.moduleName? source t == some table.target then
    table.bindAll (Imports.bindings source t)
  else
    table

end ImportTable

end DroppedResult
