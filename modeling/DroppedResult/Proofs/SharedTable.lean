import DroppedResult.Proofs.Reports

/-!
# Checks that share a table

A caller may keep one import table and use it for many units, binding names and
reading nodes in between.  `TableUse` is one such use and `TableUse.applyAll` is a
sequence of them.  Every check forgets the bindings it is given and reads the
target only, so it finds what it finds on a fresh table:
`TableUse.checkWith_isolated`.
-/

namespace DroppedResult

/-- What a caller can do with a table that it keeps. -/
inductive TableUse where
  | bind (name : String) (imported : ImportedName)
  | record (source : String) (node : Tree)
  | reset
  | check (rule : ResultRule) (tree : Tree) (source : String)

namespace TableUse

/-- The findings, if the use is a check, and the table that the use leaves. -/
def apply (table : ImportTable) : TableUse → Option (List Cursor) × ImportTable
  | bind name imported => (none, table.bind name imported)
  | record source node => (none, table.record source node)
  | reset => (none, table.reset)
  | check rule tree source =>
    let (found, last) := rule.checkWith table tree source
    (some found, last)

/-- The findings of the checks among the uses, in turn, and the table that the last
use leaves. -/
def applyAll : ImportTable → List TableUse → List (List Cursor) × ImportTable
  | table, [] => ([], table)
  | table, use :: rest =>
    let (found, next) := use.apply table
    let (later, last) := applyAll next rest
    (found.toList ++ later, last)

/-- The findings of a check that has a fresh table for the target to itself. -/
def alone? (target : String) : TableUse → Option (List Cursor)
  | check rule tree source => some ({ rule with targetModule := target }.check tree source)
  | bind _ _ | record _ _ | reset => none

theorem checkWith_eq_check (rule : ResultRule) (table : ImportTable) (tree : Tree)
    (source : String) :
    rule.checkWith table tree source =
      ({ rule with targetModule := table.target }.check tree source, .empty table.target) := by
  rw [ResultRule.checkWith_eq, ResultRule.check_eq_reports]

theorem apply_target (table : ImportTable) (use : TableUse) :
    (use.apply table).2.target = table.target := by
  cases use with
  | bind name imported => exact table.bind_target name imported
  | record source node => exact table.record_target source node
  | reset => rfl
  | check rule tree source => rw [apply, checkWith_eq_check]; rfl

theorem apply_findings (table : ImportTable) (use : TableUse) :
    (use.apply table).1 = use.alone? table.target := by
  cases use with
  | bind name imported => rfl
  | record source node => rfl
  | reset => rfl
  | check rule tree source => rw [apply, checkWith_eq_check]; rfl

theorem applyAll_findings (table : ImportTable) (uses : List TableUse) :
    (applyAll table uses).1 = uses.filterMap (alone? table.target) := by
  induction uses generalizing table with
  | nil => rfl
  | cons use rest ih =>
    have hlater := ih (use.apply table).2
    rw [apply_target] at hlater
    show (use.apply table).1.toList ++ (applyAll (use.apply table).2 rest).1 = _
    rw [hlater, apply_findings]
    cases halone : use.alone? table.target <;> simp [halone]

/-- A check on a table that was used before finds what the rule finds on a fresh
table for the same target, and leaves the table empty.  So in every sequence of uses
each check finds what it finds alone. -/
theorem checkWith_isolated (table : ImportTable) :
    (∀ (rule : ResultRule) (tree : Tree) (source : String),
      (rule.checkWith table tree source).1 =
          { rule with targetModule := table.target }.check tree source ∧
        (rule.checkWith table tree source).2.isEmpty = true ∧
        (rule.checkWith table tree source).2.target = table.target) ∧
      ∀ uses : List TableUse,
        (applyAll table uses).1 = uses.filterMap (alone? table.target) := by
  refine ⟨?_, applyAll_findings table⟩
  intro rule tree source
  rw [checkWith_eq_check]
  exact ⟨rfl, rfl, rfl⟩

end TableUse

end DroppedResult
