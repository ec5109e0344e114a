import DroppedResult.Proofs.ImportTables
import DroppedResult.Proofs.Traversal
import DroppedResult.Rule.Check

/-!
# What a check reports

A check reads the nodes of a unit in pre-order and carries three things: the import
table, the places it has reported and the nodes it has found.  This module takes
them away one after the other.

* One node.  `UnitReading.visit_eq` says what reading a node at a new place does.
* All nodes.  No place is met twice, so the places never hold a report back:
  `UnitReading.run_eq` leaves `reports`, which carries the table only.
* The table.  At a node it holds the imports before that node, and nothing else:
  `ResultRule.reports_eq_filter` leaves a filter that carries nothing.

`ResultRule.check_eq_filter_flags` is the result.
-/

namespace DroppedResult

/-! ## One node -/

namespace ResultRule

/-- The node is a call that produces a Result under the given table, and the Result
is neither handed to the caller nor handled. -/
def drops (h : Heuristic) (source : String) (table : ImportTable) (c : Cursor) : Bool :=
  c.kind.isCallLike && !c.isDelegated && !c.isHandled source &&
    (h.role table source c.focus).isProducing

theorem drops_of_not_isCallLike {h : Heuristic} {source : String} {table : ImportTable}
    {c : Cursor} (hc : c.kind.isCallLike = false) : drops h source table c = false := by
  simp [drops, hc]

/-- The reported ones among the nodes, when the table is as given before the
first. -/
def reports (h : Heuristic) (source : String) : ImportTable → List Cursor → List Cursor
  | _, [] => []
  | table, c :: cs =>
    if drops h source table c then c :: reports h source (table.record source c.focus) cs
    else reports h source (table.record source c.focus) cs

end ResultRule

namespace UnitReading

open ResultRule

/-- Reading a node at a new place takes up its imports, and reports it when it drops
a Result. -/
theorem visit_eq (h : Heuristic) (source : String) (r : UnitReading) (c : Cursor)
    (hnew : c.address ∉ r.reported) :
    visit h source r c =
      if drops h source r.table c then r.report c
      else { r with table := r.table.record source c.focus } := by
  by_cases himport : c.kind = .importStatement
  · have hcall : c.kind.isCallLike = false := by rw [himport]; decide
    rw [visit, if_pos (by simp [himport]), drops_of_not_isCallLike hcall]
    rfl
  · have hrecord : r.table.record source c.focus = r.table :=
      ImportTable.record_of_kind_ne himport
    simp only [visit, drops, hrecord]
    cases c.kind.isCallLike <;> cases c.isDelegated <;> cases c.isHandled source <;>
      simp [himport, hnew]

theorem visit_table (h : Heuristic) (source : String) (r : UnitReading) (c : Cursor)
    (hnew : c.address ∉ r.reported) :
    (visit h source r c).table = r.table.record source c.focus := by
  rw [visit_eq h source r c hnew]
  split
  · rename_i hdrops
    have himport : c.kind ≠ .importStatement := by
      intro himport
      rw [drops_of_not_isCallLike (by rw [himport]; decide)] at hdrops
      cases hdrops
    exact (ImportTable.record_of_kind_ne himport).symm
  · rfl

theorem visit_reported_subset {h : Heuristic} {source : String} {r : UnitReading} {c : Cursor}
    (hnew : c.address ∉ r.reported) {a : Address} (ha : a ∈ (visit h source r c).reported) :
    a = c.address ∨ a ∈ r.reported := by
  rw [visit_eq h source r c hnew] at ha
  split at ha
  · exact List.mem_cons.mp ha
  · exact .inr ha

/-! ## All nodes -/

/-- A run over nodes at different new places finds what `reports` lists, and leaves
the table with all their imports. -/
theorem run_eq (h : Heuristic) (source : String) (cs : List Cursor) (r : UnitReading)
    (hplaces : cs.Pairwise fun c d => c.address ≠ d.address)
    (hnew : ∀ c ∈ cs, c.address ∉ r.reported) :
    (run h source r cs).found = (reports h source r.table cs).reverse ++ r.found ∧
      (run h source r cs).table = r.table.recordAll source cs := by
  induction cs generalizing r with
  | nil => exact ⟨rfl, rfl⟩
  | cons c cs ih =>
    obtain ⟨hc, hcs⟩ := List.pairwise_cons.mp hplaces
    have hcnew : c.address ∉ r.reported := hnew c List.mem_cons_self
    have hrest : ∀ d ∈ cs, d.address ∉ (visit h source r c).reported := by
      intro d hd hmem
      rcases visit_reported_subset hcnew hmem with heq | hold
      · exact hc d hd heq.symm
      · exact hnew d (List.mem_cons_of_mem _ hd) hold
    obtain ⟨hfound, htable⟩ := ih (visit h source r c) hcs hrest
    rw [visit_table h source r c hcnew] at hfound htable
    refine ⟨?_, htable⟩
    rw [run, List.foldl_cons, ← run, hfound, visit_eq h source r c hcnew, reports]
    split <;> simp [report]

/-- The same for a run from the start over nodes in tree order. -/
theorem run_start (h : Heuristic) (source : String) (table : ImportTable) {cs : List Cursor}
    (hsorted : cs.Pairwise fun c d => c.address.isBefore d.address = true) :
    (run h source (.start table) cs).found.reverse = reports h source table cs ∧
      (run h source (.start table) cs).table = table.recordAll source cs := by
  have hplaces : cs.Pairwise fun c d => c.address ≠ d.address := by
    refine hsorted.imp ?_
    intro c d hcd heq
    rw [heq, Address.isBefore_irrefl] at hcd
    cases hcd
  obtain ⟨hfound, htable⟩ := run_eq h source cs (.start table) hplaces (by simp [start])
  refine ⟨?_, htable⟩
  rw [hfound]
  simp [start]

end UnitReading

namespace ResultRule

theorem checkWith_eq (rule : ResultRule) (table : ImportTable) (tree : Tree) (source : String) :
    rule.checkWith table tree source =
      (reports rule.heuristic source (.empty table.target) tree.nodes, .empty table.target) := by
  obtain ⟨hfound, htable⟩ := UnitReading.run_start rule.heuristic source table.reset
    tree.pairwise_isBefore_nodes
  have hreset : (table.reset.recordAll source tree.nodes).reset = .empty table.target := by
    rw [ImportTable.reset, ImportTable.recordAll_target]
    rfl
  rw [checkWith, hfound, htable, hreset]
  rfl

theorem check_eq_reports (rule : ResultRule) (tree : Tree) (source : String) :
    rule.check tree source =
      reports rule.heuristic source (.empty rule.targetModule) tree.nodes := by
  rw [check, checkWith_eq]
  rfl

theorem reports_append (h : Heuristic) (source : String) (table : ImportTable)
    (cs ds : List Cursor) :
    reports h source table (cs ++ ds) =
      reports h source table cs ++ reports h source (table.recordAll source cs) ds := by
  induction cs generalizing table with
  | nil => rfl
  | cons c cs ih =>
    simp only [List.cons_append, reports, ih, ImportTable.recordAll_cons]
    split <;> rfl

/-! ## The table -/

/-- In a list in tree order, the nodes before one of them are those on its left. -/
theorem filter_isBefore_eq {before after : List Cursor} {c : Cursor}
    (h : (before ++ c :: after).Pairwise fun c d => c.address.isBefore d.address = true) :
    (before ++ c :: after).filter (·.address.isBefore c.address) = before := by
  obtain ⟨_, hright, hacross⟩ := List.pairwise_append.mp h
  have hleft : before.filter (·.address.isBefore c.address) = before :=
    List.filter_eq_self.mpr fun d hd => hacross d hd c List.mem_cons_self
  have hnone : (c :: after).filter (·.address.isBefore c.address) = [] := by
    refine List.filter_eq_nil_iff.mpr fun d hd => ?_
    rcases List.mem_cons.mp hd with rfl | hd
    · simp [Address.isBefore_irrefl]
    · simp [Address.isBefore_asymm ((List.pairwise_cons.mp hright).1 d hd)]
  rw [List.filter_append, hleft, hnone, List.append_nil]

/-- The reports after `before` has been read, as a filter.  The table at a node is
that of the nodes before it. -/
theorem reports_eq_filter (h : Heuristic) (source : String) (table : ImportTable)
    (before cs : List Cursor)
    (hsorted : (before ++ cs).Pairwise fun c d => c.address.isBefore d.address = true) :
    reports h source (table.recordAll source before) cs =
      cs.filter fun c => drops h source
        (table.recordAll source ((before ++ cs).filter (·.address.isBefore c.address))) c := by
  induction cs generalizing before with
  | nil => rfl
  | cons c cs ih =>
    have hsplit : before ++ c :: cs = (before ++ [c]) ++ cs := by simp
    have hrest := ih (before ++ [c]) (hsplit ▸ hsorted)
    rw [ImportTable.recordAll_append, ← hsplit] at hrest
    rw [reports, List.filter_cons, filter_isBefore_eq hsorted, ← hrest]
    rfl

end ResultRule

/-- The import statements that come before a place, in order. -/
def Tree.importsBefore (t : Tree) (place : Address) : List Cursor :=
  (t.nodesUnder []).filter fun d => d.kind == .importStatement && d.address.isBefore place

theorem Tree.importsBefore_eq_filter (t : Tree) (place : Address) :
    t.importsBefore place =
      (t.nodes.filter (·.address.isBefore place)).filter (·.kind == .importStatement) := by
  rw [List.filter_filter, nodes_eq, importsBefore]

namespace ResultRule

/-- The table of the imports before the node. -/
def tableAt (rule : ResultRule) (tree : Tree) (source : String) (c : Cursor) : ImportTable :=
  (ImportTable.empty rule.targetModule).recordAll source (tree.importsBefore c.address)

/-- What makes a node of the unit a finding. -/
def flags (rule : ResultRule) (tree : Tree) (source : String) (c : Cursor) : Bool :=
  (c.kind == .callExpression || c.kind == .newExpression) &&
    !c.isDelegated && !c.isHandled source &&
    (rule.heuristic.role (rule.tableAt tree source c) source c.focus).isProducing

theorem flags_eq_drops (rule : ResultRule) (tree : Tree) (source : String) (c : Cursor) :
    rule.flags tree source c = drops rule.heuristic source
      ((ImportTable.empty rule.targetModule).recordAll source
        (tree.nodes.filter (·.address.isBefore c.address))) c := by
  rw [flags, tableAt, Tree.importsBefore_eq_filter,
    ImportTable.recordAll_filter_importStatement]
  rfl

theorem check_eq_filter_nodes (rule : ResultRule) (tree : Tree) (source : String) :
    rule.check tree source = tree.nodes.filter (rule.flags tree source) := by
  rw [check_eq_reports, List.filter_congr fun c _ => rule.flags_eq_drops tree source c]
  exact reports_eq_filter rule.heuristic source (.empty rule.targetModule) [] tree.nodes
    tree.pairwise_isBefore_nodes

/-- A check reports the flagged nodes of the unit, in pre-order and each once.  The
imports that count at a node are those on its left in pre-order. -/
theorem check_eq_filter_flags (rule : ResultRule) (tree : Tree) (source : String) :
    rule.check tree source = (tree.nodesUnder []).filter (rule.flags tree source) ∧
      (rule.check tree source).Nodup ∧
      ∀ before c after, tree.nodesUnder [] = before ++ c :: after →
        tree.importsBefore c.address = before.filter (·.kind == .importStatement) := by
  have hfilter := rule.check_eq_filter_nodes tree source
  refine ⟨?_, ?_, ?_⟩
  · rw [hfilter, tree.nodes_eq]
  · rw [hfilter]
    exact tree.nodup_nodes.filter _
  · intro before c after hsplit
    have hsorted := tree.pairwise_isBefore_nodes
    rw [tree.nodes_eq, hsplit] at hsorted
    rw [Tree.importsBefore_eq_filter, tree.nodes_eq, hsplit, filter_isBefore_eq hsorted]

end ResultRule

end DroppedResult
