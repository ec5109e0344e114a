import DroppedResult.Proofs.Verdicts

/-!
# Statements are judged by themselves

A statement here is a direct child of a block, or of a program's root.  No walk up
from inside a statement gets past the block, so what stands around it or beside it
reaches the verdicts inside through the import table only.

* `JudgedAlike.statement`: the walks end at the block.
* `Cursor.filter_isBefore_nodes` and `Cursor.filter_through_nodes`: the nodes that are
  read when a statement is entered, and when it is left.
* `ResultRule.statement_verdicts_local` is the result: the same statement in two
  units, entered with tables that agree, has the same findings and leaves tables that
  agree.
-/

namespace DroppedResult

namespace Cursor

/-- The node is a direct child of a block, or of the root of a program. -/
def isStatement (c : Cursor) : Bool :=
  match c.path with
  | [] => false
  | f :: up => f.label.kind == .statementBlock || (f.label.kind == .program && up.isEmpty)

theorem isStatement_cases {c : Cursor} (h : c.isStatement = true) :
    ∃ f up, c.path = f :: up ∧
      (f.label.kind = .statementBlock ∨ f.label.kind = .program ∧ up = []) := by
  rw [isStatement] at h
  split at h
  · cases h
  · rename_i f up hpath
    exact ⟨f, up, hpath, by simpa using h⟩

/-- A frame that is neither a wrapper, nor a member access, nor a call ends a
chain. -/
theorem handledFrom_eq_false {f : Frame} (hwrapper : f.label.kind.isTransparent = false)
    (hmember : f.label.kind ≠ .memberExpression) (source : String) (child : Label)
    (up : List Frame) : handledFrom source child (f :: up) = false := by
  have haccess : f.isAccessOn child = false := by
    simp [Frame.isAccessOn, hmember]
  rw [handledFrom_cons, hwrapper, haccess]
  rfl

theorem calledFrom_eq_false {f : Frame} (hcall : f.label.kind ≠ .callExpression)
    (source : String) (role : Role) (child : Label) (up : List Frame) :
    calledFrom source role child (f :: up) = false := by
  simp [calledFrom, Frame.isCallOf, hcall]

theorem delegatedFrom_statement {c : Cursor} (h : c.isStatement = true) (child : Label) :
    delegatedFrom child c.path = false := by
  obtain ⟨f, up, hpath, hblock | ⟨hprogram, rfl⟩⟩ := isStatement_cases h
  · have hbarrier : Barrier.ofKind? f.label.kind = some .enclosed := by rw [hblock]; decide
    rw [hpath, delegatedFrom, hbarrier]
  · have hbarrier : Barrier.ofKind? f.label.kind = none := by rw [hprogram]; decide
    rw [hpath, delegatedFrom_cons_of_none hbarrier, delegatedFrom]

theorem handledFrom_statement {c : Cursor} (h : c.isStatement = true) (source : String)
    (child : Label) : handledFrom source child c.path = false := by
  obtain ⟨f, up, hpath, hkind⟩ := isStatement_cases h
  rw [hpath]
  rcases hkind with hkind | ⟨hkind, _⟩ <;>
    exact handledFrom_eq_false (by rw [hkind]; decide) (by rw [hkind]; decide) source child up

theorem calledFrom_statement {c : Cursor} (h : c.isStatement = true) (source : String)
    (role : Role) (child : Label) : calledFrom source role child c.path = false := by
  obtain ⟨f, up, hpath, hkind⟩ := isStatement_cases h
  rw [hpath]
  rcases hkind with hkind | ⟨hkind, _⟩ <;>
    exact calledFrom_eq_false (by rw [hkind]; decide) source role child up

end Cursor

/-- All statements are judged alike, whatever is around them. -/
theorem JudgedAlike.statement {s₁ s₂ : String} {c₁ c₂ : Cursor} (h₁ : c₁.isStatement = true)
    (h₂ : c₂.isStatement = true) : JudgedAlike s₁ s₂ c₁.label c₁.path c₂.label c₂.path where
  delegated := by
    rw [Cursor.delegatedFrom_statement h₁, Cursor.delegatedFrom_statement h₂]
  handled := by
    rw [Cursor.handledFrom_statement h₁, Cursor.handledFrom_statement h₂]
  called _ role := by
    rw [Cursor.calledFrom_statement h₁, Cursor.calledFrom_statement h₂]

/-! ## Entering and leaving a subtree -/

namespace Cursor

theorem nodes_eq_of_mem {c : Cursor} {tree : Tree} (hc : c ∈ tree.nodes) :
    tree.nodes =
      nodesBefore c.focus c.path ++ c.focus.nodesUnder c.path ++ nodesAfter c.focus c.path := by
  have hroot : rootOf c.focus c.path = tree := mem_nodes_iff.mp hc
  rw [← hroot, nodes_rootOf]

theorem filter_isBefore_nodes {c : Cursor} {tree : Tree} (hc : c ∈ tree.nodes) :
    tree.nodes.filter (·.address.isBefore c.address) = nodesBefore c.focus c.path := by
  obtain ⟨rest, hrest⟩ : ∃ rest, c.focus.nodesUnder c.path = c :: rest := by
    obtain ⟨⟨l, ts⟩, path⟩ := c
    exact ⟨_, Tree.nodesUnder_node path l ts⟩
  have hsorted := tree.pairwise_isBefore_nodes
  rw [nodes_eq_of_mem hc, hrest, List.append_assoc, List.cons_append] at hsorted ⊢
  exact ResultRule.filter_isBefore_eq hsorted

/-- The nodes up to the end of a subtree are those before it and its own. -/
theorem filter_through_nodes {c : Cursor} {tree : Tree} (hc : c ∈ tree.nodes) :
    (tree.nodes.filter fun d => d.address.isBefore c.address || c.address.isPrefixOf d.address) =
      nodesBefore c.focus c.path ++ c.focus.nodesUnder c.path := by
  have hsorted := tree.pairwise_isBefore_nodes
  rw [nodes_eq_of_mem hc] at hsorted ⊢
  have hself := Tree.self_mem_nodesUnder c.focus c.path
  have hacross := (List.pairwise_append.mp hsorted).2.2
  have hleft := (List.pairwise_append.mp (List.pairwise_append.mp hsorted).1).2.2
  rw [List.filter_append, List.filter_append, List.filter_eq_self.mpr, List.filter_eq_self.mpr,
    List.filter_eq_nil_iff.mpr, List.append_nil]
  · intro d hd
    have hafter := Address.isBefore_asymm (hacross c (List.mem_append_right _ hself) d hd)
    have houtside : ¬ c.address <+: d.address := not_extends_of_mem_nodesAfter hd
    simp [hafter, List.isPrefixOf_iff_prefix, houtside]
  · intro d hd
    obtain ⟨b, hb⟩ := address_of_mem_nodesUnder hd
    have hinside : c.address <+: d.address := ⟨b, hb.symm⟩
    simp [List.isPrefixOf_iff_prefix, hinside]
  · intro d hd
    simp [hleft d hd c hself]

end Cursor

namespace ResultRule

/-- The table when a check of the unit enters the subtree at `c`. -/
def tableEntering (rule : ResultRule) (tree : Tree) (source : String) (c : Cursor) :
    ImportTable :=
  (UnitReading.run rule.heuristic source (.start (.empty rule.targetModule))
    (tree.nodes.filter (·.address.isBefore c.address))).table

/-- The table when a check of the unit leaves the subtree at `c`. -/
def tableLeaving (rule : ResultRule) (tree : Tree) (source : String) (c : Cursor) :
    ImportTable :=
  (UnitReading.run rule.heuristic source (.start (.empty rule.targetModule))
    (tree.nodes.filter fun d =>
      d.address.isBefore c.address || c.address.isPrefixOf d.address)).table

theorem tableEntering_eq (rule : ResultRule) {tree : Tree} (source : String) {c : Cursor}
    (hc : c ∈ tree.nodes) :
    rule.tableEntering tree source c =
      (ImportTable.empty rule.targetModule).recordAll source
        (Cursor.nodesBefore c.focus c.path) := by
  rw [tableEntering, (UnitReading.run_start _ _ _ (tree.pairwise_isBefore_nodes.filter _)).2,
    Cursor.filter_isBefore_nodes hc]

theorem tableLeaving_eq (rule : ResultRule) {tree : Tree} (source : String) {c : Cursor}
    (hc : c ∈ tree.nodes) :
    rule.tableLeaving tree source c =
      (rule.tableEntering tree source c).recordAll source (c.focus.nodesUnder c.path) := by
  rw [tableLeaving, (UnitReading.run_start _ _ _ (tree.pairwise_isBefore_nodes.filter _)).2,
    Cursor.filter_through_nodes hc, ImportTable.recordAll_append, tableEntering_eq rule source hc]

theorem mem_of_mem_reports {h : Heuristic} {source : String} {table : ImportTable} {d : Cursor}
    {cs : List Cursor} (hd : d ∈ reports h source table cs) : d ∈ cs := by
  induction cs generalizing table with
  | nil => simp [reports] at hd
  | cons c cs ih =>
    rw [reports] at hd
    split at hd
    · rcases List.mem_cons.mp hd with rfl | hd
      · exact List.mem_cons_self
      · exact List.mem_cons_of_mem c (ih hd)
    · exact List.mem_cons_of_mem c (ih hd)

theorem reports_eq_of_agrees {a b : ImportTable} (hab : a.Agrees b) (h : Heuristic)
    (source : String) (cs : List Cursor) : reports h source a cs = reports h source b cs := by
  induction cs generalizing a b with
  | nil => rfl
  | cons c cs ih =>
    have hdrops : drops h source a c = drops h source b c := by
      rw [drops, drops, hab.role_eq]
    rw [reports, reports, hdrops, ih (hab.record source c.focus)]

/-- The findings inside a subtree are those of its own nodes, read with the table that
is there when the check enters. -/
theorem exists_mem_check_iff (rule : ResultRule) {tree : Tree} (source : String) {c : Cursor}
    (hc : c ∈ tree.nodes) (b : Address) :
    (∃ d ∈ rule.check tree source, d.address = c.address ++ b) ↔
      ∃ d ∈ reports rule.heuristic source (rule.tableEntering tree source c)
        (c.focus.nodesUnder c.path), d.address = c.address ++ b := by
  rw [check_eq_reports, Cursor.nodes_eq_of_mem hc, reports_append, reports_append,
    ← tableEntering_eq rule source hc]
  constructor
  · rintro ⟨d, hd, hb⟩
    have hinside : c.address <+: d.address := ⟨b, hb.symm⟩
    rcases List.mem_append.mp hd with hd | hd
    · rcases List.mem_append.mp hd with hd | hd
      · exact absurd hinside (Cursor.not_extends_of_mem_nodesBefore (mem_of_mem_reports hd))
      · exact ⟨d, hd, hb⟩
    · exact absurd hinside (Cursor.not_extends_of_mem_nodesAfter (mem_of_mem_reports hd))
  · rintro ⟨d, hd, hb⟩
    exact ⟨d, List.mem_append_left _ (List.mem_append_right _ hd), hb⟩

/-! ## The same statement in two units -/

/-- A statement that occurs in two units, and is entered with tables that agree, has
findings at the same places inside it, and leaves tables that agree. -/
theorem statement_verdicts_local {rule₁ rule₂ : ResultRule} {tree₁ tree₂ : Tree}
    {s₁ s₂ : String} {c₁ c₂ : Cursor}
    (hc₁ : c₁ ∈ tree₁.nodes) (hc₂ : c₂ ∈ tree₂.nodes)
    (hstatement₁ : c₁.isStatement = true) (hstatement₂ : c₂.isStatement = true)
    (hsame : c₁.focus.Same s₁ s₂ c₂.focus) (hheuristic : rule₁.heuristic = rule₂.heuristic)
    (htables : (rule₁.tableEntering tree₁ s₁ c₁).Agrees (rule₂.tableEntering tree₂ s₂ c₂)) :
    (∀ b, (∃ d ∈ rule₁.check tree₁ s₁, d.address = c₁.address ++ b) ↔
        ∃ d ∈ rule₂.check tree₂ s₂, d.address = c₂.address ++ b) ∧
      (rule₁.tableLeaving tree₁ s₁ c₁).Agrees (rule₂.tableLeaving tree₂ s₂ c₂) := by
  have halike : List.Forall₂ (NodesAlike s₁ s₂ (c₁.carried c₂)) (c₁.focus.nodesUnder c₁.path)
      (c₂.focus.nodesUnder c₂.path) := by
    exact forall₂_nodesAlike_nodesUnder hsame.readAlike hsame.record_eq hsame.children
      (.statement hstatement₁ hstatement₂) (Cursor.carried_append c₁ c₂)
  obtain ⟨hreports, hrecord⟩ := (Interspersed.of_forall₂ halike).reports_eq rule₁.heuristic
    (rule₁.tableEntering tree₁ s₁ c₁)
  refine ⟨?_, ?_⟩
  · intro b
    have hplaces := congrArg (c₂.address ++ b ∈ ·) hreports
    simp only [List.mem_map] at hplaces
    rw [exists_mem_check_iff rule₁ s₁ hc₁, exists_mem_check_iff rule₂ s₂ hc₂,
      ← reports_eq_of_agrees htables, ← hheuristic, hplaces]
    refine exists_congr fun d => and_congr_right fun hd => ?_
    obtain ⟨b', hb'⟩ := Cursor.address_of_mem_nodesUnder (mem_of_mem_reports hd)
    have hd' : d.address = c₁.address ++ b' := hb'
    rw [hd', Cursor.carried_append, List.append_right_inj, List.append_right_inj]
  · rw [tableLeaving_eq rule₁ s₁ hc₁, tableLeaving_eq rule₂ s₂ hc₂, ← hrecord]
    exact htables.recordAll s₂ _

/-- `import { ok } from 'neverthrow';` at the start of a source. -/
def okImport : Tree :=
  .node ⟨.importStatement, true, 0, 32, none⟩
    [.node ⟨.importClause, true, 7, 13, none⟩
      [.node ⟨.namedImports, true, 7, 13, none⟩
        [.node ⟨.importSpecifier, true, 9, 11, none⟩
          [.node ⟨.identifier, true, 9, 11, some "name"⟩ []]]],
      .node ⟨⟨"string"⟩, true, 19, 31, some "source"⟩ []]

/-- `ok(1);` at the given offset. -/
def okStatement (start : Nat) : Tree :=
  .node ⟨⟨"expression_statement"⟩, true, start, start + 6, none⟩
    [.node ⟨.callExpression, true, start, start + 5, none⟩
      [.node ⟨.identifier, true, start, start + 2, some "function"⟩ [],
        .node ⟨⟨"arguments"⟩, true, start + 2, start + 5, some "arguments"⟩ []]]

def plainSource : String :=
  "import { ok } from 'neverthrow'; ok(1);"

def plainOk : Cursor :=
  ⟨okStatement 33, [⟨⟨.program, true, 0, 39, none⟩, [okImport], []⟩]⟩

def returnedSource : String :=
  "import { ok } from 'neverthrow'; return () => { ok(1); };"

def returnedOk : Cursor :=
  ⟨okStatement 48,
    [⟨⟨.statementBlock, true, 46, 56, some "body"⟩, [], []⟩,
      ⟨⟨.arrowFunction, true, 40, 56, none⟩,
        [.node ⟨⟨"formal_parameters"⟩, true, 40, 42, some "parameters"⟩ []], []⟩,
      ⟨⟨.returnStatement, true, 33, 57, none⟩, [], []⟩,
      ⟨⟨.program, true, 0, 57, none⟩, [okImport], []⟩]⟩

/-- The call is a finding in the first unit, hence in the second, where the block that
holds it is returned. -/
theorem check_returnedOk :
    (∃ d ∈ standard.check plainOk.root plainSource, d.address = plainOk.address ++ [0]) ∧
      ∃ d ∈ standard.check returnedOk.root returnedSource,
        d.address = returnedOk.address ++ [0] := by
  have hplain : ∃ d ∈ standard.check plainOk.root plainSource,
      d.address = plainOk.address ++ [0] := by
    rw [check_eq_reports, Tree.nodes_eq]
    decide +kernel
  have hsame : (okStatement 33).Same plainSource returnedSource (okStatement 48) := by
    refine .node ⟨rfl, rfl, rfl, by decide +kernel⟩ (.cons ?_ .nil)
    refine .node ⟨rfl, rfl, rfl, by decide +kernel⟩ (.cons ?_ (.cons ?_ .nil))
    · exact .node ⟨rfl, rfl, rfl, by decide +kernel⟩ .nil
    · exact .node ⟨rfl, rfl, rfl, by decide +kernel⟩ .nil
  have hc₁ : plainOk ∈ plainOk.root.nodes := Cursor.mem_nodes_iff.mpr rfl
  have hc₂ : returnedOk ∈ returnedOk.root.nodes := Cursor.mem_nodes_iff.mpr rfl
  have htables : (standard.tableEntering plainOk.root plainSource plainOk).Agrees
      (standard.tableEntering returnedOk.root returnedSource returnedOk) := by
    have heq : standard.tableEntering plainOk.root plainSource plainOk =
        standard.tableEntering returnedOk.root returnedSource returnedOk := by
      rw [tableEntering_eq standard _ hc₁, tableEntering_eq standard _ hc₂]
      decide +kernel
    rw [heq]
    exact .refl _
  obtain ⟨hfindings, _⟩ := statement_verdicts_local hc₁ hc₂ rfl rfl hsame rfl htables
  exact ⟨hplain, (hfindings [0]).mp hplain⟩

end ResultRule

end DroppedResult
