import DroppedResult.Proofs.Locality
import DroppedResult.Proofs.Wrapping

/-!
# One more import at the top

A unit gets one more import as its first statement.  Every name that the statement binds
is bound from the start, until a later import binds the name anew.

* Two tables.  `ImportTable.Extends` says that a table has the bindings of another and,
  for names that are not bound there, those of the added statement.  Reading a node keeps
  the relation, since a name that is bound anew is bound alike in both.
* One node.  Under the larger table a call keeps its role or becomes a factory call
  (`ImportTable.Extends.role_cases`).  So it is dropped if it was, and otherwise the
  added statement makes its callee a factory.
* Two runs.  `reports_of_extends` goes through the nodes of both units side by side.
* Two units.  `ImportAdded` is the change as a whole.

`ResultRule.check_importAdded` is the result.  `ImportAdded.of_front` makes the change to
any unit: the statement's text goes in front of the source, and the trees of the unit move
on by its length.
-/

namespace DroppedResult

/-! ## Two tables -/

namespace ImportTable

/-- The table `b` has the bindings of `a` and, for names that `a` does not bind, those of
`base`. -/
structure Extends (base a b : ImportTable) : Prop where
  target : a.target = b.target
  imported : ∀ x, b.imported? x = (a.imported? x).or (base.imported? x)

variable {base a b : ImportTable}

theorem extends_empty {table : ImportTable} {target : String} (htarget : table.target = target) :
    Extends table (empty target) table :=
  ⟨htarget.symm, fun _ => rfl⟩

theorem Extends.bind (hab : Extends base a b) (name : String) (imported : ImportedName) :
    Extends base (a.bind name imported) (b.bind name imported) where
  target := by rw [bind_target, bind_target, hab.target]
  imported x := by
    rw [imported?_bind, imported?_bind]
    split
    · rfl
    · exact hab.imported x

theorem Extends.bindAll (hab : Extends base a b) (bindings : List (String × ImportedName)) :
    Extends base (a.bindAll bindings) (b.bindAll bindings) := by
  induction bindings generalizing a b with
  | nil => exact hab
  | cons binding bindings ih => exact ih (hab.bind binding.1 binding.2)

theorem Extends.record (hab : Extends base a b) (source : String) (t : Tree) :
    Extends base (a.record source t) (b.record source t) := by
  rw [ImportTable.record, ImportTable.record, hab.target]
  split
  · exact hab.bindAll _
  · exact hab

end ImportTable

/-! ## One node -/

theorem Heuristic.bindsFactory_iff {name : String} {imported : ImportedName} :
    bindsFactory name imported = true ↔
      name ∈ factoryNames ∨ ∃ exported ∈ factoryNames, imported = .named exported := by
  cases imported with
  | named exported => simp [bindsFactory, or_comm]
  | defaultExport => simp [bindsFactory]
  | wholeModule => simp [bindsFactory]

/-- The node is a call of a name that the table binds.  The name is that of a factory, or
it is bound to a factory. -/
def CallsFactory (table : ImportTable) (source : String) (t : Tree) : Prop :=
  t.kind = .callExpression ∧
    ∃ callee imported, t.childByField "function" = some callee ∧ callee.kind = .identifier ∧
      table.imported? (callee.text source) = some imported ∧
      (callee.text source ∈ factoryNames ∨ ∃ exported ∈ factoryNames, imported = .named exported)

namespace ImportTable

variable {base a b : ImportTable}

theorem Extends.identifierRole_cases (hab : Extends base a b) (h : Heuristic) (name : String) :
    h.identifierRole b name = h.identifierRole a name ∨
      h.identifierRole b name = .factoryCall ∧
        ∃ v, base.imported? name = some v ∧ Heuristic.bindsFactory name v = true := by
  have himported := hab.imported name
  cases ha : a.imported? name with
  | some v =>
    rw [ha, Option.some_or] at himported
    exact .inl (by rw [Heuristic.identifierRole, himported, Heuristic.identifierRole, ha])
  | none =>
    rw [ha, Option.none_or] at himported
    cases hbase : base.imported? name with
    | none => exact .inl (by rw [Heuristic.identifierRole, himported, hbase,
        Heuristic.identifierRole, ha])
    | some v =>
      cases hfactory : Heuristic.bindsFactory name v with
      | true =>
        refine .inr ⟨?_, v, rfl, hfactory⟩
        simp [Heuristic.identifierRole, himported, hbase, hfactory]
      | false =>
        refine .inl ?_
        simp [Heuristic.identifierRole, himported, hbase, ha, hfactory]

/-- Under a larger table a node keeps its role, or the base makes it a factory call. -/
theorem Extends.role_cases (hab : Extends base a b) (h : Heuristic) (source : String) (t : Tree) :
    h.role b source t = h.role a source t ∨
      h.role b source t = .factoryCall ∧ CallsFactory base source t := by
  rw [Heuristic.role, Heuristic.role]
  split
  · exact .inl rfl
  · split
    · rename_i hkind
      rw [Heuristic.callRole, Heuristic.callRole]
      cases hcallee : t.childByField "function" with
      | none => exact .inl rfl
      | some callee =>
        by_cases hname : callee.kind = .identifier
        · simp only [hname, beq_self_eq_true, if_true]
          rcases hab.identifierRole_cases h (callee.text source) with hsame | ⟨hrole, v, hbase, hv⟩
          · exact .inl hsame
          · refine .inr ⟨hrole, beq_iff_eq.mp hkind, callee, v, hcallee, hname, hbase, ?_⟩
            exact Heuristic.bindsFactory_iff.mp hv
        · simp only [beq_eq_false_iff_ne.mpr hname]
          exact .inl rfl
    · exact .inl rfl

theorem Extends.drops_of_drops (hab : Extends base a b) {h : Heuristic} {source : String}
    {c : Cursor} (hdrops : ResultRule.drops h source a c = true) :
    ResultRule.drops h source b c = true := by
  rw [ResultRule.drops] at hdrops ⊢
  rcases hab.role_cases h source c.focus with hsame | ⟨hrole, _⟩
  · rwa [hsame]
  · rw [Bool.and_eq_true] at hdrops
    rw [hrole, hdrops.1]
    rfl

theorem Extends.callsFactory_of_drops (hab : Extends base a b) {h : Heuristic} {source : String}
    {c : Cursor} (hb : ResultRule.drops h source b c = true)
    (ha : ResultRule.drops h source a c ≠ true) : CallsFactory base source c.focus := by
  rcases hab.role_cases h source c.focus with hsame | ⟨_, hcalls⟩
  · rw [ResultRule.drops, hsame] at hb
    exact absurd hb ha
  · exact hcalls

end ImportTable

/-! ## Two runs -/

/-- Nodes that are alike, read with a table and with a larger one: what the first run
reports is reported by the second, and what only the second reports is a factory call by
the base. -/
theorem reports_of_extends {s₁ s₂ : String} {move : Address → Address} {cs₁ cs₂ : List Cursor}
    {base a b : ImportTable} (hcs : List.Forall₂ (NodesAlike s₁ s₂ move) cs₁ cs₂)
    (hab : base.Extends a b) (h : Heuristic) :
    ((ResultRule.reports h s₁ a cs₁).map fun c => move c.address).Sublist
        ((ResultRule.reports h s₂ b cs₂).map Cursor.address) ∧
      ∀ d ∈ ResultRule.reports h s₂ b cs₂,
        (∃ c ∈ ResultRule.reports h s₁ a cs₁, d.address = move c.address) ∨
          CallsFactory base s₂ d.focus := by
  induction hcs generalizing a b with
  | nil => simp [ResultRule.reports]
  | @cons c₁ c₂ cs₁ cs₂ hc _ ih =>
    obtain ⟨hsublist, hnew⟩ := ih (hab.record s₂ c₂.focus)
    rw [ResultRule.reports, ResultRule.reports, hc.drops h a, hc.record a]
    by_cases ha : ResultRule.drops h s₂ a c₂ = true
    · -- both runs report the node
      rw [if_pos ha, if_pos (hab.drops_of_drops ha)]
      refine ⟨?_, ?_⟩
      · rw [List.map_cons, List.map_cons, hc.address]
        exact hsublist.cons_cons _
      · intro d hd
        rcases List.mem_cons.mp hd with rfl | hd
        · exact .inl ⟨c₁, List.mem_cons_self, hc.address⟩
        · refine (hnew d hd).imp_left ?_
          rintro ⟨c, hmem, hplace⟩
          exact ⟨c, List.mem_cons_of_mem c₁ hmem, hplace⟩
    · rw [if_neg ha]
      by_cases hb : ResultRule.drops h s₂ b c₂ = true
      · rw [if_pos hb]
        refine ⟨?_, ?_⟩
        · rw [List.map_cons]
          exact hsublist.cons _
        · intro d hd
          rcases List.mem_cons.mp hd with rfl | hd
          · exact .inr (hab.callsFactory_of_drops hb ha)
          · exact hnew d hd
      · rw [if_neg hb]
        exact ⟨hsublist, hnew⟩

/-! ## Two units -/

/-- Where a node stands once the root has one more child in front. -/
def Address.pushed : Address → Address
  | [] => []
  | i :: b => (i + 1) :: b

/-- The second unit is the first with one more statement at the top, an import.  There is
neither a call nor another import in the statement. -/
structure ImportAdded (s₁ s₂ : String) (statement tree₁ tree₂ : Tree) : Prop where
  program₁ : tree₁.kind = .program
  program₂ : tree₂.kind = .program
  children : ∃ rest, tree₂.children = statement :: rest ∧
    List.Forall₂ (Tree.Same s₁ s₂) tree₁.children rest
  kind : statement.kind = .importStatement
  quiet : ∀ t ∈ Tree.forestPreorder statement.children,
    t.kind ≠ .importStatement ∧ t.kind.isCallLike = false

theorem Cursor.isStatement_program {l : Label} (hl : l.kind = .program) (t : Tree)
    (before after : List Tree) : isStatement ⟨t, [⟨l, before, after⟩]⟩ = true := by
  simp [isStatement, hl]

/-- The statements of the first unit, one place further on in the second. -/
theorem forall₂_nodesAlike_pushed {s₁ s₂ : String} {l₁ l₂ : Label} (hl₁ : l₁.kind = .program)
    (hl₂ : l₂.kind = .program) {ts₁ ts₂ before₁ before₂ : List Tree}
    (hrow : List.Forall₂ (Tree.Same s₁ s₂) ts₁ ts₂)
    (hnumber : before₂.length = before₁.length + 1) :
    List.Forall₂ (NodesAlike s₁ s₂ Address.pushed) (Tree.rowUnder [] l₁ before₁ [] ts₁)
      (Tree.rowUnder [] l₂ before₂ [] ts₂) := by
  induction hrow generalizing before₁ before₂ with
  | nil => simp
  | @cons t₁ t₂ ts₁ ts₂ hsame _ ih =>
    rw [Tree.rowUnder_cons, Tree.rowUnder_cons]
    refine List.rel_append ?_ (ih (by simp [hnumber]))
    -- no walk gets past the root, so the number of a statement is not seen from inside
    have hplace : JudgedAlike s₁ s₂ t₁.label [⟨l₁, before₁, ts₁ ++ []⟩] t₂.label
        [⟨l₂, before₂, ts₂ ++ []⟩] :=
      .statement (Cursor.isStatement_program hl₁ t₁ before₁ (ts₁ ++ []))
        (Cursor.isStatement_program hl₂ t₂ before₂ (ts₂ ++ []))
    refine forall₂_nodesAlike_nodesUnder hsame.readAlike hsame.record_eq hsame.children hplace ?_
    intro b
    simp [Cursor.addressOf, Address.pushed, hnumber]

namespace ImportAdded

variable {s₁ s₂ : String} {statement tree₁ tree₂ : Tree}

theorem passedOver (hadded : ImportAdded s₁ s₂ statement tree₁ tree₂) {c : Cursor}
    {path : List Frame} {l : Label} {before after : List Tree}
    (hc : c ∈ Tree.rowUnder path l before after statement.children) : PassedOver s₂ c := by
  obtain ⟨himport, hcall⟩ := hadded.quiet c.focus (Cursor.focus_mem_forestPreorder hc)
  exact .of_kind himport hcall

/-- Reading the added statement binds its names and reports nothing. -/
theorem read_statement (hadded : ImportAdded s₁ s₂ statement tree₁ tree₂)
    (path : List Frame) (h : Heuristic) (table : ImportTable) :
    ResultRule.reports h s₂ table (statement.nodesUnder path) = [] ∧
      table.recordAll s₂ (statement.nodesUnder path) = table.record s₂ statement := by
  have hnodes : statement.nodesUnder path =
      ⟨statement, path⟩ :: Tree.rowUnder path statement.label [] [] statement.children := by
    conv_lhs => rw [← statement.node_label_children, Tree.nodesUnder_node,
      statement.node_label_children]
  have hdrops : ResultRule.drops h s₂ table ⟨statement, path⟩ = false := by
    refine ResultRule.drops_of_not_isCallLike ?_
    show statement.kind.isCallLike = false
    rw [hadded.kind]
    decide
  have hquiet : Interspersed (NodesAlike s₁ s₂ Address.pushed) (PassedOver s₂) []
      (Tree.rowUnder path statement.label [] [] statement.children) :=
    .of_quiet fun c hc => hadded.passedOver hc
  obtain ⟨hreports, htable⟩ := hquiet.reports_eq h (table.record s₂ statement)
  rw [hnodes, ResultRule.reports, hdrops, ImportTable.recordAll_cons, htable]
  exact ⟨List.map_eq_nil_iff.mp hreports, rfl⟩

end ImportAdded

namespace ResultRule

theorem reports_root {h : Heuristic} {source : String} {table : ImportTable} {l : Label}
    (hl : l.kind = .program) (ts : List Tree) :
    reports h source table (Tree.node l ts).nodes =
      reports h source table (Tree.rowUnder [] l [] [] ts) := by
  have hdrops : drops h source table ⟨.node l ts, []⟩ = false := by
    refine drops_of_not_isCallLike ?_
    show l.kind.isCallLike = false
    rw [hl]
    decide
  have hrecord : table.record source (.node l ts) = table := by
    refine ImportTable.record_of_kind_ne ?_
    show l.kind ≠ .importStatement
    rw [hl]
    decide
  rw [Tree.nodes_eq, Tree.nodesUnder_node, reports, hdrops, hrecord]
  rfl

/-- One more import at the top of a unit takes no finding away, and leaves the order of the
findings as it is.  What is found in addition is a call of a name that the statement binds,
and the name is that of a factory or stands for one. -/
theorem check_importAdded (rule : ResultRule) {tree₁ tree₂ statement : Tree} {s₁ s₂ : String}
    (hadded : ImportAdded s₁ s₂ statement tree₁ tree₂) :
    ((rule.check tree₁ s₁).map fun c => c.address.pushed).Sublist
        ((rule.check tree₂ s₂).map Cursor.address) ∧
      ∀ d ∈ rule.check tree₂ s₂,
        (∃ c ∈ rule.check tree₁ s₁, d.address = c.address.pushed) ∨
          CallsFactory ((ImportTable.empty rule.targetModule).record s₂ statement) s₂ d.focus := by
  obtain ⟨l₁, ts₁⟩ := tree₁
  obtain ⟨l₂, ts₂⟩ := tree₂
  obtain ⟨rest, hchildren, hsame⟩ := hadded.children
  obtain rfl : ts₂ = statement :: rest := hchildren
  have hl₁ : l₁.kind = .program := hadded.program₁
  have hl₂ : l₂.kind = .program := hadded.program₂
  obtain ⟨hquiet, htable⟩ := hadded.read_statement [⟨l₂, [], rest ++ []⟩] rule.heuristic
    (.empty rule.targetModule)
  rw [check_eq_reports, check_eq_reports, reports_root hl₁, reports_root hl₂,
    Tree.rowUnder_cons, reports_append, hquiet, htable, List.nil_append]
  have hrows : List.Forall₂ (NodesAlike s₁ s₂ Address.pushed) (Tree.rowUnder [] l₁ [] [] ts₁)
      (Tree.rowUnder [] l₂ [statement] [] rest) := forall₂_nodesAlike_pushed hl₁ hl₂ hsame rfl
  have htarget : ((ImportTable.empty rule.targetModule).record s₂ statement).target =
      rule.targetModule := ImportTable.record_target _ _ _
  exact reports_of_extends hrows (ImportTable.extends_empty htarget) rule.heuristic

end ResultRule

/-! ## Text in front of a source -/

theorem Source.textBetween_append (front source : String) (start stop : Nat) :
    textBetween (front ++ source) (front.utf8ByteSize + start) (front.utf8ByteSize + stop) =
      textBetween source start stop := by
  rw [textBetween, textBetween, String.toByteArray_append, ← String.size_toByteArray,
    ByteArray.extract_append_size_add]

/-- The label of a node that moves on by the given number of bytes. -/
def Label.shifted (offset : Nat) (l : Label) : Label :=
  { l with start := offset + l.start, stop := offset + l.stop }

namespace Tree

mutual

/-- The tree with all its nodes moved on by the given number of bytes. -/
def shifted (offset : Nat) : Tree → Tree
  | node l ts => node (l.shifted offset) (forestShifted offset ts)

def forestShifted (offset : Nat) : List Tree → List Tree
  | [] => []
  | t :: ts => t.shifted offset :: forestShifted offset ts

end

mutual

/-- A tree reads the same when text is put in front of its source. -/
theorem same_shifted (front source : String) : ∀ t : Tree,
    t.Same source (front ++ source) (t.shifted front.utf8ByteSize)
  | node l ts => by
    rw [shifted]
    refine .node ⟨rfl, rfl, rfl, ?_⟩ (forall₂_same_shifted front source ts)
    exact (Source.textBetween_append front source l.start l.stop).symm

theorem forall₂_same_shifted (front source : String) : ∀ ts : List Tree,
    List.Forall₂ (Tree.Same source (front ++ source)) ts
      (forestShifted front.utf8ByteSize ts)
  | [] => by
    rw [forestShifted]
    exact .nil
  | t :: ts => by
    rw [forestShifted]
    exact .cons (same_shifted front source t) (forall₂_same_shifted front source ts)

end

end Tree

/-- Every unit can have an import put in front of it. -/
theorem ImportAdded.of_front (front source : String) {l₁ l₂ : Label} {statement : Tree}
    (ts : List Tree) (hl₁ : l₁.kind = .program) (hl₂ : l₂.kind = .program)
    (hkind : statement.kind = .importStatement)
    (hquiet : ∀ t ∈ Tree.forestPreorder statement.children,
      t.kind ≠ .importStatement ∧ t.kind.isCallLike = false) :
    ImportAdded source (front ++ source) statement (.node l₁ ts)
      (.node l₂ (statement :: Tree.forestShifted front.utf8ByteSize ts)) where
  program₁ := hl₁
  program₂ := hl₂
  children := ⟨_, rfl, Tree.forall₂_same_shifted front source ts⟩
  kind := hkind
  quiet := hquiet

namespace ResultRule

/-- The name `ok` is used, bound to something that is no factory, and used again. -/
def reboundSource : String :=
  "ok(1); import { match as ok } from 'neverthrow'; ok(2);"

def matchAsOk : Tree :=
  .node ⟨.importStatement, true, 7, 48, none⟩
    [.node ⟨.importClause, true, 14, 29, none⟩
      [.node ⟨.namedImports, true, 14, 29, none⟩
        [.node ⟨.importSpecifier, true, 16, 27, none⟩
          [.node ⟨.identifier, true, 16, 21, some "name"⟩ [],
            .node ⟨.identifier, true, 25, 27, some "alias"⟩ []]]],
      .node ⟨⟨"string"⟩, true, 35, 47, some "source"⟩ []]

def reboundStatements : List Tree :=
  [okStatement 0, matchAsOk, okStatement 49]

def reboundUnit : Tree :=
  .node ⟨.program, true, 0, 55, none⟩ reboundStatements

def okInFront : String :=
  "import { ok } from 'neverthrow'; "

def importedUnit : Tree :=
  .node ⟨.program, true, 0, 88, none⟩
    (okImport :: Tree.forestShifted okInFront.utf8ByteSize reboundStatements)

/-- The call after the second import is a finding with and without the first, and the call
before it is one only with the first. -/
theorem check_importedUnit :
    (standard.check reboundUnit reboundSource).map Cursor.address = [[2, 0]] ∧
      (standard.check importedUnit (okInFront ++ reboundSource)).map Cursor.address =
        [[1, 0], [3, 0]] ∧
      ∀ d ∈ standard.check importedUnit (okInFront ++ reboundSource), d.address = [1, 0] →
        CallsFactory ((ImportTable.empty "neverthrow").record (okInFront ++ reboundSource)
          okImport) (okInFront ++ reboundSource) d.focus := by
  have hrebound : (standard.check reboundUnit reboundSource).map Cursor.address = [[2, 0]] := by
    rw [check_eq_reports, Tree.nodes_eq]
    decide +kernel
  have hadded : ImportAdded reboundSource (okInFront ++ reboundSource) okImport reboundUnit
      importedUnit := .of_front okInFront reboundSource reboundStatements rfl rfl rfl (by decide)
  obtain ⟨_, hnew⟩ := check_importAdded standard hadded
  refine ⟨hrebound, ?_, ?_⟩
  · rw [check_eq_reports, Tree.nodes_eq]
    decide +kernel
  · intro d hd hplace
    refine (hnew d hd).resolve_left ?_
    rintro ⟨c, hc, hpushed⟩
    have hmem : c.address ∈ (standard.check reboundUnit reboundSource).map Cursor.address :=
      List.mem_map_of_mem hc
    rw [hrebound, List.mem_singleton] at hmem
    rw [hplace, hmem] at hpushed
    cases hpushed

end ResultRule

end DroppedResult
