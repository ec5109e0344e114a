import DroppedResult.Proofs.BoundNames
import DroppedResult.Proofs.Relatives

/-!
# What the import statements of a unit bind

`Imports.bindings` lists what a statement binds.  Here each binding is found again as a
node of the unit.

* `Cursor.Binds` says which nodes below an import statement bind a name, and to what: a
  default import, a namespace import, or a specifier between braces with or without an
  alias.  A `Specifier` is such a node with its statement and its binding.
* `Tree.specifiers` lists the specifiers of a unit for a target.  The list has all of them
  (`mem_specifiers_iff`), in order (`pairwise_specifiers`), with the bindings that a table
  takes up (`map_binding_specifiers`).

`ImportTable.last_specifier_wins` is the result, for a table that is used in any way and
for the table of a unit.  A statement that lies inside another one is read after it, so
the last specifier in the text need not be the one that counts:
`ImportTable.not_forall_holdsUnit_nodeBefore`.
-/

namespace DroppedResult

namespace Cursor

/-- The node is an import statement for the target. -/
structure ImportsFrom (source target : String) (s : Cursor) : Prop where
  statement : s.kind = .importStatement
  module : ∃ literal, s.childByField? "source" = some literal ∧
    literal.focus.literalValue source = target

/-- The node is a part of an import clause of the statement `s`. -/
def HasPart (s part : Cursor) : Prop :=
  ∃ clause ∈ s.namedChildren, clause.kind = .importClause ∧ part ∈ clause.namedChildren

/-- The node `c` below the statement `s` binds a name. -/
inductive Binds (source : String) (s c : Cursor) : String → ImportedName → Prop where
  | defaultExport (hpart : s.HasPart c) (hkind : c.kind = .identifier) :
      Binds source s c (c.focus.text source) .defaultExport
  | wholeModule {name : Cursor} (hpart : s.HasPart c) (hkind : c.kind = .namespaceImport)
      (hname : c.namedChildren.find? (·.kind == .identifier) = some name) :
      Binds source s c (name.focus.text source) .wholeModule
  | named {braces name : Cursor} (hpart : s.HasPart braces) (hbraces : braces.kind = .namedImports)
      (hmem : c ∈ braces.namedChildren) (hkind : c.kind = .importSpecifier)
      (hname : c.childByField? "name" = some name) (halias : c.childByField? "alias" = none) :
      Binds source s c (name.focus.literalValue source) (.named (name.focus.literalValue source))
  | aliased {braces name other : Cursor} (hpart : s.HasPart braces)
      (hbraces : braces.kind = .namedImports) (hmem : c ∈ braces.namedChildren)
      (hkind : c.kind = .importSpecifier) (hname : c.childByField? "name" = some name)
      (halias : c.childByField? "alias" = some other) :
      Binds source s c (other.focus.literalValue source) (.named (name.focus.literalValue source))

end Cursor

/-- An import statement, a node in it, and what the node binds. -/
structure Specifier where
  statement : Cursor
  node : Cursor
  name : String
  imported : ImportedName

/-! ## Order -/

namespace Specifier

def binding (p : Specifier) : String × ImportedName :=
  (p.name, p.imported)

/-- The node of `p` comes before the node of `q`. -/
def NodeBefore (p q : Specifier) : Prop :=
  p.node.address.isBefore q.node.address = true

/-- The statement of `p` comes before that of `q`, or they are in one statement and the
node of `p` comes first. -/
def IsBefore (p q : Specifier) : Prop :=
  p.statement.address.isBefore q.statement.address = true ∨
    p.statement = q.statement ∧ p.NodeBefore q

theorem NodeBefore.asymm {p q : Specifier} (h : p.NodeBefore q) : ¬ q.NodeBefore p := by
  rw [NodeBefore, Address.isBefore_asymm h]
  exact Bool.false_ne_true

theorem IsBefore.asymm {p q : Specifier} (h : p.IsBefore q) : ¬ q.IsBefore p := by
  rintro (hafter | ⟨hsame, hafter⟩)
  · rcases h with h | ⟨hsame, _⟩
    · rw [Address.isBefore_asymm h] at hafter
      cases hafter
    · rw [hsame, Address.isBefore_irrefl] at hafter
      cases hafter
  · rcases h with h | ⟨_, h⟩
    · rw [hsame, Address.isBefore_irrefl] at h
      cases h
    · exact h.asymm hafter

/-- In an ordered list, the last binding of a name is that of the specifier which comes
after all others for the name. -/
theorem lastBinding_map_iff {ps : List Specifier} (hsorted : ps.Pairwise IsBefore) {x : String}
    {v : ImportedName} :
    LastBinding (ps.map binding) x v ↔ ∃ p ∈ ps, p.name = x ∧ p.imported = v ∧
      ∀ q ∈ ps, q.name = x → q = p ∨ q.IsBefore p := by
  constructor
  · rintro ⟨before, after, hsplit, hafter⟩
    obtain ⟨left, rest, rfl, _, hrest⟩ := List.map_eq_append_iff.mp hsplit
    obtain ⟨p, right, rfl, hp, hright⟩ := List.map_eq_cons_iff.mp hrest
    obtain ⟨hname, himported⟩ := Prod.mk.inj hp
    refine ⟨p, by simp, hname, himported, ?_⟩
    intro q hq hqx
    rcases List.mem_append.mp hq with hq | hq
    · exact .inr ((List.pairwise_append.mp hsorted).2.2 q hq p List.mem_cons_self)
    · rcases List.mem_cons.mp hq with rfl | hq
      · exact .inl rfl
      · refine absurd hqx (hafter q.binding ?_)
        rw [← hright]
        exact List.mem_map_of_mem hq
  · rintro ⟨p, hp, rfl, rfl, hlast⟩
    obtain ⟨left, right, rfl⟩ := List.append_of_mem hp
    refine ⟨left.map binding, right.map binding, by simp [binding], ?_⟩
    intro b hb hx
    obtain ⟨q, hq, rfl⟩ := List.mem_map.mp hb
    -- a specifier further right would be both after and before
    have hafter : p.IsBefore q :=
      (List.pairwise_cons.mp (List.pairwise_append.mp hsorted).2.1).1 q hq
    rcases hlast q (by simp [hq]) hx with rfl | hbefore
    · exact hafter.asymm hafter
    · exact hafter.asymm hbefore

/-- What is found below the children of a node, child by child, is in order. -/
theorem pairwise_flatMap_children {m : Cursor} {cs : List Cursor} (hcs : cs.Sublist m.children)
    {f : Cursor → List Specifier} (hbelow : ∀ c, ∀ p ∈ f c, c.address <+: p.node.address)
    (hsorted : ∀ c, (f c).Pairwise NodeBefore) : (cs.flatMap f).Pairwise NodeBefore := by
  rw [List.pairwise_flatMap]
  refine ⟨fun c _ => hsorted c, ?_⟩
  refine (m.pairwise_children.sublist hcs).imp ?_
  intro a b hab p hp q hq
  exact hab _ _ (hbelow a p hp) (hbelow b q hq)

end Specifier

/-! ## The specifiers of a statement -/

namespace Cursor

theorem namedChildren_sublist (c : Cursor) : c.namedChildren.Sublist c.children :=
  List.filter_sublist

theorem address_prefix_of_mem_namedChildren {c m : Cursor} (h : c ∈ m.namedChildren) :
    m.address <+: c.address :=
  address_prefix_of_parent? (mem_children_iff.mp (m.namedChildren_sublist.mem h))

/-- A specifier of `s` between braces. -/
def nodeSpecifiers (source : String) (s c : Cursor) : List Specifier :=
  ((Imports.specifierBinding? source c.focus).map fun b => ⟨s, c, b.1, b.2⟩).toList

/-- The specifiers in one part of an import clause of `s`. -/
def partSpecifiers (source : String) (s part : Cursor) : List Specifier :=
  if part.kind == .namedImports then
    part.namedChildren.flatMap (nodeSpecifiers source s)
  else
    (Imports.partBindings source part.focus).map fun b => ⟨s, part, b.1, b.2⟩

def clauseSpecifiers (source : String) (s clause : Cursor) : List Specifier :=
  clause.namedChildren.flatMap (partSpecifiers source s)

/-- The specifiers of the statement `s`, in order. -/
def specifiers (source : String) (s : Cursor) : List Specifier :=
  (s.namedChildren.filter (·.kind == .importClause)).flatMap (clauseSpecifiers source s)

theorem map_binding_nodeSpecifiers (source : String) (s c : Cursor) :
    (nodeSpecifiers source s c).map Specifier.binding =
      (Imports.specifierBinding? source c.focus).toList := by
  rw [nodeSpecifiers]
  cases Imports.specifierBinding? source c.focus with
  | none => rfl
  | some b => rfl

theorem map_binding_partSpecifiers (source : String) (s part : Cursor) :
    (partSpecifiers source s part).map Specifier.binding =
      Imports.partBindings source part.focus := by
  rw [partSpecifiers]
  split
  · rename_i hkind
    have hbraces : part.focus.kind = .namedImports := eq_of_beq hkind
    have hbindings : Imports.partBindings source part.focus =
        part.focus.namedChildren.filterMap (Imports.specifierBinding? source) := by
      rw [Imports.partBindings, hbraces]
      rfl
    rw [hbindings, ← map_focus_namedChildren, List.filterMap_eq_flatMap_toList, List.map_flatMap,
      List.flatMap_map]
    simp only [map_binding_nodeSpecifiers]
  · rw [List.map_map]
    exact List.map_id _

theorem map_binding_specifiers (source : String) (s : Cursor) :
    (s.specifiers source).map Specifier.binding = Imports.bindings source s.focus := by
  have hclause (clause : Cursor) : (clauseSpecifiers source s clause).map Specifier.binding =
      Imports.clauseBindings source clause.focus := by
    rw [clauseSpecifiers, Imports.clauseBindings, ← map_focus_namedChildren, List.map_flatMap,
      List.flatMap_map]
    simp only [map_binding_partSpecifiers]
  rw [specifiers, Imports.bindings, ← map_focus_namedChildren, List.filter_map, List.map_flatMap,
    List.flatMap_map]
  simp only [hclause]
  rfl

/-! ### Membership -/

theorem specifierBinding?_eq_some_iff {source : String} {c : Cursor} {b : String × ImportedName} :
    Imports.specifierBinding? source c.focus = some b ↔ c.kind = .importSpecifier ∧
      ∃ name, c.childByField? "name" = some name ∧
        (((c.childByField? "alias").getD name).focus.literalValue source,
          .named (name.focus.literalValue source)) = b := by
  have hkind : c.focus.kind = c.kind := rfl
  rw [Imports.specifierBinding?, ← map_focus_childByField?, ← map_focus_childByField?, hkind]
  by_cases hspecifier : c.kind = .importSpecifier
  · simp [hspecifier, Option.getD_map]
  · simp [hspecifier]

theorem mem_partBindings_iff {source : String} {part : Cursor} (h : part.kind ≠ .namedImports)
    {b : String × ImportedName} :
    b ∈ Imports.partBindings source part.focus ↔
      part.kind = .identifier ∧ (part.focus.text source, .defaultExport) = b ∨
        part.kind = .namespaceImport ∧ ∃ name,
          part.namedChildren.find? (·.kind == .identifier) = some name ∧
            (name.focus.text source, .wholeModule) = b := by
  have hkind (c : Cursor) : c.focus.kind = c.kind := rfl
  rw [Imports.partBindings, ← map_focus_namedChildren, List.find?_map, hkind]
  by_cases hidentifier : part.kind = .identifier
  · have hother : Kind.identifier ≠ .namespaceImport := by decide
    simp [hidentifier, hother, eq_comm]
  · by_cases hnamespace : part.kind = .namespaceImport
    · have hother : Kind.namespaceImport ≠ .identifier := by decide
      simp [hnamespace, hother, Function.comp_def, hkind]
    · simp [hidentifier, hnamespace, h]

theorem mem_nodeSpecifiers_iff {source : String} {s c : Cursor} {p : Specifier} :
    p ∈ nodeSpecifiers source s c ↔
      p.statement = s ∧ p.node = c ∧ Imports.specifierBinding? source c.focus = some p.binding := by
  rw [nodeSpecifiers, Option.mem_toList, Option.map_eq_some_iff]
  constructor
  · rintro ⟨b, hb, rfl⟩
    exact ⟨rfl, rfl, hb⟩
  · rintro ⟨rfl, rfl, hb⟩
    exact ⟨p.binding, hb, rfl⟩

theorem binds_of_mem_partSpecifiers {source : String} {s part : Cursor} {p : Specifier}
    (hpart : s.HasPart part) (h : p ∈ partSpecifiers source s part) :
    p.statement = s ∧ Binds source s p.node p.name p.imported := by
  rw [partSpecifiers] at h
  split at h
  · rename_i hkind
    have hbraces : part.kind = .namedImports := eq_of_beq hkind
    obtain ⟨c, hc, hp⟩ := List.mem_flatMap.mp h
    obtain ⟨hstatement, rfl, hbinding⟩ := mem_nodeSpecifiers_iff.mp hp
    obtain ⟨hspecifier, name, hname, hb⟩ := specifierBinding?_eq_some_iff.mp hbinding
    obtain ⟨hlocal, himported⟩ := Prod.mk.inj hb
    refine ⟨hstatement, ?_⟩
    rw [← hlocal, ← himported]
    cases halias : p.node.childByField? "alias" with
    | none =>
      rw [Option.getD_none]
      exact .named hpart hbraces hc hspecifier hname halias
    | some other =>
      rw [Option.getD_some]
      exact .aliased hpart hbraces hc hspecifier hname halias
  · rename_i hkind
    obtain ⟨⟨x, v⟩, hb, rfl⟩ := List.mem_map.mp h
    refine ⟨rfl, ?_⟩
    show Binds source s part x v
    rcases (mem_partBindings_iff (by simpa using hkind)).mp hb with
      ⟨hidentifier, hb⟩ | ⟨hnamespace, name, hname, hb⟩
    · obtain ⟨rfl, rfl⟩ := Prod.mk.inj hb
      exact .defaultExport hpart hidentifier
    · obtain ⟨rfl, rfl⟩ := Prod.mk.inj hb
      exact .wholeModule hpart hnamespace hname

theorem mem_partSpecifiers_of_bindings {source : String} {s part : Cursor} {x : String}
    {v : ImportedName} (hkind : part.kind ≠ .namedImports)
    (hb : (x, v) ∈ Imports.partBindings source part.focus) :
    ⟨s, part, x, v⟩ ∈ partSpecifiers source s part := by
  rw [partSpecifiers, if_neg (by simpa using hkind)]
  exact List.mem_map.mpr ⟨(x, v), hb, rfl⟩

theorem mem_partSpecifiers_of_specifier (source : String) (s : Cursor) {braces c name : Cursor}
    (hbraces : braces.kind = .namedImports) (hmem : c ∈ braces.namedChildren)
    (hkind : c.kind = .importSpecifier) (hname : c.childByField? "name" = some name) :
    ⟨s, c, ((c.childByField? "alias").getD name).focus.literalValue source,
      .named (name.focus.literalValue source)⟩ ∈ partSpecifiers source s braces := by
  rw [partSpecifiers, if_pos (by simpa using hbraces)]
  refine List.mem_flatMap.mpr ⟨c, hmem, mem_nodeSpecifiers_iff.mpr ⟨rfl, rfl, ?_⟩⟩
  exact specifierBinding?_eq_some_iff.mpr ⟨hkind, name, hname, rfl⟩

theorem exists_part_of_binds {source : String} {s c : Cursor} {x : String} {v : ImportedName}
    (h : Binds source s c x v) :
    ∃ part, s.HasPart part ∧ ⟨s, c, x, v⟩ ∈ partSpecifiers source s part := by
  cases h with
  | defaultExport hpart hkind =>
    have hbraces : c.kind ≠ .namedImports := by
      rw [hkind]
      decide
    exact ⟨c, hpart, mem_partSpecifiers_of_bindings hbraces
      ((mem_partBindings_iff hbraces).mpr (.inl ⟨hkind, rfl⟩))⟩
  | wholeModule hpart hkind hname =>
    have hbraces : c.kind ≠ .namedImports := by
      rw [hkind]
      decide
    exact ⟨c, hpart, mem_partSpecifiers_of_bindings hbraces
      ((mem_partBindings_iff hbraces).mpr (.inr ⟨hkind, _, hname, rfl⟩))⟩
  | named hpart hbraces hmem hkind hname halias =>
    have h := mem_partSpecifiers_of_specifier source s hbraces hmem hkind hname
    rw [halias, Option.getD_none] at h
    exact ⟨_, hpart, h⟩
  | aliased hpart hbraces hmem hkind hname halias =>
    have h := mem_partSpecifiers_of_specifier source s hbraces hmem hkind hname
    rw [halias, Option.getD_some] at h
    exact ⟨_, hpart, h⟩

theorem mem_specifiers_iff {source : String} {s : Cursor} {p : Specifier} :
    p ∈ s.specifiers source ↔ p.statement = s ∧ Binds source s p.node p.name p.imported := by
  have hparts : p ∈ s.specifiers source ↔
      ∃ part, s.HasPart part ∧ p ∈ partSpecifiers source s part := by
    simp only [specifiers, clauseSpecifiers, List.mem_flatMap, List.mem_filter, beq_iff_eq, HasPart]
    constructor
    · rintro ⟨clause, ⟨hclause, hkind⟩, part, hpart, hp⟩
      exact ⟨part, ⟨clause, hclause, hkind, hpart⟩, hp⟩
    · rintro ⟨part, ⟨clause, hclause, hkind, hpart⟩, hp⟩
      exact ⟨clause, ⟨hclause, hkind⟩, part, hpart, hp⟩
  rw [hparts]
  constructor
  · rintro ⟨part, hpart, hp⟩
    exact binds_of_mem_partSpecifiers hpart hp
  · rintro ⟨rfl, hbinds⟩
    exact exists_part_of_binds hbinds

theorem Binds.name_of_alias {source : String} {s c other : Cursor} {x : String} {v : ImportedName}
    (h : Binds source s c x v) (hkind : c.kind = .importSpecifier)
    (halias : c.childByField? "alias" = some other) : x = other.focus.literalValue source := by
  cases h with
  | defaultExport _ hidentifier =>
    rw [hidentifier] at hkind
    exact absurd hkind (by decide)
  | wholeModule _ hnamespace =>
    rw [hnamespace] at hkind
    exact absurd hkind (by decide)
  | named _ _ _ _ _ hnone =>
    rw [hnone] at halias
    cases halias
  | aliased _ _ _ _ _ hother =>
    rw [hother] at halias
    rw [Option.some.inj halias]

/-! ### Order -/

theorem address_prefix_of_mem_partSpecifiers {source : String} {s part : Cursor} :
    ∀ p ∈ partSpecifiers source s part, part.address <+: p.node.address := by
  intro p hp
  rw [partSpecifiers] at hp
  split at hp
  · obtain ⟨c, hc, hp⟩ := List.mem_flatMap.mp hp
    rw [(mem_nodeSpecifiers_iff.mp hp).2.1]
    exact address_prefix_of_mem_namedChildren hc
  · obtain ⟨b, _, rfl⟩ := List.mem_map.mp hp
    exact List.prefix_rfl

theorem address_prefix_of_mem_clauseSpecifiers {source : String} {s clause : Cursor} :
    ∀ p ∈ clauseSpecifiers source s clause, clause.address <+: p.node.address := by
  intro p hp
  obtain ⟨part, hpart, hp⟩ := List.mem_flatMap.mp hp
  exact (address_prefix_of_mem_namedChildren hpart).trans
    (address_prefix_of_mem_partSpecifiers p hp)

theorem address_prefix_of_binds {source : String} {s c : Cursor} {x : String} {v : ImportedName}
    (h : Binds source s c x v) : s.address <+: c.address := by
  obtain ⟨part, ⟨clause, hclause, _, hpart⟩, hmem⟩ := exists_part_of_binds h
  calc s.address <+: clause.address := address_prefix_of_mem_namedChildren hclause
    _ <+: part.address := address_prefix_of_mem_namedChildren hpart
    _ <+: c.address := address_prefix_of_mem_partSpecifiers _ hmem

theorem pairwise_nodeSpecifiers (source : String) (s c : Cursor) :
    (nodeSpecifiers source s c).Pairwise Specifier.NodeBefore := by
  rw [nodeSpecifiers]
  cases Imports.specifierBinding? source c.focus with
  | none => exact .nil
  | some b => exact List.pairwise_singleton _ _

theorem pairwise_partSpecifiers (source : String) (s part : Cursor) :
    (partSpecifiers source s part).Pairwise Specifier.NodeBefore := by
  rw [partSpecifiers]
  split
  · refine Specifier.pairwise_flatMap_children part.namedChildren_sublist ?_
      (pairwise_nodeSpecifiers source s)
    intro c p hp
    rw [(mem_nodeSpecifiers_iff.mp hp).2.1]
  · rename_i hbraces
    -- without braces there is one binding at most
    rw [Imports.partBindings]
    split
    · exact List.pairwise_singleton _ _
    · split
      · cases part.focus.namedChildren.find? (·.kind == .identifier) with
        | none => exact .nil
        | some name => exact List.pairwise_singleton _ _
      · have hnone : ¬ (part.focus.kind == .namedImports) = true := hbraces
        rw [if_neg hnone]
        exact .nil

theorem pairwise_specifiers (source : String) (s : Cursor) :
    (s.specifiers source).Pairwise Specifier.NodeBefore := by
  refine Specifier.pairwise_flatMap_children (List.filter_sublist.trans s.namedChildren_sublist)
    (fun _ => address_prefix_of_mem_clauseSpecifiers) ?_
  intro clause
  exact Specifier.pairwise_flatMap_children clause.namedChildren_sublist
    (fun _ => address_prefix_of_mem_partSpecifiers) (pairwise_partSpecifiers source s)

/-! ### For a target -/

/-- The specifiers of a node, if it is an import statement for the target. -/
def specifiersFor (source target : String) (s : Cursor) : List Specifier :=
  if s.kind == .importStatement && Imports.moduleName? source s.focus == some target then
    s.specifiers source
  else
    []

theorem map_binding_specifiersFor (source target : String) (s : Cursor) :
    (s.specifiersFor source target).map Specifier.binding =
      Imports.recorded source target s.focus := by
  rw [specifiersFor, apply_ite (List.map Specifier.binding), map_binding_specifiers]
  rfl

theorem importsFrom_iff {source target : String} {s : Cursor} :
    s.ImportsFrom source target ↔
      s.kind = .importStatement ∧ Imports.moduleName? source s.focus = some target := by
  rw [Imports.moduleName?, ← map_focus_childByField?, Option.map_map, Option.map_eq_some_iff]
  exact ⟨fun h => ⟨h.statement, h.module⟩, fun h => ⟨h.1, h.2⟩⟩

theorem mem_specifiersFor_iff {source target : String} {s : Cursor} {p : Specifier} :
    p ∈ s.specifiersFor source target ↔
      p.statement = s ∧ s.ImportsFrom source target ∧ s.Binds source p.node p.name p.imported := by
  rw [specifiersFor, importsFrom_iff]
  split
  · rename_i himports
    simp only [Bool.and_eq_true, beq_iff_eq] at himports
    simp only [mem_specifiers_iff, himports, and_self, true_and]
  · rename_i himports
    simp only [Bool.and_eq_true, beq_iff_eq] at himports
    simp only [himports, List.not_mem_nil, false_and, and_false]

theorem pairwise_specifiersFor (source target : String) (s : Cursor) :
    (s.specifiersFor source target).Pairwise Specifier.NodeBefore := by
  rw [specifiersFor]
  split
  · exact s.pairwise_specifiers source
  · exact .nil

end Cursor

/-! ## The specifiers of a unit -/

namespace Tree

/-- The unit has the specifier, in an import statement for the target. -/
structure HasSpecifier (source target : String) (t : Tree) (p : Specifier) : Prop where
  mem : p.statement ∈ t.nodes
  importsFrom : p.statement.ImportsFrom source target
  binds : p.statement.Binds source p.node p.name p.imported

/-- No import statement lies inside another. -/
def ImportsApart (t : Tree) : Prop :=
  ∀ s ∈ t.nodes, ∀ u ∈ t.nodes, s.kind = .importStatement → u.kind = .importStatement →
    s.address <+: u.address → s = u

/-- The specifiers of the unit for the target, in the order in which they are read. -/
def specifiers (source target : String) (t : Tree) : List Specifier :=
  t.nodes.flatMap (·.specifiersFor source target)

theorem map_binding_specifiers (source target : String) (t : Tree) :
    (t.specifiers source target).map Specifier.binding =
      t.nodes.flatMap fun s => Imports.recorded source target s.focus := by
  rw [specifiers, List.map_flatMap]
  simp only [Cursor.map_binding_specifiersFor]

theorem mem_specifiers_iff {source target : String} {t : Tree} {p : Specifier} :
    p ∈ t.specifiers source target ↔ t.HasSpecifier source target p := by
  rw [specifiers, List.mem_flatMap]
  constructor
  · rintro ⟨s, hs, hp⟩
    obtain ⟨rfl, himports, hbinds⟩ := Cursor.mem_specifiersFor_iff.mp hp
    exact ⟨hs, himports, hbinds⟩
  · rintro ⟨hs, himports, hbinds⟩
    exact ⟨p.statement, hs, Cursor.mem_specifiersFor_iff.mpr ⟨rfl, himports, hbinds⟩⟩

theorem pairwise_specifiers (source target : String) (t : Tree) :
    (t.specifiers source target).Pairwise Specifier.IsBefore := by
  rw [specifiers, List.pairwise_flatMap]
  constructor
  · intro s _
    refine (s.pairwise_specifiersFor source target).imp_of_mem ?_
    intro p q hp hq hbefore
    have hpq : p.statement = q.statement :=
      (Cursor.mem_specifiersFor_iff.mp hp).1.trans (Cursor.mem_specifiersFor_iff.mp hq).1.symm
    exact .inr ⟨hpq, hbefore⟩
  · refine t.pairwise_isBefore_nodes.imp ?_
    intro s u hbefore p hp q hq
    obtain ⟨rfl, _⟩ := Cursor.mem_specifiersFor_iff.mp hp
    obtain ⟨rfl, _⟩ := Cursor.mem_specifiersFor_iff.mp hq
    exact .inl hbefore

/-- Where import statements are apart, specifiers are read in document order. -/
theorem isBefore_iff_nodeBefore {source target : String} {t : Tree} (h : t.ImportsApart)
    {p q : Specifier} (hp : t.HasSpecifier source target p) (hq : t.HasSpecifier source target q) :
    p.IsBefore q ↔ p.NodeBefore q := by
  have hpnode := Cursor.address_prefix_of_binds hp.binds
  have hqnode := Cursor.address_prefix_of_binds hq.binds
  have hpq := h _ hp.mem _ hq.mem hp.importsFrom.statement hq.importsFrom.statement
  have hqp := h _ hq.mem _ hp.mem hq.importsFrom.statement hp.importsFrom.statement
  by_cases hsame : p.statement = q.statement
  · rw [Specifier.IsBefore, hsame, Address.isBefore_irrefl]
    simp
  · -- neither statement is inside the other, so all of one comes before all of the other
    constructor
    · rintro (hbefore | ⟨hstatement, _⟩)
      · exact Address.isBefore_below hbefore (fun hinside => hsame (hpq hinside)) hpnode hqnode
      · exact absurd hstatement hsame
    · intro hbefore
      rcases Address.isBefore_trichotomy p.statement.address q.statement.address with
        hfirst | hplace | hlater
      · exact .inl hfirst
      · exact absurd (hpq (hplace ▸ List.prefix_rfl)) hsame
      · have hafter : q.NodeBefore p :=
          Address.isBefore_below hlater (fun hinside => hsame (hqp hinside).symm) hqnode hpnode
        exact absurd hbefore hafter.asymm

end Tree

/-! ## Tables -/

namespace ImportTable

/-- The table binds the names of the unit's specifiers for the target, each to what its last
specifier by the order `r` binds. -/
structure HoldsUnit (r : Specifier → Specifier → Prop) (source target : String) (tree : Tree)
    (table : ImportTable) : Prop where
  isBound_iff : ∀ x, table.isBound x = true ↔
    x ≠ "" ∧ ∃ p, tree.HasSpecifier source target p ∧ p.name = x
  imported_iff : ∀ x v, table.imported? x = some v ↔
    x ≠ "" ∧ ∃ p, tree.HasSpecifier source target p ∧ p.name = x ∧ p.imported = v ∧
      ∀ q, tree.HasSpecifier source target q → q.name = x → q = p ∨ r q p

theorem holdsUnit_recordAll (source target : String) (tree : Tree) :
    HoldsUnit Specifier.IsBefore source target tree
      ((empty target).recordAll source tree.nodes) := by
  have htable : (empty target).recordAll source tree.nodes =
      (empty target).bindAll ((tree.specifiers source target).map Specifier.binding) := by
    rw [recordAll_eq_bindAll, Tree.map_binding_specifiers]
    rfl
  have hholds := holdsLast_bindAll_empty target
    ((tree.specifiers source target).map Specifier.binding)
  rw [← htable] at hholds
  constructor
  · intro x
    simp only [hholds.isBound_eq, Option.isSome_iff_exists, hholds.imported_iff, exists_and_left,
      exists_lastBinding_iff, List.mem_map, exists_exists_and_eq_and, Specifier.binding,
      Tree.mem_specifiers_iff]
  · intro x v
    simp only [hholds.imported_iff, Specifier.lastBinding_map_iff (tree.pairwise_specifiers _ _),
      Tree.mem_specifiers_iff]

/-- Orders that agree on the unit's specifiers have the same last ones. -/
theorem HoldsUnit.congr {r r' : Specifier → Specifier → Prop} {source target : String} {tree : Tree}
    {table : ImportTable} (h : HoldsUnit r source target tree table)
    (hr : ∀ p q, tree.HasSpecifier source target p → tree.HasSpecifier source target q →
      (r p q ↔ r' p q)) : HoldsUnit r' source target tree table := by
  refine ⟨h.isBound_iff, ?_⟩
  intro x v
  rw [h.imported_iff]
  refine and_congr_right fun _ => exists_congr fun p => and_congr_right fun hp => ?_
  refine and_congr_right fun _ => and_congr_right fun _ => ?_
  refine forall_congr' fun q => forall_congr' fun hq => forall_congr' fun _ => ?_
  rw [hr q p hq hp]

/-- Each name is bound to the value of its last binding.  After any uses of a table that is
the last binding since the table was cleared, and in the table of a unit it is that of the
last specifier for the name.  Specifiers count in the order in which they are read, which is
document order where no import statement lies inside another. -/
theorem last_specifier_wins (target : String) :
    (∀ uses, HoldsLast target (TableUse.madeSinceReset target uses)
      (TableUse.applyAll (empty target) uses).2) ∧
    ∀ (source : String) (tree : Tree),
      HoldsUnit Specifier.IsBefore source target tree
        ((empty target).recordAll source tree.nodes) ∧
      (tree.ImportsApart → HoldsUnit Specifier.NodeBefore source target tree
        ((empty target).recordAll source tree.nodes)) ∧
      (∀ p c, tree.HasSpecifier source target p → p.node.kind = .importSpecifier →
        p.node.childByField? "alias" = some c → p.name = c.focus.literalValue source) ∧
      ((empty target).recordAll source tree.nodes).recordAll source tree.nodes =
        (empty target).recordAll source tree.nodes := by
  constructor
  · intro uses
    rw [TableUse.applyAll_table]
    exact holdsLast_bindAll_empty target _
  · intro source tree
    have hread := holdsUnit_recordAll source target tree
    refine ⟨hread, ?_, ?_, recordAll_recordAll _ source tree.nodes⟩
    · intro hapart
      exact hread.congr fun p q hp hq => Tree.isBefore_iff_nodeBefore hapart hp hq
    · intro p c hp hkind halias
      exact hp.binds.name_of_alias hkind halias

/-- `import a, { ok as a } from 'neverthrow';` -/
def twiceSource : String :=
  "import a, { ok as a } from 'neverthrow';"

def okAsA : Cursor :=
  ⟨.node ⟨.importSpecifier, true, 12, 19, none⟩
      [.node ⟨.identifier, true, 12, 14, some "name"⟩ [],
        .node ⟨.identifier, true, 18, 19, some "alias"⟩ []],
    [⟨⟨.namedImports, true, 10, 21, none⟩, [], []⟩,
      ⟨⟨.importClause, true, 7, 21, none⟩, [.node ⟨.identifier, true, 7, 8, none⟩ []], []⟩,
      ⟨⟨.importStatement, true, 0, 40, none⟩, [],
        [.node ⟨⟨"string"⟩, true, 27, 39, some "source"⟩ []]⟩,
      ⟨⟨.program, true, 0, 40, none⟩, [], []⟩]⟩

/-- A name that a default import and an alias both bind stands for the export under the
alias. -/
theorem imported_okAsA :
    ((empty "neverthrow").recordAll twiceSource okAsA.root.nodes).imported? "a" =
      some (.named "ok") := by
  have hapart : okAsA.root.ImportsApart := by
    obtain ⟨statement, hone⟩ :
        ∃ s, okAsA.root.nodes.filter (·.kind == .importStatement) = [s] := by
      rw [Tree.nodes_eq]
      exact ⟨_, rfl⟩
    have honly (s : Cursor) (hs : s ∈ okAsA.root.nodes) (hkind : s.kind = .importStatement) :
        s = statement := by
      rw [← List.mem_singleton, ← hone]
      exact List.mem_filter.mpr ⟨hs, by simpa using hkind⟩
    intro s hs u hu hskind hukind _
    rw [honly s hs hskind, honly u hu hukind]
  have hspecifiers : (okAsA.root.specifiers twiceSource "neverthrow").map
      (fun p => (p.binding, p.node.address)) =
        [(("a", .defaultExport), [0, 0, 0]), (("a", .named "ok"), [0, 0, 1, 0])] := by
    rw [Tree.specifiers, Tree.nodes_eq]
    decide +kernel
  obtain ⟨first, rest, hlist, hfirst, hrest⟩ := List.map_eq_cons_iff.mp hspecifiers
  obtain ⟨last, more, rfl, hlast, hmore⟩ := List.map_eq_cons_iff.mp hrest
  obtain rfl := List.map_eq_nil_iff.mp hmore
  obtain ⟨_, hfirstPlace⟩ := Prod.mk.inj hfirst
  obtain ⟨hbinding, hlastPlace⟩ := Prod.mk.inj hlast
  obtain ⟨hname, himported⟩ := Prod.mk.inj hbinding
  have hholds := ((last_specifier_wins "neverthrow").2 twiceSource okAsA.root).2.1 hapart
  refine (hholds.imported_iff "a" (.named "ok")).mpr ⟨by decide, last, ?_⟩
  simp only [← Tree.mem_specifiers_iff, hlist]
  refine ⟨by simp, hname, himported, ?_⟩
  intro q hq _
  rcases List.mem_pair.mp hq with rfl | rfl
  · right
    rw [Specifier.NodeBefore, hfirstPlace, hlastPlace]
    rfl
  · exact .inl rfl

/-- The text of `wrappedImport`. -/
def wrappedSource : String :=
  "import 'x' with \x7b k() \x7b import b from 'neverthrow'; \x7d \x7d * as b from 'neverthrow';"

/-- A token of the grammar that has no name. -/
def tokenAt (text : String) (start stop : Nat) : Tree :=
  .node ⟨⟨text⟩, false, start, stop, none⟩ []

/-- A string with its quotes. -/
def quotedAt (start stop : Nat) (field : Option String) : Tree :=
  .node ⟨⟨"string"⟩, true, start, stop, field⟩
    [tokenAt "'" start (start + 1),
      .node ⟨⟨"string_fragment"⟩, true, start + 1, stop - 1, none⟩ [],
      tokenAt "'" (stop - 1) stop]

/-- The statement in the middle of `wrappedImport`. -/
def innerImport : Tree :=
  .node ⟨.importStatement, true, 24, 51, none⟩
    [tokenAt "import" 24 30,
      .node ⟨.importClause, true, 31, 32, none⟩ [.node ⟨.identifier, true, 31, 32, none⟩ []],
      tokenAt "from" 33 37,
      quotedAt 38 50 (some "source"),
      tokenAt ";" 50 51]

/-- A statement that holds another one.  The module and the attributes in front of its
clause are an error, but they are kept, and so is the method in them that imports. -/
def wrappedImport : Tree :=
  .node ⟨.program, true, 0, 81, none⟩
    [.node ⟨.importStatement, true, 0, 81, none⟩
      [tokenAt "import" 0 6,
        .node ⟨⟨"ERROR"⟩, true, 7, 55, none⟩
          [quotedAt 7 10 none,
            .node ⟨⟨"import_attribute"⟩, true, 11, 55, none⟩
              [tokenAt "with" 11 15,
                .node ⟨⟨"object"⟩, true, 16, 55, none⟩
                  [tokenAt "\x7b" 16 17,
                    .node ⟨⟨"method_definition"⟩, true, 18, 53, none⟩
                      [.node ⟨⟨"property_identifier"⟩, true, 18, 19, some "name"⟩ [],
                        .node ⟨⟨"formal_parameters"⟩, true, 19, 21, some "parameters"⟩
                          [tokenAt "(" 19 20, tokenAt ")" 20 21],
                        .node ⟨⟨"statement_block"⟩, true, 22, 53, some "body"⟩
                          [tokenAt "\x7b" 22 23, innerImport, tokenAt "\x7d" 52 53]],
                    tokenAt "\x7d" 54 55]]],
        .node ⟨.importClause, true, 56, 62, none⟩
          [.node ⟨.namespaceImport, true, 56, 62, none⟩
            [tokenAt "*" 56 57, tokenAt "as" 58 60, .node ⟨.identifier, true, 61, 62, none⟩ []]],
        tokenAt "from" 63 67,
        quotedAt 68 80 (some "source"),
        tokenAt ";" 80 81]]

/-- Document order does not tell what a name is bound to.  In `wrappedImport` the namespace
stands last, but its statement is read first, and the default import is what holds. -/
theorem not_forall_holdsUnit_nodeBefore :
    ¬ ∀ (source target : String) (tree : Tree),
      HoldsUnit Specifier.NodeBefore source target tree
        ((empty target).recordAll source tree.nodes) := by
  intro h
  have hholds := h wrappedSource "neverthrow" wrappedImport
  have hspecifiers : (wrappedImport.specifiers wrappedSource "neverthrow").map
      (fun p => (p.binding, p.node.address)) =
        [(("b", .wholeModule), [0, 2, 0]),
          (("b", .defaultExport), [0, 1, 1, 1, 1, 2, 1, 1, 0])] := by
    rw [Tree.specifiers, Tree.nodes_eq]
    decide +kernel
  have htable : ((empty "neverthrow").recordAll wrappedSource wrappedImport.nodes).imported? "b" =
      some .defaultExport := by
    rw [recordAll_eq_bindAll, Tree.nodes_eq]
    decide +kernel
  obtain ⟨first, rest, hlist, hfirst, hrest⟩ := List.map_eq_cons_iff.mp hspecifiers
  obtain ⟨last, more, rfl, hlast, hmore⟩ := List.map_eq_cons_iff.mp hrest
  obtain rfl := List.map_eq_nil_iff.mp hmore
  obtain ⟨hfirstBinding, hfirstPlace⟩ := Prod.mk.inj hfirst
  obtain ⟨hfirstName, hfirstImported⟩ := Prod.mk.inj hfirstBinding
  obtain ⟨_, hlastPlace⟩ := Prod.mk.inj hlast
  obtain ⟨_, p, hp, _, himported, hbefore⟩ :=
    (hholds.imported_iff "b" .defaultExport).mp htable
  have hfirstIn : wrappedImport.HasSpecifier wrappedSource "neverthrow" first :=
    Tree.mem_specifiers_iff.mp (by simp [hlist])
  have hne : first ≠ p := by
    intro heq
    rw [heq, himported] at hfirstImported
    cases hfirstImported
  rw [← Tree.mem_specifiers_iff, hlist] at hp
  rcases List.mem_pair.mp hp with rfl | rfl
  · exact hne rfl
  · rcases hbefore first hfirstIn hfirstName with heq | hafter
    · exact hne heq
    · rw [Specifier.NodeBefore, hfirstPlace, hlastPlace] at hafter
      cases hafter

end ImportTable

end DroppedResult
