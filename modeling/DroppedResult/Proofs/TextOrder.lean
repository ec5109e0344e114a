import DroppedResult.Proofs.Positions
import DroppedResult.Proofs.Runs

/-!
# Violations in the order of the text

A check finds its violations in pre-order, and a run arranges them by place.  In a tree
whose ranges are nested as the ranges of a grammar are, the two orders are the same.

* Nested ranges.  `Tree.WellNested` says how the ranges of a tree lie to each other.
* Nodes.  In a nested tree no node starts before a node that comes earlier in
  pre-order: `Tree.WellNested.pairwise_start_nodes`.
* Violations.  Those of one file are then in order already, and arranging them changes
  nothing: `ResultRule.violations_in_textOrder`.
-/

namespace DroppedResult

/-! ## Nested ranges -/

namespace Tree

/-- The range of the node holds the ranges of its children, which lie one behind the
other. -/
structure HoldsChildren (t : Tree) : Prop where
  range : t.label.start ≤ t.label.stop
  inside : ∀ child ∈ t.children,
    t.label.start ≤ child.label.start ∧ child.label.stop ≤ t.label.stop
  apart : t.children.Pairwise fun a b => a.label.stop ≤ b.label.start

/-- Every node of the tree holds its children. -/
def WellNested (t : Tree) : Prop :=
  ∀ s ∈ t.preorder, s.HoldsChildren

instance (t : Tree) : Decidable t.HoldsChildren :=
  decidable_of_iff (t.label.start ≤ t.label.stop ∧
      (∀ child ∈ t.children,
        t.label.start ≤ child.label.start ∧ child.label.stop ≤ t.label.stop) ∧
      t.children.Pairwise fun a b => a.label.stop ≤ b.label.start)
    ⟨fun ⟨hrange, hinside, hapart⟩ => ⟨hrange, hinside, hapart⟩,
      fun h => ⟨h.range, h.inside, h.apart⟩⟩

instance (t : Tree) : Decidable t.WellNested :=
  inferInstanceAs (Decidable (∀ s ∈ t.preorder, s.HoldsChildren))

namespace WellNested

theorem holdsChildren {l : Label} {ts : List Tree} (h : (node l ts).WellNested) :
    (node l ts).HoldsChildren := by
  apply h
  rw [preorder]
  exact List.mem_cons_self

theorem child {l : Label} {ts : List Tree} (h : (node l ts).WellNested) {t : Tree}
    (ht : t ∈ ts) : t.WellNested := by
  intro s hs
  apply h
  rw [preorder]
  exact List.mem_cons_of_mem _ (mem_forestPreorder.mpr ⟨t, ht, hs⟩)

/-! ## Nodes -/

mutual

/-- The nodes of a nested tree start inside its range. -/
theorem start_of_mem_nodesUnder : ∀ {t : Tree} {path : List Frame} {c : Cursor},
    t.WellNested → c ∈ t.nodesUnder path →
    t.label.start ≤ c.label.start ∧ c.label.start ≤ t.label.stop
  | .node l ts, path, c, h, hc => by
    have hroot := h.holdsChildren
    rw [nodesUnder_node, List.mem_cons] at hc
    rcases hc with rfl | hc
    · exact ⟨Nat.le_refl _, hroot.range⟩
    · obtain ⟨t, ht, hstart, hstop⟩ := start_of_mem_rowUnder (fun t ht => h.child ht) hc
      obtain ⟨hleft, hright⟩ := hroot.inside t ht
      exact ⟨hleft.trans hstart, hstop.trans hright⟩

theorem start_of_mem_rowUnder : ∀ {ts : List Tree} {path : List Frame} {l : Label}
    {before after : List Tree} {c : Cursor}, (∀ t ∈ ts, t.WellNested) →
    c ∈ rowUnder path l before after ts →
    ∃ t ∈ ts, t.label.start ≤ c.label.start ∧ c.label.start ≤ t.label.stop
  | [], _, _, _, _, _, _, hc => by simp at hc
  | t :: ts, path, l, before, after, c, h, hc => by
    rw [rowUnder_cons, List.mem_append] at hc
    rcases hc with hc | hc
    · exact ⟨t, List.mem_cons_self, start_of_mem_nodesUnder (h t List.mem_cons_self) hc⟩
    · obtain ⟨u, hu, hrange⟩ :=
        start_of_mem_rowUnder (fun u hu => h u (List.mem_cons_of_mem t hu)) hc
      exact ⟨u, List.mem_cons_of_mem t hu, hrange⟩

end

mutual

theorem pairwise_start_nodesUnder : ∀ {t : Tree} (path : List Frame), t.WellNested →
    (t.nodesUnder path).Pairwise fun c d => c.label.start ≤ d.label.start
  | .node l ts, path, h => by
    have hrow := pairwise_start_rowUnder path l [] [] (fun t ht => h.child ht)
      h.holdsChildren.apart
    rw [nodesUnder_node, List.pairwise_cons]
    refine ⟨?_, hrow⟩
    intro d hd
    obtain ⟨t, ht, hstart, _⟩ := start_of_mem_rowUnder (fun t ht => h.child ht) hd
    exact (h.holdsChildren.inside t ht).1.trans hstart

theorem pairwise_start_rowUnder : ∀ {ts : List Tree} (path : List Frame) (l : Label)
    (before after : List Tree), (∀ t ∈ ts, t.WellNested) →
    (ts.Pairwise fun a b => a.label.stop ≤ b.label.start) →
    (rowUnder path l before after ts).Pairwise fun c d => c.label.start ≤ d.label.start
  | [], _, _, _, _, _, _ => by simp
  | t :: ts, path, l, before, after, h, hapart => by
    obtain ⟨hfirst, hrest⟩ := List.pairwise_cons.mp hapart
    have hts : ∀ u ∈ ts, u.WellNested := fun u hu => h u (List.mem_cons_of_mem t hu)
    rw [rowUnder_cons, List.pairwise_append]
    refine ⟨pairwise_start_nodesUnder _ (h t List.mem_cons_self),
      pairwise_start_rowUnder path l _ _ hts hrest, ?_⟩
    -- what is in the first tree starts before its end, and what follows starts behind it
    intro c hc d hd
    have hc' := (start_of_mem_nodesUnder (h t List.mem_cons_self) hc).2
    obtain ⟨u, hu, hd', _⟩ := start_of_mem_rowUnder hts hd
    have hbetween := hfirst u hu
    omega

end

theorem pairwise_start_nodes {t : Tree} (h : t.WellNested) :
    t.nodes.Pairwise fun c d => c.label.start ≤ d.label.start := by
  rw [nodes_eq]
  exact h.pairwise_start_nodesUnder []

end WellNested

end Tree

/-! ## Violations -/

/-- Within a file the order of places is the order of the text. -/
theorem Violation.notAfter_of_start_le {a b : Violation} (hfile : a.file = b.file)
    (h : a.start ≤ b.start) : notAfter a b = true := by
  rw [notAfter_iff]
  rintro (hbefore | ⟨_, hplace⟩)
  · rw [hfile, ← FilePath.compare_eq_lt_iff, (FilePath.compare_eq_eq_iff _ _).mpr rfl] at hbefore
    cases hbefore
  · have hstart := Prod.Lex.toLex_le_toLex.mp h
    simp only [UInt32.lt_iff_toNat_lt, UInt32.le_iff_toNat_le, ← UInt32.toNat_inj] at hstart hplace
    omega

namespace ResultRule

theorem pairwise_start_violations (rule : ResultRule) (file : FilePath) {tree : Tree}
    {source : String} (hnested : tree.WellNested) (hsize : source.utf8ByteSize < 2 ^ 32 - 1) :
    (rule.violations file tree source).Pairwise fun a b => a.start ≤ b.start := by
  rw [violations, check_eq_filter_nodes, List.pairwise_map]
  refine (hnested.pairwise_start_nodes.filter _).imp ?_
  intro c d hstart
  exact Violation.start_ofLabel_le id rule.severity file message hsize hstart

/-- In a nested tree the violations of a file are found in the order of the text, and a
run over that file gives them as they were found. -/
theorem violations_in_textOrder (rule : ResultRule) (file : FilePath) (tree : Tree)
    (source : String) (hnested : tree.WellNested) (hsize : source.utf8ByteSize < 2 ^ 32 - 1) :
    (rule.violations file tree source).Pairwise (fun a b => a.start ≤ b.start) ∧
      ∀ (grammars : Grammars) (fs : FileSystem) (language : Language),
        fs.readText file = .ok source → grammars language source = tree →
        (runRules grammars fs [rule.toLintRule] [⟨file, some language⟩]).violations =
          rule.violations file tree source := by
  have horder := rule.pairwise_start_violations file hnested hsize
  refine ⟨horder, ?_⟩
  intro grammars fs language hread htree
  have hfound : rule.violationsIn grammars fs ⟨file, some language⟩ =
      rule.violations file tree source := by
    simp only [violationsIn, hread, htree]
  have hfile {v : Violation} (hv : v ∈ rule.violations file tree source) : v.file = file := by
    rw [← hfound] at hv
    exact (of_mem_violationsIn hv).1
  have hplaces : (rule.violations file tree source).Pairwise (Violation.notAfter · ·) := by
    refine horder.imp_of_mem ?_
    intro a b ha hb hab
    exact Violation.notAfter_of_start_le ((hfile ha).trans (hfile hb).symm) hab
  rw [runRules_eq, List.flatMap_singleton, hfound]
  exact List.mergeSort_of_pairwise hplaces

/-- The unit `loadResult(`, `fetchResult())` on two lines. -/
def nestedUnit : Tree :=
  .node ⟨.program, true, 0, 26, none⟩
    [.node ⟨⟨"expression_statement"⟩, true, 0, 26, none⟩
      [.node ⟨.callExpression, true, 0, 26, none⟩
        [.node ⟨.identifier, true, 0, 10, some "function"⟩ [],
          .node ⟨⟨"arguments"⟩, true, 10, 26, some "arguments"⟩
            [.node ⟨.callExpression, true, 12, 25, none⟩
              [.node ⟨.identifier, true, 12, 23, some "function"⟩ [],
                .node ⟨⟨"arguments"⟩, true, 23, 25, some "arguments"⟩ []]]]]]

/-- The outer call stands before the inner one, as found and as arranged. -/
theorem violations_nestedUnit :
    let source := "loadResult(\nfetchResult())"
    let file := FilePath.ofText "a.ts"
    let fs := FileSystem.empty.put [file.bytes] (.file source.toByteArray .full)
    let found := standard.violations file nestedUnit source
    nestedUnit.WellNested ∧ source.utf8ByteSize < 2 ^ 32 - 1 ∧ fs.readText file = .ok source ∧
      found.map (fun v => (v.line, v.column)) = [(1, 1), (2, 1)] ∧
      found.Pairwise (fun a b => a.start ≤ b.start) ∧
      (runRules (fun _ _ => nestedUnit) fs [standard.toLintRule]
        [⟨file, some .typescript⟩]).violations = found := by
  intro source file fs found
  have hnested : nestedUnit.WellNested := by decide +kernel
  have hsize : source.utf8ByteSize < 2 ^ 32 - 1 := by decide +kernel
  have hread : fs.readText file = .ok source := by decide +kernel
  obtain ⟨horder, hrun⟩ := violations_in_textOrder standard file nestedUnit source hnested hsize
  refine ⟨hnested, hsize, hread, ?_, horder, hrun _ fs .typescript hread rfl⟩
  show (violations _ _ _ _).map _ = _
  rw [violations, check_eq_reports, Tree.nodes_eq]
  decide +kernel

end ResultRule

end DroppedResult
