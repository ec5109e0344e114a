import DroppedResult.Proofs.Relatives
import DroppedResult.Tree.Rows

/-!
# The walk over a tree and its rows

A cursor can go to the first child of its node, to the next sibling, and to the parent.
The walk over a tree is made of these moves alone: it goes down as long as it can, and
from a node without children it goes to the next sibling, or climbs until there is one.
It keeps no list of what is still to come.

* `Cursor.Walk` is the loop of moves, as a trace.  From every node there is one trace,
  and `Cursor.visits` is what it visits: `Cursor.walk_visit_iff`.
* The nodes that are visited are those of the recursive traversal, and a node comes
  before its children, which come in order.
* Rows.  `Tree.ofRows?` reads the rows that `Tree.rows` writes, and no others; these are
  the rows of the visited nodes.
* Parents.  `Row.IsParent` finds the parent of a row by the depths of the rows before it,
  and it is the row of the parent.

`Tree.nodes_in_rowOrder` is the result.
-/

namespace DroppedResult

/-! ## The loop of moves -/

namespace Cursor

/-- Where the walk is: at a node that is to be visited, or behind a subtree that is
done. -/
inductive Stage where
  | visit (c : Cursor)
  | leave (c : Cursor)

/-- The walk from a stage to the end of the tree, with the nodes that it visits. -/
inductive Walk : Stage → List Cursor → Prop where
  | down {c d : Cursor} {cs : List Cursor} (hchild : c.firstChild? = some d)
      (rest : Walk (.visit d) cs) : Walk (.visit c) (c :: cs)
  | leaf {c : Cursor} {cs : List Cursor} (hchild : c.firstChild? = none)
      (rest : Walk (.leave c) cs) : Walk (.visit c) (c :: cs)
  | across {c d : Cursor} {cs : List Cursor} (hsibling : c.nextSibling? = some d)
      (rest : Walk (.visit d) cs) : Walk (.leave c) cs
  | up {c p : Cursor} {cs : List Cursor} (hsibling : c.nextSibling? = none)
      (hparent : c.parent? = some p) (rest : Walk (.leave p) cs) : Walk (.leave c) cs
  | finish {c : Cursor} (hsibling : c.nextSibling? = none) (hparent : c.parent? = none) :
      Walk (.leave c) []

/-- The moves leave no choice. -/
theorem Walk.unique {stage : Stage} {cs ds : List Cursor} (h : Walk stage cs)
    (h' : Walk stage ds) : cs = ds := by
  induction h generalizing ds with
  | down hchild _ ih =>
    cases h' with
    | down hchild' rest =>
      obtain rfl := Option.some.inj (hchild.symm.trans hchild')
      rw [ih rest]
    | leaf hchild' => simp [hchild] at hchild'
  | leaf hchild _ ih =>
    cases h' with
    | down hchild' => simp [hchild] at hchild'
    | leaf _ rest => rw [ih rest]
  | across hsibling _ ih =>
    cases h' with
    | across hsibling' rest =>
      obtain rfl := Option.some.inj (hsibling.symm.trans hsibling')
      exact ih rest
    | up hsibling' => simp [hsibling] at hsibling'
    | finish hsibling' => simp [hsibling] at hsibling'
  | up hsibling hparent _ ih =>
    cases h' with
    | across hsibling' => simp [hsibling] at hsibling'
    | up _ hparent' rest =>
      obtain rfl := Option.some.inj (hparent.symm.trans hparent')
      exact ih rest
    | finish _ hparent' => simp [hparent] at hparent'
  | finish hsibling hparent =>
    cases h' with
    | across hsibling' => simp [hsibling] at hsibling'
    | up _ hparent' => simp [hparent] at hparent'
    | finish => rfl

/-- Climbing ends at the next node outside the subtree, or behind the whole tree. -/
theorem walk_leave {t : Tree} {path : List Frame}
    (h : ∀ d, nextOutside? t path = some d → Walk (.visit d) d.visits) :
    Walk (.leave ⟨t, path⟩) (visitsFrom (nextOutside? t path)) := by
  fun_induction nextOutside? t path with
  | case1 => exact .finish rfl rfl
  | case2 => exact .across rfl (h _ rfl)
  | case3 t l before up ih => exact .up rfl rfl (ih h)

theorem walk_visits (c : Cursor) : Walk (.visit c) c.visits := by
  rw [visits_cons]
  cases hchild : c.firstChild? with
  | some d =>
    have hnext : c.next? = some d := by rw [next?, hchild]
    have hahead := next?_ahead hnext
    rw [hnext]
    exact .down hchild (walk_visits d)
  | none =>
    have hnext : c.next? = nextOutside? c.focus c.path := by rw [next?, hchild]
    rw [hnext]
    refine .leaf hchild (walk_leave fun d hd => ?_)
    have hahead := next?_ahead (hnext.trans hd)
    exact walk_visits d
termination_by c.ahead
decreasing_by all_goals omega

/-- The loop ends, and `visits` is what it visits. -/
theorem walk_visit_iff (c : Cursor) (cs : List Cursor) : Walk (.visit c) cs ↔ cs = c.visits := by
  constructor
  · intro h
    exact h.unique (walk_visits c)
  · intro h
    rw [h]
    exact walk_visits c

/-! ## The order of the nodes -/

mutual

theorem map_focus_nodesUnder : ∀ (t : Tree) (path : List Frame),
    (t.nodesUnder path).map focus = t.preorder
  | .node l ts, path => by
    rw [Tree.nodesUnder_node, Tree.preorder, List.map_cons, map_focus_rowUnder ts]

theorem map_focus_rowUnder : ∀ (ts : List Tree) (path : List Frame) (l : Label)
    (before after : List Tree),
    (Tree.rowUnder path l before after ts).map focus = Tree.forestPreorder ts
  | [], _, _, _, _ => by rw [Tree.rowUnder_nil, Tree.forestPreorder, List.map_nil]
  | t :: ts, path, l, before, after => by
    rw [Tree.rowUnder_cons, Tree.forestPreorder, List.map_append, map_focus_nodesUnder t,
      map_focus_rowUnder ts]

end

theorem row_sublist_rowUnder (path : List Frame) (l : Label) (before after ts : List Tree) :
    (row path l before after ts).Sublist (Tree.rowUnder path l before after ts) := by
  induction ts generalizing before with
  | nil => exact .slnil
  | cons t ts ih =>
    rw [row, Tree.rowUnder_cons]
    have hself := Tree.self_mem_nodesUnder t (⟨l, before, ts ++ after⟩ :: path)
    exact (List.singleton_sublist.mpr hself).append (ih (t :: before))

/-- A node comes before its children, and they come in order. -/
theorem cons_children_sublist {c : Cursor} {t : Tree} (hc : c ∈ t.nodes) :
    (c :: c.children).Sublist t.nodes := by
  obtain ⟨⟨l, ts⟩, path⟩ := c
  obtain rfl := mem_nodes_iff.mp hc
  rw [root, nodes_rootOf, Tree.nodesUnder_node, List.append_assoc]
  refine List.sublist_append_of_sublist_right (List.sublist_append_of_sublist_left ?_)
  exact .cons_cons _ (row_sublist_rowUnder path l [] [] ts)

/-! ## Rows -/

/-- The row of a node. -/
def toRow (c : Cursor) : Row :=
  ⟨c.path.length, c.label⟩

mutual

theorem map_toRow_nodesUnder : ∀ (t : Tree) (path : List Frame),
    (t.nodesUnder path).map toRow = t.rowsAt path.length
  | .node l ts, path => by
    rw [Tree.nodesUnder_node, Tree.rowsAt, List.map_cons, map_toRow_rowUnder ts]
    rfl

theorem map_toRow_rowUnder : ∀ (ts : List Tree) (path : List Frame) (l : Label)
    (before after : List Tree),
    (Tree.rowUnder path l before after ts).map toRow = Tree.forestRowsAt (path.length + 1) ts
  | [], _, _, _, _ => by rw [Tree.rowUnder_nil, Tree.forestRowsAt, List.map_nil]
  | t :: ts, path, l, before, after => by
    rw [Tree.rowUnder_cons, Tree.forestRowsAt, List.map_append, map_toRow_nodesUnder t,
      map_toRow_rowUnder ts, List.length_cons]

end

end Cursor

namespace Tree

/-- The walk visits the nodes in the order of the rows. -/
theorem map_toRow_nodes (t : Tree) : t.nodes.map Cursor.toRow = t.rows := by
  rw [nodes_eq]
  exact Cursor.map_toRow_nodesUnder t []

theorem takeDepth_eq {d : Nat} {pending rest : Pending} {ts : List Tree}
    (h : takeDepth d pending = (ts, rest)) : pending = ts.map (d, ·) ++ rest := by
  fun_induction takeDepth d pending generalizing ts with
  | case1 =>
    obtain ⟨rfl, rfl⟩ := Prod.mk.inj h
    rfl
  | case2 t rest ts' rest' hrest ih =>
    obtain ⟨rfl, rfl⟩ := Prod.mk.inj h
    rw [List.map_cons, List.cons_append, ← ih hrest]
  | case3 e t rest hne =>
    obtain ⟨rfl, rfl⟩ := Prod.mk.inj h
    rfl

/-- The first tree that is read has a root of depth `d` at most. -/
def Shallow (d : Nat) (pending : Pending) : Prop :=
  ∀ e ∈ pending.head?, e.1 ≤ d

theorem takeDepth_map_append {d : Nat} {rest : Pending} (h : Shallow d rest) (ts : List Tree) :
    takeDepth (d + 1) (ts.map (d + 1, ·) ++ rest) = (ts, rest) := by
  induction ts with
  | nil =>
    cases rest with
    | nil => rfl
    | cons e rest =>
      have hle : e.1 ≤ d := h e rfl
      rw [List.map_nil, List.nil_append, takeDepth, if_neg (by omega)]
  | cons t ts ih => rw [List.map_cons, List.cons_append, takeDepth, if_pos rfl, ih]

mutual

/-- Reading the rows of a tree gives the tree. -/
theorem foldr_attach_rowsAt : ∀ (t : Tree) (d : Nat) (pending : Pending), Shallow d pending →
    (t.rowsAt d).foldr attach pending = (d, t) :: pending
  | .node l ts, d, pending, h => by
    rw [rowsAt, List.foldr_cons, foldr_attach_forestRowsAt ts d pending h, attach,
      takeDepth_map_append h]

theorem foldr_attach_forestRowsAt : ∀ (ts : List Tree) (d : Nat) (pending : Pending),
    Shallow d pending →
    (forestRowsAt (d + 1) ts).foldr attach pending = ts.map (d + 1, ·) ++ pending
  | [], d, pending, _ => by rw [forestRowsAt]; rfl
  | t :: ts, d, pending, h => by
    have hnext : Shallow (d + 1) (ts.map (d + 1, ·) ++ pending) := by
      intro e he
      cases ts with
      | nil =>
        have hle : e.1 ≤ d := h e he
        omega
      | cons s ts =>
        obtain rfl := Option.some.inj he
        exact Nat.le_refl _
    rw [forestRowsAt, List.foldr_append, foldr_attach_forestRowsAt ts d pending h,
      foldr_attach_rowsAt t (d + 1) _ hnext]
    rfl

end

theorem flatMap_rowsAt_map (d : Nat) (ts : List Tree) :
    (ts.map (d, ·)).flatMap (fun e => e.2.rowsAt e.1) = forestRowsAt d ts := by
  induction ts with
  | nil => rw [forestRowsAt]; rfl
  | cons t ts ih => rw [forestRowsAt, List.map_cons, List.flatMap_cons, ih]

/-- The trees that are read have the rows that were read. -/
theorem flatMap_rowsAt_foldr_attach (rows : List Row) :
    (rows.foldr attach []).flatMap (fun e => e.2.rowsAt e.1) = rows := by
  induction rows with
  | nil => rfl
  | cons row rows ih =>
    rw [List.foldr_cons, attach]
    cases htake : takeDepth (row.depth + 1) (rows.foldr attach []) with
    | mk ts rest =>
      rw [takeDepth_eq htake, List.flatMap_append, flatMap_rowsAt_map] at ih
      simp only [List.flatMap_cons]
      rw [rowsAt, List.cons_append, ih]

theorem ofRows?_eq_some_iff {rows : List Row} {t : Tree} :
    ofRows? rows = some t ↔ rows = t.rows := by
  constructor
  · intro h
    have hrows := flatMap_rowsAt_foldr_attach rows
    rw [ofRows?] at h
    split at h
    · rename_i u hread
      obtain rfl := Option.some.inj h
      rw [hread, List.flatMap_singleton] at hrows
      exact hrows.symm
    · cases h
  · intro h
    have hread := foldr_attach_rowsAt t 0 [] (by intro e he; cases he)
    rw [h, ofRows?, Tree.rows, hread]
    rfl

end Tree

/-! ## Parents -/

namespace Row

def depthAt (rows : List Row) (i : Nat) : Option Nat :=
  rows[i]?.map Row.depth

/-- Row `j` is the nearest row before row `i` of depth one less. -/
def IsParent (rows : List Row) (j i : Nat) : Prop :=
  j < i ∧ i < rows.length ∧ depthAt rows i = (depthAt rows j).map (· + 1) ∧
    ∀ k < i, j < k → depthAt rows k ≠ depthAt rows j

instance (rows : List Row) (j i : Nat) : Decidable (IsParent rows j i) :=
  inferInstanceAs (Decidable (_ ∧ _))

theorem IsParent.unique {rows : List Row} {j j' i : Nat} (h : IsParent rows j i)
    (h' : IsParent rows j' i) : j = j' := by
  obtain ⟨hlt, _, hdepth, hnone⟩ := h
  obtain ⟨hlt', _, hdepth', hnone'⟩ := h'
  have hsame : depthAt rows j = depthAt rows j' :=
    Option.map_injective (fun _ _ => Nat.succ.inj) (hdepth.symm.trans hdepth')
  rcases Nat.lt_trichotomy j j' with hbefore | heq | hafter
  · exact absurd hsame.symm (hnone j' hlt' hbefore)
  · exact heq
  · exact absurd hsame (hnone' j hlt hafter)

theorem isParent_of_split (before between after : List Row) (r s : Row)
    (hdepth : s.depth = r.depth + 1) (hbetween : ∀ m ∈ between, m.depth ≠ r.depth) :
    IsParent (before ++ r :: (between ++ s :: after)) before.length
      (before.length + 1 + between.length) := by
  have hr : depthAt (before ++ r :: (between ++ s :: after)) before.length = some r.depth := by
    simp [depthAt]
  refine ⟨by omega, by simp; omega, ?_, ?_⟩
  · rw [hr]
    simp [depthAt, Nat.add_assoc, Nat.add_comm 1, hdepth]
  · intro k hafter hbefore hk
    rw [hr] at hk
    obtain ⟨m, hm, hmdepth⟩ := Option.map_eq_some_iff.mp hk
    obtain ⟨n, rfl⟩ : ∃ n, k = before.length + (n + 1) := ⟨k - before.length - 1, by omega⟩
    rw [List.getElem?_append_right (by omega), Nat.add_sub_cancel_left, List.getElem?_cons_succ,
      List.getElem?_append_left (by omega)] at hm
    exact hbetween m (List.mem_of_getElem? hm) hmdepth

end Row

namespace Cursor

theorem length_addressOf (path : List Frame) : (addressOf path).length = path.length := by
  induction path with
  | nil => rfl
  | cons f up ih => simp [ih]

theorem depth_lt_of_mem_rowUnder {ts : List Tree} {path : List Frame} {l : Label}
    {before after : List Tree} {c : Cursor} (hc : c ∈ Tree.rowUnder path l before after ts) :
    path.length < c.path.length := by
  obtain ⟨j, b, _, _, haddress⟩ := address_of_mem_rowUnder hc
  have hlength := congrArg List.length haddress
  rw [address, length_addressOf, List.length_append, length_addressOf, List.length_cons] at hlength
  omega

/-- Between a node and its parent there are only nodes below the parent. -/
theorem exists_split_of_parent? {c p : Cursor} {t : Tree} (hc : c ∈ t.nodes)
    (hparent : c.parent? = some p) :
    ∃ before between after, t.nodes = before ++ p :: (between ++ c :: after) ∧
      ∀ m ∈ between, p.path.length < m.path.length := by
  obtain ⟨⟨l, ts⟩, path⟩ := c
  cases path with
  | nil => cases hparent
  | cons f up =>
    obtain rfl := Option.some.inj hparent
    obtain rfl := mem_nodes_iff.mp hc
    refine ⟨nodesBefore (f.plug (.node l ts)) up,
      Tree.rowUnder up f.label [] (.node l ts :: f.after) f.before.reverse,
      Tree.rowUnder (f :: up) l [] [] ts ++ nodesAfter (.node l ts) (f :: up), ?_, ?_⟩
    · rw [root, nodes_rootOf, nodesBefore, Tree.nodesUnder_node]
      simp
    · intro m hm
      exact depth_lt_of_mem_rowUnder hm

theorem isParent_of_parent? {t : Tree} {i j : Nat} {c p : Cursor} (hi : t.nodes[i]? = some c)
    (hj : t.nodes[j]? = some p) (hparent : c.parent? = some p) :
    Row.IsParent (t.nodes.map toRow) j i := by
  obtain ⟨before, between, after, hnodes, hbetween⟩ :=
    exists_split_of_parent? (List.mem_of_getElem? hi) hparent
  have hdepth := path_length_of_parent? hparent
  have hnodup := t.nodup_nodes
  -- no node is visited twice, so the two numbers are those of the split
  have hnumber {k n : Nat} {d : Cursor} (hk : t.nodes[k]? = some d) (hn : t.nodes[n]? = some d) :
      k = n :=
    (List.getElem?_inj (List.getElem?_eq_some_iff.mp hk).1 hnodup).mp (hk.trans hn.symm)
  obtain rfl : j = before.length := hnumber hj (by rw [hnodes]; simp)
  obtain rfl : i = before.length + 1 + between.length :=
    hnumber hi (by rw [hnodes]; simp [Nat.add_assoc, Nat.add_comm 1])
  have hsplit := Row.isParent_of_split (before.map toRow) (between.map toRow) (after.map toRow)
    p.toRow c.toRow hdepth
  rw [hnodes]
  simp only [List.length_map] at hsplit
  simp only [List.map_append, List.map_cons]
  apply hsplit
  intro m hm
  obtain ⟨d, hd, rfl⟩ := List.mem_map.mp hm
  exact Nat.ne_of_gt (hbetween d hd)

/-- The parent of a node has the nearest row before it of depth one less. -/
theorem parent?_eq_some_iff_isParent {t : Tree} {i j : Nat} {c p : Cursor}
    (hi : t.nodes[i]? = some c) (hj : t.nodes[j]? = some p) :
    c.parent? = some p ↔ Row.IsParent (t.nodes.map toRow) j i := by
  constructor
  · exact isParent_of_parent? hi hj
  · intro h
    cases hparent : c.parent? with
    | none =>
      -- the root has depth zero, and no row is less deep
      obtain ⟨_, _, hdepth, _⟩ := h
      obtain ⟨u, path⟩ := c
      cases path with
      | nil => simp [Row.depthAt, hi, hj, toRow] at hdepth
      | cons f up => cases hparent
    | some q =>
      obtain ⟨before, between, after, hnodes, _⟩ :=
        exists_split_of_parent? (List.mem_of_getElem? hi) hparent
      have hq : t.nodes[before.length]? = some q := by rw [hnodes]; simp
      obtain rfl := h.unique (isParent_of_parent? hi hq hparent)
      exact hq.symm.trans hj

end Cursor

/-! ## Trees -/

namespace Tree

/-- The loop of moves over a tree ends, and visits the nodes of the tree in the order of
the recursive traversal: each once, before its children, and these in order.  The rows
that denote the tree are those of the visited nodes, in the same order, and the parent of
a node has the nearest row before it of depth one less. -/
theorem nodes_in_rowOrder (t : Tree) :
    (∀ cs, Cursor.Walk (.visit (.ofTree t)) cs ↔ cs = t.nodes) ∧
      t.nodes.map Cursor.focus = t.preorder ∧
      t.nodes.Nodup ∧ (∀ c, c ∈ t.nodes ↔ c.root = t) ∧
      (∀ c ∈ t.nodes, (c :: c.children).Sublist t.nodes) ∧
      (∀ rows, ofRows? rows = some t ↔ rows = t.nodes.map Cursor.toRow) ∧
      ∀ i j c p, t.nodes[i]? = some c → t.nodes[j]? = some p →
        (c.parent? = some p ↔ Row.IsParent (t.nodes.map Cursor.toRow) j i) := by
  refine ⟨Cursor.walk_visit_iff (.ofTree t), ?_, t.nodup_nodes, ?_, ?_, ?_, ?_⟩
  · rw [nodes_eq]
    exact Cursor.map_focus_nodesUnder t []
  · intro c
    exact Cursor.mem_nodes_iff
  · intro c hc
    exact Cursor.cons_children_sublist hc
  · intro rows
    rw [map_toRow_nodes]
    exact ofRows?_eq_some_iff
  · intro i j c p hi hj
    exact Cursor.parent?_eq_some_iff_isParent hi hj

/-- The rows of `f(); g`, with the expressions as children of the program. -/
def twoStatementRows : List Row :=
  [⟨0, ⟨.program, true, 0, 6, none⟩⟩, ⟨1, ⟨.callExpression, true, 0, 3, none⟩⟩,
    ⟨2, ⟨.identifier, true, 0, 1, some "function"⟩⟩, ⟨1, ⟨.identifier, true, 5, 6, none⟩⟩]

/-- The parent of the last row is found by depths alone, past two other rows. -/
theorem parent?_twoStatementRows :
    ∃ t c p, ofRows? twoStatementRows = some t ∧ t.nodes[3]? = some c ∧ t.nodes[0]? = some p ∧
      Row.IsParent twoStatementRows 0 3 ∧ c.parent? = some p := by
  obtain ⟨t, hread⟩ : ∃ t, ofRows? twoStatementRows = some t := ⟨_, rfl⟩
  obtain ⟨_, _, _, _, _, hrows, hparents⟩ := nodes_in_rowOrder t
  have hnodes : twoStatementRows = t.nodes.map Cursor.toRow := (hrows _).mp hread
  have hlength : t.nodes.length = 4 := by
    rw [← List.length_map, ← hnodes]
    rfl
  have hlast := List.getElem?_eq_getElem (l := t.nodes) (i := 3) (by omega)
  have hfirst := List.getElem?_eq_getElem (l := t.nodes) (i := 0) (by omega)
  have hparent := hparents 3 0 _ _ hlast hfirst
  rw [← hnodes] at hparent
  exact ⟨t, _, _, hread, hlast, hfirst, by decide, hparent.mpr (by decide)⟩

end Tree

end DroppedResult
