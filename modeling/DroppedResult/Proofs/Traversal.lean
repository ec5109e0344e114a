import DroppedResult.Tree.Cursor

/-!
# The order of the nodes

`Tree.nodesUnder` lists the nodes of a tree that hangs below a path, by recursion
on the tree.  It is the plain meaning of the walk that `Cursor.next?` makes.

There are four groups.

* The walk.  `Cursor.visits_eq` cuts a walk in two: the nodes of the subtree it
  starts at, and what comes once it has left that subtree.  `Tree.nodes_eq` is the
  whole tree.
* Addresses.  A node below a path has an address that extends the path's, and the
  addresses come in the order that `Address.isBefore` gives, so that no node is met
  twice.
* The tree around a cursor.  `Cursor.root` is the tree that a cursor is a place in.
* The nodes before and after a subtree, as lists that follow the path upwards.
-/

namespace DroppedResult

namespace Tree

mutual

/-- The nodes of a tree that hangs below `path`: the root, then the nodes of the
children in turn. -/
def nodesUnder : List Frame → Tree → List Cursor
  | path, node l ts => ⟨node l ts, path⟩ :: rowUnder path l [] [] ts

/-- The nodes of the siblings `ts` below a node labelled `l`.  They stand between
`before`, which has the nearest sibling first, and `after`. -/
def rowUnder : List Frame → Label → List Tree → List Tree → List Tree → List Cursor
  | _, _, _, _, [] => []
  | path, l, before, after, t :: ts =>
    nodesUnder (⟨l, before, ts ++ after⟩ :: path) t ++ rowUnder path l (t :: before) after ts

end

theorem nodesUnder_node (path : List Frame) (l : Label) (ts : List Tree) :
    (node l ts).nodesUnder path = ⟨node l ts, path⟩ :: rowUnder path l [] [] ts := by
  rw [nodesUnder]

@[simp] theorem rowUnder_nil (path : List Frame) (l : Label) (before after : List Tree) :
    rowUnder path l before after [] = [] := by rw [rowUnder]

@[simp] theorem rowUnder_cons (path : List Frame) (l : Label) (before after : List Tree)
    (t : Tree) (ts : List Tree) :
    rowUnder path l before after (t :: ts) =
      t.nodesUnder (⟨l, before, ts ++ after⟩ :: path) ++
        rowUnder path l (t :: before) after ts := by rw [rowUnder]

theorem rowUnder_append (path : List Frame) (l : Label) (before after ts us : List Tree) :
    rowUnder path l before after (ts ++ us) =
      rowUnder path l before (us ++ after) ts ++
        rowUnder path l (ts.reverse ++ before) after us := by
  induction ts generalizing before with
  | nil => simp
  | cons t ts ih => simp [ih]

theorem self_mem_nodesUnder (t : Tree) (path : List Frame) : ⟨t, path⟩ ∈ t.nodesUnder path := by
  cases t
  rw [nodesUnder_node]
  exact List.mem_cons_self

theorem mem_forestPreorder {u : Tree} {ts : List Tree} :
    u ∈ forestPreorder ts ↔ ∃ t ∈ ts, u ∈ t.preorder := by
  induction ts with
  | nil => simp [forestPreorder]
  | cons t ts ih => simp [forestPreorder, ih]

end Tree

/-! ## The walk -/

namespace Cursor

/-- Where the walk goes on below a node labelled `l` when the children in `before`
are done and those in `ts` are to come. -/
def rowStart (path : List Frame) (l : Label) (before : List Tree) : List Tree → Option Cursor
  | [] => nextOutside? (.node l before.reverse) path
  | t :: ts => some ⟨t, ⟨l, before, ts⟩ :: path⟩

theorem next?_node (path : List Frame) (l : Label) (ts : List Tree) :
    next? ⟨.node l ts, path⟩ = rowStart path l [] ts := by
  cases ts <;> rfl

theorem nextOutside?_cons (t : Tree) (l : Label) (before after : List Tree) (up : List Frame) :
    nextOutside? t (⟨l, before, after⟩ :: up) = rowStart up l (t :: before) after := by
  cases after with
  | nil => simp [nextOutside?, rowStart, Frame.plug]
  | cons s after => rfl

def visitsFrom : Option Cursor → List Cursor
  | none => []
  | some c => c.visits

theorem visits_cons (c : Cursor) : c.visits = c :: visitsFrom c.next? := by
  rw [visits]
  split <;> rename_i h <;> rw [h] <;> rfl

mutual

/-- A walk visits the subtree it starts at, and then what lies outside. -/
theorem visits_eq : ∀ (t : Tree) (path : List Frame),
    visits ⟨t, path⟩ = t.nodesUnder path ++ visitsFrom (nextOutside? t path)
  | .node l ts, path => by
    rw [visits_cons, next?_node, visitsFrom_rowStart ts path l [], Tree.nodesUnder_node]
    simp

theorem visitsFrom_rowStart : ∀ (ts : List Tree) (path : List Frame) (l : Label)
    (before : List Tree),
    visitsFrom (rowStart path l before ts) =
      Tree.rowUnder path l before [] ts ++
        visitsFrom (nextOutside? (.node l (before.reverse ++ ts)) path)
  | [], path, l, before => by simp [rowStart]
  | t :: ts, path, l, before => by
    have hrow := visitsFrom_rowStart ts path l (t :: before)
    rw [rowStart, visitsFrom, visits_eq t, nextOutside?_cons, hrow]
    simp

end

end Cursor

/-- The walk over a tree visits its nodes in pre-order. -/
theorem Tree.nodes_eq (t : Tree) : t.nodes = t.nodesUnder [] := by
  rw [nodes, Cursor.ofTree, Cursor.visits_eq]
  simp [Cursor.nextOutside?, Cursor.visitsFrom]

/-! ## Addresses -/

namespace Address

/-- The order of addresses in a tree: a node is before those below it, and before
those that leave a common way further to the right. -/
def isBefore : Address → Address → Bool
  | _, [] => false
  | [], _ :: _ => true
  | i :: a, j :: b => i < j || (i == j && isBefore a b)

@[simp] theorem isBefore_nil (a : Address) : isBefore a [] = false := by
  cases a <;> rfl

@[simp] theorem isBefore_append (a b c : Address) : isBefore (a ++ b) (a ++ c) = isBefore b c := by
  induction a with
  | nil => rfl
  | cons i a ih => simp [isBefore, ih]

theorem isBefore_irrefl (a : Address) : isBefore a a = false := by
  simpa using isBefore_append a [] []

theorem isBefore_asymm {a b : Address} (h : isBefore a b = true) : isBefore b a = false := by
  induction a generalizing b with
  | nil => exact isBefore_nil b
  | cons i a ih =>
    cases b with
    | nil => simp at h
    | cons j b =>
      simp only [isBefore, Bool.or_eq_true, decide_eq_true_eq, Bool.and_eq_true, beq_iff_eq] at h
      rcases h with hlt | ⟨rfl, hab⟩
      · simp [isBefore]
        omega
      · simp [isBefore, ih hab]

/-- A node is not below its own child. -/
theorem not_prefix_above (a : Address) (k : Nat) : ¬ (a ++ [k]) <+: a := by
  intro h
  have hle := h.length_le
  simp only [List.length_append, List.length_singleton] at hle
  omega

/-- What is below one child is not below another. -/
theorem not_prefix_of_ne (a b : Address) {j k : Nat} (h : j ≠ k) :
    ¬ (a ++ [k]) <+: (a ++ j :: b) := by
  rw [List.prefix_append_right_inj]
  simp [List.cons_prefix_cons, Ne.symm h]

end Address

namespace Cursor

@[simp] theorem addressOf_cons (f : Frame) (up : List Frame) :
    addressOf (f :: up) = addressOf up ++ [f.before.length] := rfl

@[simp] theorem address_mk (t : Tree) (path : List Frame) :
    address ⟨t, path⟩ = addressOf path := rfl

mutual

theorem address_of_mem_nodesUnder : ∀ {t : Tree} {path : List Frame} {c : Cursor},
    c ∈ t.nodesUnder path → ∃ b, c.address = addressOf path ++ b
  | .node l ts, path, c, hc => by
    rw [Tree.nodesUnder_node, List.mem_cons] at hc
    rcases hc with rfl | hc
    · exact ⟨[], by simp⟩
    · obtain ⟨j, b, _, _, hb⟩ := address_of_mem_rowUnder hc
      exact ⟨j :: b, hb⟩

theorem address_of_mem_rowUnder : ∀ {ts : List Tree} {path : List Frame} {l : Label}
    {before after : List Tree} {c : Cursor}, c ∈ Tree.rowUnder path l before after ts →
    ∃ j b, before.length ≤ j ∧ j < before.length + ts.length ∧ c.address = addressOf path ++ j :: b
  | [], _, _, _, _, _, hc => by simp at hc
  | t :: ts, path, l, before, after, c, hc => by
    rw [Tree.rowUnder_cons, List.mem_append] at hc
    rcases hc with hc | hc
    · obtain ⟨b, hb⟩ := address_of_mem_nodesUnder hc
      exact ⟨before.length, b, Nat.le_refl _, by simp, by simpa using hb⟩
    · obtain ⟨j, b, hle, hlt, hb⟩ := address_of_mem_rowUnder hc
      simp only [List.length_cons] at hle hlt ⊢
      exact ⟨j, b, by omega, by omega, hb⟩

end

mutual

theorem pairwise_isBefore_nodesUnder : ∀ (t : Tree) (path : List Frame),
    (t.nodesUnder path).Pairwise fun c d => c.address.isBefore d.address = true
  | .node l ts, path => by
    rw [Tree.nodesUnder_node, List.pairwise_cons]
    refine ⟨?_, pairwise_isBefore_rowUnder ts path l [] []⟩
    intro d hd
    obtain ⟨j, b, _, _, hb⟩ := address_of_mem_rowUnder hd
    rw [hb, address_mk, ← List.append_nil (addressOf path), List.append_assoc,
      Address.isBefore_append]
    rfl

theorem pairwise_isBefore_rowUnder : ∀ (ts : List Tree) (path : List Frame) (l : Label)
    (before after : List Tree), (Tree.rowUnder path l before after ts).Pairwise
      fun c d => c.address.isBefore d.address = true
  | [], _, _, _, _ => by simp
  | t :: ts, path, l, before, after => by
    rw [Tree.rowUnder_cons, List.pairwise_append]
    refine ⟨pairwise_isBefore_nodesUnder t _, pairwise_isBefore_rowUnder ts path l _ _, ?_⟩
    intro c hc d hd
    obtain ⟨b, hb⟩ := address_of_mem_nodesUnder hc
    obtain ⟨j, b', hle, _, hb'⟩ := address_of_mem_rowUnder hd
    rw [hb, hb', addressOf_cons, List.append_assoc, Address.isBefore_append]
    simp only [List.length_cons] at hle
    simp [Address.isBefore]
    omega

end

end Cursor

theorem Tree.pairwise_isBefore_nodes (t : Tree) :
    t.nodes.Pairwise fun c d => c.address.isBefore d.address = true := by
  rw [nodes_eq]
  exact Cursor.pairwise_isBefore_nodesUnder t []

/-- No node is visited twice. -/
theorem Tree.nodup_nodes (t : Tree) : t.nodes.Nodup := by
  refine t.pairwise_isBefore_nodes.imp ?_
  rintro c d hcd rfl
  simp [Address.isBefore_irrefl] at hcd

/-! ## The tree around a cursor -/

namespace Cursor

/-- The tree that has `t` at the end of the given path. -/
def rootOf : Tree → List Frame → Tree
  | t, [] => t
  | t, f :: up => rootOf (f.plug t) up

theorem rootOf_append (t : Tree) (path up : List Frame) :
    rootOf t (path ++ up) = rootOf (rootOf t path) up := by
  induction path generalizing t with
  | nil => rfl
  | cons f path ih => exact ih (f.plug t)

/-- The whole tree that the node is a node of. -/
def root (c : Cursor) : Tree :=
  rootOf c.focus c.path

mutual

theorem root_of_mem_nodesUnder : ∀ {t : Tree} {path : List Frame} {c : Cursor},
    c ∈ t.nodesUnder path → c.root = rootOf t path
  | .node l ts, path, c, hc => by
    rw [Tree.nodesUnder_node, List.mem_cons] at hc
    rcases hc with rfl | hc
    · rfl
    · simpa using root_of_mem_rowUnder hc

theorem root_of_mem_rowUnder : ∀ {ts : List Tree} {path : List Frame} {l : Label}
    {before after : List Tree} {c : Cursor}, c ∈ Tree.rowUnder path l before after ts →
    c.root = rootOf (.node l (before.reverse ++ ts ++ after)) path
  | [], _, _, _, _, _, hc => by simp at hc
  | t :: ts, path, l, before, after, c, hc => by
    rw [Tree.rowUnder_cons, List.mem_append] at hc
    rcases hc with hc | hc
    · rw [root_of_mem_nodesUnder hc, rootOf, Frame.plug]
      simp
    · rw [root_of_mem_rowUnder hc]
      simp

end

mutual

theorem focus_mem_preorder : ∀ {t : Tree} {path : List Frame} {c : Cursor},
    c ∈ t.nodesUnder path → c.focus ∈ t.preorder
  | .node l ts, path, c, hc => by
    rw [Tree.nodesUnder_node, List.mem_cons] at hc
    rw [Tree.preorder, List.mem_cons]
    rcases hc with rfl | hc
    · exact .inl rfl
    · exact .inr (focus_mem_forestPreorder hc)

theorem focus_mem_forestPreorder : ∀ {ts : List Tree} {path : List Frame} {l : Label}
    {before after : List Tree} {c : Cursor}, c ∈ Tree.rowUnder path l before after ts →
    c.focus ∈ Tree.forestPreorder ts
  | [], _, _, _, _, _, hc => by simp at hc
  | t :: ts, path, l, before, after, c, hc => by
    rw [Tree.rowUnder_cons, List.mem_append] at hc
    rw [Tree.forestPreorder, List.mem_append]
    rcases hc with hc | hc
    · exact .inl (focus_mem_preorder hc)
    · exact .inr (focus_mem_forestPreorder hc)

end

/-! ## The nodes before and after a subtree -/

/-- The nodes that come before the subtree `t` at the end of the path. -/
def nodesBefore : Tree → List Frame → List Cursor
  | _, [] => []
  | t, f :: up =>
    nodesBefore (f.plug t) up ++
      ⟨f.plug t, up⟩ :: Tree.rowUnder up f.label [] (t :: f.after) f.before.reverse

/-- The nodes that come after the subtree `t` at the end of the path. -/
def nodesAfter : Tree → List Frame → List Cursor
  | _, [] => []
  | t, f :: up => Tree.rowUnder up f.label (t :: f.before) [] f.after ++ nodesAfter (f.plug t) up

theorem nodesUnder_plug (f : Frame) (t : Tree) (up : List Frame) :
    (f.plug t).nodesUnder up =
      ⟨f.plug t, up⟩ :: Tree.rowUnder up f.label [] (t :: f.after) f.before.reverse ++
        t.nodesUnder (f :: up) ++ Tree.rowUnder up f.label (t :: f.before) [] f.after := by
  have hrow := Tree.rowUnder_append up f.label [] [] f.before.reverse (t :: f.after)
  rw [Frame.plug, Tree.nodesUnder_node, hrow]
  simp

/-- A cursor cuts the nodes of its tree in three: those before its subtree, those
of its subtree, and those after. -/
theorem nodes_rootOf (t : Tree) (path : List Frame) :
    (rootOf t path).nodes = nodesBefore t path ++ t.nodesUnder path ++ nodesAfter t path := by
  induction path generalizing t with
  | nil => simp [rootOf, nodesBefore, nodesAfter, Tree.nodes_eq]
  | cons f up ih =>
    rw [rootOf, ih, nodesUnder_plug, nodesBefore, nodesAfter]
    simp

theorem mem_nodes_iff {c : Cursor} {t : Tree} : c ∈ t.nodes ↔ c.root = t := by
  constructor
  · intro hc
    rw [Tree.nodes_eq] at hc
    exact root_of_mem_nodesUnder hc
  · rintro rfl
    rw [root, nodes_rootOf, List.mem_append, List.mem_append]
    exact .inl (.inr (Tree.self_mem_nodesUnder c.focus c.path))

/-- No node before a subtree is inside it. -/
theorem not_extends_of_mem_nodesBefore {t : Tree} {path : List Frame} {c : Cursor}
    (hc : c ∈ nodesBefore t path) : ¬ addressOf path <+: c.address := by
  induction path generalizing t with
  | nil => simp [nodesBefore] at hc
  | cons f up ih =>
    rw [nodesBefore, List.mem_append, List.mem_cons] at hc
    rcases hc with hc | rfl | hc
    · intro hext
      exact ih hc ((List.prefix_append _ _).trans hext)
    · exact Address.not_prefix_above (addressOf up) f.before.length
    · obtain ⟨j, b, _, hlt, hb⟩ := address_of_mem_rowUnder hc
      simp only [List.length_nil, List.length_reverse] at hlt
      rw [hb]
      exact Address.not_prefix_of_ne _ _ (by omega)

/-- No node after a subtree is inside it. -/
theorem not_extends_of_mem_nodesAfter {t : Tree} {path : List Frame} {c : Cursor}
    (hc : c ∈ nodesAfter t path) : ¬ addressOf path <+: c.address := by
  induction path generalizing t with
  | nil => simp [nodesAfter] at hc
  | cons f up ih =>
    rw [nodesAfter, List.mem_append] at hc
    rcases hc with hc | hc
    · obtain ⟨j, b, hle, _, hb⟩ := address_of_mem_rowUnder hc
      simp only [List.length_cons] at hle
      rw [hb]
      exact Address.not_prefix_of_ne _ _ (by omega)
    · intro hext
      exact ih hc ((List.prefix_append _ _).trans hext)

end Cursor

end DroppedResult
