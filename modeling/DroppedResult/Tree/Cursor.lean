import DroppedResult.Tree.Basic

/-!
# Cursors

A cursor is a node seen in its tree: the subtree at the node, and the path up to
the root.  Each frame of the path is one ancestor, with the siblings to the left
and to the right of the way down.  Two occurrences of equal subtrees are two
cursors, so "is this child the one we came from" is a question about frames.
`Cursor.address` is where a node stands: the child numbers on the way down to it.

`Cursor.next?` goes to the first child, else to the next sibling of the node or
of the nearest ancestor that has one.  `Cursor.visits` follows it until it ends;
`Cursor.ahead` counts the nodes that are still to come and decreases with every
step.
-/

namespace DroppedResult

/-- One step of the way up: the parent's label and the siblings on both sides.
`before` has the nearest sibling first. -/
structure Frame where
  label : Label
  before : List Tree
  after : List Tree

structure Cursor where
  focus : Tree
  path : List Frame

/-- The child numbers on the way down from the root, counted from zero. -/
abbrev Address := List Nat

namespace Frame

/-- The labels of the parent's children, given the label of the child below. -/
def childLabels (f : Frame) (child : Label) : List Label :=
  f.before.reverse.map Tree.label ++ child :: f.after.map Tree.label

/-- The label of the first child that the parent holds under `field`. -/
def childByField (f : Frame) (child : Label) (field : String) : Option Label :=
  (f.childLabels child).find? (·.field == some field)

/-- The child below is the first one that the parent holds under `field`. -/
def holdsAs (f : Frame) (child : Label) (field : String) : Bool :=
  child.field == some field && !f.before.any (·.label.field == some field)

/-- The parent with its children, given the child below. -/
def plug (f : Frame) (t : Tree) : Tree :=
  .node f.label (f.before.reverse ++ t :: f.after)

end Frame

namespace Cursor

def ofTree (t : Tree) : Cursor :=
  ⟨t, []⟩

def label (c : Cursor) : Label :=
  c.focus.label

def kind (c : Cursor) : Kind :=
  c.label.kind

def addressOf : List Frame → Address
  | [] => []
  | f :: up => addressOf up ++ [f.before.length]

/-- The place of the node in its tree. -/
def address (c : Cursor) : Address :=
  addressOf c.path

def firstChild? : Cursor → Option Cursor
  | ⟨.node _ [], _⟩ => none
  | ⟨.node l (t :: ts), path⟩ => some ⟨t, ⟨l, [], ts⟩ :: path⟩

def nextSibling? : Cursor → Option Cursor
  | ⟨t, ⟨l, before, s :: after⟩ :: up⟩ => some ⟨s, ⟨l, t :: before, after⟩ :: up⟩
  | _ => none

def parent? : Cursor → Option Cursor
  | ⟨_, []⟩ => none
  | ⟨t, f :: up⟩ => some ⟨f.plug t, up⟩

/-- The next sibling of the node or of its nearest ancestor that has one. -/
def nextOutside? : Tree → List Frame → Option Cursor
  | _, [] => none
  | t, ⟨l, before, s :: after⟩ :: up => some ⟨s, ⟨l, t :: before, after⟩ :: up⟩
  | t, ⟨l, before, []⟩ :: up => nextOutside? (Frame.plug ⟨l, before, []⟩ t) up

/-- The node that follows in pre-order. -/
def next? (c : Cursor) : Option Cursor :=
  match c.firstChild? with
  | some d => some d
  | none => nextOutside? c.focus c.path

/-- Number of nodes to the right of a path. -/
def pathAhead : List Frame → Nat
  | [] => 0
  | f :: up => Tree.forestSize f.after + pathAhead up

/-- Number of nodes that follow in pre-order. -/
def ahead (c : Cursor) : Nat :=
  Tree.forestSize c.focus.children + pathAhead c.path

theorem nextOutside?_ahead {t : Tree} {path : List Frame} {d : Cursor}
    (h : nextOutside? t path = some d) : d.ahead + 1 = pathAhead path := by
  fun_induction nextOutside? t path with
  | case1 => simp at h
  | case2 t l before s after up =>
    obtain rfl := Option.some.inj h
    simp [ahead, pathAhead, s.size_eq]
    omega
  | case3 t l before up ih =>
    have := ih h
    simp [pathAhead]
    omega

theorem next?_ahead {c d : Cursor} (h : c.next? = some d) : d.ahead + 1 = c.ahead := by
  obtain ⟨⟨l, ts⟩, path⟩ := c
  cases ts with
  | nil =>
    have houtside : nextOutside? (.node l []) path = some d := by
      simpa [next?, firstChild?] using h
    simpa [ahead] using nextOutside?_ahead houtside
  | cons t ts =>
    have : d = ⟨t, ⟨l, [], ts⟩ :: path⟩ := by simpa [next?, firstChild?] using h.symm
    subst this
    simp [ahead, pathAhead, t.size_eq]
    omega

/-- The node and all that follow it, by `next?`. -/
def visits (c : Cursor) : List Cursor :=
  match _h : c.next? with
  | none => [c]
  | some d => c :: visits d
termination_by c.ahead
decreasing_by
  have := next?_ahead _h
  omega

end Cursor

/-- All nodes of the tree, each in its place, in pre-order. -/
def Tree.nodes (t : Tree) : List Cursor :=
  (Cursor.ofTree t).visits

end DroppedResult
