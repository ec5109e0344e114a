import DroppedResult.Tree.Kind

/-!
# Syntax trees

A tree is a label with the trees of its children.  The label holds what the
grammar says of the node itself: kind, whether the node is named, byte range in
the source, and the field under which the parent holds it.  `Tree.preorder`
lists the subtrees, parents before children and siblings in order.
-/

namespace DroppedResult

/-- What a node says of itself.  The byte range ends before `stop`. -/
structure Label where
  kind : Kind
  named : Bool
  start : Nat
  stop : Nat
  field : Option String
  deriving DecidableEq

inductive Tree where
  | node (label : Label) (children : List Tree)

namespace Tree

def label : Tree → Label
  | node l _ => l

def children : Tree → List Tree
  | node _ ts => ts

def kind (t : Tree) : Kind :=
  t.label.kind

@[simp] theorem label_node (l : Label) (ts : List Tree) : (node l ts).label = l := rfl

@[simp] theorem children_node (l : Label) (ts : List Tree) : (node l ts).children = ts := rfl

theorem node_label_children (t : Tree) : node t.label t.children = t := by
  cases t; rfl

/-- The first child that the node holds under `field`. -/
def childByField (t : Tree) (field : String) : Option Tree :=
  t.children.find? (·.label.field == some field)

def namedChildren (t : Tree) : List Tree :=
  t.children.filter (·.label.named)

mutual

/-- Number of nodes. -/
def size : Tree → Nat
  | node _ ts => 1 + forestSize ts

/-- Number of nodes in a row of trees. -/
def forestSize : List Tree → Nat
  | [] => 0
  | t :: ts => t.size + forestSize ts

end

mutual

/-- All subtrees, parents before children, siblings in order. -/
def preorder : Tree → List Tree
  | node l ts => node l ts :: forestPreorder ts

def forestPreorder : List Tree → List Tree
  | [] => []
  | t :: ts => t.preorder ++ forestPreorder ts

end

theorem size_eq (t : Tree) : t.size = 1 + forestSize t.children := by
  cases t; rw [size, children]

@[simp] theorem forestSize_nil : forestSize [] = 0 := by rw [forestSize]

@[simp] theorem forestSize_cons (t : Tree) (ts : List Tree) :
    forestSize (t :: ts) = t.size + forestSize ts := by rw [forestSize]

end Tree

end DroppedResult
