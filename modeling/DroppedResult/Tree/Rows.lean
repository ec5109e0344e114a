import DroppedResult.Tree.Basic

/-!
# Trees as rows

A tree is written as one row per node in pre-order, each row with the depth of
its node.  `Tree.rows` writes, `Tree.ofRows?` reads.  Reading goes from the last
row to the first: a row of depth `d` takes the trees of depth `d + 1` at the
front of those already read as its children.
-/

namespace DroppedResult

structure Row where
  depth : Nat
  label : Label
  deriving DecidableEq

namespace Tree

mutual

/-- The rows of a tree whose root has the given depth. -/
def rowsAt : Nat → Tree → List Row
  | d, node l ts => ⟨d, l⟩ :: forestRowsAt (d + 1) ts

def forestRowsAt : Nat → List Tree → List Row
  | _, [] => []
  | d, t :: ts => rowsAt d t ++ forestRowsAt d ts

end

def rows (t : Tree) : List Row :=
  rowsAt 0 t

/-- The trees read so far, each with the depth of its root. -/
abbrev Pending := List (Nat × Tree)

/-- The trees at the front whose roots have depth `d`, and what follows them. -/
def takeDepth (d : Nat) : Pending → List Tree × Pending
  | [] => ([], [])
  | (e, t) :: rest =>
    if e = d then
      let (ts, rest') := takeDepth d rest
      (t :: ts, rest')
    else
      ([], (e, t) :: rest)

def attach (row : Row) (pending : Pending) : Pending :=
  let (ts, rest) := takeDepth (row.depth + 1) pending
  (row.depth, node row.label ts) :: rest

/-- The tree that the rows write, if they write one tree. -/
def ofRows? (rows : List Row) : Option Tree :=
  match rows.foldr attach [] with
  | [(0, t)] => some t
  | _ => none

end Tree

end DroppedResult
