import DroppedResult.Tree.Cursor

/-!
# Delegated values

A call whose value is returned, or is the expression body of an arrow function,
leaves the handling to the caller.  The walk goes up from the call.  The nearest
ancestor that is a return, an arrow function, a block, a class body or the start
of a function decides.
-/

namespace DroppedResult

/-- What an ancestor means for a value that comes from below it. -/
inductive Barrier where
  /-- The value is returned. -/
  | returned
  /-- The value is handed on if it is the expression body. -/
  | arrow
  /-- The value stays inside. -/
  | enclosed
  deriving DecidableEq

namespace Barrier

/-- The barrier that a node of the given kind is, if it is one. -/
def ofKind? (k : Kind) : Option Barrier :=
  if k == .returnStatement then some .returned
  else if k == .arrowFunction then some .arrow
  else if k == .statementBlock || k == .classBody || k.opensFunction then some .enclosed
  else none

end Barrier

namespace Frame

/-- The child below is the arrow function's body, and no block. -/
def holdsAsExpressionBody (f : Frame) (child : Label) : Bool :=
  f.holdsAs child "body" && child.kind != .statementBlock

end Frame

namespace Cursor

/-- The value of the node labelled `child` under the given path goes to the
caller. -/
def delegatedFrom (child : Label) : List Frame → Bool
  | [] => false
  | f :: up =>
    match Barrier.ofKind? f.label.kind with
    | some .returned => true
    | some .arrow => f.holdsAsExpressionBody child
    | some .enclosed => false
    | none => delegatedFrom f.label up

def isDelegated (c : Cursor) : Bool :=
  delegatedFrom c.label c.path

end Cursor

end DroppedResult
