import DroppedResult.Rule.Role
import DroppedResult.Tree.Cursor

/-!
# Method chains

A Result is handled when a handling method is called on it, directly or after
any number of transforming calls.  The walk goes up from the node: through
wrappers, and from the receiver of a called method to the call.  A method that
is only named and not called ends the chain.
-/

namespace DroppedResult

namespace Frame

/-- The role of the member access that the frame stands for. -/
def memberRole (f : Frame) (child : Label) (source : String) : Role :=
  methodRole ((f.childByField child "property").map (·.text source))

/-- The frame is a member access on the child below. -/
def isAccessOn (f : Frame) (child : Label) : Bool :=
  f.label.kind == .memberExpression && f.holdsAs child "object"

/-- The frame is a call of the child below. -/
def isCallOf (f : Frame) (child : Label) : Bool :=
  f.label.kind == .callExpression && f.holdsAs child "function"

end Frame

namespace Cursor

/-- The chain that starts at the node labelled `child` under the given path runs
into a called handling method. -/
def handledFrom (source : String) (child : Label) : List Frame → Bool
  | [] | [_] => false
  | f :: g :: up =>
    if f.label.kind.isTransparent then handledFrom source f.label (g :: up)
    else if f.isAccessOn child && g.isCallOf f.label then
      match f.memberRole child source with
      | .handlingMethod => true
      | .transformingMethod => handledFrom source g.label up
      | _ => false
    else false

def isHandled (c : Cursor) (source : String) : Bool :=
  handledFrom source c.label c.path

end Cursor

end DroppedResult
