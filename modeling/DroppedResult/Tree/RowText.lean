import DroppedResult.Tree.Rows

/-!
# Rows as text

A tree can be kept in a file, one row a line.  A line has the depth, `1` for a
named node and `0` for another, the two ends of the byte range, the field or a
hyphen where there is none, and the kind, with a blank between them.
-/

namespace DroppedResult

namespace Row

def ofLine? (line : String) : Option Row := do
  match line.splitOn " " with
  | depth :: named :: start :: stop :: field :: kind =>
    some {
      depth := ← depth.toNat?
      label := {
        kind := ⟨" ".intercalate kind⟩
        named := named == "1"
        start := ← start.toNat?
        stop := ← stop.toNat?
        field := if field = "-" then none else some field } }
  | _ => none

end Row

namespace Tree

/-- The tree whose rows a text holds. -/
def ofText? (text : String) : Option Tree := do
  let lines := (text.splitOn "\n").filter (!·.isEmpty)
  ofRows? (← lines.mapM Row.ofLine?)

end Tree

end DroppedResult
