import DroppedResult.Text.Ranges

/-!
# Blank characters

The characters with the Unicode property `White_Space`, and trimming by them.
-/

namespace DroppedResult

namespace CodeRanges

def blank : CodeRanges :=
  [(0x9, 0xD), (0x20, 0x20), (0x85, 0x85), (0xA0, 0xA0), (0x1680, 0x1680), (0x2000, 0x200A),
    (0x2028, 0x2029), (0x202F, 0x202F), (0x205F, 0x205F), (0x3000, 0x3000)]

end CodeRanges

def isBlank (c : Char) : Bool :=
  CodeRanges.blank.has c

/-- The text holds blanks only, or nothing. -/
def allBlank (s : String) : Bool :=
  s.toList.all isBlank

/-- The characters without the blanks at the end. -/
def trimBlankEnd (cs : List Char) : List Char :=
  (cs.reverse.dropWhile isBlank).reverse

end DroppedResult
