import DroppedResult.Text.Quotes
import DroppedResult.Tree.Basic

/-!
# Source text

A node covers a range of bytes of the source.  `Source.textBetween` gives the
text of a range by checking that its bytes are whole characters;
`Source.snippetBetween` gives it by checking that both ends are character
boundaries.  A range that cuts a character has the empty text in both.

`Source.positionAt` turns a byte offset into a row and a column, both counted
from zero, the column in bytes.
-/

namespace DroppedResult

namespace Source

/-- The text of a byte range, empty when the bytes are not whole characters. -/
def textBetween (source : String) (start stop : Nat) : String :=
  (String.fromUTF8? (source.toByteArray.extract start stop)).getD ""

def isBoundary (source : String) (offset : Nat) : Bool :=
  (String.Pos.Raw.mk offset).isValid source

/-- The text between two character boundaries, empty when an end is not one. -/
def snippetBetween (source : String) (start stop : Nat) : String :=
  if start ≤ stop && isBoundary source start && isBoundary source stop then
    String.Pos.Raw.extract source ⟨start⟩ ⟨stop⟩
  else
    ""

/-- A place in the source.  Rows and columns start at zero, columns count
bytes. -/
structure Position where
  row : Nat
  column : Nat
  deriving DecidableEq

namespace Position

def origin : Position :=
  ⟨0, 0⟩

/-- The place after one more byte. -/
def advance (p : Position) (byte : UInt8) : Position :=
  if byte == 10 then ⟨p.row + 1, 0⟩ else ⟨p.row, p.column + 1⟩

end Position

def bytes (source : String) : List UInt8 :=
  source.toByteArray.data.toList

def positionAt (source : String) (offset : Nat) : Position :=
  ((bytes source).take offset).foldl Position.advance Position.origin

end Source

namespace Label

/-- The source text that the node covers. -/
def text (l : Label) (source : String) : String :=
  Source.textBetween source l.start l.stop

/-- The value of a string literal: its text without quotes at the ends. -/
def literalValue (l : Label) (source : String) : String :=
  trimQuotes (l.text source)

end Label

namespace Tree

def text (t : Tree) (source : String) : String :=
  t.label.text source

def literalValue (t : Tree) (source : String) : String :=
  t.label.literalValue source

/-- The text of the first child under `field`. -/
def fieldText (t : Tree) (field : String) (source : String) : Option String :=
  (t.childByField field).map (·.text source)

end Tree

end DroppedResult
