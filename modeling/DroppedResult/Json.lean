/-!
# JSON records

Flat JSON objects, written on one line.  In a text, quotes, backslashes and
control characters are escaped; every other character is written as it is.
-/

namespace DroppedResult

namespace Json

inductive Scalar where
  | text (s : String)
  | number (n : Nat)
  | truth (b : Bool)
  deriving DecidableEq

def hexDigit (n : Nat) : Char :=
  if n < 10 then Char.ofNat ('0'.toNat + n) else Char.ofNat ('a'.toNat + (n - 10))

/-- A character as it is written inside a text. -/
def escapeChar (c : Char) : List Char :=
  if c = '\x22' then ['\\', '\x22']
  else if c = '\\' then ['\\', '\\']
  else if c = '\x08' then ['\\', 'b']
  else if c = '\x0c' then ['\\', 'f']
  else if c = '\n' then ['\\', 'n']
  else if c = '\r' then ['\\', 'r']
  else if c = '\t' then ['\\', 't']
  else if c < ' ' then ['\\', 'u', '0', '0', hexDigit (c.toNat / 16), hexDigit (c.toNat % 16)]
  else [c]

/-- A text with its quotes. -/
def quoted (s : String) : List Char :=
  '\x22' :: s.toList.flatMap escapeChar ++ ['\x22']

def Scalar.write : Scalar → List Char
  | text s => quoted s
  | number n => Nat.toDigits 10 n
  | truth b => if b then ['t', 'r', 'u', 'e'] else ['f', 'a', 'l', 's', 'e']

/-- The fields of an object, in order. -/
abbrev Record := List (String × Scalar)

namespace Record

def writeField (field : String × Scalar) : List Char :=
  quoted field.1 ++ ':' :: field.2.write

/-- The object on one line, without the line's end. -/
def write (r : Record) : List Char :=
  '\x7b' :: List.intercalate [','] (r.map writeField) ++ ['\x7d']

end Record

end Json

end DroppedResult
