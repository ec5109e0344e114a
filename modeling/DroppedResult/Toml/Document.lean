import DroppedResult.Toml.Draft
import DroppedResult.Toml.Number

/-!
# TOML documents

`Toml.parse` reads a whole document into a table, or gives nothing when the text
is malformed or comes back to a table it may not come back to.

Arrays and inline tables nest up to a depth of seventy-nine; the depth that is
left is the argument that the reader of values recurs on.
-/

namespace DroppedResult

namespace Toml

/-! ## Blank space -/

/-- Read a comment, if there is one, up to the end of its line. -/
def skipComment : List Char → List Char
  | '#' :: rest => rest.dropWhile isPlain
  | cs => cs

/-- Skip spaces, line ends, and comments with their line ends. -/
def skipFiller : Nat → List Char → List Char
  | 0, cs => cs
  | steps + 1, cs =>
    let cs := skipSpaces cs
    match newline? (skipComment cs) with
    | some rest => skipFiller steps rest
    | none => cs

/-- Read spaces and perhaps a comment up to the end of the line or of the text. -/
def lineEnd? (cs : List Char) : Option (List Char) :=
  match skipComment (skipSpaces cs) with
  | [] => some []
  | cs => newline? cs

/-! ## Values -/

/-- Read the items of an array after its opening bracket. -/
def arrayItems (value : List Char → Option (Value × List Char)) :
    Nat → List Char → Option (List Value × List Char)
  | 0, _ => none
  | steps + 1, cs =>
    match skipFiller (cs.length + 1) cs with
    | ']' :: rest => some ([], rest)
    | cs => do
      let (item, rest) ← value cs
      match skipFiller (rest.length + 1) rest with
      | ']' :: rest => some ([item], rest)
      | ',' :: rest =>
        let (items, rest) ← arrayItems value steps rest
        some (item :: items, rest)
      | _ => none

/-- Read a key, an equals sign and a value. -/
def keyValue (value : List Char → Option (Value × List Char)) (cs : List Char) :
    Option ((Key × Value) × List Char) := do
  let (k, rest) ← key cs
  let rest ← expect '=' rest
  let (v, rest) ← value (skipSpaces rest)
  some ((k, v), rest)

/-- Read the entries of an inline table, of which there is at least one. -/
def inlineEntries (value : List Char → Option (Value × List Char)) :
    Nat → Draft → List Char → Option (Draft × List Char)
  | 0, _, _ => none
  | steps + 1, d, cs => do
    let ((k, v), rest) ← keyValue value cs
    let d ← Draft.putAt k.name v k.path d
    match skipSpaces rest with
    | '\x7d' :: rest => some (d, rest)
    | ',' :: rest => inlineEntries value steps d rest
    | _ => none

/-- Read an inline table after its opening brace. -/
def inlineTable (value : List Char → Option (Value × List Char)) (cs : List Char) :
    Option (Value × List Char) :=
  match skipSpaces cs with
  | '\x7d' :: rest => some (.table [], rest)
  | cs => (inlineEntries value (cs.length + 1) [] cs).map fun (d, rest) => (.table (entriesOf d), rest)

/-- Read a value that holds no other value. -/
def scalar : List Char → Option (Value × List Char)
  | 't' :: 'r' :: 'u' :: 'e' :: rest => some (.boolean true, rest)
  | 'f' :: 'a' :: 'l' :: 's' :: 'e' :: rest => some (.boolean false, rest)
  | cs =>
    match stringText cs with
    | some (text, rest) => some (.string (String.ofList text), rest)
    | none => numeric cs

/-- Read a value in which arrays and inline tables nest up to a depth. -/
def value : Nat → List Char → Option (Value × List Char)
  | 0, cs => scalar cs
  | depth + 1, cs =>
    match cs with
    | '[' :: rest =>
      (arrayItems (value depth) (rest.length + 1) rest).map fun (items, rest) => (.array items, rest)
    | '\x7b' :: rest => inlineTable (value depth) rest
    | cs => scalar cs

def maxDepth : Nat :=
  79

/-! ## Documents -/

/-- A document while it is read: what has been read, and the way to the table
that the lines are about. -/
structure Reader where
  draft : Draft
  table : List String

namespace Reader

def start : Reader :=
  ⟨[], []⟩

def openTable (r : Reader) (k : Key) : Option Reader := do
  some ⟨← r.draft.openTable k, k.path ++ [k.name]⟩

def openItem (r : Reader) (k : Key) : Option Reader := do
  some ⟨← r.draft.openItem k, k.path ++ [k.name]⟩

def put (r : Reader) (k : Key) (v : Value) : Option Reader := do
  some { r with draft := ← r.draft.change (Draft.putAt k.name v k.path) r.table }

/-- Read a line that has a header or a value, up to its end. -/
def line (r : Reader) : List Char → Option (Reader × List Char)
  | '[' :: '[' :: cs => do
    let (k, rest) ← key cs
    let rest ← expect ']' (← expect ']' rest)
    some (← r.openItem k, rest)
  | '[' :: cs => do
    let (k, rest) ← key cs
    let rest ← expect ']' rest
    some (← r.openTable k, rest)
  | cs => do
    let ((k, v), rest) ← keyValue (value maxDepth) cs
    some (← r.put k v, rest)

/-- Read lines to the end of the text. -/
def lines : Nat → Reader → List Char → Option Reader
  | 0, _, _ => none
  | steps + 1, r, cs =>
    match skipFiller (cs.length + 1) cs with
    | [] => some r
    | '#' :: cs => if (skipComment ('#' :: cs)).isEmpty then some r else none
    | cs => do
      let (r, rest) ← r.line cs
      lines steps r (← lineEnd? rest)

end Reader

/-- The characters without a byte order mark at their start. -/
def skipMark : List Char → List Char
  | '\uFEFF' :: rest => rest
  | cs => cs

/-- Read the characters of a document. -/
def parseChars (cs : List Char) : Option Table :=
  let cs := skipMark cs
  (Reader.start.lines (cs.length + 1) cs).map fun r => entriesOf r.draft

/-- Read a document.  A byte order mark at its start is skipped. -/
def parse (text : String) : Option Table :=
  parseChars text.toList

end Toml

end DroppedResult
