/-!
# Text in TOML

Strings come in four forms: basic ones between double quotes, with escapes, and
literal ones between apostrophes, each on one line or, with the quote written
three times, on several.

A reader takes the characters that are left and gives a value with the characters
after it, or nothing when they do not fit.  Readers that loop get a number of
steps; as many as there are characters is enough.
-/

namespace DroppedResult

namespace Toml

/-- The character may stand in a string or a comment: a tab, or no control
character. -/
def isPlain (c : Char) : Bool :=
  c == '\t' || (' ' ≤ c && c != '\x7f')

def isSpace (c : Char) : Bool :=
  c == ' ' || c == '\t'

def skipSpaces (cs : List Char) : List Char :=
  cs.dropWhile isSpace

/-- Read a line end: a newline, or a carriage return and a newline. -/
def newline? : List Char → Option (List Char)
  | '\n' :: rest => some rest
  | '\r' :: '\n' :: rest => some rest
  | _ => none

/-- Skip spaces and line ends. -/
def skipLines : Nat → List Char → List Char
  | 0, cs => cs
  | steps + 1, cs =>
    let cs := skipSpaces cs
    match newline? cs with
    | some rest => skipLines steps rest
    | none => cs

/-! ## Escapes -/

def hexDigit? (c : Char) : Option Nat :=
  if c.isDigit then some (c.toNat - '0'.toNat)
  else if 'a' ≤ c ∧ c ≤ 'f' then some (c.toNat - 'a'.toNat + 10)
  else if 'A' ≤ c ∧ c ≤ 'F' then some (c.toNat - 'A'.toNat + 10)
  else none

/-- The character with the code that the digits write, if there is one. -/
def charOfHex? (digits : List Char) : Option Char := do
  let code ← digits.foldlM (fun code c => (hexDigit? c).map (16 * code + ·)) 0
  if code.isValidChar then some (Char.ofNat code) else none

/-- Read an escape of so many hexadecimal digits. -/
def hexEscape (count : Nat) (cs : List Char) : Option (Char × List Char) := do
  let digits := cs.take count
  if digits.length = count then some (← charOfHex? digits, cs.drop count) else none

/-- Read an escape after its backslash. -/
def escape : List Char → Option (Char × List Char)
  | 'b' :: rest => some ('\x08', rest)
  | 'f' :: rest => some ('\x0c', rest)
  | 'n' :: rest => some ('\n', rest)
  | 'r' :: rest => some ('\r', rest)
  | 't' :: rest => some ('\t', rest)
  | '\x22' :: rest => some ('\x22', rest)
  | '\\' :: rest => some ('\\', rest)
  | 'u' :: rest => hexEscape 4 rest
  | 'U' :: rest => hexEscape 8 rest
  | _ => none

/-! ## Strings on one line -/

/-- Put a character in front of a text that has been read. -/
def consText (c : Char) (r : Option (List Char × List Char)) : Option (List Char × List Char) :=
  r.map fun (text, rest) => (c :: text, rest)

/-- Read a basic string after its opening quote. -/
def basicText : Nat → List Char → Option (List Char × List Char)
  | steps + 1, c :: rest =>
    if c = '\x22' then some ([], rest)
    else if c = '\\' then do
      let (c, rest) ← escape rest
      consText c (basicText steps rest)
    else if isPlain c then consText c (basicText steps rest)
    else none
  | _, _ => none

/-- Read a literal string after its opening apostrophe. -/
def literalText : List Char → Option (List Char × List Char)
  | [] => none
  | c :: rest =>
    if c = '\x27' then some ([], rest)
    else if isPlain c then consText c (literalText rest)
    else none

/-! ## Strings on several lines -/

/-- Read the quotes that end a string of several lines: three of them, after at
most two that belong to the text. -/
def closing (quote : Char) (cs : List Char) : Option (List Char × List Char) :=
  let run := (cs.takeWhile (· == quote)).length
  if run < 3 then none
  else
    let inside := min (run - 3) 2
    some (List.replicate inside quote, cs.drop (inside + 3))

/-- A line end right after the opening quotes does not count. -/
def skipFirstNewline (cs : List Char) : List Char :=
  (newline? cs).getD cs

/-- Read a backslash that joins lines, after the backslash: spaces, a line end,
and all spaces and line ends after it. -/
def lineJoin? (cs : List Char) : Option (List Char) :=
  (newline? (skipSpaces cs)).map fun rest => skipLines (rest.length + 1) rest

/-- Read a basic string of several lines after its opening quotes. -/
def basicLines : Nat → List Char → Option (List Char × List Char)
  | steps + 1, c :: rest =>
    if c = '\x22' then
      match closing c (c :: rest) with
      | some closed => some closed
      | none => consText c (basicLines steps rest)
    else if c = '\\' then
      match lineJoin? rest with
      | some rest => basicLines steps rest
      | none => do
        let (c, rest) ← escape rest
        consText c (basicLines steps rest)
    else
      match newline? (c :: rest) with
      | some rest => consText '\n' (basicLines steps rest)
      | none => if isPlain c then consText c (basicLines steps rest) else none
  | _, _ => none

/-- Read a literal string of several lines after its opening quotes. -/
def literalLines : Nat → List Char → Option (List Char × List Char)
  | steps + 1, c :: rest =>
    if c = '\x27' then
      match closing c (c :: rest) with
      | some closed => some closed
      | none => consText c (literalLines steps rest)
    else
      match newline? (c :: rest) with
      | some rest => consText '\n' (literalLines steps rest)
      | none => if isPlain c then consText c (literalLines steps rest) else none
  | _, _ => none

/-- Read a string of any form. -/
def stringText : List Char → Option (List Char × List Char)
  | '\x22' :: '\x22' :: '\x22' :: rest => basicLines (rest.length + 1) (skipFirstNewline rest)
  | '\x22' :: rest => basicText (rest.length + 1) rest
  | '\x27' :: '\x27' :: '\x27' :: rest => literalLines (rest.length + 1) (skipFirstNewline rest)
  | '\x27' :: rest => literalText rest
  | _ => none

/-! ## Keys -/

/-- A key: the tables that a dotted key passes through, and its last name. -/
structure Key where
  path : List String
  name : String
  deriving DecidableEq

def isBare (c : Char) : Bool :=
  c.isAlphanum || c == '-' || c == '_'

/-- Read one name of a key: bare, or a string on one line. -/
def keyName (cs : List Char) : Option (String × List Char) :=
  match cs with
  | '\x22' :: rest => (basicText (rest.length + 1) rest).map fun (t, rest) => (String.ofList t, rest)
  | '\x27' :: rest => (literalText rest).map fun (t, rest) => (String.ofList t, rest)
  | _ =>
    match cs.takeWhile isBare with
    | [] => none
    | name => some (String.ofList name, cs.dropWhile isBare)

/-- Read names with dots between them and spaces around them. -/
def keyNames : Nat → List Char → Option (List String × List Char)
  | 0, _ => none
  | steps + 1, cs => do
    let (name, rest) ← keyName (skipSpaces cs)
    match skipSpaces rest with
    | '.' :: rest =>
      let (names, rest) ← keyNames steps rest
      some (name :: names, rest)
    | rest => some ([name], rest)

/-- A key has fewer names than this. -/
def maxKeyNames : Nat :=
  80

def key (cs : List Char) : Option (Key × List Char) := do
  let (names, rest) ← keyNames (cs.length + 1) cs
  if names.length < maxKeyNames then some (⟨names.dropLast, names.getLastD ""⟩, rest) else none

end Toml

end DroppedResult
