import DroppedResult.Text.Lossy

/-!
# File paths

A path is a sequence of bytes; a slash divides it.  It need not be text:
`FilePath.toText?` gives the text when there is one, and `FilePath.display` a
text for people.

Paths are ordered by their components.  A dot counts only at the start of a path
and repeated slashes count once, so `a/./b` and `a//b` are equal in this order
though they differ as bytes.  Among components the root comes first, then the
leading dot, then `..`, then the names, which compare by bytes.
-/

namespace DroppedResult

structure FilePath where
  bytes : List UInt8
  deriving DecidableEq

/-- The byte order of two sequences, a beginning before its continuations. -/
def compareBytes : List UInt8 → List UInt8 → Ordering
  | [], [] => .eq
  | [], _ :: _ => .lt
  | _ :: _, [] => .gt
  | a :: as, b :: bs => if a < b then .lt else if b < a then .gt else compareBytes as bs

namespace FilePath

def slash : UInt8 := 47
def dot : UInt8 := 46

def ofText (s : String) : FilePath :=
  ⟨s.toByteArray.data.toList⟩

def toText? (p : FilePath) : Option String :=
  String.fromUTF8? ⟨p.bytes.toArray⟩

/-- The path as text, with replacement characters where it is not text. -/
def display (p : FilePath) : String :=
  String.ofList (Lossy.decode p.bytes)

/-- The path starts from the root. -/
def isAbsolute (p : FilePath) : Bool :=
  p.bytes.head? == some slash

/-- The pieces between slashes, empty ones included. -/
def piecesOf : List UInt8 → List (List UInt8)
  | [] => [[]]
  | b :: rest =>
    if b == slash then [] :: piecesOf rest
    else
      match piecesOf rest with
      | [] => [[b]]
      | piece :: pieces => (b :: piece) :: pieces

def pieces (p : FilePath) : List (List UInt8) :=
  piecesOf p.bytes

/-- The text after the last slash. -/
def fileName (p : FilePath) : List UInt8 :=
  (p.bytes.reverse.takeWhile (· != slash)).reverse

/-- The path of an entry inside a directory. -/
def join (p : FilePath) (name : List UInt8) : FilePath :=
  match p.bytes.getLast? with
  | none => ⟨name⟩
  | some b => if b == slash then ⟨p.bytes ++ name⟩ else ⟨p.bytes ++ slash :: name⟩

def joinAll (p : FilePath) (names : List (List UInt8)) : FilePath :=
  names.foldl join p

inductive Component where
  | root
  | current
  | parent
  | name (bytes : List UInt8)
  deriving DecidableEq

namespace Component

def rank : Component → Nat
  | root => 0
  | current => 1
  | parent => 2
  | name _ => 3

def compare : Component → Component → Ordering
  | name a, name b => compareBytes a b
  | a, b => Ord.compare a.rank b.rank

end Component

/-- The components of the pieces that follow the first one. -/
def laterComponents (pieces : List (List UInt8)) : List Component :=
  pieces.filterMap fun piece =>
    if piece = [] ∨ piece = [dot] then none
    else if piece = [dot, dot] then some .parent
    else some (.name piece)

def components (p : FilePath) : List Component :=
  match p.pieces with
  | [] => []
  | first :: rest =>
    if first = [] then
      if rest = [] then [] else .root :: laterComponents rest
    else if first = [dot] then .current :: laterComponents rest
    else laterComponents (first :: rest)

def compareComponents : List Component → List Component → Ordering
  | [], [] => .eq
  | [], _ :: _ => .lt
  | _ :: _, [] => .gt
  | a :: as, b :: bs => (a.compare b).then (compareComponents as bs)

/-- The order of paths, by components. -/
def compare (p q : FilePath) : Ordering :=
  compareComponents p.components q.components

end FilePath

end DroppedResult
