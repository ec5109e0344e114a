import DroppedResult.Glob.Basic

/-!
# Matching

A pattern is matched against the bytes of a whole path.  Characters stand for
the bytes of their encoding, also inside a class: a class holds bytes, and one
that is written with characters of several bytes holds each of them.

`literalSlash` tells whether `*` and `?` stop at a slash.
-/

namespace DroppedResult

namespace Glob

/-- The bytes of a range of a class.  The range goes from the last byte of its
first character to the first byte of its last one; the other bytes of both stand
alone. -/
def byteRanges (low high : Char) : List (UInt8 × UInt8) :=
  let alone (bytes : List UInt8) := bytes.map fun b => (b, b)
  let lows := String.utf8EncodeChar low
  let highs := String.utf8EncodeChar high
  if low = high then alone lows
  else
    alone lows.dropLast ++ (lows.getLastD 0, highs.headD 0) :: alone highs.tail

def classHas (ranges : List (Char × Char)) (byte : UInt8) : Bool :=
  ranges.any fun (low, high) => (byteRanges low high).any fun (a, b) => a ≤ byte && byte ≤ b

mutual

/-- The token asks for nothing: it holds empty alternatives only. -/
def Token.isBlank : Token → Bool
  | .alternatives branches => branchesBlank branches
  | _ => false

def branchBlank : List Token → Bool
  | [] => true
  | t :: ts => t.isBlank && branchBlank ts

def branchesBlank : List (List Token) → Bool
  | [] => true
  | b :: bs => branchBlank b && branchesBlank bs

end

mutual

def Token.size : Token → Nat
  | .alternatives branches => 1 + branchesSize branches
  | _ => 1

def branchSize : List Token → Nat
  | [] => 0
  | t :: ts => t.size + branchSize ts

def branchesSize : List (List Token) → Nat
  | [] => 0
  | b :: bs => 1 + branchSize b + branchesSize bs

end

theorem branchSize_append (ts us : List Token) :
    branchSize (ts ++ us) = branchSize ts + branchSize us := by
  induction ts with
  | nil => simp [branchSize]
  | cons t ts ih => simp only [List.cons_append, branchSize, ih]; omega

def slashByte : UInt8 := 47

mutual

/-- The tokens match the bytes from the first to the last. -/
def matchTokens (literalSlash : Bool) : List Token → List UInt8 → Bool
  | [], bytes => bytes.isEmpty
  | .literal c :: ts, bytes =>
    let lead := String.utf8EncodeChar c
    lead.isPrefixOf bytes && matchTokens literalSlash ts (bytes.drop lead.length)
  | .any :: _, [] => false
  | .any :: ts, b :: bytes =>
    !(literalSlash && b == slashByte) && matchTokens literalSlash ts bytes
  | .star :: ts, [] => matchTokens literalSlash ts []
  | .star :: ts, b :: bytes =>
    matchTokens literalSlash ts (b :: bytes) ||
      (!(literalSlash && b == slashByte) && matchTokens literalSlash (.star :: ts) bytes)
  | .anyDirectories :: ts, bytes =>
    matchTokens literalSlash ts bytes || afterSlash literalSlash ts bytes
  | .anythingBelow :: _, [] => false
  | .anythingBelow :: ts, b :: bytes => b == slashByte && somewhere literalSlash ts bytes
  | .directoriesBetween :: _, [] => false
  | .directoriesBetween :: ts, b :: bytes =>
    b == slashByte && (matchTokens literalSlash ts bytes || afterSlash literalSlash ts bytes)
  | .charClass _ _ :: _, [] => false
  | .charClass negated ranges :: ts, b :: bytes =>
    (classHas ranges b != negated) && matchTokens literalSlash ts bytes
  | .alternatives branches :: ts, bytes =>
    if branchesBlank branches then matchTokens literalSlash ts bytes
    else matchBranches literalSlash branches ts bytes
termination_by ts bytes => (branchSize ts, bytes.length, 0)
decreasing_by
  all_goals simp only [branchSize, Token.size, Prod.lex_def, List.length_cons, true_and]
  all_goals omega

/-- The tokens match what follows some slash of the bytes. -/
def afterSlash (literalSlash : Bool) (ts : List Token) : List UInt8 → Bool
  | [] => false
  | b :: bytes =>
    (b == slashByte && matchTokens literalSlash ts bytes) || afterSlash literalSlash ts bytes
termination_by bytes => (branchSize ts, bytes.length, 1)

/-- The tokens match some end of the bytes. -/
def somewhere (literalSlash : Bool) (ts : List Token) : List UInt8 → Bool
  | [] => matchTokens literalSlash ts []
  | b :: bytes => matchTokens literalSlash ts (b :: bytes) || somewhere literalSlash ts bytes
termination_by bytes => (branchSize ts, bytes.length, 1)

/-- One of the branches that ask for something, with the tokens after them,
matches the bytes. -/
def matchBranches (literalSlash : Bool) : List (List Token) → List Token → List UInt8 → Bool
  | [], _, _ => false
  | b :: bs, ts, bytes =>
    (!branchBlank b && matchTokens literalSlash (b ++ ts) bytes) ||
      matchBranches literalSlash bs ts bytes
termination_by bs ts bytes => (branchesSize bs + branchSize ts, bytes.length, 1)
decreasing_by
  all_goals simp only [branchesSize, branchSize_append, Prod.lex_def]
  all_goals omega

end

/-- The pattern matches the path.  A double star alone matches every path. -/
def matchesWith (literalSlash : Bool) (g : Glob) (bytes : List UInt8) : Bool :=
  match g.tokens with
  | [.anyDirectories] => true
  | tokens => matchTokens literalSlash tokens bytes

def isMatch (g : Glob) (bytes : List UInt8) : Bool :=
  g.matchesWith false bytes

end Glob

end DroppedResult
