/-!
# Lossy decoding

Bytes that need not be UTF-8 are shown as text.  Each well-formed sequence gives
its character, and each maximal invalid part gives one replacement character: a
lead byte with the continuation bytes that could still follow it, or else a
single byte.
-/

namespace DroppedResult

namespace Lossy

def replacement : Char :=
  '\ufffd'

/-- How a sequence goes on after its lead byte: the bounds of the next byte and
the number of bytes to come.  Later bytes have the bounds `0x80` and `0xBF`. -/
structure Expected where
  low : UInt8
  high : UInt8
  count : Nat

/-- What may follow a lead byte of `0x80` or more; `none` if it leads nothing. -/
def expected? (lead : UInt8) : Option Expected :=
  if 0xC2 ≤ lead && lead ≤ 0xDF then some ⟨0x80, 0xBF, 1⟩
  else if lead == 0xE0 then some ⟨0xA0, 0xBF, 2⟩
  else if lead == 0xED then some ⟨0x80, 0x9F, 2⟩
  else if 0xE1 ≤ lead && lead ≤ 0xEF then some ⟨0x80, 0xBF, 2⟩
  else if lead == 0xF0 then some ⟨0x90, 0xBF, 3⟩
  else if 0xF1 ≤ lead && lead ≤ 0xF3 then some ⟨0x80, 0xBF, 3⟩
  else if lead == 0xF4 then some ⟨0x80, 0x8F, 3⟩
  else none

/-- The bytes at the front that go on with the sequence, `e.count` at most. -/
def continuation (e : Expected) : List UInt8 → List UInt8
  | [] => []
  | b :: rest =>
    match e.count with
    | 0 => []
    | n + 1 =>
      if e.low ≤ b && b ≤ e.high then b :: continuation ⟨0x80, 0xBF, n⟩ rest else []

/-- The bits of the lead byte that belong to the code point. -/
def leadBits (lead : UInt8) (count : Nat) : Nat :=
  match count with
  | 1 => lead.toNat % 32
  | 2 => lead.toNat % 16
  | _ => lead.toNat % 8

def codePoint (lead : UInt8) (tail : List UInt8) : Nat :=
  tail.foldl (fun n b => n * 64 + b.toNat % 64) (leadBits lead tail.length)

/-- The first character of the bytes and the number of bytes it takes after the
first. -/
def first (lead : UInt8) (rest : List UInt8) : Char × Nat :=
  if lead < 0x80 then (Char.ofNat lead.toNat, 0)
  else
    match expected? lead with
    | none => (replacement, 0)
    | some e =>
      let tail := continuation e rest
      (if tail.length = e.count then Char.ofNat (codePoint lead tail) else replacement, tail.length)

def decode : List UInt8 → List Char
  | [] => []
  | b :: rest =>
    let (c, taken) := first b rest
    c :: decode (rest.drop taken)
termination_by bytes => bytes.length
decreasing_by simp only [List.length_drop, List.length_cons]; omega

end Lossy

end DroppedResult
