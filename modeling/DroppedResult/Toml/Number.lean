import DroppedResult.Toml.Text
import DroppedResult.Toml.Value

/-!
# Numbers and points in time in TOML

Integers have 64 bits.  An underscore may stand between two digits.  A decimal
number has no needless zero in front, and digits on both sides of its point.  A
positive number that is too large for a double is refused.
-/

namespace DroppedResult

namespace Toml

/-! ## Digits -/

/-- Read digits after a first one.  An underscore needs a digit after it. -/
def moreDigits (isDigit : Char → Bool) : List Char → Option (List Char × List Char)
  | [] => some ([], [])
  | c :: rest =>
    if isDigit c then consText c (moreDigits isDigit rest)
    else if c = '_' then
      match rest with
      | d :: rest => if isDigit d then consText d (moreDigits isDigit rest) else none
      | [] => none
    else some ([], c :: rest)

/-- Read one or more digits, underscores left out. -/
def digits (isDigit : Char → Bool) : List Char → Option (List Char × List Char)
  | c :: rest => if isDigit c then consText c (moreDigits isDigit rest) else none
  | [] => none

/-- Read the digits of a decimal number: a zero alone, or digits after a digit
other than zero. -/
def decimalDigits : List Char → Option (List Char × List Char)
  | '0' :: rest => some (['0'], rest)
  | cs => digits Char.isDigit cs

/-- The number that digits write, letters counting from ten. -/
def digitsValue (base : Nat) (ds : List Char) : Nat :=
  ds.foldl (fun n c => base * n + (hexDigit? c).getD 0) 0

def maxInteger : Int := Nat.pow 2 63 - 1
def minInteger : Int := -Nat.pow 2 63

def integer? (n : Int) : Option Value :=
  if minInteger ≤ n ∧ n ≤ maxInteger then some (.integer n) else none

/-- Read an integer in another base after its mark. -/
def integerInBase (base : Nat) (isDigit : Char → Bool) (cs : List Char) : Option (Value × List Char) := do
  let (ds, rest) ← digits isDigit cs
  some (← integer? (digitsValue base ds), rest)

/-! ## Decimal numbers -/

/-- The decimal `mantissa · 10 ^ exponent` is too large for a double: rounded, it
is at least `2 ^ 1024`.  Far from that bound the number of digits tells. -/
def exceedsDouble (mantissa : Nat) (exponent : Int) : Bool :=
  if mantissa = 0 then false
  else
    let size := exponent + (Nat.toDigits 10 mantissa).length
    if size < 300 then false
    else if 320 < size then true
    else
      let bound := Nat.pow 2 1024 - Nat.pow 2 970
      if 0 ≤ exponent then bound ≤ mantissa * Nat.pow 10 exponent.toNat
      else bound * Nat.pow 10 (-exponent).toNat ≤ mantissa

/-- Read a sign, if there is one. -/
def sign : List Char → List Char × List Char
  | '+' :: rest => (['+'], rest)
  | '-' :: rest => (['-'], rest)
  | cs => ([], cs)

/-- Read the exponent of a float, if there is one: its text and its value. -/
def exponent : List Char → Option ((List Char × Int) × List Char)
  | c :: rest =>
    if c = 'e' ∨ c = 'E' then do
      let (s, rest) := sign rest
      let (ds, rest) ← digits Char.isDigit rest
      let size : Int := digitsValue 10 ds
      some ((c :: s ++ ds, if s = ['-'] then -size else size), rest)
    else some (([], 0), c :: rest)
  | [] => some (([], 0), [])

/-- Read the fraction of a float, if there is one: its digits. -/
def fraction : List Char → Option (List Char × List Char)
  | '.' :: rest => digits Char.isDigit rest
  | cs => some ([], cs)

/-- Read a decimal number after its sign. -/
def decimal (s : List Char) (cs : List Char) : Option (Value × List Char) := do
  let (whole, rest) ← decimalDigits cs
  let (part, rest) ← fraction rest
  let ((power, size), rest) ← exponent rest
  if part = [] ∧ power = [] then
    let n : Int := digitsValue 10 whole
    some (← integer? (if s = ['-'] then -n else n), rest)
  else if s ≠ ['-'] ∧ exceedsDouble (digitsValue 10 (whole ++ part)) (size - part.length) then none
  else
    let point := if part = [] then [] else '.' :: part
    some (.float (String.ofList (s ++ whole ++ point ++ power)), rest)

/-- Read a number. -/
def number : List Char → Option (Value × List Char)
  | '0' :: 'x' :: rest => integerInBase 16 (fun c => (hexDigit? c).isSome) rest
  | '0' :: 'o' :: rest => integerInBase 8 (fun c => '0' ≤ c && c ≤ '7') rest
  | '0' :: 'b' :: rest => integerInBase 2 (fun c => c == '0' || c == '1') rest
  | cs =>
    let (s, rest) := sign cs
    match rest with
    | 'i' :: 'n' :: 'f' :: rest => some (.float (String.ofList (s ++ ['i', 'n', 'f'])), rest)
    | 'n' :: 'a' :: 'n' :: rest => some (.float (String.ofList (s ++ ['n', 'a', 'n'])), rest)
    | _ => decimal s rest

/-! ## Points in time -/

/-- Read a number of two digits that is at most `bound`. -/
def twoDigits (bound : Nat) : List Char → Option (Nat × List Char)
  | a :: b :: rest =>
    if a.isDigit ∧ b.isDigit ∧ digitsValue 10 [a, b] ≤ bound then some (digitsValue 10 [a, b], rest)
    else none
  | _ => none

def expect (c : Char) : List Char → Option (List Char)
  | d :: rest => if d = c then some rest else none
  | [] => none

def isLeapYear (year : Nat) : Bool :=
  year % 4 == 0 && (year % 100 != 0 || year % 400 == 0)

def daysIn (year month : Nat) : Nat :=
  if month = 2 then if isLeapYear year then 29 else 28
  else if month = 4 ∨ month = 6 ∨ month = 9 ∨ month = 11 then 30
  else 31

/-- Read a date. -/
def date (cs : List Char) : Option (List Char) := do
  let year := cs.take 4
  if year.length = 4 ∧ year.all Char.isDigit then
    let rest ← expect '-' (cs.drop 4)
    let (month, rest) ← twoDigits 12 rest
    let rest ← expect '-' rest
    let (day, rest) ← twoDigits 31 rest
    if 1 ≤ month ∧ 1 ≤ day ∧ day ≤ daysIn (digitsValue 10 year) month then some rest else none
  else none

/-- Read a time of day: hours, minutes, seconds and perhaps a fraction.  A minute
may have a leap second. -/
def timeOfDay (cs : List Char) : Option (List Char) := do
  let (_, rest) ← twoDigits 23 cs
  let rest ← expect ':' rest
  let (_, rest) ← twoDigits 59 rest
  let rest ← expect ':' rest
  let (_, rest) ← twoDigits 60 rest
  match rest with
  | '.' :: rest =>
    if (rest.takeWhile Char.isDigit).isEmpty then none else some (rest.dropWhile Char.isDigit)
  | rest => some rest

/-- Read the offset of a time, if there is one. -/
def timeOffset : List Char → Option (List Char)
  | c :: rest =>
    if c = 'Z' ∨ c = 'z' then some rest
    else if c = '+' ∨ c = '-' then do
      let (_, rest) ← twoDigits 23 rest
      let rest ← expect ':' rest
      let (_, rest) ← twoDigits 59 rest
      some rest
    else some (c :: rest)
  | [] => some []

/-- Two digits and a colon follow: a time of day begins here. -/
def startsTime : List Char → Bool
  | a :: b :: ':' :: _ => a.isDigit && b.isDigit
  | _ => false

/-- Read a date, perhaps with a time of day and its offset, or a time of day.
After a date a space counts as the start of a time only if a time follows. -/
def dateTime (cs : List Char) : Option (List Char) :=
  match date cs with
  | some (c :: rest) =>
    if (c = 'T' ∨ c = 't' ∨ c = ' ') ∧ startsTime rest then do timeOffset (← timeOfDay rest)
    else some (c :: rest)
  | some [] => some []
  | none => timeOfDay cs

/-- Four digits and a hyphen, or two digits and a colon, follow. -/
def startsDateTime (cs : List Char) : Bool :=
  startsTime cs || ((cs.take 4).all Char.isDigit && (cs.drop 4).head? == some '-')

/-- Read a number or a point in time. -/
def numeric (cs : List Char) : Option (Value × List Char) :=
  if startsDateTime cs then
    (dateTime cs).map fun rest =>
      (.dateTime (String.ofList (cs.take (cs.length - rest.length))), rest)
  else number cs

end Toml

end DroppedResult
