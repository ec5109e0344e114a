import DroppedResult.Json

/-!
# Reading JSON records

A reader for flat JSON objects, the other way round from `Json.Record.write`.  It
takes what the format allows and not only what is written: blanks between tokens,
every escape, and pairs of escapes for characters outside the basic plane.  A text
that is no object, or whose values are not texts, truth values or natural numbers,
is refused.

A part of the reader gives what it has read and the characters that follow.
`Json.Record.read_write` says that a record is read back from what is written for
it, and `Json.Record.newline_not_mem_write` that it is written on one line.
-/

namespace DroppedResult

namespace Json

/-! ## The reader -/

def isBlank (c : Char) : Bool :=
  c == ' ' || c == '\t' || c == '\n' || c == '\r'

def skipBlanks (cs : List Char) : List Char :=
  cs.dropWhile isBlank

def hexValue? (c : Char) : Option Nat :=
  if '0' ≤ c ∧ c ≤ '9' then some (c.toNat - '0'.toNat)
  else if 'a' ≤ c ∧ c ≤ 'f' then some (c.toNat - 'a'.toNat + 10)
  else if 'A' ≤ c ∧ c ≤ 'F' then some (c.toNat - 'A'.toNat + 10)
  else none

/-- Read a code unit of four hexadecimal digits. -/
def readUnit : List Char → Option (Nat × List Char)
  | a :: b :: c :: d :: rest => do
    let a ← hexValue? a
    let b ← hexValue? b
    let c ← hexValue? c
    let d ← hexValue? d
    some (((a * 16 + b) * 16 + c) * 16 + d, rest)
  | _ => none

def isHighSurrogate (unit : Nat) : Bool :=
  0xd800 ≤ unit && unit < 0xdc00

def isLowSurrogate (unit : Nat) : Bool :=
  0xdc00 ≤ unit && unit < 0xe000

/-- Read a character that is given by its code unit, or by two if it needs two. -/
def readCoded (cs : List Char) : Option (Char × List Char) := do
  let (unit, rest) ← readUnit cs
  if isHighSurrogate unit then
    match rest with
    | '\\' :: 'u' :: rest =>
      let (low, rest) ← readUnit rest
      if isLowSurrogate low then
        some (Char.ofNat (0x10000 + (unit - 0xd800) * 0x400 + (low - 0xdc00)), rest)
      else none
    | _ => none
  else if isLowSurrogate unit then none
  else some (Char.ofNat unit, rest)

/-- Read an escape after its backslash. -/
def readEscape : List Char → Option (Char × List Char)
  | '\x22' :: rest => some ('\x22', rest)
  | '\\' :: rest => some ('\\', rest)
  | '/' :: rest => some ('/', rest)
  | 'b' :: rest => some ('\x08', rest)
  | 'f' :: rest => some ('\x0c', rest)
  | 'n' :: rest => some ('\n', rest)
  | 'r' :: rest => some ('\r', rest)
  | 't' :: rest => some ('\t', rest)
  | 'u' :: rest => readCoded rest
  | _ => none

/-- Read one character of a text. -/
def readChar : List Char → Option (Char × List Char)
  | [] => none
  | c :: rest =>
    if c = '\\' then readEscape rest
    else if c = '\x22' ∨ c < ' ' then none
    else some (c, rest)

/-- Read the characters of a text up to its closing quote, a bounded number of
them. -/
def readChars : Nat → List Char → Option (List Char × List Char)
  | _, '\x22' :: rest => some ([], rest)
  | 0, _ => none
  | steps + 1, cs => do
    let (c, rest) ← readChar cs
    let (more, rest) ← readChars steps rest
    some (c :: more, rest)

/-- Read a text after its opening quote. -/
def readText (cs : List Char) : Option (String × List Char) :=
  (readChars cs.length cs).map fun (text, rest) => (String.ofList text, rest)

/-- Read a natural number.  A zero in front of other digits is refused. -/
def readNumber (cs : List Char) : Option (Nat × List Char) :=
  let digits := cs.takeWhile Char.isDigit
  if digits = [] ∨ digits.head? = some '0' ∧ digits ≠ ['0'] then none
  else some (Nat.ofDigitChars 10 digits 0, cs.dropWhile Char.isDigit)

def readScalar : List Char → Option (Scalar × List Char)
  | '\x22' :: rest => (readText rest).map fun (s, rest) => (.text s, rest)
  | 't' :: 'r' :: 'u' :: 'e' :: rest => some (.truth true, rest)
  | 'f' :: 'a' :: 'l' :: 's' :: 'e' :: rest => some (.truth false, rest)
  | cs => (readNumber cs).map fun (n, rest) => (.number n, rest)

/-- Read a name with its value. -/
def readField (cs : List Char) : Option ((String × Scalar) × List Char) :=
  match skipBlanks cs with
  | '\x22' :: rest => do
    let (name, rest) ← readText rest
    match skipBlanks rest with
    | ':' :: rest =>
      let (value, rest) ← readScalar (skipBlanks rest)
      some ((name, value), skipBlanks rest)
    | _ => none
  | _ => none

/-- Read fields up to the closing brace, a bounded number of them. -/
def readFields : Nat → List Char → Option (Record × List Char)
  | 0, _ => none
  | steps + 1, cs => do
    let (field, rest) ← readField cs
    match rest with
    | ',' :: rest =>
      let (fields, rest) ← readFields steps rest
      some (field :: fields, rest)
    | '\x7d' :: rest => some ([field], rest)
    | _ => none

/-- Read an object after its opening brace. -/
def readObject (cs : List Char) : Option (Record × List Char) :=
  match skipBlanks cs with
  | '\x7d' :: rest => some ([], rest)
  | cs => readFields cs.length cs

/-- The record that a text denotes, if it denotes one. -/
def Record.read (cs : List Char) : Option Record :=
  match skipBlanks cs with
  | '\x7b' :: rest => do
    let (record, rest) ← readObject rest
    if skipBlanks rest = [] then some record else none
  | _ => none

/-! ## Texts -/

theorem hexValue?_hexDigit : ∀ n < 16, hexValue? (hexDigit n) = some n := by
  decide

theorem readCoded_control {c : Char} (h : c < ' ') (rest : List Char) :
    readCoded ('0' :: '0' :: hexDigit (c.toNat / 16) :: hexDigit (c.toNat % 16) :: rest) =
      some (c, rest) := by
  have hc : c.toNat < 32 := h
  have hzero : hexValue? '0' = some 0 := by decide
  have hunit : readUnit ('0' :: '0' :: hexDigit (c.toNat / 16) :: hexDigit (c.toNat % 16) :: rest) =
      some (c.toNat, rest) := by
    have hsum : c.toNat / 16 * 16 + c.toNat % 16 = c.toNat := by omega
    simp [readUnit, hzero, hexValue?_hexDigit (c.toNat / 16) (by omega),
      hexValue?_hexDigit (c.toNat % 16) (by omega), hsum]
  have hhigh : isHighSurrogate c.toNat = false := by simp [isHighSurrogate]; omega
  have hlow : isLowSurrogate c.toNat = false := by simp [isLowSurrogate]; omega
  simp [readCoded, hunit, hhigh, hlow]

theorem readChar_escapeChar (c : Char) (rest : List Char) :
    readChar (escapeChar c ++ rest) = some (c, rest) := by
  unfold escapeChar
  -- the escapes that have a letter or sign of their own
  iterate 7
    split
    · subst c; rfl
  split
  · rename_i hcontrol
    exact readCoded_control hcontrol rest
  · rename_i hquote hbackslash _ _ _ _ _ hcontrol
    simp [readChar, hquote, hbackslash, hcontrol]

theorem escapeChar_append_ne (c : Char) (rest more : List Char) :
    escapeChar c ++ rest ≠ '\x22' :: more := by
  intro heq
  have hread := readChar_escapeChar c rest
  rw [heq] at hread
  cases hread

theorem readChars_escape {steps : Nat} {cs rest : List Char} (h : cs.length ≤ steps) :
    readChars steps (cs.flatMap escapeChar ++ '\x22' :: rest) = some (cs, rest) := by
  induction cs generalizing steps with
  | nil => cases steps <;> rfl
  | cons c cs ih =>
    cases steps with
    | zero => cases h
    | succ steps =>
      rw [List.flatMap_cons, List.append_assoc, readChars, readChar_escapeChar]
      · simp [ih (Nat.le_of_succ_le_succ h)]
      · exact escapeChar_append_ne c _

theorem length_le_flatMap_escapeChar (cs : List Char) :
    cs.length ≤ (cs.flatMap escapeChar).length := by
  induction cs with
  | nil => simp
  | cons c cs ih =>
    have hpos : 0 < (escapeChar c).length := by
      refine List.length_pos_iff.mpr fun hnil => ?_
      have hread := readChar_escapeChar c []
      rw [hnil] at hread
      cases hread
    simp only [List.flatMap_cons, List.length_append, List.length_cons]
    omega

theorem readText_escape (s : String) (rest : List Char) :
    readText (s.toList.flatMap escapeChar ++ '\x22' :: rest) = some (s, rest) := by
  have hsteps : s.toList.length ≤ (s.toList.flatMap escapeChar ++ '\x22' :: rest).length := by
    rw [List.length_append]
    exact Nat.le_trans (length_le_flatMap_escapeChar s.toList) (Nat.le_add_right _ _)
  rw [readText, readChars_escape hsteps, Option.map_some]
  exact congrArg (fun t => some (t, rest)) s.ofList_toList

theorem quoted_append (s : String) (rest : List Char) :
    quoted s ++ rest = '\x22' :: (s.toList.flatMap escapeChar ++ '\x22' :: rest) := by
  simp [quoted]

/-! ## Numbers -/

/-- The digits of a positive number do not start with a zero. -/
theorem head?_toDigits_ne_zero {n : Nat} (h : 0 < n) : (Nat.toDigits 10 n).head? ≠ some '0' := by
  induction n using Nat.strongRecOn with
  | ind n ih =>
    by_cases hn : n < 10
    · have hdigit : ∀ m < 10, 0 < m → [Nat.digitChar m].head? ≠ some '0' := by decide
      rw [Nat.toDigits_of_lt_base hn]
      exact hdigit n hn h
    · rw [Nat.toDigits_of_base_le (by decide) (by omega), List.head?_append,
        List.head?_eq_some_head Nat.toDigits_ne_nil, Option.some_or, ← List.head?_eq_some_head]
      exact ih (n / 10) (by omega) (by omega)

theorem readNumber_toDigits (n : Nat) {rest : List Char}
    (hrest : ∀ c ∈ rest.head?, c.isDigit = false) :
    readNumber (Nat.toDigits 10 n ++ rest) = some (n, rest) := by
  have hdigits : ∀ c ∈ Nat.toDigits 10 n, c.isDigit = true := fun c hc =>
    Nat.isDigit_of_mem_toDigits (by decide) (by decide) hc
  have htake : (Nat.toDigits 10 n ++ rest).takeWhile Char.isDigit = Nat.toDigits 10 n := by
    rw [List.takeWhile_append_of_pos hdigits]
    cases rest with
    | nil => simp
    | cons c rest => simp [hrest c rfl]
  have hdrop : (Nat.toDigits 10 n ++ rest).dropWhile Char.isDigit = rest := by
    rw [List.dropWhile_append_of_pos hdigits]
    cases rest with
    | nil => simp
    | cons c rest => simp [hrest c rfl]
  have hnumeral : ¬ (Nat.toDigits 10 n = [] ∨
      (Nat.toDigits 10 n).head? = some '0' ∧ Nat.toDigits 10 n ≠ ['0']) := by
    rintro (hnil | ⟨hzero, hlong⟩)
    · exact Nat.toDigits_ne_nil hnil
    · rcases Nat.eq_zero_or_pos n with rfl | hpos
      · exact hlong rfl
      · exact head?_toDigits_ne_zero hpos hzero
  simp only [readNumber, htake, hdrop, if_neg hnumeral, Nat.ofDigitChars_ten_toDigits]

theorem exists_toDigits_append (n : Nat) (rest : List Char) :
    ∃ d more, Nat.toDigits 10 n ++ rest = d :: more ∧ d.isDigit = true := by
  cases hdigits : Nat.toDigits 10 n with
  | nil => exact absurd hdigits Nat.toDigits_ne_nil
  | cons d ds =>
    refine ⟨d, ds ++ rest, rfl, ?_⟩
    exact Nat.isDigit_of_mem_toDigits (by decide) (by decide) (hdigits ▸ List.mem_cons_self)

/-! ## Records -/

theorem readScalar_write (v : Scalar) {rest : List Char}
    (hrest : ∀ c ∈ rest.head?, c.isDigit = false) :
    readScalar (v.write ++ rest) = some (v, rest) := by
  cases v with
  | text s => rw [Scalar.write, quoted_append, readScalar, readText_escape]; rfl
  | truth b => cases b <;> rfl
  | number n =>
    have hstart {c : Char} (hc : c.isDigit = false) (more : List Char) :
        Nat.toDigits 10 n ++ rest ≠ c :: more := by
      intro heq
      obtain ⟨d, _, hd, hdigit⟩ := exists_toDigits_append n rest
      rw [(List.cons.inj (hd.symm.trans heq)).1, hc] at hdigit
      cases hdigit
    rw [Scalar.write, readScalar, readNumber_toDigits n hrest]
    · rfl
    · exact fun more => hstart rfl more
    · exact fun more => hstart rfl _
    · exact fun more => hstart rfl _

theorem skipBlanks_write (v : Scalar) (rest : List Char) :
    skipBlanks (v.write ++ rest) = v.write ++ rest := by
  cases v with
  | text s => rw [Scalar.write, quoted_append]; rfl
  | truth b => cases b <;> rfl
  | number n =>
    obtain ⟨d, more, hd, hdigit⟩ := exists_toDigits_append n rest
    have hblank : isBlank d = false := by
      rw [Bool.eq_false_iff]
      intro h
      simp only [isBlank, Bool.or_eq_true, beq_iff_eq] at h
      rcases h with ((rfl | rfl) | rfl) | rfl <;> cases hdigit
    rw [Scalar.write, hd, skipBlanks, List.dropWhile_cons_of_neg (by simp [hblank])]

theorem readField_write (field : String × Scalar) {rest : List Char}
    (hrest : ∀ c ∈ rest.head?, c.isDigit = false) :
    readField (Record.writeField field ++ rest) = some (field, skipBlanks rest) := by
  obtain ⟨name, value⟩ := field
  have hquote (cs : List Char) : skipBlanks ('\x22' :: cs) = '\x22' :: cs := rfl
  have hcolon (cs : List Char) : skipBlanks (':' :: cs) = ':' :: cs := rfl
  rw [Record.writeField, List.append_assoc, List.cons_append, quoted_append]
  simp only [readField, hquote, hcolon, readText_escape, skipBlanks_write,
    readScalar_write value hrest, Option.bind_eq_bind, Option.bind_some]

theorem readFields_write {steps : Nat} {r : Record} (hne : r ≠ []) (h : r.length ≤ steps)
    (rest : List Char) :
    readFields steps (List.intercalate [','] (r.map Record.writeField) ++ '\x7d' :: rest) =
      some (r, rest) := by
  induction r generalizing steps with
  | nil => exact absurd rfl hne
  | cons field r ih =>
    cases steps with
    | zero => cases h
    | succ steps =>
      cases r with
      | nil =>
        rw [List.map_singleton, List.intercalate_singleton, readFields,
          readField_write field (by simp)]
        rfl
      | cons next r =>
        have hcomma (cs : List Char) : skipBlanks (',' :: cs) = ',' :: cs := rfl
        have hmore := ih (List.cons_ne_nil next r) (Nat.le_of_succ_le_succ h)
        rw [List.map_cons] at hmore
        rw [List.map_cons, List.map_cons, List.intercalate_cons_cons, List.append_assoc,
          List.append_assoc, List.singleton_append, readFields, readField_write field (by simp),
          hcomma]
        simp only [Option.bind_eq_bind, Option.bind_some, hmore]

theorem length_le_intercalate (r : Record) :
    r.length ≤ (List.intercalate [','] (r.map Record.writeField)).length + 1 := by
  induction r with
  | nil => simp
  | cons field r ih =>
    cases r with
    | nil => simp
    | cons next r =>
      rw [List.map_cons] at ih
      rw [List.map_cons, List.map_cons, List.intercalate_cons_cons]
      simp only [List.length_cons, List.length_append] at ih ⊢
      omega

theorem readObject_write (r : Record) (rest : List Char) :
    readObject (List.intercalate [','] (r.map Record.writeField) ++ '\x7d' :: rest) =
      some (r, rest) := by
  cases r with
  | nil => rfl
  | cons field r =>
    -- the object starts with the quote of its first name
    obtain ⟨more, hmore⟩ : ∃ more, List.intercalate [','] ((field :: r).map Record.writeField) ++
        '\x7d' :: rest = '\x22' :: more := by
      cases r <;> exact ⟨_, rfl⟩
    have hfields := length_le_intercalate (field :: r)
    have hstart (cs : List Char) : readObject ('\x22' :: cs) =
        readFields ('\x22' :: cs).length ('\x22' :: cs) := rfl
    rw [hmore, hstart, ← hmore]
    refine readFields_write (List.cons_ne_nil field r) ?_ rest
    simp only [List.length_append, List.length_cons] at hfields ⊢
    omega

namespace Record

/-- A record is read back from what is written for it. -/
theorem read_write (r : Record) : read r.write = some r := by
  have hbrace (cs : List Char) : skipBlanks ('\x7b' :: cs) = '\x7b' :: cs := rfl
  rw [write, read, List.cons_append, hbrace]
  simp only [readObject_write, Option.bind_eq_bind, Option.bind_some]
  rfl

end Record

/-! ## Lines -/

theorem newline_not_mem_escapeChar (c : Char) : '\n' ∉ escapeChar c := by
  have hhex : ∀ n < 16, '\n' ≠ hexDigit n := by decide
  unfold escapeChar
  iterate 7
    split
    · decide
  split
  · rename_i hcontrol
    have hc : c.toNat < 32 := hcontrol
    simp [hhex (c.toNat / 16) (by omega), hhex (c.toNat % 16) (by omega)]
  · rename_i hnewline _ _ _
    simpa using Ne.symm hnewline

theorem newline_not_mem_quoted (s : String) : '\n' ∉ quoted s := by
  simp only [quoted, List.mem_append, List.mem_cons, List.mem_flatMap, List.not_mem_nil, or_false]
  rintro ((h | ⟨c, _, h⟩) | h)
  · cases h
  · exact newline_not_mem_escapeChar c h
  · cases h

theorem newline_not_mem_scalar (v : Scalar) : '\n' ∉ v.write := by
  cases v with
  | text s => exact newline_not_mem_quoted s
  | truth b => cases b <;> decide
  | number n =>
    intro h
    cases Nat.isDigit_of_mem_toDigits (by decide) (by decide) h

theorem newline_not_mem_intercalate (r : Record) :
    '\n' ∉ List.intercalate [','] (r.map Record.writeField) := by
  have hfield (field : String × Scalar) : '\n' ∉ Record.writeField field := by
    simp [Record.writeField, newline_not_mem_quoted, newline_not_mem_scalar]
  induction r with
  | nil => simp
  | cons field r ih =>
    cases r with
    | nil => simpa using hfield field
    | cons next r =>
      rw [List.map_cons] at ih
      rw [List.map_cons, List.map_cons, List.intercalate_cons_cons]
      simp [hfield, ih]

/-- A record is written on one line. -/
theorem Record.newline_not_mem_write (r : Record) : '\n' ∉ r.write := by
  simp [Record.write, newline_not_mem_intercalate]

end Json

end DroppedResult
