import DroppedResult.Rule.Check
import Mathlib.Data.List.DropRight
import Mathlib.Data.Nat.SuccPred
import Mathlib.Data.Prod.Lex
import Mathlib.Data.String.Basic
import Mathlib.Order.Interval.Set.Monotone

/-!
# Places in a text

A violation names its range by lines and columns and carries the text of the range.
The lines and columns alone are enough to find the range again.

There are five groups.

* Rows and columns.  `Source.positionAt` goes over the bytes one by one;
  `Source.positionAt_eq` says what it has counted.
* Order.  One more byte leads to a later place, so different offsets have different
  places: `Source.strictMonoOn_positionAt`.
* Offsets.  `Source.offsetAt` goes back from a row and a column to the offset.
* Snippets.  Between character boundaries the snippet has the bytes of the range:
  `Source.toByteArray_snippetBetween`.
* Words.  Lines and columns are 32-bit words.  They do not wrap in a text that is short
  enough, and then they are in the order of the places.

`Violation.ofLabel_locates` is the result.
-/

namespace DroppedResult

namespace Source

/-! ## Rows and columns -/

/-- The place behind the given bytes. -/
def placeAfter (bytes : List UInt8) : Position :=
  bytes.foldl Position.advance Position.origin

theorem positionAt_eq_placeAfter (source : String) (offset : Nat) :
    positionAt source offset = placeAfter ((bytes source).take offset) := rfl

@[simp] theorem placeAfter_concat (bytes : List UInt8) (byte : UInt8) :
    placeAfter (bytes ++ [byte]) = (placeAfter bytes).advance byte := by
  rw [placeAfter, List.foldl_append]
  rfl

@[simp] theorem length_bytes (source : String) : (bytes source).length = source.utf8ByteSize := by
  rw [bytes, Array.length_toList]
  exact String.size_toByteArray

theorem placeAfter_eq (bytes : List UInt8) :
    placeAfter bytes = ⟨bytes.count 10, (bytes.rtakeWhile (· != 10)).length⟩ := by
  induction bytes using List.reverseRecOn with
  | nil => rfl
  | append_singleton bytes byte ih =>
    rw [placeAfter_concat, ih, Position.advance, List.rtakeWhile_concat]
    by_cases hnewline : byte = 10
    · simp [hnewline]
    · simp [hnewline]

/-- The row is the number of newlines before the offset, and the column the number of
bytes since the last of them. -/
theorem positionAt_eq (source : String) (offset : Nat) :
    positionAt source offset =
      ⟨((bytes source).take offset).count 10,
        (((bytes source).take offset).rtakeWhile (· != 10)).length⟩ :=
  placeAfter_eq _

/-- A place is not further than its offset, in rows and columns together. -/
theorem row_add_column_placeAfter_le (bytes : List UInt8) :
    (placeAfter bytes).row + (placeAfter bytes).column ≤ bytes.length := by
  induction bytes using List.reverseRecOn with
  | nil => exact Nat.le_refl 0
  | append_singleton bytes byte ih =>
    rw [placeAfter_concat, Position.advance, List.length_append, List.length_singleton]
    split
    · simp only
      omega
    · simp only
      omega

theorem row_add_column_positionAt_le (source : String) (offset : Nat) :
    (positionAt source offset).row + (positionAt source offset).column ≤ source.utf8ByteSize := by
  have hplace := row_add_column_placeAfter_le ((bytes source).take offset)
  have htake := List.length_take_le' offset (bytes source)
  rw [length_bytes] at htake
  rw [positionAt_eq_placeAfter]
  omega

/-! ## Order -/

/-- The place in the order of the text: by row, then by column. -/
def Position.key (p : Position) : Nat ×ₗ Nat :=
  toLex (p.row, p.column)

theorem Position.key_lt_advance (p : Position) (byte : UInt8) : p.key < (p.advance byte).key := by
  rw [advance]
  split
  · exact Prod.Lex.toLex_lt_toLex.mpr (.inl (Nat.lt_succ_self p.row))
  · exact Prod.Lex.toLex_lt_toLex.mpr (.inr ⟨rfl, Nat.lt_succ_self p.column⟩)

theorem positionAt_succ {source : String} {offset : Nat} (h : offset < source.utf8ByteSize) :
    ∃ byte, positionAt source (offset + 1) = (positionAt source offset).advance byte := by
  have hlength : offset < (bytes source).length := by rwa [length_bytes]
  refine ⟨(bytes source)[offset], ?_⟩
  rw [positionAt_eq_placeAfter, ← List.take_append_getElem hlength, placeAfter_concat]
  rfl

theorem positionAt_of_size_le {source : String} {offset : Nat}
    (h : source.utf8ByteSize ≤ offset) :
    positionAt source offset = positionAt source source.utf8ByteSize := by
  rw [← length_bytes] at h ⊢
  rw [positionAt, positionAt, List.take_of_length_le h, List.take_length]

/-- Later offsets of the text have later places. -/
theorem strictMonoOn_positionAt (source : String) :
    StrictMonoOn (fun offset => (positionAt source offset).key) (Set.Iic source.utf8ByteSize) := by
  refine strictMonoOn_Iic_of_lt_succ fun offset hoffset => ?_
  obtain ⟨byte, hnext⟩ := positionAt_succ hoffset
  rw [Order.succ_eq_add_one, hnext]
  exact Position.key_lt_advance _ byte

/-- Offsets beyond the end have the place of the end, so the places never go back. -/
theorem monotone_positionAt (source : String) :
    Monotone fun offset => (positionAt source offset).key := by
  refine monotone_nat_of_le_succ fun offset => ?_
  by_cases hoffset : offset < source.utf8ByteSize
  · obtain ⟨byte, hnext⟩ := positionAt_succ hoffset
    rw [hnext]
    exact (Position.key_lt_advance _ byte).le
  · have hend : source.utf8ByteSize ≤ offset := by omega
    rw [positionAt_of_size_le hend, positionAt_of_size_le (hend.trans (Nat.le_succ offset))]

/-! ## Offsets -/

/-- The offset at which a row starts: behind as many newlines as there are rows
before it. -/
def rowStart : List UInt8 → Nat → Nat
  | _, 0 => 0
  | [], _ + 1 => 0
  | byte :: bytes, row + 1 => rowStart bytes (if byte == 10 then row else row + 1) + 1

/-- The offset of a row and a column, both counted from zero. -/
def offsetAt (source : String) (p : Position) : Nat :=
  rowStart (bytes source) p.row + p.column

theorem rowStart_newline (before after : List UInt8) :
    rowStart (before ++ 10 :: after) (before.count 10 + 1) = before.length + 1 := by
  induction before with
  | nil => simp [rowStart]
  | cons byte before ih =>
    rw [List.cons_append, rowStart, List.length_cons]
    by_cases hnewline : byte = 10
    · simpa [hnewline] using ih
    · simpa [hnewline] using ih

theorem rowStart_placeAfter (before after : List UInt8) :
    rowStart (before ++ after) (placeAfter before).row + (placeAfter before).column =
      before.length := by
  induction before using List.reverseRecOn generalizing after with
  | nil => simp [placeAfter, Position.origin, rowStart]
  | append_singleton before byte ih =>
    rw [placeAfter_concat, Position.advance, List.append_assoc, List.singleton_append,
      List.length_append, List.length_singleton]
    split
    · rename_i hnewline
      -- a newline starts a row, whatever the column before it was
      rw [eq_of_beq hnewline, placeAfter_eq]
      exact rowStart_newline before after
    · have hcolumn := ih (byte :: after)
      simp only
      omega

/-- The offset can be read off the place. -/
theorem offsetAt_positionAt {source : String} {offset : Nat} (h : offset ≤ source.utf8ByteSize) :
    offsetAt source (positionAt source offset) = offset := by
  have hplace := rowStart_placeAfter ((bytes source).take offset) ((bytes source).drop offset)
  rw [List.take_append_drop, List.length_take_of_le (by rwa [length_bytes])] at hplace
  exact hplace

/-! ## Snippets -/

/-- Two boundaries cut the text in three. -/
theorem exists_cut {source : String} {start stop : Nat} (hle : start ≤ stop)
    (hstart : isBoundary source start = true) (hstop : isBoundary source stop = true) :
    ∃ before text after : String, source = before ++ text ++ after ∧
      start = before.utf8ByteSize ∧ stop = before.utf8ByteSize + text.utf8ByteSize := by
  rw [isBoundary, String.Pos.Raw.isValid_eq_true_iff] at hstart hstop
  obtain ⟨upto, after, rfl, hupto⟩ := String.Pos.Raw.isValid_iff_exists_append.mp hstop
  obtain rfl : stop = upto.utf8ByteSize := congrArg String.Pos.Raw.byteIdx hupto
  have hinside : String.Pos.Raw.IsValid upto ⟨start⟩ := by
    rcases String.Pos.Raw.isValid_append.mp hstart with hinside | ⟨hend, _⟩
    · exact hinside
    · have hge : upto.utf8ByteSize ≤ start := hend
      obtain rfl : start = upto.utf8ByteSize := by omega
      exact String.Pos.Raw.isValid_rawEndPos
  obtain ⟨before, text, rfl, hbefore⟩ := String.Pos.Raw.isValid_iff_exists_append.mp hinside
  refine ⟨before, text, after, rfl, congrArg String.Pos.Raw.byteIdx hbefore, ?_⟩
  exact String.utf8ByteSize_append

/-- The bytes between the two ends of a cut are those of the text in the middle. -/
theorem extract_cut (before text after : String) :
    (before ++ text ++ after).toByteArray.extract before.utf8ByteSize
      (before.utf8ByteSize + text.utf8ByteSize) = text.toByteArray := by
  have hupto : before.utf8ByteSize + text.utf8ByteSize = (before ++ text).toByteArray.size := by
    rw [String.size_toByteArray, String.utf8ByteSize_append]
  rw [hupto, String.toByteArray_append, ByteArray.extract_append_size_left, ← hupto,
    String.toByteArray_append]
  exact ByteArray.extract_append_eq_right String.size_toByteArray.symm
    (by simp only [String.size_toByteArray])

theorem toByteArray_snippetBetween {source : String} {start stop : Nat} (hle : start ≤ stop)
    (hstart : isBoundary source start = true) (hstop : isBoundary source stop = true) :
    (snippetBetween source start stop).toByteArray = source.toByteArray.extract start stop := by
  rw [snippetBetween, hstart, hstop, decide_eq_true hle]
  obtain ⟨before, text, after, rfl, rfl, rfl⟩ := exists_cut hle hstart hstop
  have hsize (s : String) : String.utf8Len s.toList = s.utf8ByteSize := by
    rw [← String.utf8ByteSize_ofList, String.ofList_toList]
  have hextract := String.extract_of_valid before.toList text.toList after.toList
  simp only [String.ofList_append, String.ofList_toList, hsize] at hextract
  rw [extract_cut]
  simp [hextract]

/-! ## Words -/

/-- The line and the column of a place, as words that count from one. -/
def Position.words (p : Position) : UInt32 ×ₗ UInt32 :=
  toLex (p.row.toUInt32 + 1, p.column.toUInt32 + 1)

/-- The line and the column of the place are words. -/
def Position.Fits (p : Position) : Prop :=
  p.row + 1 < 2 ^ 32 ∧ p.column + 1 < 2 ^ 32

theorem fits_positionAt {source : String} (hsize : source.utf8ByteSize < 2 ^ 32 - 1)
    (offset : Nat) : (positionAt source offset).Fits := by
  have hle := row_add_column_positionAt_le source offset
  rw [Position.Fits]
  omega

theorem toNat_toUInt32_add_one {n : Nat} (h : n + 1 < 2 ^ 32) : (n.toUInt32 + 1).toNat = n + 1 := by
  rw [UInt32.toNat_add, Nat.toUInt32_eq, UInt32.toNat_ofNat', UInt32.toNat_one]
  omega

theorem Position.words_le_words {p q : Position} (hp : p.Fits) (hq : q.Fits)
    (h : p.key ≤ q.key) : p.words ≤ q.words := by
  rw [words, words, Prod.Lex.toLex_le_toLex]
  simp only [UInt32.lt_iff_toNat_lt, UInt32.le_iff_toNat_le, ← UInt32.toNat_inj,
    toNat_toUInt32_add_one hp.1, toNat_toUInt32_add_one hp.2, toNat_toUInt32_add_one hq.1,
    toNat_toUInt32_add_one hq.2]
  rcases Prod.Lex.toLex_le_toLex.mp h with hrow | ⟨hrow, hcolumn⟩
  · exact .inl (Nat.succ_lt_succ hrow)
  · exact .inr ⟨congrArg (· + 1) hrow, Nat.succ_le_succ hcolumn⟩

theorem one_le_toUInt32_add_one {n : Nat} (h : n + 1 < 2 ^ 32) : 1 ≤ n.toUInt32 + 1 := by
  rw [UInt32.le_iff_toNat_le, toNat_toUInt32_add_one h]
  exact Nat.le_add_left 1 n

/-- The place of a line and a column, which count from one. -/
def Position.ofWords (line column : UInt32) : Position :=
  ⟨line.toNat - 1, column.toNat - 1⟩

theorem Position.ofWords_of_fits {p : Position} (h : p.Fits) :
    ofWords (p.row.toUInt32 + 1) (p.column.toUInt32 + 1) = p := by
  rw [ofWords, toNat_toUInt32_add_one h.1, toNat_toUInt32_add_one h.2]
  rfl

end Source

/-! ## Violations -/

namespace Violation

/-- Where the violation starts, in the order of the text. -/
def start (v : Violation) : UInt32 ×ₗ UInt32 :=
  toLex (v.line, v.column)

/-- Where the violation ends, in the order of the text. -/
def stop (v : Violation) : UInt32 ×ₗ UInt32 :=
  toLex (v.endLine, v.endColumn)

/-- The offset at which the violation starts, found from its line and column. -/
def startOffset (v : Violation) (source : String) : Nat :=
  Source.offsetAt source (.ofWords v.line v.column)

/-- The offset at which the violation ends, found from its line and column. -/
def stopOffset (v : Violation) (source : String) : Nat :=
  Source.offsetAt source (.ofWords v.endLine v.endColumn)

section

variable {source : String} (ruleId : RuleId) (severity : Severity) (file : FilePath)
  (message : String)

/-- A node that starts later has a violation that starts later, or at the same place. -/
theorem start_ofLabel_le (hsize : source.utf8ByteSize < 2 ^ 32 - 1) {l m : Label}
    (h : l.start ≤ m.start) :
    (ofLabel ruleId severity file source message l).start ≤
      (ofLabel ruleId severity file source message m).start :=
  Source.Position.words_le_words (Source.fits_positionAt hsize l.start)
    (Source.fits_positionAt hsize m.start) (Source.monotone_positionAt source h)

end

/-- Places in a text of fewer than 2 ^ 32 - 1 bytes.  The place of an offset is the number
of newlines before it and of the bytes since, later offsets have later places, and
the violation of a node says where the node is: its lines and columns are the places of the
node's ends, and the source between the offsets found from them is the snippet. -/
theorem ofLabel_locates (source : String) (hsize : source.utf8ByteSize < 2 ^ 32 - 1) :
    (∀ offset, Source.positionAt source offset =
      ⟨((Source.bytes source).take offset).count 10,
        (((Source.bytes source).take offset).rtakeWhile (· != 10)).length⟩) ∧
      StrictMonoOn (fun offset => (Source.positionAt source offset).key)
        (Set.Iic source.utf8ByteSize) ∧
      Set.InjOn (Source.positionAt source) (Set.Iic source.utf8ByteSize) ∧
      ∀ (ruleId : RuleId) (severity : Severity) (file : FilePath) (message : String) (l : Label),
        l.start ≤ l.stop → l.stop ≤ source.utf8ByteSize →
        let v := ofLabel ruleId severity file source message l
        v.start ≤ v.stop ∧
          (1 ≤ v.line ∧ 1 ≤ v.column ∧ 1 ≤ v.endLine ∧ 1 ≤ v.endColumn) ∧
          Source.Position.ofWords v.line v.column = Source.positionAt source l.start ∧
          Source.Position.ofWords v.endLine v.endColumn = Source.positionAt source l.stop ∧
          v.startOffset source = l.start ∧ v.stopOffset source = l.stop ∧
          (Source.isBoundary source l.start = true → Source.isBoundary source l.stop = true →
            v.snippet.toByteArray =
              source.toByteArray.extract (v.startOffset source) (v.stopOffset source)) := by
  have hstrict := Source.strictMonoOn_positionAt source
  refine ⟨Source.positionAt_eq source, hstrict, ?_, ?_⟩
  · intro a ha b hb hab
    exact hstrict.injOn ha hb (congrArg Source.Position.key hab)
  · intro ruleId severity file message l hle hstop v
    have hfits := Source.fits_positionAt hsize
    have hstartPlace : Source.Position.ofWords v.line v.column = Source.positionAt source l.start :=
      Source.Position.ofWords_of_fits (hfits l.start)
    have hstopPlace : Source.Position.ofWords v.endLine v.endColumn =
        Source.positionAt source l.stop :=
      Source.Position.ofWords_of_fits (hfits l.stop)
    have hstartOffset : v.startOffset source = l.start := by
      rw [startOffset, hstartPlace]
      exact Source.offsetAt_positionAt (hle.trans hstop)
    have hstopOffset : v.stopOffset source = l.stop := by
      rw [stopOffset, hstopPlace]
      exact Source.offsetAt_positionAt hstop
    refine ⟨?_, ⟨?_, ?_, ?_, ?_⟩, hstartPlace, hstopPlace, hstartOffset, hstopOffset, ?_⟩
    · exact Source.Position.words_le_words (hfits l.start) (hfits l.stop)
        (Source.monotone_positionAt source hle)
    · exact Source.one_le_toUInt32_add_one (hfits l.start).1
    · exact Source.one_le_toUInt32_add_one (hfits l.start).2
    · exact Source.one_le_toUInt32_add_one (hfits l.stop).1
    · exact Source.one_le_toUInt32_add_one (hfits l.stop).2
    · intro hstartBoundary hstopBoundary
      rw [hstartOffset, hstopOffset]
      exact Source.toByteArray_snippetBetween hle hstartBoundary hstopBoundary

/-- The second line of the text with the newline that ends it, behind a letter of two bytes
and a carriage return. -/
def secondLine : Label :=
  ⟨⟨"expression_statement"⟩, true, 4, 10, none⟩

theorem ofLabel_secondLine :
    let source := "é\r\nok(1)\n"
    let v := ofLabel ResultRule.id .error (.ofText "a.ts") source ResultRule.message secondLine
    source.utf8ByteSize < 2 ^ 32 - 1 ∧
      Source.isBoundary source 4 = true ∧ Source.isBoundary source 10 = true ∧
      (v.line, v.column, v.endLine, v.endColumn) = (2, 1, 3, 1) ∧ v.snippet = "ok(1)\n" ∧
      v.start ≤ v.stop ∧ v.startOffset source = 4 ∧ v.stopOffset source = 10 ∧
      v.snippet.toByteArray =
        source.toByteArray.extract (v.startOffset source) (v.stopOffset source) := by
  intro source v
  have hsize : source.utf8ByteSize < 2 ^ 32 - 1 := by decide
  have hstart : Source.isBoundary source 4 = true := by decide +kernel
  have hstop : Source.isBoundary source 10 = true := by decide +kernel
  obtain ⟨_, _, _, hlocates⟩ := ofLabel_locates source hsize
  obtain ⟨horder, _, _, _, hstartOffset, hstopOffset, hsnippet⟩ :=
    hlocates ResultRule.id .error (.ofText "a.ts") ResultRule.message secondLine (by decide)
      (by decide)
  refine ⟨hsize, hstart, hstop, ?_, ?_, horder, hstartOffset, hstopOffset, hsnippet hstart hstop⟩
  · decide +kernel
  · decide +kernel

end Violation

end DroppedResult
