import DroppedResult.Proofs.Positions

/-!
# Texts of nodes

The rule reads the text of a node by checking the bytes of its range, and a violation
quotes it by checking the two ends of the range.  Both agree on every range of the
source, also on one that cuts a character.

* `Source.SplitsAt` and `Source.Covers` say without bytes that an offset is between two
  characters, and which text is between two offsets.
* `Source.toByteArray_textBetween` and `Source.textBetween_of_not_boundary` are the two
  cases for the checked bytes.  The checked ends have `Source.toByteArray_snippetBetween`
  for the first case.

`Violation.snippet_eq_text` is the result.
-/

namespace DroppedResult

namespace Source

/-! ## Cuts -/

/-- The offset is between two characters, or at an end of the source. -/
def SplitsAt (source : String) (offset : Nat) : Prop :=
  ∃ before after : String, source = before ++ after ∧ offset = before.utf8ByteSize

/-- The range from `start` to `stop` is that of `text`, with a text before it and a text
after it. -/
def Covers (source : String) (start stop : Nat) (text : String) : Prop :=
  ∃ before after : String, source = before ++ text ++ after ∧
    start = before.utf8ByteSize ∧ stop = before.utf8ByteSize + text.utf8ByteSize

theorem isBoundary_iff_splitsAt {source : String} {offset : Nat} :
    isBoundary source offset = true ↔ SplitsAt source offset := by
  rw [isBoundary, String.Pos.Raw.isValid_eq_true_iff, String.Pos.Raw.isValid_iff_exists_append]
  constructor
  · rintro ⟨before, after, hsource, hoffset⟩
    exact ⟨before, after, hsource, congrArg String.Pos.Raw.byteIdx hoffset⟩
  · rintro ⟨before, after, hsource, hoffset⟩
    exact ⟨before, after, hsource, congrArg String.Pos.Raw.mk hoffset⟩

/-- A text with the bytes of a range between two boundaries is the text of the range. -/
theorem covers_of_toByteArray_eq {source text : String} {start stop : Nat} (hle : start ≤ stop)
    (hstart : isBoundary source start = true) (hstop : isBoundary source stop = true)
    (htext : text.toByteArray = source.toByteArray.extract start stop) :
    Covers source start stop text := by
  obtain ⟨before, middle, after, rfl, rfl, rfl⟩ := exists_cut hle hstart hstop
  rw [extract_cut, String.toByteArray_inj] at htext
  subst htext
  exact ⟨before, after, rfl, rfl, rfl⟩

/-! ## Checked bytes -/

/-- The bytes of a range are a text when the range is empty or both ends are boundaries. -/
theorem isValidUTF8_extract_iff {source : String} {start stop : Nat} (hle : start ≤ stop)
    (hstop : stop ≤ source.utf8ByteSize) :
    (source.toByteArray.extract start stop).IsValidUTF8 ↔
      start = stop ∨ isBoundary source start = true ∧ isBoundary source stop = true := by
  have hvalid := String.Pos.Raw.isValidUTF8_extract_iff (s := source) ⟨start⟩ ⟨stop⟩ hle hstop
  rw [hvalid, isBoundary, isBoundary, String.Pos.Raw.isValid_eq_true_iff,
    String.Pos.Raw.isValid_eq_true_iff, String.Pos.Raw.mk.injEq]

theorem toByteArray_textBetween {source : String} {start stop : Nat}
    (hvalid : (source.toByteArray.extract start stop).IsValidUTF8) :
    (textBetween source start stop).toByteArray = source.toByteArray.extract start stop := by
  rw [textBetween, String.fromUTF8?, dif_pos hvalid]
  rfl

theorem textBetween_of_not_boundary {source : String} {start stop : Nat} (hle : start ≤ stop)
    (hstop : stop ≤ source.utf8ByteSize)
    (hcut : ¬ (isBoundary source start = true ∧ isBoundary source stop = true)) :
    textBetween source start stop = "" := by
  by_cases hempty : start = stop
  · -- no bytes are a text, wherever they are taken
    subst hempty
    have hvalid := (isValidUTF8_extract_iff hle hstop).mpr (.inl rfl)
    rw [← String.toByteArray_inj, toByteArray_textBetween hvalid, ByteArray.extract_same]
    rfl
  · have hvalid : ¬ (source.toByteArray.extract start stop).IsValidUTF8 := by
      rw [isValidUTF8_extract_iff hle hstop]
      exact not_or.mpr ⟨hempty, hcut⟩
    rw [textBetween, String.fromUTF8?, dif_neg hvalid]
    rfl

/-! ## Checked ends -/

theorem snippetBetween_of_not_boundary {source : String} {start stop : Nat}
    (hcut : ¬ (isBoundary source start = true ∧ isBoundary source stop = true)) :
    snippetBetween source start stop = "" := by
  rw [snippetBetween, if_neg]
  intro hends
  simp only [Bool.and_eq_true] at hends
  exact hcut ⟨hends.1.2, hends.2⟩

theorem snippetBetween_eq_textBetween {source : String} {start stop : Nat} (hle : start ≤ stop)
    (hstop : stop ≤ source.utf8ByteSize) :
    snippetBetween source start stop = textBetween source start stop := by
  by_cases hends : isBoundary source start = true ∧ isBoundary source stop = true
  · have hvalid := (isValidUTF8_extract_iff hle hstop).mpr (.inr hends)
    rw [← String.toByteArray_inj, toByteArray_snippetBetween hle hends.1 hends.2,
      toByteArray_textBetween hvalid]
  · rw [snippetBetween_of_not_boundary hends, textBetween_of_not_boundary hle hstop hends]

end Source

/-! ## Nodes -/

namespace Violation

/-- The snippet of a violation is the text of its node: what the range covers when both
ends are between characters, and nothing otherwise. -/
theorem snippet_eq_text (source : String) (l : Label) (hle : l.start ≤ l.stop)
    (hstop : l.stop ≤ source.utf8ByteSize) :
    (∀ (ruleId : RuleId) (severity : Severity) (file : FilePath) (message : String),
      (ofLabel ruleId severity file source message l).snippet = l.text source) ∧
      (Source.SplitsAt source l.start ∧ Source.SplitsAt source l.stop →
        Source.Covers source l.start l.stop (l.text source)) ∧
      (¬ (Source.SplitsAt source l.start ∧ Source.SplitsAt source l.stop) →
        l.text source = "") := by
  refine ⟨?_, ?_, ?_⟩
  · intro ruleId severity file message
    exact Source.snippetBetween_eq_textBetween hle hstop
  · rw [← Source.isBoundary_iff_splitsAt, ← Source.isBoundary_iff_splitsAt]
    intro hends
    have hvalid := (Source.isValidUTF8_extract_iff hle hstop).mpr (.inr hends)
    exact Source.covers_of_toByteArray_eq hle hends.1 hends.2
      (Source.toByteArray_textBetween hvalid)
  · rw [← Source.isBoundary_iff_splitsAt, ← Source.isBoundary_iff_splitsAt]
    exact Source.textBetween_of_not_boundary hle hstop

/-- An identifier of the given range. -/
def nameBetween (start stop : Nat) : Label :=
  ⟨.identifier, true, start, stop, none⟩

/-- A letter of two bytes, taken whole and from its second byte on. -/
theorem snippet_accentedName :
    let source := "né()"
    let quoted := fun l : Label =>
      (ofLabel ResultRule.id .error (.ofText "a.ts") source ResultRule.message l).snippet
    (Source.SplitsAt source 1 ∧ Source.SplitsAt source 3 ∧ ¬ Source.SplitsAt source 2) ∧
      quoted (nameBetween 1 3) = (nameBetween 1 3).text source ∧
      Source.Covers source 1 3 ((nameBetween 1 3).text source) ∧
      quoted (nameBetween 2 3) = "" ∧ (nameBetween 2 3).text source = "" := by
  intro source quoted
  have hstart : Source.SplitsAt source 1 := ⟨"n", "é()", by decide, by decide⟩
  have hstop : Source.SplitsAt source 3 := ⟨"né", "()", by decide, by decide⟩
  have hinside : ¬ Source.SplitsAt source 2 := by
    rw [← Source.isBoundary_iff_splitsAt]
    decide +kernel
  obtain ⟨hwhole, hcovers, _⟩ := snippet_eq_text source (nameBetween 1 3) (by decide) (by decide)
  obtain ⟨hhalf, _, hnothing⟩ := snippet_eq_text source (nameBetween 2 3) (by decide) (by decide)
  have hempty : (nameBetween 2 3).text source = "" := hnothing fun hends => hinside hends.1
  exact ⟨⟨hstart, hstop, hinside⟩, hwhole _ _ _ _, hcovers ⟨hstart, hstop⟩,
    (hhalf _ _ _ _).trans hempty, hempty⟩

end Violation

end DroppedResult
