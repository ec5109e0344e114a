import DroppedResult.Report.Human
import Mathlib.Data.List.TakeWhile

/-!
# The lines of a report for people

A report without styles has two lines for each violation and a few at its end.  A snippet
can be any text, with line ends of its own; only its first line is shown.

* First lines.  `IsFirstLine` says what the first line of a text is; `firstLine` gives it:
  `isFirstLine_iff`.
* Lines.  `Outcome.lines` are the lines of the report, and `Outcome.human_false` says that
  it consists of them, each with its line end.
* Control characters.  The texts that a report adds have none, so a newline or an escape in
  it comes from a path, a message or a snippet: `Outcome.not_mem_lines`.

`Outcome.human_layout` is the result.
-/

namespace DroppedResult

/-! ## First lines -/

/-- The line is the text up to its first newline, without a carriage return right before
the newline.  A text without a newline is one line. -/
inductive IsFirstLine : String → String → Prop where
  | whole {text : String} (htext : '\n' ∉ text.toList) : IsFirstLine text text
  | newline {line : String} (rest : String) (hline : '\n' ∉ line.toList)
      (hlast : line.toList.getLast? ≠ some '\r') : IsFirstLine (line ++ "\n" ++ rest) line
  | returnNewline {line : String} (rest : String) (hline : '\n' ∉ line.toList) :
      IsFirstLine (line ++ "\r\n" ++ rest) line

namespace IsFirstLine

variable {text line : String}

theorem newline_not_mem (h : IsFirstLine text line) : '\n' ∉ line.toList := by
  cases h <;> assumption

theorem subset (h : IsFirstLine text line) : line.toList ⊆ text.toList := by
  cases h with
  | whole htext => exact List.Subset.refl _
  | newline rest hline hlast => simp [List.append_assoc]
  | returnNewline rest hline => simp [List.append_assoc]

end IsFirstLine

theorem firstLine_of_newline_not_mem {text : String} (h : '\n' ∉ text.toList) :
    firstLine text = text := by
  have hall : text.toList.takeWhile (· != '\n') = text.toList :=
    List.takeWhile_eq_self_iff.mpr fun c hc => by
      simpa using fun (hnewline : c = '\n') => h (hnewline ▸ hc)
  simp [firstLine, hall, h]

/-- Of a text with a newline, what stands before it is taken, but for one carriage return
at its end. -/
theorem firstLine_append_newline {before : String} (h : '\n' ∉ before.toList) (rest : String) :
    firstLine (before ++ "\n" ++ rest) =
      .ofList (if before.toList.getLast? = some '\r' then before.toList.dropLast
        else before.toList) := by
  have htext : (before ++ "\n" ++ rest).toList = before.toList ++ '\n' :: rest.toList := by simp
  have htake : (before.toList ++ '\n' :: rest.toList).takeWhile (· != '\n') = before.toList := by
    rw [List.takeWhile_append_of_pos, List.takeWhile_cons_of_neg (by simp), List.append_nil]
    intro c hc
    simpa using fun (hnewline : c = '\n') => h (hnewline ▸ hc)
  simp [firstLine, htext, htake]

theorem exists_isFirstLine (text : String) : ∃ line, IsFirstLine text line := by
  by_cases hnewline : '\n' ∈ text.toList
  · obtain ⟨before, after, htext, hbefore⟩ := List.eq_append_cons_of_mem hnewline
    by_cases hreturn : before.getLast? = some '\r'
    · obtain ⟨line, rfl⟩ := List.getLast?_eq_some_iff.mp hreturn
      have hcut : text = .ofList line ++ "\r\n" ++ .ofList after := by
        apply String.toList_injective
        simp [htext]
      rw [hcut]
      refine ⟨_, .returnNewline _ ?_⟩
      simpa using fun hmem => hbefore (List.mem_append_left _ hmem)
    · have hcut : text = .ofList before ++ "\n" ++ .ofList after := by
        apply String.toList_injective
        simp [htext]
      rw [hcut]
      exact ⟨_, .newline _ (by simpa using hbefore) (by simpa using hreturn)⟩
  · exact ⟨text, .whole hnewline⟩

theorem IsFirstLine.firstLine_eq {text line : String} (h : IsFirstLine text line) :
    firstLine text = line := by
  cases h with
  | whole htext => exact firstLine_of_newline_not_mem htext
  | newline rest hline hlast =>
    rw [firstLine_append_newline hline, if_neg hlast, String.ofList_toList]
  | returnNewline rest hline =>
    -- the carriage return stands at the end of what is before the newline
    have hcut : line ++ "\r\n" ++ rest = line ++ "\r" ++ "\n" ++ rest := by
      apply String.toList_injective
      simp
    rw [hcut, firstLine_append_newline (by simpa using hline)]
    simp

theorem isFirstLine_iff (text line : String) : IsFirstLine text line ↔ firstLine text = line := by
  constructor
  · exact IsFirstLine.firstLine_eq
  · rintro rfl
    obtain ⟨line, hline⟩ := exists_isFirstLine text
    rw [hline.firstLine_eq]
    exact hline

/-! ## Lines -/

/-- Lines with their line ends. -/
def ofLines (lines : List String) : String :=
  String.join (lines.map (· ++ "\n"))

theorem toList_ofLines (lines : List String) :
    (ofLines lines).toList = lines.flatMap fun line => line.toList ++ ['\n'] := by
  simp [ofLines, String.toList_join, List.flatMap_map]

theorem getLast?_ofLines {lines : List String} (h : lines ≠ []) :
    (ofLines lines).toList.getLast? = some '\n' := by
  rw [← List.dropLast_concat_getLast h, toList_ofLines, List.flatMap_append,
    List.flatMap_singleton, ← List.append_assoc, List.getLast?_concat]

theorem toList_plainText (pieces : List Piece) :
    (plainText pieces).toList = pieces.flatMap fun piece => piece.text.toList := by
  rw [plainText, String.toList_join, List.flatMap_map]

namespace Violation

/-- Where a violation is, and what is said of it. -/
def headline (v : Violation) : String :=
  v.file.display ++ ":" ++ decimal v.line.toNat ++ ":" ++ decimal v.column.toNat ++ ": " ++
    v.severity.name ++ "[" ++ v.ruleId.text ++ "] " ++ v.message

/-- What is shown of the snippet. -/
def excerpt (v : Violation) : String :=
  "    " ++ firstLine v.snippet

def lines (v : Violation) : List String :=
  [v.headline, v.excerpt]

theorem plainText_pieces (v : Violation) : plainText v.pieces = ofLines v.lines := by
  apply String.toList_injective
  rw [toList_plainText, toList_ofLines]
  simp [pieces, lines, headline, excerpt, Piece.text]

end Violation

namespace Outcome

/-- The lines at the end of a report. -/
def closingLines (o : Outcome) : List String :=
  (if o.violations.isEmpty then [] else [""]) ++
    [o.verdict.text ++ " in " ++ decimal o.filesChecked ++ " file(s)"] ++
    (if 0 < o.filesSkipped then
      [decimal o.filesSkipped ++ " file(s) could not be read or parsed"]
    else [])

def lines (o : Outcome) : List String :=
  o.violations.flatMap (·.lines) ++ o.closingLines

theorem human_false (o : Outcome) : o.human false = ofLines o.lines := by
  have hviolations : (o.violations.flatMap (·.pieces)).flatMap (fun p => p.text.toList) =
      (o.violations.flatMap (·.lines)).flatMap fun line => line.toList ++ ['\n'] := by
    rw [List.flatMap_assoc, List.flatMap_assoc]
    refine congrArg o.violations.flatMap (funext fun v => ?_)
    rw [← toList_plainText, ← toList_ofLines, v.plainText_pieces]
  apply String.toList_injective
  rw [human, if_neg (by decide), toList_plainText, toList_ofLines, pieces, lines, closingLines]
  simp only [List.flatMap_append, hviolations]
  split_ifs <;> simp [Piece.text]

end Outcome

/-! ## Control characters -/

/-- The text has no control characters, of those below the blank. -/
def isPlain (s : String) : Bool :=
  s.toList.all (' ' ≤ ·)

theorem not_mem_of_isPlain {s : String} (h : isPlain s = true) {c : Char} (hc : c < ' ') :
    c ∉ s.toList := by
  intro hmem
  have hle := of_decide_eq_true (List.all_eq_true.mp h c hmem)
  exact absurd hc (Char.not_lt.mpr hle)

@[simp] theorem isPlain_append (s t : String) :
    isPlain (s ++ t) = (isPlain s && isPlain t) := by
  simp [isPlain, List.all_append]

/-- A text of characters of a class without control characters. -/
theorem isPlain_of_forall {p : Char → Bool} (hp : ∀ n < 32, p (Char.ofNat n) = false) {s : String}
    (h : ∀ c ∈ s.toList, p c = true) : isPlain s = true := by
  refine List.all_eq_true.mpr fun c hc => decide_eq_true ?_
  by_contra hlt
  have hcontrol := hp c.toNat (Char.not_le.mp hlt)
  rw [Char.ofNat_toNat, h c hc] at hcontrol
  cases hcontrol

@[simp] theorem isPlain_decimal (n : Nat) : isPlain (decimal n) = true := by
  refine isPlain_of_forall (p := Char.isDigit) (by decide) fun c hc => ?_
  rw [decimal, String.toList_ofList] at hc
  exact Nat.isDigit_of_mem_toDigits (by decide) (by decide) hc

@[simp] theorem RuleId.isPlain_text (id : RuleId) : isPlain id.text = true := by
  have hvalid := id.valid
  rw [isValid, Bool.and_eq_true, List.all_eq_true] at hvalid
  exact isPlain_of_forall (by decide) hvalid.2

@[simp] theorem Severity.isPlain_name (s : Severity) : isPlain s.name = true := by
  cases s <;> decide

namespace Outcome

theorem isPlain_verdict (o : Outcome) : isPlain o.verdict.text = true := by
  have hwords : isPlain " unhandled Result(s): " = true ∧ isPlain " error(s), " = true ∧
      isPlain " warning(s)" = true ∧ isPlain "No unhandled Results found" = true := by decide
  rw [verdict]
  split_ifs <;> simp [Piece.text, hwords]

theorem isPlain_closingLines (o : Outcome) : ∀ line ∈ o.closingLines, isPlain line = true := by
  have hwords : isPlain " in " = true ∧ isPlain " file(s)" = true ∧
      isPlain " file(s) could not be read or parsed" = true ∧ isPlain "" = true := by decide
  rw [closingLines]
  split_ifs <;> simp [o.isPlain_verdict, hwords]

end Outcome

theorem Violation.not_mem_headline {v : Violation} {c : Char} (hc : c < ' ')
    (hfile : c ∉ v.file.display.toList) (hmessage : c ∉ v.message.toList) :
    c ∉ v.headline.toList := by
  -- between the path and the message stand the place, the severity and the rule
  have hbetween : isPlain (":" ++ decimal v.line.toNat ++ ":" ++ decimal v.column.toNat ++ ": " ++
      v.severity.name ++ "[" ++ v.ruleId.text ++ "] ") = true := by
    have hwords : isPlain ":" = true ∧ isPlain ": " = true ∧ isPlain "[" = true ∧
        isPlain "] " = true := by decide
    simp [hwords]
  have hheadline : v.headline = v.file.display ++ (":" ++ decimal v.line.toNat ++ ":" ++
      decimal v.column.toNat ++ ": " ++ v.severity.name ++ "[" ++ v.ruleId.text ++ "] ") ++
      v.message := by
    simp [headline, String.append_assoc]
  rw [hheadline, String.toList_append, String.toList_append, List.mem_append, List.mem_append]
  rintro ((h | h) | h)
  · exact hfile h
  · exact not_mem_of_isPlain hbetween hc h
  · exact hmessage h

theorem Violation.not_mem_excerpt {v : Violation} {c : Char} (hc : c < ' ')
    (hsnippet : c ∉ (firstLine v.snippet).toList) : c ∉ v.excerpt.toList := by
  rw [excerpt, String.toList_append, List.mem_append]
  rintro (h | h)
  · exact not_mem_of_isPlain (by decide) hc h
  · exact hsnippet h

/-- A control character in a line of the report is in a path, a message or the first line
of a snippet. -/
theorem Outcome.not_mem_lines {o : Outcome} {c : Char} (hc : c < ' ')
    (hfile : ∀ v ∈ o.violations, c ∉ v.file.display.toList)
    (hmessage : ∀ v ∈ o.violations, c ∉ v.message.toList)
    (hsnippet : ∀ v ∈ o.violations, c ∉ (firstLine v.snippet).toList) :
    ∀ line ∈ o.lines, c ∉ line.toList := by
  intro line hline
  rcases List.mem_append.mp hline with hline | hline
  · obtain ⟨v, hv, hline⟩ := List.mem_flatMap.mp hline
    simp only [Violation.lines, List.mem_cons, List.not_mem_nil, or_false] at hline
    rcases hline with rfl | rfl
    · exact Violation.not_mem_headline hc (hfile v hv) (hmessage v hv)
    · exact Violation.not_mem_excerpt hc (hsnippet v hv)
  · exact not_mem_of_isPlain (o.isPlain_closingLines line hline) hc

/-! ## The layout -/

theorem length_flatMap_lines (violations : List Violation) :
    (violations.flatMap (·.lines)).length = 2 * violations.length := by
  induction violations with
  | nil => rfl
  | cons v violations ih =>
    rw [List.flatMap_cons, List.length_append, ih, List.length_cons, Violation.lines]
    simp only [List.length_cons, List.length_nil]
    omega

/-- The lines of a violation have the place of the violation, twice over. -/
theorem getElem?_flatMap_lines {violations : List Violation} {k : Nat} {v : Violation}
    (h : violations[k]? = some v) (closing : List String) :
    (violations.flatMap (·.lines) ++ closing)[2 * k]? = some v.headline ∧
      (violations.flatMap (·.lines) ++ closing)[2 * k + 1]? = some v.excerpt := by
  induction violations generalizing k with
  | nil => cases h
  | cons first violations ih =>
    cases k with
    | zero =>
      obtain rfl := Option.some.inj h
      exact ⟨rfl, rfl⟩
    | succ k => exact ih h

namespace Outcome

theorem length_closingLines (o : Outcome) :
    o.closingLines.length = (if 0 < o.violations.length then 1 else 0) + 1 +
      (if 0 < o.filesSkipped then 1 else 0) := by
  rw [closingLines, List.length_append, List.length_append]
  cases o.violations <;> split_ifs <;> simp_all

/-- The report without styles is a sequence of lines, each with its line end: two for each
violation, an empty one behind them, the summary, and one about files that were skipped if
there are any.  Of each violation the first line is its place and its message, and the second
shows the first line of its snippet, whatever the snippet. -/
theorem human_layout (o : Outcome)
    (hfile : ∀ v ∈ o.violations, '\n' ∉ v.file.display.toList)
    (hmessage : ∀ v ∈ o.violations, '\n' ∉ v.message.toList) :
    ∃ lines : List String,
      o.human false = String.join (lines.map (· ++ "\n")) ∧
        (o.human false).toList.getLast? = some '\n' ∧
        (∀ line ∈ lines, '\n' ∉ line.toList) ∧
        lines.length = 2 * o.violations.length + (if 0 < o.violations.length then 1 else 0) + 1 +
          (if 0 < o.filesSkipped then 1 else 0) ∧
        (∀ k v, o.violations[k]? = some v →
          lines[2 * k]? = some (v.file.display ++ ":" ++ decimal v.line.toNat ++ ":" ++
            decimal v.column.toNat ++ ": " ++ v.severity.name ++ "[" ++ v.ruleId.text ++ "] " ++
            v.message) ∧
          ∃ line, IsFirstLine v.snippet line ∧ lines[2 * k + 1]? = some ("    " ++ line)) ∧
        lines.drop (2 * o.violations.length) =
          (if 0 < o.violations.length then [""] else []) ++
            [o.verdict.text ++ " in " ++ decimal o.filesChecked ++ " file(s)"] ++
            (if 0 < o.filesSkipped then
              [decimal o.filesSkipped ++ " file(s) could not be read or parsed"]
            else []) := by
  refine ⟨o.lines, o.human_false, ?_, ?_, ?_, ?_, ?_⟩
  · rw [human_false]
    exact getLast?_ofLines (by simp [lines, closingLines])
  · exact not_mem_lines (by decide) hfile hmessage
      fun v _ => ((isFirstLine_iff v.snippet _).mpr rfl).newline_not_mem
  · rw [lines, List.length_append, length_flatMap_lines, length_closingLines]
    omega
  · intro k v hv
    obtain ⟨hheadline, hexcerpt⟩ := getElem?_flatMap_lines hv o.closingLines
    exact ⟨hheadline, firstLine v.snippet, (isFirstLine_iff v.snippet _).mpr rfl, hexcerpt⟩
  · rw [lines, List.drop_left' (length_flatMap_lines _), closingLines]
    cases o.violations <;> rfl

/-- A run with one violation, whose snippet has two lines, and a file that was skipped. -/
def brokenCall : Outcome where
  violations := [{
    ruleId := ResultRule.id
    file := .ofText "a.ts"
    line := 3
    column := 5
    endLine := 4
    endColumn := 10
    snippet := "ok(1)\r\n  .map(f)"
    message := "unused"
    severity := .warning }]
  filesChecked := 2
  filesSkipped := 1
  rulesExecuted := 1

/-- The second line of the snippet is not shown, nor is the end of its first line. -/
theorem human_brokenCall :
    ∃ lines : List String, brokenCall.human false = String.join (lines.map (· ++ "\n")) ∧
      lines.length = 5 ∧ lines[0]? = some "a.ts:3:5: warning[must-use-result] unused" ∧
      lines[1]? = some "    ok(1)" ∧ lines[2]? = some "" := by
  obtain ⟨lines, htext, _, _, hlength, hpairs, hclosing⟩ := brokenCall.human_layout
    (by decide +kernel) (by decide +kernel)
  obtain ⟨hheadline, line, hline, hexcerpt⟩ := hpairs 0 _ rfl
  have hfirst : line = "ok(1)" := hline.firstLine_eq.symm.trans (by decide +kernel)
  refine ⟨lines, htext, hlength, hheadline.trans (by decide +kernel), ?_, ?_⟩
  · rw [hexcerpt, hfirst]
    rfl
  · rw [← List.head?_drop]
    exact congrArg List.head? hclosing

end Outcome

end DroppedResult
