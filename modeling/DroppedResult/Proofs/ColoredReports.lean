import DroppedResult.Proofs.ReportLines

/-!
# Colored reports

A colored report is the report without styles with control sequences between its
characters.  A terminal that reads it goes through one style after another and is left
with none.

* Signals.  `signals` takes a text apart into characters and control sequences, as a
  terminal does; `withoutControls` keeps the characters.  Between the control sequences of a
  piece its text is read as it stands: `signals_coloredText`.
* Codes in force.  `shownFrom` gives each character with the codes that are in force where
  it stands, those since the last reset.  Every piece is shown with the codes of its style:
  `shownFrom_pieces`.
* Stretches.  `StretchesClosed` says that a reset ends every stretch of styled characters.

`Outcome.human_colored` is the result.
-/

namespace DroppedResult

/-! ## Signals -/

/-- What a terminal is sent: a character to show, or a control sequence with its digits. -/
inductive Signal where
  | char (c : Char)
  | control (digits : List Char)
  deriving DecidableEq

namespace Signal

def escape : Char :=
  '\x1b'

def reset : Signal :=
  control ['0']

def char? : Signal → Option Char
  | char c => some c
  | control _ => none

def isControl : Signal → Bool
  | char _ => false
  | control _ => true

/-- The digits of the control sequence whose escape was just read, if it is one: a bracket,
digits, and an `m`. -/
def digits? : List Char → Option (List Char)
  | '[' :: cs =>
    let digits := cs.takeWhile Char.isDigit
    if digits ≠ [] ∧ (cs.dropWhile Char.isDigit).head? = some 'm' then some digits else none
  | _ => none

/-- Take a text apart.  The first `skip` characters belong to a control sequence that was
read; an escape that starts none is a character. -/
def read : Nat → List Char → List Signal
  | _, [] => []
  | skip + 1, _ :: cs => read skip cs
  | 0, c :: cs =>
    match if c = escape then digits? cs else none with
    | some digits => control digits :: read (digits.length + 2) cs
    | none => char c :: read 0 cs

theorem read_drop (skip : Nat) (cs : List Char) : read skip cs = read 0 (cs.drop skip) := by
  induction cs generalizing skip with
  | nil => cases skip <;> rfl
  | cons c cs ih =>
    cases skip with
    | zero => rfl
    | succ skip => exact ih skip

theorem read_append_of_escape_not_mem {cs : List Char} (h : escape ∉ cs) (rest : List Char) :
    read 0 (cs ++ rest) = cs.map char ++ read 0 rest := by
  induction cs with
  | nil => rfl
  | cons c cs ih =>
    obtain ⟨hc, hcs⟩ := not_or.mp (mt List.mem_cons.mpr h)
    rw [List.cons_append, read, if_neg (Ne.symm hc), ih hcs]
    rfl

theorem digits?_append {digits : List Char} (hne : digits ≠ [])
    (hdigits : ∀ c ∈ digits, c.isDigit = true) (rest : List Char) :
    digits? ('[' :: (digits ++ 'm' :: rest)) = some digits := by
  have htake : (digits ++ 'm' :: rest).takeWhile Char.isDigit = digits := by
    rw [List.takeWhile_append_of_pos hdigits, List.takeWhile_cons_of_neg (by decide),
      List.append_nil]
  have hdrop : (digits ++ 'm' :: rest).dropWhile Char.isDigit = 'm' :: rest := by
    rw [List.dropWhile_append_of_pos hdigits, List.dropWhile_cons_of_neg (by decide)]
  simp [digits?, htake, hdrop, hne]

/-- The text is one digit or more. -/
def isCode (code : String) : Bool :=
  !code.toList.isEmpty && code.toList.all Char.isDigit

theorem read_sequence {code : String} (h : isCode code = true) (rest : List Char) :
    read 0 ((Style.sequence code).toList ++ rest) = control code.toList :: read 0 rest := by
  rw [isCode, Bool.and_eq_true, Bool.not_eq_true', List.isEmpty_eq_false_iff, List.all_eq_true] at h
  have hsequence : (Style.sequence code).toList ++ rest =
      escape :: '[' :: (code.toList ++ 'm' :: rest) := by
    simp [Style.sequence, escape]
  have hskip : ('[' :: (code.toList ++ 'm' :: rest)).drop (code.toList.length + 2) = rest := by
    rw [List.drop_succ_cons, List.append_cons, List.drop_left' (by simp)]
  rw [hsequence, read, if_pos rfl, digits?_append h.1 h.2]
  simp only
  rw [read_drop, hskip]

theorem read_sequences {codes : List String} (h : ∀ code ∈ codes, isCode code = true)
    (rest : List Char) :
    read 0 ((codes.flatMap fun code => (Style.sequence code).toList) ++ rest) =
      (codes.map fun code => control code.toList) ++ read 0 rest := by
  induction codes with
  | nil => rfl
  | cons code codes ih =>
    obtain ⟨hcode, hcodes⟩ := List.forall_mem_cons.mp h
    rw [List.flatMap_cons, List.append_assoc, read_sequence hcode, ih hcodes]
    rfl

end Signal

/-- A text as signals to a terminal. -/
def signals (s : String) : List Signal :=
  Signal.read 0 s.toList

/-- The text without its control sequences. -/
def withoutControls (s : String) : String :=
  .ofList ((signals s).filterMap Signal.char?)

namespace Style

/-- The codes that are in force in the style. -/
def codes (s : Style) : List String :=
  (if s.bold then ["1"] else []) ++ (if s.dimmed then ["2"] else []) ++
    (s.color.map Color.code).toList

/-- The control sequences that switch to the style. -/
def controls (s : Style) : List Signal :=
  .reset :: s.codes.map fun code => .control code.toList

theorem start_eq (s : Style) : s.start = reset ++ String.join (s.codes.map sequence) := by
  apply String.toList_injective
  obtain ⟨bold, dimmed, color⟩ := s
  cases bold <;> cases dimmed <;> cases color <;> simp [start, codes]

theorem mem_codes_cases {s : Style} {code : String} (h : code ∈ s.codes) :
    code = "1" ∨ code = "2" ∨ ∃ color : Color, code = color.code := by
  simp only [codes, List.mem_append, Option.mem_toList, Option.map_eq_some_iff] at h
  rcases h with (hbold | hdimmed) | ⟨color, _, rfl⟩
  · split_ifs at hbold
    · exact .inl (List.mem_singleton.mp hbold)
    · cases hbold
  · split_ifs at hdimmed
    · exact .inr (.inl (List.mem_singleton.mp hdimmed))
    · cases hdimmed
  · exact .inr (.inr ⟨color, rfl⟩)

theorem isCode_of_mem_codes {s : Style} {code : String} (h : code ∈ s.codes) :
    Signal.isCode code = true := by
  rcases mem_codes_cases h with rfl | rfl | ⟨color, rfl⟩
  · decide
  · decide
  · cases color <;> decide

theorem ne_reset_of_mem_codes {s : Style} {code : String} (h : code ∈ s.codes) :
    Signal.control code.toList ≠ .reset := by
  rcases mem_codes_cases h with rfl | rfl | ⟨color, rfl⟩
  · decide
  · decide
  · cases color <;> decide

theorem read_start (s : Style) (rest : List Char) :
    Signal.read 0 (s.start.toList ++ rest) = s.controls ++ Signal.read 0 rest := by
  rw [start_eq, String.toList_append, String.toList_join, List.flatMap_map, List.append_assoc,
    reset, Signal.read_sequence (by decide), Signal.read_sequences fun code => isCode_of_mem_codes]
  rfl

end Style

namespace Piece

/-- The codes that are in force in the piece. -/
def codes : Piece → List String
  | plain _ => []
  | styled style _ => style.codes

/-- The signals of a piece in its style. -/
def signals : Piece → List Signal
  | plain text => text.toList.map .char
  | styled style text => style.controls ++ text.toList.map .char ++ [.reset]

theorem read_colored {piece : Piece} (h : Signal.escape ∉ piece.text.toList) (rest : List Char) :
    Signal.read 0 (piece.colored.toList ++ rest) = piece.signals ++ Signal.read 0 rest := by
  cases piece with
  | plain text => exact Signal.read_append_of_escape_not_mem h rest
  | styled style text =>
    have htext : Signal.escape ∉ text.toList := h
    rw [colored, String.toList_append, String.toList_append, List.append_assoc, List.append_assoc,
      Style.read_start, Signal.read_append_of_escape_not_mem htext, Style.reset,
      Signal.read_sequence (by decide)]
    simp [signals, Signal.reset]

end Piece

theorem toList_coloredText (pieces : List Piece) :
    (coloredText pieces).toList = pieces.flatMap fun piece => piece.colored.toList := by
  rw [coloredText, String.toList_join, List.flatMap_map]

/-- A colored text is read as its pieces. -/
theorem signals_coloredText {pieces : List Piece}
    (h : ∀ piece ∈ pieces, Signal.escape ∉ piece.text.toList) :
    signals (coloredText pieces) = pieces.flatMap (·.signals) := by
  rw [signals, toList_coloredText]
  induction pieces with
  | nil => rfl
  | cons piece pieces ih =>
    obtain ⟨hpiece, hpieces⟩ := List.forall_mem_cons.mp h
    rw [List.flatMap_cons, Piece.read_colored hpiece, ih hpieces, List.flatMap_cons]

/-! ## Codes in force -/

/-- The codes in force after a signal.  A reset clears them, and every other code adds to
them. -/
def Signal.after (inForce : List String) : Signal → List String
  | char _ => inForce
  | control digits => if control digits = reset then [] else inForce ++ [.ofList digits]

/-- The codes in force after signals. -/
def afterAll (inForce : List String) (signals : List Signal) : List String :=
  signals.foldl Signal.after inForce

/-- The characters that a terminal shows, each with the codes in force. -/
def shownFrom (inForce : List String) : List Signal → List (Char × List String)
  | [] => []
  | .char c :: rest => (c, inForce) :: shownFrom inForce rest
  | .control digits :: rest => shownFrom (Signal.after inForce (.control digits)) rest

section

variable (inForce : List String)

theorem map_fst_shownFrom (signals : List Signal) :
    (shownFrom inForce signals).map (·.1) = signals.filterMap Signal.char? := by
  induction signals generalizing inForce with
  | nil => rfl
  | cons signal signals ih =>
    cases signal with
    | char c => exact congrArg (c :: ·) (ih inForce)
    | control digits => exact ih _

theorem shownFrom_append (first rest : List Signal) :
    shownFrom inForce (first ++ rest) =
      shownFrom inForce first ++ shownFrom (afterAll inForce first) rest := by
  induction first generalizing inForce with
  | nil => rfl
  | cons signal first ih =>
    cases signal with
    | char c => exact congrArg ((c, inForce) :: ·) (ih inForce)
    | control digits => exact ih _

theorem afterAll_append (first rest : List Signal) :
    afterAll inForce (first ++ rest) = afterAll (afterAll inForce first) rest :=
  List.foldl_append

theorem afterAll_chars (cs : List Char) : afterAll inForce (cs.map .char) = inForce := by
  induction cs with
  | nil => rfl
  | cons c cs ih => exact ih

theorem shownFrom_chars (cs : List Char) :
    shownFrom inForce (cs.map .char) = cs.map (·, inForce) := by
  induction cs with
  | nil => rfl
  | cons c cs ih => exact congrArg ((c, inForce) :: ·) ih

theorem afterAll_codes {codes : List String}
    (h : ∀ code ∈ codes, Signal.control code.toList ≠ .reset) :
    afterAll inForce (codes.map fun code => .control code.toList) = inForce ++ codes := by
  induction codes generalizing inForce with
  | nil => exact (List.append_nil inForce).symm
  | cons code codes ih =>
    obtain ⟨hcode, hcodes⟩ := List.forall_mem_cons.mp h
    have hafter : Signal.after inForce (.control code.toList) = inForce ++ [code] := by
      rw [Signal.after, if_neg hcode, String.ofList_toList]
    calc afterAll inForce ((code :: codes).map fun code => .control code.toList)
        = afterAll (inForce ++ [code]) (codes.map fun code => .control code.toList) := by
          rw [← hafter]
          rfl
      _ = inForce ++ code :: codes := by rw [ih _ hcodes, ← List.append_cons]

theorem shownFrom_of_forall_isControl {signals : List Signal}
    (h : ∀ signal ∈ signals, signal.isControl = true) : shownFrom inForce signals = [] := by
  induction signals generalizing inForce with
  | nil => rfl
  | cons signal signals ih =>
    obtain ⟨hsignal, hsignals⟩ := List.forall_mem_cons.mp h
    cases signal with
    | char c => cases hsignal
    | control digits => exact ih _ hsignals

end

namespace Style

/-- Whatever was in force, the codes of the style are in force after its controls. -/
theorem afterAll_controls (s : Style) (inForce : List String) :
    afterAll inForce s.controls = s.codes :=
  afterAll_codes [] fun _ => ne_reset_of_mem_codes

theorem isControl_of_mem_controls (s : Style) : ∀ signal ∈ s.controls, signal.isControl = true := by
  simp [controls, Signal.isControl, Signal.reset]

end Style

namespace Piece

theorem afterAll_signals (piece : Piece) : afterAll [] piece.signals = [] := by
  cases piece with
  | plain text => exact afterAll_chars _ _
  | styled style text =>
    rw [signals, afterAll_append]
    rfl

theorem shownFrom_signals (piece : Piece) :
    shownFrom [] piece.signals = piece.text.toList.map (·, piece.codes) := by
  cases piece with
  | plain text => exact shownFrom_chars _ _
  | styled style text =>
    rw [signals, List.append_assoc, shownFrom_append, shownFrom_append,
      shownFrom_of_forall_isControl _ style.isControl_of_mem_controls, style.afterAll_controls,
      shownFrom_chars, List.nil_append]
    exact List.append_nil _

end Piece

theorem afterAll_pieces (pieces : List Piece) :
    afterAll [] (pieces.flatMap (·.signals)) = [] := by
  induction pieces with
  | nil => rfl
  | cons piece pieces ih =>
    rw [List.flatMap_cons, afterAll_append, piece.afterAll_signals, ih]

/-- Every piece is shown with the codes of its style. -/
theorem shownFrom_pieces (pieces : List Piece) :
    shownFrom [] (pieces.flatMap (·.signals)) =
      pieces.flatMap fun piece => piece.text.toList.map (·, piece.codes) := by
  induction pieces with
  | nil => rfl
  | cons piece pieces ih =>
    rw [List.flatMap_cons, shownFrom_append, piece.shownFrom_signals, piece.afterAll_signals, ih,
      List.flatMap_cons]

/-! ## Stretches -/

/-- The next control sequence after a character with codes in force is a reset. -/
def StretchesClosed (inForce : List String) (signals : List Signal) : Prop :=
  ∀ before c after, signals = before ++ .char c :: after → afterAll inForce before ≠ [] →
    after.find? Signal.isControl = some .reset

section

variable {inForce : List String} {signals : List Signal}

theorem stretchesClosed_nil : StretchesClosed inForce [] := by
  intro before c after h
  simp at h

theorem stretchesClosed_control {digits : List Char}
    (h : StretchesClosed (Signal.after inForce (.control digits)) signals) :
    StretchesClosed inForce (.control digits :: signals) := by
  intro before c after hsplit hstyled
  cases before with
  | nil => cases hsplit
  | cons signal before =>
    obtain ⟨rfl, hrest⟩ := List.cons.inj hsplit
    exact h before c after hrest hstyled

theorem stretchesClosed_controls {controls : List Signal}
    (hcontrols : ∀ signal ∈ controls, signal.isControl = true)
    (h : StretchesClosed (afterAll inForce controls) signals) :
    StretchesClosed inForce (controls ++ signals) := by
  induction controls generalizing inForce with
  | nil => exact h
  | cons signal controls ih =>
    obtain ⟨hsignal, hrest⟩ := List.forall_mem_cons.mp hcontrols
    cases signal with
    | char c => cases hsignal
    | control digits => exact stretchesClosed_control (ih hrest h)

/-- Characters may stand before signals whose first control sequence is a reset, and those
without codes before any. -/
theorem stretchesClosed_chars {cs : List Char}
    (hnext : inForce ≠ [] → signals.find? Signal.isControl = some .reset)
    (h : StretchesClosed inForce signals) : StretchesClosed inForce (cs.map .char ++ signals) := by
  induction cs with
  | nil => exact h
  | cons c cs ih =>
    rw [List.map_cons, List.cons_append]
    intro before c' after hsplit hstyled
    cases before with
    | nil =>
      obtain ⟨_, rfl⟩ := List.cons.inj hsplit
      have hnone : (cs.map Signal.char).find? Signal.isControl = none := by
        simp [List.find?_eq_none, Signal.isControl]
      rw [List.find?_append, hnone, Option.none_or]
      exact hnext hstyled
    | cons signal before =>
      obtain ⟨rfl, hrest⟩ := List.cons.inj hsplit
      exact ih before c' after hrest hstyled

end

/-- Every stretch of a piece in a style ends with a reset. -/
theorem stretchesClosed_pieces (pieces : List Piece) :
    StretchesClosed [] (pieces.flatMap (·.signals)) := by
  induction pieces with
  | nil => exact stretchesClosed_nil
  | cons piece pieces ih =>
    rw [List.flatMap_cons]
    cases piece with
    | plain text => exact stretchesClosed_chars (fun hne => absurd rfl hne) ih
    | styled style text =>
      rw [Piece.signals, List.append_assoc, List.append_assoc]
      refine stretchesClosed_controls style.isControl_of_mem_controls
        (stretchesClosed_chars ?_ (stretchesClosed_control ih))
      -- what follows the text is the reset of its own piece, not that of the next one
      intro _
      rfl

/-! ## Reports -/

namespace Outcome

variable {o : Outcome}

/-- Pieces have no escapes but those in paths, messages and snippets. -/
theorem escape_not_mem_pieces
    (hfile : ∀ v ∈ o.violations, Signal.escape ∉ v.file.display.toList)
    (hmessage : ∀ v ∈ o.violations, Signal.escape ∉ v.message.toList)
    (hsnippet : ∀ v ∈ o.violations, Signal.escape ∉ v.snippet.toList) :
    ∀ piece ∈ o.pieces, Signal.escape ∉ piece.text.toList := by
  have hlines := not_mem_lines (c := Signal.escape) (by decide) hfile hmessage fun v hv hmem =>
    hsnippet v hv (((isFirstLine_iff v.snippet _).mpr rfl).subset hmem)
  -- pieces and lines divide the same text
  have htext : Signal.escape ∉ (plainText o.pieces).toList := by
    rw [show plainText o.pieces = ofLines o.lines from o.human_false, toList_ofLines]
    intro hmem
    obtain ⟨line, hline, hmem⟩ := List.mem_flatMap.mp hmem
    rcases List.mem_append.mp hmem with hmem | hmem
    · exact hlines line hline hmem
    · exact absurd hmem (by decide)
  intro piece hpiece hmem
  rw [toList_plainText] at htext
  exact htext (List.mem_flatMap.mpr ⟨piece, hpiece, hmem⟩)

/-- A colored report is the report without styles, with control sequences in it.  A terminal
shows each piece with the codes of its style, a reset ends every stretch of styled characters,
and no code is in force in the end. -/
theorem human_colored (o : Outcome)
    (hfile : ∀ v ∈ o.violations, '\x1b' ∉ v.file.display.toList)
    (hmessage : ∀ v ∈ o.violations, '\x1b' ∉ v.message.toList)
    (hsnippet : ∀ v ∈ o.violations, '\x1b' ∉ v.snippet.toList) :
    withoutControls (o.human true) = o.human false ∧
      shownFrom [] (signals (o.human true)) =
        (o.pieces.flatMap fun piece => piece.text.toList.map (·, piece.codes)) ∧
      StretchesClosed [] (signals (o.human true)) ∧
      afterAll [] (signals (o.human true)) = [] := by
  have hsignals : signals (o.human true) = o.pieces.flatMap (·.signals) :=
    signals_coloredText (escape_not_mem_pieces hfile hmessage hsnippet)
  rw [hsignals]
  refine ⟨?_, shownFrom_pieces _, stretchesClosed_pieces _, afterAll_pieces _⟩
  apply String.toList_injective
  rw [withoutControls, String.toList_ofList, hsignals, ← map_fst_shownFrom [], shownFrom_pieces,
    List.map_flatMap, human, if_neg (by decide), toList_plainText]
  simp [Function.comp_def]

/-- The report of a run with one violation has control sequences, and loses nothing else
with them. -/
theorem human_colored_brokenCall :
    brokenCall.human true ≠ brokenCall.human false ∧
      withoutControls (brokenCall.human true) = brokenCall.human false ∧
      afterAll [] (signals (brokenCall.human true)) = [] := by
  obtain ⟨hplain, _, _, hnone⟩ := brokenCall.human_colored (by decide +kernel) (by decide +kernel)
    (by decide +kernel)
  exact ⟨by decide +kernel, hplain, hnone⟩

end Outcome

end DroppedResult
