import DroppedResult.CommandLine.Reading
import DroppedResult.Proofs.Defaults
import Mathlib.Data.List.Nodup
import Mathlib.Data.List.TakeWhile

/-!
# The order of arguments

The arguments of a check are paths and options, mixed in any order.  Each option is given
once at most, in one of several spellings, and some may stand in front of the subcommand.
What is asked for does not depend on the order, but for the order of the paths.

There are five groups.

* Pieces.  An `ArgPiece` is a path, or an option with its value, and `ArgPiece.args` are the
  arguments that it is written with.
* Forms.  What `Argument.ofText` makes of each of these arguments.
* Steps.  `Progress.Stands` is what has been given when the arguments so far are read.
  `Stands.exists_piece` reads one more piece, and `Stands.exists_pieces` all of them.
* Order.  `Given.add` takes a piece into account.  Two pieces with different options can
  be exchanged (`Given.add_comm`), and so paths and options can be kept apart.
* The subcommand.  `Invocation.ofArgs_pieces` puts what is in front of the subcommand and
  what is behind it together.

`Invocation.ofArgs_interleaved` is the result.
-/

namespace DroppedResult

/-! ## Pieces -/

/-- A word that is not read as an option: it is not empty and has no hyphen in front. -/
structure PlainWord where
  text : String
  ne_empty : text ≠ ""
  no_hyphen : text.toList.head? ≠ some '-'

def ReportFormat.word (format : ReportFormat) : PlainWord where
  text := format.name
  ne_empty := by cases format <;> decide
  no_hyphen := by cases format <;> decide

def ColorChoice.word (color : ColorChoice) : PlainWord where
  text := color.name
  ne_empty := by cases color <;> decide
  no_hyphen := by cases color <;> decide

/-- How an option with a long name is written. -/
inductive LongSpelling where
  /-- Written `--name value`. -/
  | apart
  /-- Written `--name=value`. -/
  | attached

/-- How an option with a long and a short name is written. -/
inductive Spelling where
  | long (spelling : LongSpelling)
  /-- Written `-n value`. -/
  | short

def LongSpelling.args (name value : String) : LongSpelling → List String
  | apart => ["--" ++ name, value]
  | attached => ["--" ++ name ++ "=" ++ value]

def Spelling.args (name : String) (letter : Char) (value : String) : Spelling → List String
  | long spelling => spelling.args name value
  | short => [String.ofList ['-', letter], value]

/-- A path, or an option with its value. -/
inductive ArgPiece where
  | path (word : PlainWord)
  | format (spelling : Spelling) (choice : ReportFormat)
  | config (spelling : Spelling) (file : PlainWord)
  | color (spelling : LongSpelling) (choice : ColorChoice)
  | verbose (short : Bool)

namespace ArgPiece

/-- The arguments that the piece is written with. -/
def args : ArgPiece → List String
  | path word => [word.text]
  | format spelling choice => spelling.args "format" 'f' choice.word.text
  | config spelling file => spelling.args "config" 'c' file.text
  | color spelling choice => spelling.args "color" choice.word.text
  | verbose short => [if short then "-v" else "--verbose"]

/-- The option that the piece gives. -/
def switch? : ArgPiece → Option Switch
  | path _ => none
  | format _ _ => some (.setting .format)
  | config _ _ => some (.setting .config)
  | color _ _ => some (.setting .color)
  | verbose _ => some (.flag .verbose)

def isPath (x : ArgPiece) : Bool :=
  x.switch?.isNone

/-- The option can be given in front of the subcommand too. -/
def isGlobal : ArgPiece → Bool
  | color _ _ | verbose _ => true
  | path _ | format _ _ | config _ _ => false

/-- The pieces do not both give one option. -/
def Apart (x y : ArgPiece) : Prop :=
  (!x.isPath) = true → (!y.isPath) = true → x.switch? ≠ y.switch?

end ArgPiece

/-! ## Forms -/

namespace Argument

theorem ofText_word (word : PlainWord) : ofText word.text = .word word.text := by
  unfold ofText
  split
  · rename_i h
    exact absurd (by rw [h]; rfl) word.no_hyphen
  · rename_i h
    exact absurd (by rw [h]; rfl) word.no_hyphen
  · rename_i h
    exact absurd (by rw [h]; rfl) word.no_hyphen
  · rfl

theorem ofText_hyphens {text : String} {rest : List Char} (hrest : rest ≠ [])
    (h : text.toList = '-' :: '-' :: rest) :
    ofText text =
      match rest.dropWhile (· != '=') with
      | [] => .long (String.ofList (rest.takeWhile (· != '='))) none
      | _ :: value =>
        .long (String.ofList (rest.takeWhile (· != '='))) (some (String.ofList value)) := by
  cases rest with
  | nil => exact absurd rfl hrest
  | cons c rest =>
    rw [ofText, h]
    rfl

theorem ne_equals_of_not_mem {name : List Char} (h : '=' ∉ name) :
    ∀ c ∈ name, (c != '=') = true := by
  intro c hc
  rw [bne_iff_ne]
  rintro rfl
  exact h hc

theorem ofText_long {name : String} (hempty : name ≠ "") (hname : '=' ∉ name.toList) :
    ofText ("--" ++ name) = .long name none := by
  have htext : ("--" ++ name).toList = '-' :: '-' :: name.toList := by simp
  have hall := ne_equals_of_not_mem hname
  rw [ofText_hyphens (by simpa using hempty) htext, List.dropWhile_eq_nil_iff.mpr hall,
    List.takeWhile_eq_self_iff.mpr hall, String.ofList_toList]

theorem ofText_attached {name : String} (hname : '=' ∉ name.toList) (value : String) :
    ofText ("--" ++ name ++ "=" ++ value) = .long name (some value) := by
  have htext : ("--" ++ name ++ "=" ++ value).toList =
      '-' :: '-' :: (name.toList ++ '=' :: value.toList) := by simp
  have hall := ne_equals_of_not_mem hname
  have htake : (name.toList ++ '=' :: value.toList).takeWhile (· != '=') = name.toList := by
    rw [List.takeWhile_append_of_pos hall, List.takeWhile_cons_of_neg (by decide), List.append_nil]
  have hdrop : (name.toList ++ '=' :: value.toList).dropWhile (· != '=') =
      '=' :: value.toList := by
    rw [List.dropWhile_append_of_pos hall, List.dropWhile_cons_of_neg (by decide)]
  rw [ofText_hyphens (by simp) htext, hdrop, htake]
  simp only [String.ofList_toList]

theorem ofText_letter {letter : Char} (h : letter ≠ '-') :
    ofText (String.ofList ['-', letter]) = .short [letter] := by
  rw [ofText, String.toList_ofList]
  split <;> simp_all

end Argument

/-! ## Steps -/

namespace Given

/-- What is given once a piece has been read. -/
def add (g : Given) : ArgPiece → Given
  | .path word => { g with paths := g.paths ++ [word.text] }
  | .format _ choice => { g with format := some choice }
  | .config _ file => { g with config := some file.text }
  | .color _ choice => { g with color := some choice }
  | .verbose _ => { g with verbose := true }

/-- The option of the piece has not been given. -/
def Lacks (g : Given) : ArgPiece → Prop
  | .path _ => True
  | .format _ _ => g.format = none
  | .config _ _ => g.config = none
  | .color _ _ => g.color = none
  | .verbose _ => g.verbose = false

theorem Lacks.add {g : Given} {x y : ArgPiece} (h : g.Lacks y) (hxy : x.Apart y) :
    (g.add x).Lacks y := by
  cases x <;> cases y <;>
    simp_all [Given.add, Lacks, ArgPiece.Apart, ArgPiece.isPath, ArgPiece.switch?]

theorem lacks_nothing (x : ArgPiece) : Lacks {} x := by
  cases x <;> trivial

theorem set_format {g : Given} (h : g.format = none) (choice : ReportFormat) :
    g.set .format choice.word.text = .ok { g with format := some choice } := by
  have hname : ReportFormat.ofName? choice.word.text = some choice :=
    ReportFormat.ofName?_eq_some_iff.mpr rfl
  simp only [set, once, h, hname, Option.isSome_none, Bool.false_eq_true, if_false]

theorem set_config {g : Given} (h : g.config = none) (file : PlainWord) :
    g.set .config file.text = .ok { g with config := some file.text } := by
  simp only [set, once, h, if_neg file.ne_empty, Option.isSome_none, Bool.false_eq_true, if_false]

theorem set_color {g : Given} (h : g.color = none) (choice : ColorChoice) :
    g.set .color choice.word.text = .ok { g with color := some choice } := by
  have hname : ColorChoice.ofName? choice.word.text = some choice :=
    ColorChoice.ofName?_eq_some_iff.mpr rfl
  simp only [set, once, h, hname, Option.isSome_none, Bool.false_eq_true, if_false]

end Given

namespace Progress

/-- What has been given, with the option that still waits to be taken into account.  None
waits for its value. -/
def Stands (p : Progress) (g : Given) : Prop :=
  p.settle = .ok { given := g }

theorem stands_start : Stands {} {} := rfl

theorem Stands.awaiting {p : Progress} {g : Given} (h : p.Stands g) : p.awaiting = none := by
  obtain ⟨given, pending, onlyWords⟩ := p
  match pending with
  | none => rfl
  | some ⟨s, none⟩ => cases h
  | some ⟨s, some value⟩ => rfl

theorem Stands.onlyWords {p : Progress} {g : Given} (h : p.Stands g) : p.onlyWords = false := by
  obtain ⟨given, pending, onlyWords⟩ := p
  match pending with
  | none => exact congrArg Progress.onlyWords (Except.ok.inj h)
  | some ⟨s, none⟩ => cases h
  | some ⟨s, some value⟩ =>
    cases hset : given.set s value with
    | error e => simp [Stands, settle, hset, bind, Except.bind] at h
    | ok g' =>
      simp only [Stands, settle, hset, bind, Except.bind, Except.ok.injEq] at h
      exact congrArg Progress.onlyWords h

theorem stands_pending {g g' : Given} {s : Setting} {value : String}
    (h : g.set s value = .ok g') :
    Stands { given := g, pending := some ⟨s, some value⟩ } g' := by
  simp only [Stands, settle, h, bind, Except.bind]

theorem Stands.flag_eq {p : Progress} {g g' : Given} (hp : p.Stands g) {f : Flag}
    (h : g.raise f = .ok g') : p.flag f = .ok { given := g' } := by
  rw [flag, hp]
  simp only [bind, Except.bind, h]

theorem Stands.option_attached {p : Progress} {g g' : Given} (hp : p.Stands g) {s : Setting}
    {value : String} (h : g.set s value = .ok g') :
    p.option s (some value) = .ok { given := g' } := by
  rw [option, hp]
  simp only [bind, Except.bind, h]

theorem Stands.option_apart {p : Progress} {g : Given} (hp : p.Stands g) (s : Setting) :
    p.option s none = .ok { given := g, pending := some ⟨s, none⟩ } := by
  rw [option, hp]
  rfl

theorem step_value (scope : Scope) (g : Given) (s : Setting) (word : PlainWord) :
    step scope { given := g, pending := some ⟨s, none⟩ } word.text =
      .ok { given := g, pending := some ⟨s, some word.text⟩ } := by
  rw [step, Argument.ofText_word]
  rfl

theorem foldlM_singleton {scope : Scope} {p q : Progress} {a : String}
    (h : step scope p a = .ok q) : [a].foldlM (step scope) p = .ok q := by
  rw [List.foldlM_cons, h]
  rfl

/-- An option with its value behind it. -/
theorem foldlM_value {scope : Scope} {p : Progress} {g : Given} {s : Setting} {a : String}
    (h : step scope p a = .ok { given := g, pending := some ⟨s, none⟩ }) (word : PlainWord) :
    [a, word.text].foldlM (step scope) p =
      .ok { given := g, pending := some ⟨s, some word.text⟩ } := by
  rw [List.foldlM_cons, h]
  exact foldlM_singleton (step_value scope g s word)

/-- An option with its value, under its long name. -/
theorem Stands.exists_long {p : Progress} {g g' : Given} (hp : p.Stands g) {scope : Scope}
    {s : Setting} {name : String} (hempty : name ≠ "") (hname : '=' ∉ name.toList)
    (hswitch : scope.long? name = some (.setting s)) {word : PlainWord}
    (hset : g.set s word.text = .ok g') (spelling : LongSpelling) :
    ∃ q, (spelling.args name word.text).foldlM (step scope) p = .ok q ∧ q.Stands g' := by
  cases spelling with
  | apart =>
    refine ⟨_, ?_, stands_pending hset⟩
    have hfirst : step scope p ("--" ++ name) = .ok { given := g, pending := some ⟨s, none⟩ } := by
      rw [step, hp.onlyWords, Argument.ofText_long hempty hname]
      simp only [long, hswitch]
      exact hp.option_apart s
    exact foldlM_value hfirst word
  | attached =>
    refine ⟨{ given := g' }, ?_, rfl⟩
    have hfirst : step scope p ("--" ++ name ++ "=" ++ word.text) = .ok { given := g' } := by
      rw [step, hp.onlyWords, Argument.ofText_attached hname]
      simp only [long, hswitch]
      exact hp.option_attached hset
    exact foldlM_singleton hfirst

/-- The same under its short name. -/
theorem Stands.exists_spelled {p : Progress} {g g' : Given} (hp : p.Stands g) {scope : Scope}
    {s : Setting} {name : String} {letter : Char} (hempty : name ≠ "") (hname : '=' ∉ name.toList)
    (hletter : letter ≠ '-') (hswitch : scope.long? name = some (.setting s))
    (hshort : scope.short? letter = some (.setting s)) {word : PlainWord}
    (hset : g.set s word.text = .ok g') (spelling : Spelling) :
    ∃ q, (spelling.args name letter word.text).foldlM (step scope) p = .ok q ∧ q.Stands g' := by
  cases spelling with
  | long spelling => exact hp.exists_long hempty hname hswitch hset spelling
  | short =>
    refine ⟨_, ?_, stands_pending hset⟩
    have hfirst : step scope p (String.ofList ['-', letter]) =
        .ok { given := g, pending := some ⟨s, none⟩ } := by
      rw [step, hp.onlyWords, Argument.ofText_letter hletter]
      simp only [shorts, hshort]
      exact hp.option_apart s
    exact foldlM_value hfirst word

theorem Stands.exists_verbose {p : Progress} {g : Given} (hp : p.Stands g)
    (h : g.verbose = false) (scope : Scope) (short : Bool) :
    ∃ q, (ArgPiece.verbose short).args.foldlM (step scope) p = .ok q ∧
      q.Stands { g with verbose := true } := by
  have hraise : g.raise .verbose = .ok { g with verbose := true } := by
    rw [Given.raise, h]
    rfl
  refine ⟨{ given := { g with verbose := true } }, ?_, rfl⟩
  have hflag := hp.flag_eq hraise
  have hstep : step scope p (if short then "-v" else "--verbose") =
      .ok { given := { g with verbose := true } } := by
    rw [step, hp.onlyWords]
    cases short with
    | false =>
      have hform : Argument.ofText "--verbose" = .long "verbose" none := by decide +kernel
      have hlong : scope.long? "verbose" = some (.flag .verbose) := by cases scope <;> rfl
      simp only [Bool.false_eq_true, if_false, hform, long, hlong, Option.isSome_none, hflag]
    | true =>
      have hform : Argument.ofText "-v" = .short ['v'] := by decide +kernel
      have hshort : scope.short? 'v' = some (.flag .verbose) := by cases scope <;> rfl
      simp only [Bool.false_eq_true, if_true, if_false, hform, shorts, hshort, hflag, bind,
        Except.bind]
  exact foldlM_singleton hstep

theorem Stands.exists_path {p : Progress} {g : Given} (hp : p.Stands g) (word : PlainWord) :
    ∃ q, (ArgPiece.path word).args.foldlM (step .check) p = .ok q ∧
      q.Stands { g with paths := g.paths ++ [word.text] } := by
  refine ⟨{ given := { g with paths := g.paths ++ [word.text] } }, ?_, rfl⟩
  have hstep : step .check p word.text =
      .ok { given := { g with paths := g.paths ++ [word.text] } } := by
    rw [step, hp.onlyWords, Argument.ofText_word]
    simp only [Bool.false_eq_true, if_false, hp.awaiting]
    rw [Progress.word, hp]
    rfl
  exact foldlM_singleton hstep

/-- One more piece is read.  In front of the subcommand it has to be a global option. -/
theorem Stands.exists_piece {p : Progress} {g : Given} (hp : p.Stands g) {scope : Scope}
    {x : ArgPiece} (hscope : scope = .check ∨ x.isGlobal = true) (hx : g.Lacks x) :
    ∃ q, x.args.foldlM (step scope) p = .ok q ∧ q.Stands (g.add x) := by
  cases x with
  | path word =>
    obtain rfl : scope = .check := by simpa [ArgPiece.isGlobal] using hscope
    exact hp.exists_path word
  | format spelling choice =>
    obtain rfl : scope = .check := by simpa [ArgPiece.isGlobal] using hscope
    exact hp.exists_spelled (by decide) (by decide) (by decide) rfl rfl (Given.set_format hx choice)
      spelling
  | config spelling file =>
    obtain rfl : scope = .check := by simpa [ArgPiece.isGlobal] using hscope
    exact hp.exists_spelled (by decide) (by decide) (by decide) rfl rfl (Given.set_config hx file)
      spelling
  | color spelling choice =>
    have hswitch : scope.long? "color" = some (.setting .color) := by cases scope <;> rfl
    exact hp.exists_long (by decide) (by decide) hswitch (Given.set_color hx choice) spelling
  | verbose short => exact hp.exists_verbose hx scope short

/-- All pieces are read, if none gives an option that another has given. -/
theorem Stands.exists_pieces {scope : Scope} {pieces : List ArgPiece}
    (hscope : ∀ x ∈ pieces, scope = .check ∨ x.isGlobal = true)
    (hapart : pieces.Pairwise ArgPiece.Apart) {p : Progress} {g : Given} (hp : p.Stands g)
    (hlacks : ∀ x ∈ pieces, g.Lacks x) :
    ∃ q, (pieces.flatMap ArgPiece.args).foldlM (step scope) p = .ok q ∧
      q.Stands (pieces.foldl Given.add g) := by
  induction pieces generalizing p g with
  | nil => exact ⟨p, rfl, hp⟩
  | cons x pieces ih =>
    rw [List.pairwise_cons] at hapart
    obtain ⟨q, hread, hq⟩ := hp.exists_piece (hscope x (by simp)) (hlacks x (by simp))
    have hrest : ∀ y ∈ pieces, (g.add x).Lacks y := fun y hy =>
      (hlacks y (List.mem_cons_of_mem _ hy)).add (hapart.1 y hy)
    obtain ⟨r, hreadRest, hr⟩ :=
      ih (fun y hy => hscope y (List.mem_cons_of_mem _ hy)) hapart.2 hq hrest
    refine ⟨r, ?_, hr⟩
    rw [List.flatMap_cons, List.foldlM_append, hread]
    exact hreadRest

end Progress

/-! ## Order -/

namespace Given

theorem add_comm (g : Given) {x y : ArgPiece} (h : x.switch? ≠ y.switch?) :
    (g.add x).add y = (g.add y).add x := by
  cases x <;> cases y <;> simp_all [add, ArgPiece.switch?]

theorem foldl_add_add {x : ArgPiece} {ys : List ArgPiece} (h : ∀ y ∈ ys, x.switch? ≠ y.switch?)
    (g : Given) : ys.foldl add (g.add x) = (ys.foldl add g).add x := by
  induction ys generalizing g with
  | nil => rfl
  | cons y ys ih =>
    rw [List.foldl_cons, List.foldl_cons, add_comm g (h y (by simp))]
    exact ih (fun z hz => h z (List.mem_cons_of_mem _ hz)) (g.add y)

/-- The paths can be read before all options. -/
theorem foldl_add_filter (pieces : List ArgPiece) (g : Given) :
    pieces.foldl add g =
      (pieces.filter (!·.isPath)).foldl add ((pieces.filter (·.isPath)).foldl add g) := by
  induction pieces generalizing g with
  | nil => rfl
  | cons x pieces ih =>
    rw [List.foldl_cons, ih]
    cases hx : x.isPath with
    | true => simp [hx]
    | false =>
      have hswitch : ∀ y ∈ pieces.filter (·.isPath), x.switch? ≠ y.switch? := by
        intro y hy hxy
        have hpath := (List.mem_filter.mp hy).2
        rw [ArgPiece.isPath, ← hxy, ← ArgPiece.isPath, hx] at hpath
        cases hpath
      simp [hx, foldl_add_add hswitch]

theorem foldl_add_paths (paths : List PlainWord) (g : Given) :
    (paths.map ArgPiece.path).foldl add g = { g with paths := g.paths ++ paths.map (·.text) } := by
  induction paths generalizing g with
  | nil => simp
  | cons word paths ih =>
    rw [List.map_cons, List.foldl_cons, ih]
    simp [add]

end Given

/-- The options of a check, each with its spelling and its value. -/
structure OptionChoice where
  format : Option (Spelling × ReportFormat) := none
  config : Option (Spelling × PlainWord) := none
  color : Option (LongSpelling × ColorChoice) := none
  /-- Whether the flag is given, and if so by its short name. -/
  verbose : Option Bool := none

namespace OptionChoice

def pieces (o : OptionChoice) : List ArgPiece :=
  (o.format.map fun (spelling, choice) => ArgPiece.format spelling choice).toList ++
    (o.config.map fun (spelling, file) => ArgPiece.config spelling file).toList ++
    (o.color.map fun (spelling, choice) => ArgPiece.color spelling choice).toList ++
    (o.verbose.map ArgPiece.verbose).toList

/-- What is given by paths and options. -/
def given (o : OptionChoice) (paths : List PlainWord) : Given where
  paths := paths.map (·.text)
  format := o.format.map (·.2)
  config := o.config.map (·.2.text)
  color := o.color.map (·.2)
  verbose := o.verbose.isSome

/-- The check that paths and options ask for. -/
def invocation (o : OptionChoice) (paths : List PlainWord) : Invocation where
  command := .check {
    paths := if paths = [] then ["."] else paths.map (·.text)
    format := o.format.map (·.2)
    config := o.config.map (·.2.text) }
  color := o.color.map (·.2)
  verbose := o.verbose.isSome

theorem nodup_switches (o : OptionChoice) : (o.pieces.map ArgPiece.switch?).Nodup := by
  obtain ⟨format, config, color, verbose⟩ := o
  cases format <;> cases config <;> cases color <;> cases verbose <;>
    simp [pieces, ArgPiece.switch?]

theorem foldl_add_pieces (o : OptionChoice) (paths : List PlainWord) :
    o.pieces.foldl Given.add { paths := paths.map (·.text) } = o.given paths := by
  obtain ⟨format, config, color, verbose⟩ := o
  cases format <;> cases config <;> cases color <;> cases verbose <;> rfl

end OptionChoice

/-- The pieces are the paths, in their order, mixed with the options in any order. -/
structure Interleaves (paths : List PlainWord) (o : OptionChoice) (pieces : List ArgPiece) :
    Prop where
  paths_eq : pieces.filter (·.isPath) = paths.map ArgPiece.path
  options_perm : (pieces.filter (!·.isPath)).Perm o.pieces

namespace Interleaves

variable {paths : List PlainWord} {o : OptionChoice} {pieces : List ArgPiece}

theorem nodup_switches (h : Interleaves paths o pieces) :
    ((pieces.filter (!·.isPath)).map ArgPiece.switch?).Nodup :=
  (h.options_perm.map ArgPiece.switch?).nodup_iff.mpr o.nodup_switches

theorem pairwise_apart (h : Interleaves paths o pieces) : pieces.Pairwise ArgPiece.Apart := by
  have hnodup := h.nodup_switches
  rw [List.Nodup, List.pairwise_map, List.pairwise_filter] at hnodup
  exact hnodup

/-- The order makes no difference to what is given. -/
theorem foldl_add (h : Interleaves paths o pieces) :
    pieces.foldl Given.add {} = o.given paths := by
  have hcomm : ∀ x ∈ pieces.filter (!·.isPath), ∀ y ∈ pieces.filter (!·.isPath),
      ∀ g : Given, (g.add x).add y = (g.add y).add x := by
    intro x hx y hy g
    by_cases hxy : x.switch? = y.switch?
    · rw [List.inj_on_of_nodup_map h.nodup_switches hx hy hxy]
    · exact g.add_comm hxy
  rw [Given.foldl_add_filter, h.paths_eq, Given.foldl_add_paths,
    h.options_perm.foldl_eq' hcomm]
  exact o.foldl_add_pieces paths

/-- Global options can be taken out and put in front. -/
theorem move (h : Interleaves paths o pieces) {moved : ArgPiece → Bool}
    (hmoved : ∀ x, moved x = true → x.isGlobal = true) :
    Interleaves paths o (pieces.filter moved ++ pieces.filter (!moved ·)) := by
  have hpath : ∀ x : ArgPiece, moved x = true → x.isPath = false := by
    intro x hx
    have hglobal := hmoved x hx
    cases x with
    | color | verbose => rfl
    | path | format | config => cases hglobal
  refine ⟨?_, ((List.filter_append_perm moved pieces).filter _).trans h.options_perm⟩
  rw [← h.paths_eq, List.filter_append, List.filter_filter, List.filter_filter]
  have hfront : pieces.filter (fun x => x.isPath && moved x) = [] := by
    rw [List.filter_eq_nil_iff]
    intro x _ hx
    simp only [Bool.and_eq_true] at hx
    rw [hpath x hx.2] at hx
    cases hx.1
  have hbehind : pieces.filter (fun x => x.isPath && !moved x) = pieces.filter (·.isPath) := by
    apply List.filter_congr
    intro x _
    cases hx : moved x with
    | true => rw [hpath x hx]; rfl
    | false => simp
  rw [hfront, hbehind, List.nil_append]

end Interleaves

/-! ## The subcommand -/

namespace Given

/-- What is given in front of the subcommand and behind it. -/
def merge (outer inner : Given) : Given :=
  { inner with color := inner.color.or outer.color, verbose := outer.verbose || inner.verbose }

theorem merge_add (outer inner : Given) (x : ArgPiece) :
    outer.merge (inner.add x) = (outer.merge inner).add x := by
  cases x <;> simp [merge, add]

theorem merge_foldl_add (outer inner : Given) (pieces : List ArgPiece) :
    outer.merge (pieces.foldl add inner) = pieces.foldl add (outer.merge inner) := by
  induction pieces generalizing inner with
  | nil => rfl
  | cons x pieces ih => rw [List.foldl_cons, List.foldl_cons, ih, merge_add]

/-- Global options are all that can be given in front of the subcommand. -/
theorem merge_nothing_of_global {pieces : List ArgPiece} (h : ∀ x ∈ pieces, x.isGlobal = true) :
    (pieces.foldl add {}).merge {} = pieces.foldl add {} := by
  suffices hstep : ∀ g : Given, g.merge {} = g →
      (pieces.foldl add g).merge {} = pieces.foldl add g from hstep {} rfl
  induction pieces with
  | nil => exact fun g hg => hg
  | cons x pieces ih =>
    intro g hg
    refine ih (fun y hy => h y (List.mem_cons_of_mem _ hy)) (g.add x) ?_
    have hx := h x (by simp)
    rw [← hg]
    cases x with
    | color spelling choice => simp [merge, add]
    | verbose short => simp [merge, add]
    | path | format | config => cases hx

end Given

namespace Invocation

theorem read_append {args : List String} (hargs : ∀ a ∈ args, a ∉ Progress.subcommandNames)
    {p q : Progress} (h : args.foldlM (Progress.step .program) p = .ok q) (rest : List String) :
    read p (args ++ rest) = read q rest := by
  induction args generalizing p with
  | nil =>
    obtain rfl : p = q := Except.ok.inj h
    rfl
  | cons a args ih =>
    rw [List.foldlM_cons] at h
    cases hstep : p.step .program a with
    | error e =>
      rw [hstep] at h
      cases h
    | ok next =>
      rw [hstep] at h
      have hname : a ∉ Progress.subcommandNames := hargs a (by simp)
      rw [List.cons_append, read, if_pos (.inr (.inr hname)), hstep]
      exact ih (fun b hb => hargs b (List.mem_cons_of_mem _ hb)) h

theorem not_mem_subcommandNames_of_mem_args {x : ArgPiece} (hx : x.isGlobal = true) {a : String}
    (ha : a ∈ x.args) : a ∉ Progress.subcommandNames := by
  cases x with
  | color spelling choice => cases spelling <;> cases choice <;> revert a <;> decide +kernel
  | verbose short => cases short <;> revert a <;> decide +kernel
  | path | format | config => cases hx

/-- The check that is asked for by what is given. -/
def asked (g : Given) : Invocation :=
  ⟨checkOf g, g.color, g.verbose⟩

theorem asked_given (o : OptionChoice) (paths : List PlainWord) :
    asked (o.given paths) = o.invocation paths := by
  cases paths <;> rfl

/-- The arguments of a check, with global options in front of the subcommand: what is
asked for is what all pieces together give. -/
theorem ofArgs_pieces {outer inner : List ArgPiece} (houter : ∀ x ∈ outer, x.isGlobal = true)
    (hapart : (outer ++ inner).Pairwise ArgPiece.Apart) :
    ofArgs (outer.flatMap ArgPiece.args ++ "check" :: inner.flatMap ArgPiece.args) =
      .ok (asked ((outer ++ inner).foldl Given.add {})) := by
  rw [List.pairwise_append] at hapart
  obtain ⟨p, hread, hp⟩ := Progress.Stands.exists_pieces (fun x hx => .inr (houter x hx))
    hapart.1 Progress.stands_start (fun x _ => Given.lacks_nothing x)
  obtain ⟨q, hreadInner, hq⟩ := Progress.Stands.exists_pieces (fun _ _ => .inl rfl) hapart.2.1
    Progress.stands_start (fun x _ => Given.lacks_nothing x)
  have hnames : ∀ a ∈ outer.flatMap ArgPiece.args, a ∉ Progress.subcommandNames := by
    intro a ha
    obtain ⟨x, hx, hax⟩ := List.mem_flatMap.mp ha
    exact not_mem_subcommandNames_of_mem_args (houter x hx) hax
  have hall : Progress.all .check (inner.flatMap ArgPiece.args) =
      .ok (inner.foldl Given.add {}) := by
    rw [Progress.all, hreadInner]
    simp only [bind, Except.bind]
    rw [hq]
  have hsettle : p.settle = .ok { given := outer.foldl Given.add {} } := hp
  have hcheck : ¬ (p.onlyWords = true ∨ p.awaiting.isSome = true ∨
      "check" ∉ Progress.subcommandNames) := by
    rw [hp.onlyWords, hp.awaiting]
    decide
  have hmerge : (outer ++ inner).foldl Given.add {} =
      (outer.foldl Given.add {}).merge (inner.foldl Given.add {}) := by
    rw [Given.merge_foldl_add, Given.merge_nothing_of_global houter, List.foldl_append]
  rw [ofArgs, read_append hnames hread, read, if_neg hcheck, if_pos rfl, hall, hmerge]
  simp only [bind, Except.bind, hsettle]
  rfl

/-- A check is asked for by paths and options, mixed in any order behind the subcommand.
The paths keep their order and each option has its value, and it makes no difference
whether global options are moved in front of the subcommand. -/
theorem ofArgs_interleaved (paths : List PlainWord) (o : OptionChoice) (pieces : List ArgPiece)
    (h : Interleaves paths o pieces) :
    ofArgs ("check" :: pieces.flatMap ArgPiece.args) = .ok (o.invocation paths) ∧
      ∀ moved : ArgPiece → Bool, (∀ x, moved x = true → x.isGlobal = true) →
        ofArgs ((pieces.filter moved).flatMap ArgPiece.args ++
            "check" :: (pieces.filter (!moved ·)).flatMap ArgPiece.args) =
          ofArgs ("check" :: pieces.flatMap ArgPiece.args) := by
  have hbehind : ofArgs ("check" :: pieces.flatMap ArgPiece.args) = .ok (o.invocation paths) := by
    have hnone : ∀ x ∈ ([] : List ArgPiece), x.isGlobal = true := by simp
    have hasked := ofArgs_pieces hnone h.pairwise_apart
    rw [List.nil_append, h.foldl_add, asked_given] at hasked
    exact hasked
  refine ⟨hbehind, ?_⟩
  intro moved hmoved
  have hfront : ∀ x ∈ pieces.filter moved, x.isGlobal = true := fun x hx =>
    hmoved x (List.mem_filter.mp hx).2
  have hmove := h.move hmoved
  rw [ofArgs_pieces hfront hmove.pairwise_apart, hmove.foldl_add, asked_given, hbehind]

/-- Two paths with options between and behind them, the file in a spelling with a second
equals sign. -/
def mixedPieces : List ArgPiece :=
  [.path ⟨"src/", by decide, by decide⟩, .format .short .jsonLines,
    .path ⟨"init", by decide, by decide⟩,
    .config (.long .attached) ⟨"ci=1.toml", by decide, by decide⟩,
    .color .apart .never, .verbose true]

/-- The color is moved in front of the subcommand.  A path may have the name of a
subcommand. -/
theorem ofArgs_mixedPieces :
    let check : Command := .check ⟨["src/", "init"], some .jsonLines, some "ci=1.toml"⟩
    ofArgs ["check", "src/", "-f", "jsonl", "init", "--config=ci=1.toml", "--color", "never",
        "-v"] = .ok ⟨check, some .never, true⟩ ∧
      ofArgs ["--color", "never", "check", "src/", "-f", "jsonl", "init", "--config=ci=1.toml",
        "-v"] = .ok ⟨check, some .never, true⟩ := by
  intro check
  let o : OptionChoice := {
    format := some (.short, .jsonLines)
    config := some (.long .attached, ⟨"ci=1.toml", by decide, by decide⟩)
    color := some (.apart, .never)
    verbose := some true }
  let isColor : ArgPiece → Bool := fun x => x.switch? == some (.setting .color)
  have hmixed : Interleaves [⟨"src/", by decide, by decide⟩, ⟨"init", by decide, by decide⟩] o
      mixedPieces := ⟨rfl, .refl _⟩
  have hglobal : ∀ x, isColor x = true → x.isGlobal = true := by
    intro x hx
    cases x with
    | color | verbose => rfl
    | path | format | config => cases hx
  obtain ⟨hbehind, hmove⟩ := ofArgs_interleaved _ o mixedPieces hmixed
  exact ⟨hbehind, (hmove isColor hglobal).trans hbehind⟩

end Invocation

end DroppedResult
