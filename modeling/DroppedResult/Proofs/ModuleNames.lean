import DroppedResult.Proofs.NodeTexts
import DroppedResult.Proofs.Validation

/-!
# Names of modules between quotes

An import statement names its module between two quotes.  What is read is the text without
any quotes at its ends, so a name that has quotes of its own there is read without them.

* Quotes at the ends.  `TakenFor` says which module a name is taken for, and
  `trimQuotes_eq_iff` that trimming finds it.
* Written names.  `Imports.Writes` is a statement with the name between quotes.  These
  quotes are not told from those of the name: `Imports.trimQuotes_quoted`.
* Statements for a module.  `Imports.okImportFrom` is a statement for any literal, to show
  which modules are imported from at all.

`ImportTable.record_written` is the result.  It is not that a name between quotes stands for
the module of this name: `ImportTable.not_forall_record_written` has a name that is taken for
another module's, and a module that cannot be imported from.
-/

namespace DroppedResult

/-! ## Quotes at the ends -/

section

variable {α : Type} {p : α → Bool}

theorem dropWhile_eq_iff {l rest : List α} :
    l.dropWhile p = rest ↔
      (∃ front, l = front ++ rest ∧ ∀ a ∈ front, p a = true) ∧
        ∀ a, rest.head? = some a → p a = false := by
  constructor
  · rintro rfl
    refine ⟨⟨l.takeWhile p, List.takeWhile_append_dropWhile.symm, ?_⟩, ?_⟩
    · intro a ha
      exact List.mem_takeWhile_imp ha
    · intro a ha
      have hnot := List.head?_dropWhile_not p l
      rw [ha] at hnot
      exact hnot
  · rintro ⟨⟨front, rfl, hfront⟩, hhead⟩
    rw [List.dropWhile_append_of_pos hfront]
    cases rest with
    | nil => rfl
    | cons a rest => rw [List.dropWhile_cons_of_neg (by simp [hhead a rfl])]

/-- What is left when elements are dropped at both ends. -/
theorem reverse_dropWhile_reverse_dropWhile_eq_iff {l middle : List α} :
    ((l.dropWhile p).reverse.dropWhile p).reverse = middle ↔
      (∃ front back, l = front ++ middle ++ back ∧ (∀ a ∈ front, p a = true) ∧
        ∀ a ∈ back, p a = true) ∧
        (∀ a, middle.head? = some a → p a = false) ∧
        ∀ a, middle.getLast? = some a → p a = false := by
  rw [List.reverse_eq_iff, dropWhile_eq_iff, List.head?_reverse]
  constructor
  · rintro ⟨⟨back, hback, hall⟩, hlast⟩
    -- the front is dropped first, and the back from what is left
    obtain ⟨⟨front, hfront, hallFront⟩, hhead⟩ := dropWhile_eq_iff.mp (rfl : l.dropWhile p = _)
    have hmiddle : l.dropWhile p = middle ++ back.reverse := by
      rw [← List.reverse_inj, hback]
      simp
    rw [hmiddle] at hfront hhead
    refine ⟨⟨front, back.reverse, ?_, hallFront, ?_⟩, ?_, hlast⟩
    · rw [List.append_assoc]
      exact hfront
    · intro a ha
      exact hall a (List.mem_reverse.mp ha)
    · intro a ha
      exact hhead a (by rw [List.head?_append, ha, Option.some_or])
  · rintro ⟨⟨front, back, rfl, hfront, hback⟩, hhead, hlast⟩
    cases middle with
    | nil =>
      -- the front and the back are dropped together
      have hnone : (front ++ [] ++ back).dropWhile p = [] := by
        rw [List.append_nil, List.dropWhile_append_of_pos hfront, List.dropWhile_eq_nil_iff]
        exact hback
      rw [hnone]
      exact ⟨⟨[], rfl, by simp⟩, hlast⟩
    | cons first middle =>
      have hrest : (front ++ first :: middle ++ back).dropWhile p = first :: middle ++ back :=
        dropWhile_eq_iff.mpr ⟨⟨front, List.append_assoc .., hfront⟩, hhead⟩
      rw [hrest, List.reverse_append]
      refine ⟨⟨back.reverse, rfl, ?_⟩, hlast⟩
      intro a ha
      exact hback a (List.mem_reverse.mp ha)

end

/-- The text has no quote at its ends. -/
def HasBareEnds (s : String) : Prop :=
  ∀ c, s.toList.head? = some c ∨ s.toList.getLast? = some c → isQuote c = false

/-- The text has no other characters than quotes. -/
def OnlyQuotes (s : String) : Prop :=
  ∀ c ∈ s.toList, isQuote c = true

/-- A name is taken for the target: the target is what is left of it without the quotes at
its ends. -/
structure TakenFor (name target : String) : Prop where
  bareEnds : HasBareEnds target
  between : ∃ before after, name = before ++ target ++ after ∧ OnlyQuotes before ∧ OnlyQuotes after

theorem trimQuotes_eq_iff {name target : String} :
    trimQuotes name = target ↔ TakenFor name target := by
  have hlists : trimQuotes name = target ↔
      ((name.toList.dropWhile isQuote).reverse.dropWhile isQuote).reverse = target.toList := by
    rw [trimQuotes, ← String.toList_inj, String.toList_ofList]
  rw [hlists, reverse_dropWhile_reverse_dropWhile_eq_iff]
  constructor
  · rintro ⟨⟨front, back, hsplit, hfront, hback⟩, hhead, hlast⟩
    refine ⟨?_, String.ofList front, String.ofList back, ?_, ?_, ?_⟩
    · rintro c (hc | hc)
      · exact hhead c hc
      · exact hlast c hc
    · rw [← String.toList_inj, hsplit]
      simp
    · simpa [OnlyQuotes] using hfront
    · simpa [OnlyQuotes] using hback
  · rintro ⟨hbare, before, after, rfl, hbefore, hafter⟩
    refine ⟨⟨before.toList, after.toList, by simp, hbefore, hafter⟩, ?_, ?_⟩
    · intro c hc
      exact hbare c (.inl hc)
    · intro c hc
      exact hbare c (.inr hc)

instance (name target : String) : Decidable (TakenFor name target) :=
  decidable_of_iff _ trimQuotes_eq_iff

theorem onlyQuotes_append {s t : String} :
    OnlyQuotes (s ++ t) ↔ OnlyQuotes s ∧ OnlyQuotes t := by
  simp only [OnlyQuotes, String.toList_append, List.forall_mem_append]

theorem takenFor_self_iff {name : String} : TakenFor name name ↔ HasBareEnds name := by
  refine ⟨TakenFor.bareEnds, ?_⟩
  intro hbare
  exact ⟨hbare, "", "", by simp, by simp [OnlyQuotes], by simp [OnlyQuotes]⟩

instance (name : String) : Decidable (HasBareEnds name) :=
  decidable_of_iff _ takenFor_self_iff

/-- A name with bare ends is taken for itself only. -/
theorem takenFor_iff_eq {name target : String} (hbare : HasBareEnds name) :
    TakenFor name target ↔ name = target := by
  rw [← trimQuotes_eq_iff, trimQuotes_eq_iff.mpr (takenFor_self_iff.mpr hbare)]

/-- Quotes alone are taken for no name but the empty one. -/
theorem OnlyQuotes.eq_empty_of_takenFor {name target : String} (hquotes : OnlyQuotes name)
    (htaken : TakenFor name target) : target = "" := by
  obtain ⟨hbare, before, after, rfl, _, _⟩ := htaken
  have htarget : OnlyQuotes target := (onlyQuotes_append.mp (onlyQuotes_append.mp hquotes).1).2
  rw [← String.toList_eq_nil_iff]
  cases hlist : target.toList with
  | nil => rfl
  | cons c cs =>
    have hquote : isQuote c = true := htarget c (by simp [hlist])
    rw [hbare c (.inl (by rw [hlist]; rfl))] at hquote
    cases hquote

/-! ## Written names -/

namespace Imports

/-- The quotes that the name of a module may stand between. -/
def nameQuotes : List Char :=
  ['\x27', '\x22']

/-- The text between two quotes. -/
def quoted (q : Char) (name : String) : String :=
  String.singleton q ++ name ++ String.singleton q

/-- The name can stand between two quotes `q` as it is. -/
def Writable (q : Char) (name : String) : Prop :=
  ∀ c ∈ name.toList, c ≠ q ∧ c ≠ '\n' ∧ c ≠ '\\'

instance (q : Char) (name : String) : Decidable (Writable q name) :=
  List.decidableBAll _ _

/-- The node is an import statement, and the name of its module is written between two
quotes `q`. -/
structure Writes (source : String) (t : Tree) (q : Char) (name : String) : Prop where
  kind : t.kind = .importStatement
  quote : q ∈ nameQuotes
  writable : Writable q name
  literal : ∃ literal, t.childByField "source" = some literal ∧
    literal.text source = quoted q name

theorem onlyQuotes_singleton {q : Char} (hq : q ∈ nameQuotes) :
    OnlyQuotes (String.singleton q) := by
  have hquote : isQuote q = true := by
    rcases List.mem_pair.mp hq with rfl | rfl <;> rfl
  intro c hc
  rw [String.toList_singleton, List.mem_singleton] at hc
  rwa [hc]

/-- The quotes around a name make no difference. -/
theorem trimQuotes_quoted {q : Char} (hq : q ∈ nameQuotes) (name : String) :
    trimQuotes (quoted q name) = trimQuotes name := by
  obtain ⟨hbare, before, after, hname, hbefore, hafter⟩ :=
    trimQuotes_eq_iff.mp (rfl : trimQuotes name = _)
  have hquote := onlyQuotes_singleton hq
  refine trimQuotes_eq_iff.mpr ⟨hbare, String.singleton q ++ before, after ++ String.singleton q,
    ?_, onlyQuotes_append.mpr ⟨hquote, hbefore⟩, onlyQuotes_append.mpr ⟨hafter, hquote⟩⟩
  conv_lhs => rw [quoted, hname]
  simp only [String.append_assoc]

theorem Writes.moduleName?_eq {source : String} {t : Tree} {q : Char} {name : String}
    (h : Writes source t q name) : moduleName? source t = some (trimQuotes name) := by
  obtain ⟨literal, hliteral, htext⟩ := h.literal
  have hvalue : literal.literalValue source = trimQuotes (quoted q name) :=
    congrArg trimQuotes htext
  rw [moduleName?, hliteral, Option.map_some, hvalue, trimQuotes_quoted h.quote]

end Imports

namespace ImportTable

variable {source : String} {t : Tree} {q : Char} {name : String}

/-- A statement is read when its name is taken for the target. -/
theorem record_of_writes (table : ImportTable) (h : Imports.Writes source t q name) :
    table.record source t =
      if TakenFor name table.target then table.bindAll (Imports.bindings source t) else table := by
  simp only [record, h.kind, h.moduleName?_eq, ← trimQuotes_eq_iff, beq_self_eq_true,
    Bool.true_and, Option.some_beq_some, beq_iff_eq]

/-- No statement imports from a module whose name has a quote at an end. -/
theorem record_of_not_hasBareEnds (table : ImportTable) (h : ¬ HasBareEnds table.target)
    (source : String) (t : Tree) : table.record source t = table := by
  rw [record, if_neg]
  intro hread
  -- the value of a literal has bare ends, whatever its text is
  obtain ⟨literal, _, hvalue⟩ := Option.map_eq_some_iff.mp
    (beq_iff_eq.mp (Bool.and_eq_true_iff.mp hread).2)
  exact h (trimQuotes_eq_iff.mp hvalue).bareEnds

end ImportTable

/-! ## Statements for a module -/

theorem Source.textBetween_of_covers {source text : String} {start stop : Nat}
    (h : Covers source start stop text) : textBetween source start stop = text := by
  obtain ⟨before, after, rfl, rfl, rfl⟩ := h
  have hbytes := extract_cut before text after
  rw [← String.toByteArray_inj, toByteArray_textBetween (hbytes ▸ text.isValidUTF8), hbytes]

namespace Imports

/-- A statement that imports `ok` from the module of the literal. -/
def okImportText (literal : String) : String :=
  "import \x7b " ++ "ok" ++ (" \x7d from " ++ literal ++ ";")

def okName : Tree :=
  .node ⟨.identifier, true, 9, 11, some "name"⟩ []

def moduleLiteral (literal : String) : Tree :=
  .node ⟨⟨"string"⟩, true, 19, 19 + literal.utf8ByteSize, some "source"⟩ []

def okImportFrom (literal : String) : Tree :=
  .node ⟨.importStatement, true, 0, 20 + literal.utf8ByteSize, none⟩
    [.node ⟨.importClause, true, 7, 13, none⟩
      [.node ⟨.namedImports, true, 7, 13, none⟩
        [.node ⟨.importSpecifier, true, 9, 11, none⟩ [okName]]],
      moduleLiteral literal]

theorem text_okName (literal : String) : okName.text (okImportText literal) = "ok" := by
  show Source.textBetween (okImportText literal) 9 11 = "ok"
  exact Source.textBetween_of_covers
    ⟨"import \x7b ", " \x7d from " ++ literal ++ ";", rfl, by decide, by decide⟩

theorem text_moduleLiteral (literal : String) :
    (moduleLiteral literal).text (okImportText literal) = literal := by
  show Source.textBetween (okImportText literal) 19 (19 + literal.utf8ByteSize) = literal
  have hsize : ("import \x7b " ++ "ok" ++ " \x7d from ").utf8ByteSize = 19 := by decide
  refine Source.textBetween_of_covers
    ⟨"import \x7b " ++ "ok" ++ " \x7d from ", ";", ?_, hsize.symm, by rw [hsize]⟩
  simp only [okImportText, String.append_assoc]

theorem bindings_okImportFrom (literal : String) :
    bindings (okImportText literal) (okImportFrom literal) = [("ok", .named "ok")] := by
  have hvalue : okName.literalValue (okImportText literal) = "ok" := by
    show trimQuotes (okName.text (okImportText literal)) = "ok"
    rw [text_okName]
    rfl
  have hbindings : bindings (okImportText literal) (okImportFrom literal) =
      [(okName.literalValue (okImportText literal),
        .named (okName.literalValue (okImportText literal)))] := rfl
  rw [hbindings, hvalue]

theorem writes_okImportFrom {q : Char} {name : String} (hq : q ∈ nameQuotes)
    (hname : Writable q name) :
    Writes (okImportText (quoted q name)) (okImportFrom (quoted q name)) q name where
  kind := rfl
  quote := hq
  writable := hname
  literal := ⟨moduleLiteral (quoted q name), rfl, text_moduleLiteral _⟩

end Imports

namespace ImportTable

/-- Whether `ok` is imported by the name between quotes. -/
theorem isBound_okImportFrom {q : Char} {name : String} (hq : q ∈ Imports.nameQuotes)
    (hname : Imports.Writable q name) (target : String) :
    ((empty target).record (Imports.okImportText (Imports.quoted q name))
      (Imports.okImportFrom (Imports.quoted q name))).isBound "ok" = true ↔
        TakenFor name target := by
  rw [record_of_writes _ (Imports.writes_okImportFrom hq hname), Imports.bindings_okImportFrom]
  split
  · rename_i htaken
    exact iff_of_true rfl htaken
  · rename_i htaken
    exact iff_of_false Bool.false_ne_true htaken

/-- A configured module is imported from where the name between the quotes is this module's
with any quotes around it, and the module has none at its ends itself.  So a name with bare
ends is that of its own module, and quotes alone are that of none.  A module with a quote at an
end is never imported from, and the others are wherever their name can be written. -/
theorem record_written (config : Config) (table : ImportTable)
    (hvalid : config.validate = .ok ()) (htarget : table.target = config.rule.targetModule) :
    (∀ (source : String) (t : Tree) (q : Char) (name : String), Imports.Writes source t q name →
      (table.record source t =
        if TakenFor name table.target then table.bindAll (Imports.bindings source t)
        else table) ∧
      (HasBareEnds name → table.record source t =
        if name = table.target then table.bindAll (Imports.bindings source t) else table) ∧
      (OnlyQuotes name → table.record source t = table)) ∧
    (¬ HasBareEnds table.target → ∀ (source : String) (t : Tree),
      table.record source t = table) ∧
    ∀ q ∈ Imports.nameQuotes, Imports.Writable q table.target →
      ((∃ source t, Imports.Writes source t q table.target ∧
        ((empty table.target).record source t).isBound "ok" = true) ↔
          HasBareEnds table.target) := by
  refine ⟨?_, table.record_of_not_hasBareEnds, ?_⟩
  · intro source t q name hwrites
    have hrecord := table.record_of_writes hwrites
    refine ⟨hrecord, ?_, ?_⟩
    · intro hbare
      simpa only [takenFor_iff_eq hbare] using hrecord
    · intro hquotes
      obtain ⟨c, hc, _⟩ := ((config.validate_eq_ok_iff).mp hvalid).targetModule
      rw [hrecord, if_neg]
      intro htaken
      rw [← htarget, hquotes.eq_empty_of_takenFor htaken] at hc
      cases hc
  · intro q hq hwritable
    constructor
    · rintro ⟨source, t, _, hbound⟩
      by_contra hends
      rw [record_of_not_hasBareEnds (empty table.target) hends] at hbound
      cases hbound
    · intro hbare
      refine ⟨_, _, Imports.writes_okImportFrom hq hwritable, ?_⟩
      exact (isBound_okImportFrom hq hwritable _).mpr (takenFor_self_iff.mpr hbare)

/-- A configuration for a module whose name has quotes of its own. -/
def forQuotedModule : Config where
  rule := { targetModule := "'neverthrow'" }

theorem validate_forQuotedModule : forQuotedModule.validate = .ok () := by
  rfl

theorem writable_quotedModule : Imports.Writable '\x22' "'neverthrow'" := by
  decide

/-- The quoted name is taken for the module without quotes, and not for the module that has
them. -/
theorem record_quotedModule :
    let literal := Imports.quoted '\x22' "'neverthrow'"
    let record (target : String) : ImportTable :=
      (empty target).record (Imports.okImportText literal) (Imports.okImportFrom literal)
    (record "neverthrow").imported? "ok" = some (.named "ok") ∧
      record "'neverthrow'" = empty "'neverthrow'" := by
  intro literal record
  have hwrites := Imports.writes_okImportFrom (by decide) writable_quotedModule
  obtain ⟨hread, _, _⟩ := record_written .standard (empty "neverthrow") rfl rfl
  obtain ⟨_, hnever, _⟩ := record_written forQuotedModule (empty "'neverthrow'")
    validate_forQuotedModule rfl
  refine ⟨?_, hnever (by decide) _ _⟩
  rw [show record "neverthrow" = _ from (hread _ _ _ _ hwrites).1, if_pos (by decide),
    Imports.bindings_okImportFrom]
  rfl

/-- A name between quotes may be taken for another than its own module, and not every
configured module can be imported from. -/
theorem not_forall_record_written :
    (¬ ∀ (config : Config) (table : ImportTable) (source : String) (t : Tree) (q : Char)
        (name : String), config.validate = .ok () → table.target = config.rule.targetModule →
        Imports.Writes source t q name → table.record source t =
          if name = table.target then table.bindAll (Imports.bindings source t) else table) ∧
      ¬ ∀ (config : Config), config.validate = .ok () →
        (∃ q ∈ Imports.nameQuotes, Imports.Writable q config.rule.targetModule) →
        ∃ source t, (empty config.rule.targetModule).record source t ≠
          empty config.rule.targetModule := by
  constructor
  · intro hall
    have hwrites := Imports.writes_okImportFrom (by decide) writable_quotedModule
    have hrecord := hall .standard (empty "neverthrow") _ _ _ _ rfl rfl hwrites
    rw [if_neg (by decide)] at hrecord
    have hbound := (isBound_okImportFrom (by decide) writable_quotedModule "neverthrow").mpr
      (by decide)
    rw [hrecord] at hbound
    cases hbound
  · intro hall
    obtain ⟨source, t, hread⟩ := hall forQuotedModule validate_forQuotedModule
      ⟨'\x22', by decide, writable_quotedModule⟩
    exact hread (record_of_not_hasBareEnds _ (by decide) source t)

end ImportTable

end DroppedResult
