import DroppedResult.Proofs.Wrapping

/-!
# Names that the heuristic leaves alone

A setting can take names away from the heuristic: some of them, by exclusions, or all of
them, by switching it off.  Both are the same change, and this module compares a check
before and after it.

* One name.  `Heuristic.Narrows` says that a heuristic suspects the names of another
  except the silent ones.  `narrows_withExclusions` and `narrows_withEnabled_false` are
  the two settings.
* One node.  The test for excluded names comes last, after all that imports and
  constructors decide, so a narrower heuristic changes the role of a suspected call and
  no other role (`Heuristic.Narrows.role_eq`).
* A unit.  Neither the imports before a node nor the walks up from it depend on the
  heuristic, so the role at a node is all that changes: `ResultRule.check_of_narrows`.

`ResultRule.check_excluding` is the result.
-/

namespace DroppedResult

/-! ## One name -/

namespace Heuristic

/-- The heuristic `h'` suspects the names that `h` suspects, except the silent ones. -/
def Narrows (h h' : Heuristic) (silent : String → Bool) : Prop :=
  ∀ name, h'.suspects name = (h.suspects name && !silent name)

theorem narrows_withExclusions (h : Heuristic) (names : List String) :
    h.Narrows (h.withExclusions names) names.contains := by
  intro name
  simp only [suspects, withExclusions, List.contains_append, Bool.not_or, Bool.and_assoc]

theorem narrows_withEnabled_false (h : Heuristic) :
    h.Narrows (h.withEnabled false) fun _ => true := by
  intro name
  simp [suspects, withEnabled]

/-! ## One node -/

/-- A node of the given role and callee name loses its role when the names are silent. -/
def silences (silent : String → Bool) (role : Role) (callee : Option String) : Bool :=
  role == .heuristicCall && callee.any silent

variable {h h' : Heuristic} {silent : String → Bool}

theorem Narrows.identifierRole_eq (hn : h.Narrows h' silent) (table : ImportTable)
    (name : String) :
    h'.identifierRole table name =
      if silences silent (h.identifierRole table name) (some name) then .other
      else h.identifierRole table name := by
  rw [identifierRole, identifierRole, hn name]
  split
  · rfl
  · split
    · rfl
    · -- the name is left to the heuristic
      cases h.suspects name with
      | false => rfl
      | true => cases hsilent : silent name <;> simp [silences, hsilent]

theorem memberRole_ne_heuristicCall (source : String) (member : Tree) :
    memberRole source member ≠ .heuristicCall := by
  intro hrole
  have hproducing := methodRole_isProducing (member.fieldText "property" source)
  rw [← memberRole, hrole] at hproducing
  cases hproducing

theorem constructorRole_ne_heuristicCall (source : String) (creation : Tree) :
    constructorRole source creation ≠ .heuristicCall := by
  rw [constructorRole]
  split
  · decide
  · split <;> decide

theorem silences_of_ne {role : Role} (hrole : role ≠ .heuristicCall) (callee : Option String) :
    silences silent role callee = false := by
  simp [silences, hrole]

theorem Narrows.callRole_eq (hn : h.Narrows h' silent) (table : ImportTable) (source : String)
    (call : Tree) :
    h'.callRole table source call =
      if silences silent (h.callRole table source call) (call.fieldText "function" source) then
        .other
      else h.callRole table source call := by
  rw [callRole, callRole, Tree.fieldText]
  cases call.childByField "function" with
  | none => rfl
  | some callee =>
    simp only [Option.map_some]
    split
    · exact hn.identifierRole_eq table (callee.text source)
    · split
      · rw [silences_of_ne (memberRole_ne_heuristicCall source callee)]
        rfl
      · rfl

/-- A narrower heuristic takes their role from suspected calls of silent names, and
leaves every other role as it is. -/
theorem Narrows.role_eq (hn : h.Narrows h' silent) (table : ImportTable) (source : String)
    (t : Tree) :
    h'.role table source t =
      if silences silent (h.role table source t) (t.fieldText "function" source) then .other
      else h.role table source t := by
  rw [role, role]
  split
  · rw [silences_of_ne (constructorRole_ne_heuristicCall source t)]
    rfl
  · split
    · exact hn.callRole_eq table source t
    · split
      · rw [silences_of_ne (memberRole_ne_heuristicCall source t)]
        rfl
      · rfl

/-- A suspected call has a callee. -/
theorem exists_callee_of_heuristicCall {table : ImportTable} {source : String} {t : Tree}
    (hrole : h.role table source t = .heuristicCall) :
    ∃ name, t.fieldText "function" source = some name := by
  rw [role] at hrole
  split at hrole
  · exact absurd hrole (constructorRole_ne_heuristicCall source t)
  · split at hrole
    · rw [callRole] at hrole
      split at hrole
      · cases hrole
      · rename_i callee hcallee
        exact ⟨callee.text source, by rw [Tree.fieldText, hcallee, Option.map_some]⟩
    · split at hrole
      · exact absurd hrole (memberRole_ne_heuristicCall source t)
      · cases hrole

theorem silences_all (table : ImportTable) (source : String) (t : Tree) :
    silences (fun _ => true) (h.role table source t) (t.fieldText "function" source) =
      (h.role table source t == .heuristicCall) := by
  by_cases hrole : h.role table source t = .heuristicCall
  · obtain ⟨name, hname⟩ := exists_callee_of_heuristicCall hrole
    rw [silences, hname, Option.any_some, Bool.and_true]
  · rw [silences_of_ne hrole, beq_eq_false_iff_ne.mpr hrole]

theorem Narrows.isProducing_role (hn : h.Narrows h' silent) (table : ImportTable)
    (source : String) (t : Tree) :
    (h'.role table source t).isProducing =
      ((h.role table source t).isProducing &&
        !silences silent (h.role table source t) (t.fieldText "function" source)) := by
  rw [hn.role_eq]
  cases silences silent (h.role table source t) (t.fieldText "function" source) with
  | false => simp
  | true => simp [Role.isProducing]

end Heuristic

/-! ## A unit -/

namespace ResultRule

/-- The role of a node of the unit, under the imports before it. -/
def roleOf (rule : ResultRule) (tree : Tree) (source : String) (c : Cursor) : Role :=
  rule.heuristic.role (rule.tableAt tree source c) source c.focus

/-- The rule with more excluded names. -/
def excluding (rule : ResultRule) (names : List String) : ResultRule :=
  { rule with heuristic := rule.heuristic.withExclusions names }

/-- The rule with the heuristic switched on or off. -/
def withHeuristic (rule : ResultRule) (enabled : Bool) : ResultRule :=
  { rule with heuristic := rule.heuristic.withEnabled enabled }

theorem flags_of_narrows {rule : ResultRule} {h' : Heuristic} {silent : String → Bool}
    (hn : rule.heuristic.Narrows h' silent) (tree : Tree) (source : String) (c : Cursor) :
    { rule with heuristic := h' }.flags tree source c =
      (rule.flags tree source c && !Heuristic.silences silent (rule.roleOf tree source c)
        (c.focus.fieldText "function" source)) := by
  have htable : { rule with heuristic := h' }.tableAt tree source c =
      rule.tableAt tree source c := rfl
  rw [flags, flags, htable, hn.isProducing_role, roleOf]
  simp only [Bool.and_assoc]

/-- A check with a narrower heuristic finds what it found before, except the suspected
calls of silent names. -/
theorem check_of_narrows {rule : ResultRule} {h' : Heuristic} {silent : String → Bool}
    (hn : rule.heuristic.Narrows h' silent) (tree : Tree) (source : String) :
    { rule with heuristic := h' }.check tree source =
      (rule.check tree source).filter fun c =>
        !Heuristic.silences silent (rule.roleOf tree source c)
          (c.focus.fieldText "function" source) := by
  rw [check_eq_filter_nodes, check_eq_filter_nodes, List.filter_filter]
  refine List.filter_congr fun c _ => ?_
  rw [flags_of_narrows hn, Bool.and_comm]

theorem roleOf_excluding (rule : ResultRule) (names : List String) (tree : Tree)
    (source : String) {c : Cursor} (hrole : rule.roleOf tree source c ≠ .heuristicCall) :
    (rule.excluding names).roleOf tree source c = rule.roleOf tree source c := by
  have hsame := (rule.heuristic.narrows_withExclusions names).role_eq
    (rule.tableAt tree source c) source c.focus
  rw [← roleOf, Heuristic.silences_of_ne hrole] at hsame
  exact hsame

theorem roleOf_of_imported_factory (rule : ResultRule) {tree : Tree} {source : String}
    {c : Cursor} {callee : Tree} {exported : String} (hcall : c.kind = .callExpression)
    (hcallee : c.focus.childByField "function" = some callee) (hname : callee.kind = .identifier)
    (hbound : (rule.tableAt tree source c).imported? (callee.text source) =
      some (.named exported)) (hfactory : exported ∈ factoryNames) :
    rule.roleOf tree source c = .factoryCall := by
  have hkind : c.focus.kind = .callExpression := hcall
  have hnew : (Kind.callExpression == .newExpression) = false := by decide
  simp [roleOf, Heuristic.role, hkind, hnew, Heuristic.callRole, hcallee, hname,
    Heuristic.identifierRole, hbound, Heuristic.bindsFactory, hfactory]

/-- Excluded names take away the suspected calls of these names and nothing else, and
switching the heuristic off takes away all suspected calls.  Only the set of the names
counts.  Findings that a constructor or an import makes stay, and so does the role of a
call of an imported factory, under whatever alias. -/
theorem check_excluding (rule : ResultRule) (tree : Tree) (source : String) :
    (∀ names, (rule.excluding names).check tree source =
      (rule.check tree source).filter fun c =>
        !(rule.roleOf tree source c == .heuristicCall &&
          (c.focus.fieldText "function" source).any names.contains)) ∧
    (rule.withHeuristic false).check tree source =
      (rule.check tree source).filter (rule.roleOf tree source · != .heuristicCall) ∧
    (∀ names names' : List String, (∀ x, x ∈ names ↔ x ∈ names') →
      (rule.excluding names).check tree source = (rule.excluding names').check tree source) ∧
    (∀ names, ∀ c ∈ rule.check tree source,
      rule.roleOf tree source c = .constructorCall ∨ rule.roleOf tree source c = .factoryCall →
        c ∈ (rule.excluding names).check tree source ∧
          (rule.excluding names).roleOf tree source c = rule.roleOf tree source c) ∧
    ∀ names (c : Cursor) callee exported, c.kind = .callExpression →
      c.focus.childByField "function" = some callee → callee.kind = .identifier →
      (rule.tableAt tree source c).imported? (callee.text source) = some (.named exported) →
      exported ∈ factoryNames → (rule.excluding names).roleOf tree source c = .factoryCall := by
  have hexcluding (names : List String) : (rule.excluding names).check tree source =
      (rule.check tree source).filter fun c =>
        !Heuristic.silences names.contains (rule.roleOf tree source c)
          (c.focus.fieldText "function" source) :=
    check_of_narrows (rule.heuristic.narrows_withExclusions names) tree source
  refine ⟨hexcluding, ?_, ?_, ?_, ?_⟩
  · rw [withHeuristic, check_of_narrows rule.heuristic.narrows_withEnabled_false]
    refine List.filter_congr fun c _ => ?_
    rw [roleOf, Heuristic.silences_all]
    rfl
  · intro names names' hsame
    have hcontains : names.contains = names'.contains := by
      funext x
      rw [Bool.eq_iff_iff, List.contains_iff_mem, List.contains_iff_mem, hsame]
    rw [hexcluding, hexcluding, hcontains]
  · intro names c hc hrole
    have hne : rule.roleOf tree source c ≠ .heuristicCall := by
      rcases hrole with hrole | hrole <;> rw [hrole] <;> decide
    refine ⟨?_, rule.roleOf_excluding names tree source hne⟩
    rw [hexcluding, List.mem_filter, Heuristic.silences_of_ne hne]
    exact ⟨hc, rfl⟩
  · intro names c callee exported hcall hcallee hname hbound hfactory
    exact (rule.excluding names).roleOf_of_imported_factory hcall hcallee hname hbound hfactory

/-- A call before and after the import that gives its name to a factory. -/
def aliasedSource : String :=
  "loadResult(); import { ok as loadResult } from 'neverthrow'; loadResult();"

def aliasImport : Tree :=
  .node ⟨.importStatement, true, 14, 60, none⟩
    [.node ⟨.importClause, true, 21, 41, none⟩
      [.node ⟨.namedImports, true, 21, 41, none⟩
        [.node ⟨.importSpecifier, true, 23, 39, none⟩
          [.node ⟨.identifier, true, 23, 25, some "name"⟩ [],
            .node ⟨.identifier, true, 29, 39, some "alias"⟩ []]]],
      .node ⟨⟨"string"⟩, true, 47, 59, some "source"⟩ []]

def aliasedUnit : Tree :=
  .node ⟨.program, true, 0, 74, none⟩
    [.node ⟨⟨"expression_statement"⟩, true, 0, 13, none⟩ [loadCall 0 none],
      aliasImport,
      .node ⟨⟨"expression_statement"⟩, true, 61, 74, none⟩ [loadCall 61 none]]

/-- The exclusion takes the first call, which is suspected for its name, and not the
second, which is by then a call of `ok`. -/
theorem check_aliasedUnit :
    (standard.check aliasedUnit aliasedSource).map Cursor.address = [[0, 0], [2, 0]] ∧
      ((standard.excluding ["loadResult"]).check aliasedUnit aliasedSource).map Cursor.address =
        [[2, 0]] := by
  obtain ⟨hexcluding, _⟩ := check_excluding standard aliasedUnit aliasedSource
  rw [hexcluding, check_eq_reports, Tree.nodes_eq]
  decide +kernel

end ResultRule

end DroppedResult
