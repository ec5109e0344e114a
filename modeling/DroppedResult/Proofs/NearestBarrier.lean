import DroppedResult.Proofs.Relatives

/-!
# The nearest barrier

`Cursor.isDelegated` walks up from a node until it meets a barrier.  Here the verdict is
told by the ancestors alone, with no walk.

* `Kind.barriers` are the kinds that settle the matter, and `Cursor.HandsOn` says which
  barriers hand a value to the caller.
* `Cursor.above` counts ancestors from the node up.  `Cursor.OpenUpTo` says that the way
  up to an ancestor is free of barriers; `openUpTo_iff` takes its first level off.
* `isDelegated_of_barrier` and `isDelegated_eq_parent` say what the walk does at the
  parent, `isDelegated_eq_of_openUpTo` what it does at the nearest barrier.

`Cursor.isDelegated_iff_nearest_handsOn` is the result.
-/

namespace DroppedResult

/-- The kinds of node that settle whether a value from below goes to the caller. -/
def Kind.barriers : List Kind :=
  [returnStatement, arrowFunction, statementBlock, classBody] ++ functionBoundaries

theorem Barrier.ofKind?_eq_none_iff {k : Kind} : ofKind? k = none ↔ k ∉ Kind.barriers := by
  simp only [ofKind?, Kind.barriers, Kind.opensFunction, List.mem_append, List.mem_cons,
    List.not_mem_nil, or_false, beq_iff_eq, Bool.or_eq_true, List.contains_iff_mem]
  grind

theorem Barrier.ofKind?_enclosed {k : Kind}
    (h : k = .statementBlock ∨ k = .classBody ∨ k ∈ Kind.functionBoundaries) :
    ofKind? k = some .enclosed := by
  rcases h with rfl | rfl | h
  · rfl
  · rfl
  · revert k
    decide

theorem Barrier.mem_barriers {k : Kind} {b : Barrier} (h : ofKind? k = some b) :
    k ∈ Kind.barriers := by
  by_contra hnone
  rw [ofKind?_eq_none_iff.mpr hnone] at h
  cases h

theorem Kind.barriers_cases {k : Kind} (h : k ∈ barriers) :
    k = .returnStatement ∨ k = .arrowFunction ∨ Barrier.ofKind? k = some .enclosed := by
  revert k
  decide

namespace Cursor

/-- The node that is the given number of levels up. -/
def above (c : Cursor) : Nat → Option Cursor
  | 0 => some c
  | k + 1 => c.parent?.bind fun p => p.above k

/-- The ancestor `a` of `n` has the node `child` of the way right below it, and between
`n` and `a` there is no barrier. -/
def OpenUpTo (n child a : Cursor) : Prop :=
  ∃ k, n.above k = some child ∧ child.parent? = some a ∧
    ∀ i b, 0 < i → i ≤ k → n.above i = some b → b.kind ∉ Kind.barriers

/-- The value of `child`, right below `a`, goes to the caller there: it is returned, or
it is the expression body of an arrow function. -/
def HandsOn (a child : Cursor) : Prop :=
  a.kind = .returnStatement ∨
    a.kind = .arrowFunction ∧ a.childByField? "body" = some child ∧ child.kind ≠ .statementBlock

theorem HandsOn.mem_barriers {a child : Cursor} (h : a.HandsOn child) :
    a.kind ∈ Kind.barriers := by
  rcases h with h | ⟨h, _⟩ <;> rw [h] <;> decide

theorem not_handsOn_of_enclosed {a child : Cursor}
    (h : Barrier.ofKind? a.kind = some .enclosed) : ¬ a.HandsOn child := by
  rintro (hkind | ⟨hkind, _⟩) <;> rw [hkind] at h <;> cases h

/-! ## One level up -/

theorem isDelegated_root {n : Cursor} (h : n.parent? = none) : n.isDelegated = false := by
  obtain ⟨t, path⟩ := n
  cases path with
  | nil => rfl
  | cons f up => cases h

theorem isDelegated_eq_parent {n p : Cursor} (hparent : n.parent? = some p)
    (hkind : p.kind ∉ Kind.barriers) : n.isDelegated = p.isDelegated := by
  obtain ⟨t, path⟩ := n
  cases path with
  | nil => cases hparent
  | cons f up =>
    obtain rfl : ⟨f.plug t, up⟩ = p := Option.some.inj hparent
    exact delegatedFrom_cons_of_none (Barrier.ofKind?_eq_none_iff.mpr hkind) _ up

/-- A barrier right above a node decides on it. -/
theorem isDelegated_of_barrier {n p : Cursor} (hparent : n.parent? = some p)
    (hkind : p.kind ∈ Kind.barriers) : n.isDelegated = true ↔ p.HandsOn n := by
  obtain ⟨t, path⟩ := n
  cases path with
  | nil => cases hparent
  | cons f up =>
    obtain rfl : ⟨f.plug t, up⟩ = p := Option.some.inj hparent
    have hkind' : f.label.kind ∈ Kind.barriers := hkind
    show delegatedFrom t.label (f :: up) = true ↔ _
    rw [delegatedFrom]
    rcases Kind.barriers_cases hkind' with hreturn | harrow | henclosed
    · have hbarrier : Barrier.ofKind? f.label.kind = some .returned := by rw [hreturn]; rfl
      rw [hbarrier]
      exact ⟨fun _ => .inl hreturn, fun _ => rfl⟩
    · have hbarrier : Barrier.ofKind? f.label.kind = some .arrow := by rw [harrow]; rfl
      have hnot_return : f.label.kind ≠ .returnStatement := by rw [harrow]; decide
      rw [hbarrier]
      show f.holdsAsExpressionBody t.label = true ↔ _
      rw [Frame.holdsAsExpressionBody, Bool.and_eq_true, bne_iff_ne,
        ← childByField?_plug_eq_some_iff f t up]
      constructor
      · rintro ⟨hbody, hblock⟩
        exact .inr ⟨harrow, hbody, hblock⟩
      · rintro (hreturn | ⟨_, hbody, hblock⟩)
        · exact absurd hreturn hnot_return
        · exact ⟨hbody, hblock⟩
    · rw [henclosed]
      constructor
      · intro h
        cases h
      · intro h
        exact absurd h (not_handsOn_of_enclosed henclosed)

/-! ## The way up -/

theorem above_succ {n p : Cursor} (hparent : n.parent? = some p) (k : Nat) :
    n.above (k + 1) = p.above k := by
  rw [above, hparent, Option.bind_some]

theorem above_root {n : Cursor} (h : n.parent? = none) (k : Nat) : n.above (k + 1) = none := by
  rw [above, h, Option.bind_none]

/-- The way up to an ancestor is the way to the parent, or it goes on from a parent that
is no barrier. -/
theorem openUpTo_iff {n p child a : Cursor} (hparent : n.parent? = some p) :
    n.OpenUpTo child a ↔
      child = n ∧ a = p ∨ p.kind ∉ Kind.barriers ∧ p.OpenUpTo child a := by
  constructor
  · rintro ⟨k, hchild, ha, hopen⟩
    cases k with
    | zero =>
      obtain rfl : n = child := Option.some.inj hchild
      rw [hparent] at ha
      exact .inl ⟨rfl, (Option.some.inj ha).symm⟩
    | succ k =>
      rw [above_succ hparent] at hchild
      refine .inr ⟨hopen 1 p (by omega) (by omega) (above_succ hparent 0), k, hchild, ha, ?_⟩
      intro i b hi hik hb
      exact hopen (i + 1) b (by omega) (by omega) (by rw [above_succ hparent, hb])
  · rintro (⟨rfl, rfl⟩ | ⟨hkind, k, hchild, ha, hopen⟩)
    · refine ⟨0, rfl, hparent, ?_⟩
      intro i b hi hi0
      omega
    · refine ⟨k + 1, by rw [above_succ hparent, hchild], ha, ?_⟩
      intro i b hi hik hb
      cases i with
      | zero => omega
      | succ i =>
        rw [above_succ hparent] at hb
        cases i with
        | zero =>
          obtain rfl : p = b := Option.some.inj hb
          exact hkind
        | succ i => exact hopen (i + 1) b (by omega) (by omega) hb

theorem not_openUpTo_root {n child a : Cursor} (h : n.parent? = none) :
    ¬ n.OpenUpTo child a := by
  rintro ⟨k, hchild, ha, _⟩
  cases k with
  | zero =>
    obtain rfl : n = child := Option.some.inj hchild
    rw [h] at ha
    cases ha
  | succ k =>
    rw [above_root h] at hchild
    cases hchild

/-- The nearest barrier decides on a node. -/
theorem isDelegated_eq_of_openUpTo {n child a : Cursor} (h : n.OpenUpTo child a)
    (ha : a.kind ∈ Kind.barriers) : n.isDelegated = true ↔ a.HandsOn child := by
  obtain ⟨t, path⟩ := n
  induction path generalizing t with
  | nil => exact absurd h (not_openUpTo_root rfl)
  | cons f up ih =>
    have hparent : parent? ⟨t, f :: up⟩ = some ⟨f.plug t, up⟩ := rfl
    rcases (openUpTo_iff hparent).mp h with ⟨rfl, rfl⟩ | ⟨hkind, hrest⟩
    · exact isDelegated_of_barrier hparent ha
    · rw [isDelegated_eq_parent hparent hkind]
      exact ih (f.plug t) hrest

theorem exists_handsOn_of_isDelegated {n : Cursor} (h : n.isDelegated = true) :
    ∃ child a, n.OpenUpTo child a ∧ a.HandsOn child := by
  obtain ⟨t, path⟩ := n
  induction path generalizing t with
  | nil =>
    rw [isDelegated_root rfl] at h
    cases h
  | cons f up ih =>
    have hparent : parent? ⟨t, f :: up⟩ = some ⟨f.plug t, up⟩ := rfl
    by_cases hkind : (⟨f.plug t, up⟩ : Cursor).kind ∈ Kind.barriers
    · refine ⟨_, _, (openUpTo_iff hparent).mpr (.inl ⟨rfl, rfl⟩), ?_⟩
      exact (isDelegated_of_barrier hparent hkind).mp h
    · rw [isDelegated_eq_parent hparent hkind] at h
      obtain ⟨child, a, hopen, hhands⟩ := ih (f.plug t) h
      exact ⟨child, a, (openUpTo_iff hparent).mpr (.inr ⟨hkind, hopen⟩), hhands⟩

/-- A node is delegated when the way up is open to an ancestor that hands its value on.
The nearest barrier alone decides: when it is a block, a class body, the start of a
function, or an arrow function that is not entered through its expression body, the node
is not delegated.  A parent that is no barrier has the verdict of the node. -/
theorem isDelegated_iff_nearest_handsOn (n : Cursor) :
    (n.isDelegated = true ↔ ∃ child a, n.OpenUpTo child a ∧ a.HandsOn child) ∧
      (∀ child a, n.OpenUpTo child a → a.kind ∈ Kind.barriers →
        (n.isDelegated = true ↔ a.HandsOn child)) ∧
      (∀ child a, n.OpenUpTo child a →
        (a.kind = .statementBlock ∨ a.kind = .classBody ∨ a.kind ∈ Kind.functionBoundaries) ∨
          (a.kind = .arrowFunction ∧
            ¬ (a.childByField? "body" = some child ∧ child.kind ≠ .statementBlock)) →
        n.isDelegated = false) ∧
      ∀ p, n.parent? = some p → p.kind ∉ Kind.barriers → n.isDelegated = p.isDelegated := by
  refine ⟨?_, ?_, ?_, ?_⟩
  · constructor
    · exact exists_handsOn_of_isDelegated
    · rintro ⟨child, a, hopen, hhands⟩
      exact (isDelegated_eq_of_openUpTo hopen hhands.mem_barriers).mpr hhands
  · intro child a hopen hkind
    exact isDelegated_eq_of_openUpTo hopen hkind
  · intro child a hopen hcase
    rw [Bool.eq_false_iff, ne_eq]
    rcases hcase with henclosing | ⟨harrow, hbody⟩
    · have henclosed := Barrier.ofKind?_enclosed henclosing
      rw [isDelegated_eq_of_openUpTo hopen (Barrier.mem_barriers henclosed)]
      exact not_handsOn_of_enclosed henclosed
    · rw [isDelegated_eq_of_openUpTo hopen (by rw [harrow]; decide)]
      rintro (hreturn | ⟨_, hhands⟩)
      · rw [harrow] at hreturn
        revert hreturn
        decide
      · exact hbody hhands
  · intro p hparent hkind
    exact isDelegated_eq_parent hparent hkind

/-- `ok(1)` at the given offset. -/
def okCallAt (start : Nat) : Tree :=
  .node ⟨.callExpression, true, start, start + 5, none⟩
    [.node ⟨.identifier, true, start, start + 2, some "function"⟩ [],
      .node ⟨⟨"arguments"⟩, true, start + 2, start + 5, some "arguments"⟩ []]

/-- The call in `return () => { ok(1); };` -/
def blockedOk : Cursor :=
  ⟨okCallAt 15,
    [⟨⟨⟨"expression_statement"⟩, true, 15, 21, none⟩, [], []⟩,
      ⟨⟨.statementBlock, true, 13, 23, some "body"⟩, [], []⟩,
      ⟨⟨.arrowFunction, true, 7, 23, none⟩,
        [.node ⟨⟨"formal_parameters"⟩, true, 7, 9, some "parameters"⟩ []], []⟩,
      ⟨⟨.returnStatement, true, 0, 24, none⟩, [], []⟩]⟩

/-- The call in `return c ? ok(1) : 0;` -/
def chosenOk : Cursor :=
  ⟨okCallAt 11,
    [⟨⟨⟨"ternary_expression"⟩, true, 7, 20, none⟩,
        [.node ⟨.identifier, true, 7, 8, some "condition"⟩ []],
        [.node ⟨⟨"number"⟩, true, 19, 20, some "alternative"⟩ []]⟩,
      ⟨⟨.returnStatement, true, 0, 21, none⟩, [], []⟩]⟩

/-- Both calls have a return above them.  In the first there is a block before it. -/
theorem isDelegated_blockedOk : blockedOk.isDelegated = false ∧ chosenOk.isDelegated = true := by
  have hopen {n p a : Cursor} (hparent : n.parent? = some p) (ha : p.parent? = some a)
      (hkind : p.kind ∉ Kind.barriers) : n.OpenUpTo p a :=
    (openUpTo_iff hparent).mpr (.inr ⟨hkind, (openUpTo_iff ha).mpr (.inl ⟨rfl, rfl⟩)⟩)
  obtain ⟨_, _, henclosed, _⟩ := isDelegated_iff_nearest_handsOn blockedOk
  obtain ⟨hreturned, _, _, _⟩ := isDelegated_iff_nearest_handsOn chosenOk
  refine ⟨?_, ?_⟩
  · exact henclosed _ _ (hopen rfl rfl (by decide)) (.inl (.inl rfl))
  · exact hreturned.mpr ⟨_, _, hopen rfl rfl (by decide), .inl rfl⟩

end Cursor

end DroppedResult
