import DroppedResult.Proofs.Reports
import DroppedResult.Proofs.SameTrees

/-!
# Places that are judged alike

The verdict on a call is read off the frames above it.  This module compares the
verdicts of two units.

* The chain walk, one frame at a time.  `Cursor.handledFrom` looks two frames ahead;
  `Cursor.handledFrom_cons` and `Cursor.calledFrom` split its step in two.
* `JudgedAlike` says that the two walks end alike from two places.
  `JudgedAlike.below` carries it down one frame.
* `NodesAlike` says that a check does the same with two nodes.  The nodes of same
  trees at places that are judged alike are alike in turn
  (`forall₂_nodesAlike_nodesUnder`).
* `Interspersed` puts nodes between those of a list that a check passes over.
  `Interspersed.reports_eq` is what the two checks report then.
-/

namespace DroppedResult

/-! ## The chain walk, one frame at a time -/

/-- A call of a method of the role handles its receiver.  `onward` says whether the
value of the call is handled in turn. -/
def Role.handles (onward : Bool) : Role → Bool
  | handlingMethod => true
  | transformingMethod => onward
  | _ => false

theorem methodRole_of_mem_handlingMethods {name : String} (h : name ∈ handlingMethods) :
    methodRole (some name) = .handlingMethod := by
  revert name
  decide

theorem methodRole_of_mem_transformingMethods {name : String}
    (h : name ∈ transformingMethods) : methodRole (some name) = .transformingMethod := by
  revert name
  decide

theorem methodRole_isProducing (property : Option String) :
    (methodRole property).isProducing = false := by
  unfold methodRole
  split
  · rfl
  · split
    · rfl
    · split <;> rfl

/-- The call of a method has the role of the method, whatever is imported or suspected. -/
theorem Heuristic.role_of_member_callee {t m : Tree} (hkind : t.kind = .callExpression)
    (hcallee : t.childByField "function" = some m) (hmember : m.kind = .memberExpression)
    (h : Heuristic) (table : ImportTable) (source : String) :
    h.role table source t = memberRole source m := by
  rw [role, hkind, callRole, hcallee]
  simp only [hmember]
  rfl

namespace Cursor

/-- The chain that starts at the method labelled `child` runs into a called handling
method.  `role` is the role of the method itself. -/
def calledFrom (source : String) (role : Role) (child : Label) : List Frame → Bool
  | [] => false
  | f :: up => f.isCallOf child && role.handles (handledFrom source f.label up)

theorem handledFrom_cons (source : String) (child : Label) (f : Frame) (up : List Frame) :
    handledFrom source child (f :: up) =
      if f.label.kind.isTransparent then handledFrom source f.label up
      else f.isAccessOn child && calledFrom source (f.memberRole child source) f.label up := by
  cases up with
  | nil => simp [handledFrom, calledFrom]
  | cons g up =>
    rw [calledFrom, handledFrom]
    by_cases hkind : f.label.kind.isTransparent
    · rw [if_pos hkind, if_pos hkind]
    · rw [if_neg hkind, if_neg hkind]
      cases f.isAccessOn child with
      | false => rfl
      | true =>
        cases g.isCallOf f.label with
        | false => rfl
        | true => cases f.memberRole child source <;> rfl

theorem delegatedFrom_cons_of_none {f : Frame} (h : Barrier.ofKind? f.label.kind = none)
    (child : Label) (up : List Frame) :
    delegatedFrom child (f :: up) = delegatedFrom f.label up := by
  rw [delegatedFrom, h]

end Cursor

/-- The role of a frame's member access is that of the node it stands for. -/
theorem Frame.memberRole_eq (f : Frame) (t : Tree) (source : String) :
    f.memberRole t.label source = DroppedResult.memberRole source (f.plug t) := by
  have hlabels : f.childLabels t.label = (f.plug t).children.map Tree.label := by
    simp [childLabels, plug]
  rw [memberRole, childByField, hlabels, List.find?_map, Option.map_map,
    DroppedResult.memberRole, Tree.fieldText, Tree.childByField]
  simp only [Function.comp_def, Tree.text]

/-! ## Two places -/

/-- The walks up from the two places end alike, for the value of the node there and,
if the node is a method, for the call of it. -/
structure JudgedAlike (s₁ s₂ : String) (l₁ : Label) (path₁ : List Frame) (l₂ : Label)
    (path₂ : List Frame) : Prop where
  delegated : Cursor.delegatedFrom l₁ path₁ = Cursor.delegatedFrom l₂ path₂
  handled : Cursor.handledFrom s₁ l₁ path₁ = Cursor.handledFrom s₂ l₂ path₂
  called : l₁.kind = .memberExpression →
    ∀ role, Cursor.calledFrom s₁ role l₁ path₁ = Cursor.calledFrom s₂ role l₂ path₂

namespace JudgedAlike

variable {s₁ s₂ : String}

theorem root (l₁ l₂ : Label) : JudgedAlike s₁ s₂ l₁ [] l₂ [] :=
  ⟨rfl, rfl, fun _ _ => rfl⟩

private theorem forall₂_of_append {α β : Type} {R : α → β → Prop} {as as' : List α}
    {bs bs' : List β} (h : List.Forall₂ R (as ++ as') (bs ++ bs')) (hlen : as.length = bs.length) :
    List.Forall₂ R as bs ∧ List.Forall₂ R as' bs' := by
  have htake := List.forall₂_take_append _ _ _ h
  have hdrop := List.forall₂_drop_append _ _ _ h
  rw [← hlen, List.take_left] at htake
  rw [← hlen, List.drop_left] at hdrop
  exact ⟨htake, hdrop⟩

/-- The children of one number below parents that read alike are held alike. -/
theorem holdsAs_eq {f₁ f₂ : Frame} {t₁ t₂ : Tree}
    (hparents : (f₁.plug t₁).ReadAlike s₁ s₂ (f₂.plug t₂))
    (hnumber : f₁.before.length = f₂.before.length) :
    t₁.SeenAlike s₁ s₂ t₂ ∧ ∀ name, f₁.holdsAs t₁.label name = f₂.holdsAs t₂.label name := by
  obtain ⟨hbefore, hrest⟩ := forall₂_of_append hparents.children (by simpa using hnumber)
  obtain ⟨hchild, _⟩ := List.forall₂_cons.mp hrest
  refine ⟨hchild, ?_⟩
  intro name
  have hfields : f₁.before.map (·.label.field) = f₂.before.map (·.label.field) := by
    have := map_eq_of_forall₂ (f := (·.label.field)) (g := (·.label.field)) hbefore
      fun _ _ hu => hu.field
    simpa using this
  have hany : f₁.before.any (·.label.field == some name) =
      f₂.before.any (·.label.field == some name) := by
    have := congrArg (List.any · (· == some name)) hfields
    simpa only [List.any_map, Function.comp_def] using this
  rw [Frame.holdsAs, Frame.holdsAs, hchild.field, hany]

/-- Children of one number below parents that read alike are judged alike, if the
parents are. -/
theorem below {f₁ f₂ : Frame} {up₁ up₂ : List Frame} {t₁ t₂ : Tree}
    (hparents : (f₁.plug t₁).ReadAlike s₁ s₂ (f₂.plug t₂))
    (hnumber : f₁.before.length = f₂.before.length)
    (hup : JudgedAlike s₁ s₂ f₁.label up₁ f₂.label up₂) :
    JudgedAlike s₁ s₂ t₁.label (f₁ :: up₁) t₂.label (f₂ :: up₂) := by
  obtain ⟨hchild, hholds⟩ := holdsAs_eq hparents hnumber
  have hkind : f₁.label.kind = f₂.label.kind := hparents.kind
  refine ⟨?_, ?_, ?_⟩
  · have hbody : f₁.holdsAsExpressionBody t₁.label = f₂.holdsAsExpressionBody t₂.label := by
      have hblock : (t₁.label.kind != .statementBlock) = (t₂.label.kind != .statementBlock) := by
        rw [Bool.eq_iff_iff, bne_iff_ne, bne_iff_ne]
        exact not_congr hchild.block
      rw [Frame.holdsAsExpressionBody, Frame.holdsAsExpressionBody, hholds, hblock]
    rw [Cursor.delegatedFrom, Cursor.delegatedFrom, hkind, hbody, hup.delegated]
  · rw [Cursor.handledFrom_cons, Cursor.handledFrom_cons, hkind, hup.handled]
    split
    · rfl
    · by_cases hmember : f₁.label.kind = .memberExpression
      · have hrole : f₁.memberRole t₁.label s₁ = f₂.memberRole t₂.label s₂ := by
          rw [Frame.memberRole_eq, Frame.memberRole_eq]
          exact hparents.method hmember
        rw [Frame.isAccessOn, Frame.isAccessOn, hkind, hholds, hrole, hup.called hmember]
      · have hnone : (f₂.label.kind == .memberExpression) = false :=
          beq_eq_false_iff_ne.mpr (hkind ▸ hmember)
        rw [Frame.isAccessOn, Frame.isAccessOn, hkind, hnone]
        simp only [Bool.false_and]
  · intro _ role
    have hcall : f₁.isCallOf t₁.label = f₂.isCallOf t₂.label := by
      rw [Frame.isCallOf, Frame.isCallOf, hkind, hholds]
    rw [Cursor.calledFrom, Cursor.calledFrom, hcall, hup.handled]

end JudgedAlike

/-! ## Two nodes -/

/-- A check does the same with the two nodes, and `move` takes the place of the first
to that of the second. -/
structure NodesAlike (s₁ s₂ : String) (move : Address → Address) (c₁ c₂ : Cursor) : Prop where
  drops : ∀ h table, ResultRule.drops h s₁ table c₁ = ResultRule.drops h s₂ table c₂
  record : ∀ table : ImportTable, table.record s₁ c₁.focus = table.record s₂ c₂.focus
  address : c₂.address = move c₁.address

/-- The place below `c₂` that a place below `c₁` is carried to. -/
def Cursor.carried (c₁ c₂ : Cursor) (a : Address) : Address :=
  c₂.address ++ a.drop c₁.address.length

theorem Cursor.carried_append (c₁ c₂ : Cursor) (b : Address) :
    carried c₁ c₂ (c₁.address ++ b) = c₂.address ++ b := by
  rw [carried, List.drop_left]

section NodesAlike

variable {s₁ s₂ : String} {move : Address → Address}

theorem drops_eq_of_judgedAlike {c₁ c₂ : Cursor} (hread : c₁.focus.ReadAlike s₁ s₂ c₂.focus)
    (hplace : JudgedAlike s₁ s₂ c₁.label c₁.path c₂.label c₂.path) (h : Heuristic)
    (table : ImportTable) :
    ResultRule.drops h s₁ table c₁ = ResultRule.drops h s₂ table c₂ := by
  have hkind : c₁.kind = c₂.kind := hread.kind
  have hdelegated : c₁.isDelegated = c₂.isDelegated := hplace.delegated
  have hhandled : c₁.isHandled s₁ = c₂.isHandled s₂ := hplace.handled
  rw [ResultRule.drops, ResultRule.drops, hkind, hdelegated, hhandled, hread.role_eq]

mutual

/-- Trees that read alike and have the same children, at places that are judged alike,
have nodes that are alike, in the same order. -/
theorem forall₂_nodesAlike_nodesUnder : ∀ {t₁ t₂ : Tree} {path₁ path₂ : List Frame},
    t₁.ReadAlike s₁ s₂ t₂ → (∀ table : ImportTable, table.record s₁ t₁ = table.record s₂ t₂) →
    List.Forall₂ (Tree.Same s₁ s₂) t₁.children t₂.children →
    JudgedAlike s₁ s₂ t₁.label path₁ t₂.label path₂ →
    (∀ b, move (Cursor.addressOf path₁ ++ b) = Cursor.addressOf path₂ ++ b) →
    List.Forall₂ (NodesAlike s₁ s₂ move) (t₁.nodesUnder path₁) (t₂.nodesUnder path₂)
  | .node l₁ ts₁, .node l₂ ts₂, path₁, path₂, hread, hrecord, hchildren, hplace, hmove => by
    rw [Tree.nodesUnder_node, Tree.nodesUnder_node]
    refine .cons ⟨?_, hrecord, ?_⟩ ?_
    · exact drops_eq_of_judgedAlike hread hplace
    · simpa using (hmove []).symm
    · exact forall₂_nodesAlike_rowUnder rfl (by simpa using hread) hplace
        (fun j b _ _ => hmove (j :: b)) hchildren

/-- The children `ts₁` and `ts₂` of two nodes that read alike are given; `before` and
`after` are the other children. -/
theorem forall₂_nodesAlike_rowUnder : ∀ {ts₁ ts₂ : List Tree} {path₁ path₂ : List Frame}
    {l₁ l₂ : Label} {before₁ after₁ before₂ after₂ : List Tree},
    before₁.length = before₂.length →
    (Tree.node l₁ (before₁.reverse ++ ts₁ ++ after₁)).ReadAlike s₁ s₂
      (.node l₂ (before₂.reverse ++ ts₂ ++ after₂)) →
    JudgedAlike s₁ s₂ l₁ path₁ l₂ path₂ →
    (∀ j b, before₁.length ≤ j → j < before₁.length + ts₁.length →
      move (Cursor.addressOf path₁ ++ j :: b) = Cursor.addressOf path₂ ++ j :: b) →
    List.Forall₂ (Tree.Same s₁ s₂) ts₁ ts₂ →
    List.Forall₂ (NodesAlike s₁ s₂ move) (Tree.rowUnder path₁ l₁ before₁ after₁ ts₁)
      (Tree.rowUnder path₂ l₂ before₂ after₂ ts₂)
  | [], [], _, _, _, _, _, _, _, _, _, _, _, _, _ => by simp
  | [], _ :: _, _, _, _, _, _, _, _, _, _, _, _, _, hrow => by cases hrow
  | _ :: _, [], _, _, _, _, _, _, _, _, _, _, _, _, hrow => by cases hrow
  | t₁ :: ts₁, t₂ :: ts₂, path₁, path₂, l₁, l₂, before₁, after₁, before₂, after₂, hnumber,
      hparents, hup, hmove, hrow => by
    obtain ⟨hsame, hrest⟩ := List.forall₂_cons.mp hrow
    rw [Tree.rowUnder_cons, Tree.rowUnder_cons]
    refine List.rel_append ?_ ?_
    · have hplace : JudgedAlike s₁ s₂ t₁.label (⟨l₁, before₁, ts₁ ++ after₁⟩ :: path₁) t₂.label
          (⟨l₂, before₂, ts₂ ++ after₂⟩ :: path₂) := by
        refine JudgedAlike.below ?_ hnumber hup
        simpa [Frame.plug] using hparents
      refine forall₂_nodesAlike_nodesUnder hsame.readAlike hsame.record_eq hsame.children hplace ?_
      intro b
      simpa [hnumber] using hmove before₁.length b (Nat.le_refl _) (by simp)
    · refine forall₂_nodesAlike_rowUnder (by simpa using hnumber) ?_ hup ?_ hrest
      · simpa using hparents
      · intro j b hle hlt
        simp only [List.length_cons] at hle hlt
        exact hmove j b (by omega) (by simp only [List.length_cons]; omega)

end

end NodesAlike

/-! ## Two runs -/

/-- The second list has the nodes of the first, each alike, and between them quiet
nodes. -/
inductive Interspersed (R : Cursor → Cursor → Prop) (Quiet : Cursor → Prop) :
    List Cursor → List Cursor → Prop where
  | nil : Interspersed R Quiet [] []
  | both {c₁ c₂ : Cursor} {cs₁ cs₂ : List Cursor} (hc : R c₁ c₂)
      (rest : Interspersed R Quiet cs₁ cs₂) : Interspersed R Quiet (c₁ :: cs₁) (c₂ :: cs₂)
  | extra {c₂ : Cursor} {cs₁ cs₂ : List Cursor} (hc : Quiet c₂)
      (rest : Interspersed R Quiet cs₁ cs₂) : Interspersed R Quiet cs₁ (c₂ :: cs₂)

namespace Interspersed

variable {R : Cursor → Cursor → Prop} {Quiet : Cursor → Prop}

theorem of_forall₂ {cs₁ cs₂ : List Cursor} (h : List.Forall₂ R cs₁ cs₂) :
    Interspersed R Quiet cs₁ cs₂ := by
  induction h with
  | nil => exact .nil
  | cons hc _ ih => exact .both hc ih

theorem of_quiet {cs : List Cursor} (h : ∀ c ∈ cs, Quiet c) : Interspersed R Quiet [] cs := by
  induction cs with
  | nil => exact .nil
  | cons c cs ih =>
    exact .extra (h c List.mem_cons_self) (ih fun d hd => h d (List.mem_cons_of_mem c hd))

theorem append {cs₁ cs₂ ds₁ ds₂ : List Cursor} (hc : Interspersed R Quiet cs₁ cs₂)
    (hd : Interspersed R Quiet ds₁ ds₂) : Interspersed R Quiet (cs₁ ++ ds₁) (cs₂ ++ ds₂) := by
  induction hc with
  | nil => exact hd
  | both hc _ ih => exact .both hc ih
  | extra hc _ ih => exact .extra hc ih

end Interspersed

/-- A check passes over the node: it reports nothing there and takes up no import. -/
structure PassedOver (source : String) (c : Cursor) : Prop where
  drops : ∀ h table, ResultRule.drops h source table c = false
  record : ∀ table : ImportTable, table.record source c.focus = table

/-- Nodes that are passed over change neither what a check reports nor the table that
it leaves. -/
theorem Interspersed.reports_eq {s₁ s₂ : String} {move : Address → Address}
    {cs₁ cs₂ : List Cursor}
    (hcs : Interspersed (NodesAlike s₁ s₂ move) (PassedOver s₂) cs₁ cs₂) (h : Heuristic)
    (table : ImportTable) :
    (ResultRule.reports h s₂ table cs₂).map Cursor.address =
        (ResultRule.reports h s₁ table cs₁).map (fun c => move c.address) ∧
      table.recordAll s₂ cs₂ = table.recordAll s₁ cs₁ := by
  induction hcs generalizing table with
  | nil => simp [ResultRule.reports]
  | @both c₁ c₂ cs₁ cs₂ hc _ ih =>
    obtain ⟨hreports, htable⟩ := ih (table.record s₁ c₁.focus)
    rw [ResultRule.reports, ResultRule.reports, ImportTable.recordAll_cons,
      ImportTable.recordAll_cons, ← hc.record table, ← hc.drops h table]
    refine ⟨?_, htable⟩
    split
    · rw [List.map_cons, List.map_cons, hreports, hc.address]
    · exact hreports
  | @extra c₂ cs₁ cs₂ hc _ ih =>
    rw [ResultRule.reports, ImportTable.recordAll_cons, hc.record table, hc.drops h table]
    exact ih table

end DroppedResult
