import DroppedResult.Rule.Role
import Mathlib.Data.List.Forall2

/-!
# Trees that read the same

Two units have each their own source, so equal pieces of code stand at different
byte ranges.  `Tree.Same` compares two trees by shape, kinds, named flags, fields and
texts, and leaves the ranges out.

The rule reads less than that.  `Tree.SeenAlike` is what a parent reads of a child,
and `Tree.ReadAlike` is what the rule reads of a node with its children when it
judges a call.  Both follow from `Tree.Same`, and both also hold between a node and
the same node with something new below it.

* `Tree.Same.record_eq`: equal import statements bind the same names.
* `Tree.ReadAlike.role_eq`: nodes that read alike have the same role.
-/

namespace DroppedResult

/-- The labels differ in their byte ranges at most. -/
structure Label.Same (s₁ s₂ : String) (l₁ l₂ : Label) : Prop where
  kind : l₁.kind = l₂.kind
  named : l₁.named = l₂.named
  field : l₁.field = l₂.field
  text : l₁.text s₁ = l₂.text s₂

/-- The trees have one shape, and their nodes differ in their byte ranges at most. -/
inductive Tree.Same (s₁ s₂ : String) : Tree → Tree → Prop where
  | node {l₁ l₂ : Label} {ts₁ ts₂ : List Tree} (hlabel : l₁.Same s₁ s₂ l₂)
      (hchildren : List.Forall₂ (Tree.Same s₁ s₂) ts₁ ts₂) :
      Tree.Same s₁ s₂ (.node l₁ ts₁) (.node l₂ ts₂)

/-! ## Lookups in related lists -/

section Lookups

variable {α β γ : Type} {R : α → β → Prop} {as : List α} {bs : List β}

theorem find?_rel {p : α → Bool} {q : β → Bool} (h : List.Forall₂ R as bs)
    (hpq : ∀ a b, R a b → p a = q b) : Option.Rel R (as.find? p) (bs.find? q) := by
  induction h with
  | nil => exact .none
  | @cons a b as bs hab _ ih =>
    rw [List.find?_cons, List.find?_cons, hpq a b hab]
    cases q b with
    | true => exact .some hab
    | false => exact ih

theorem rel_cases {a : Option α} {b : Option β} (h : Option.Rel R a b) :
    a = none ∧ b = none ∨ ∃ x y, a = some x ∧ b = some y ∧ R x y := by
  cases h with
  | none => exact .inl ⟨rfl, rfl⟩
  | some hab => exact .inr ⟨_, _, rfl, rfl, hab⟩

theorem map_eq_of_rel {f : α → γ} {g : β → γ} {a : Option α} {b : Option β}
    (h : Option.Rel R a b) (hfg : ∀ a b, R a b → f a = g b) : a.map f = b.map g := by
  cases h with
  | none => rfl
  | some hab => exact congrArg some (hfg _ _ hab)

theorem map_eq_of_forall₂ {f : α → γ} {g : β → γ} (h : List.Forall₂ R as bs)
    (hfg : ∀ a b, R a b → f a = g b) : as.map f = bs.map g := by
  rw [← List.forall₂_eq_eq_eq, List.forall₂_map_left_iff, List.forall₂_map_right_iff]
  exact h.imp hfg

theorem flatMap_eq_of_forall₂ {f : α → List γ} {g : β → List γ} (h : List.Forall₂ R as bs)
    (hfg : ∀ a b, R a b → f a = g b) : as.flatMap f = bs.flatMap g := by
  rw [List.flatMap_def, List.flatMap_def, map_eq_of_forall₂ h hfg]

theorem filter_forall₂ {p : α → Bool} {q : β → Bool} (h : List.Forall₂ R as bs)
    (hpq : ∀ a b, R a b → p a = q b) : List.Forall₂ R (as.filter p) (bs.filter q) :=
  List.rel_filter (fun a b hab => by simp only [hpq a b hab]) h

theorem childByField_rel {R : Tree → Tree → Prop} {t₁ t₂ : Tree}
    (h : List.Forall₂ R t₁.children t₂.children)
    (hfield : ∀ u₁ u₂, R u₁ u₂ → u₁.label.field = u₂.label.field) (name : String) :
    Option.Rel R (t₁.childByField name) (t₂.childByField name) :=
  find?_rel h fun u₁ u₂ hu => by rw [hfield u₁ u₂ hu]

end Lookups

/-! ## Same trees -/

namespace Tree

variable {s₁ s₂ : String} {t₁ t₂ : Tree}

namespace Same

theorem label (h : Same s₁ s₂ t₁ t₂) : t₁.label.Same s₁ s₂ t₂.label := by
  cases h with
  | node hlabel _ => exact hlabel

theorem children (h : Same s₁ s₂ t₁ t₂) : List.Forall₂ (Same s₁ s₂) t₁.children t₂.children := by
  cases h with
  | node _ hchildren => exact hchildren

theorem kind_eq (h : Same s₁ s₂ t₁ t₂) : t₁.kind = t₂.kind :=
  h.label.kind

theorem text_eq (h : Same s₁ s₂ t₁ t₂) : t₁.text s₁ = t₂.text s₂ :=
  h.label.text

theorem literalValue_eq (h : Same s₁ s₂ t₁ t₂) : t₁.literalValue s₁ = t₂.literalValue s₂ :=
  congrArg trimQuotes h.label.text

theorem childByField (h : Same s₁ s₂ t₁ t₂) (name : String) :
    Option.Rel (Same s₁ s₂) (t₁.childByField name) (t₂.childByField name) :=
  childByField_rel h.children (fun _ _ hu => hu.label.field) name

theorem namedChildren (h : Same s₁ s₂ t₁ t₂) :
    List.Forall₂ (Same s₁ s₂) t₁.namedChildren t₂.namedChildren :=
  filter_forall₂ h.children fun _ _ hu => hu.label.named

theorem fieldText_eq (h : Same s₁ s₂ t₁ t₂) (name : String) :
    t₁.fieldText name s₁ = t₂.fieldText name s₂ :=
  map_eq_of_rel (h.childByField name) fun _ _ hu => hu.text_eq

/-! ### Imports -/

theorem specifierBinding?_eq (h : Same s₁ s₂ t₁ t₂) :
    Imports.specifierBinding? s₁ t₁ = Imports.specifierBinding? s₂ t₂ := by
  rw [Imports.specifierBinding?, Imports.specifierBinding?, h.kind_eq]
  split
  · refine map_eq_of_rel (h.childByField "name") ?_
    intro n₁ n₂ hn
    have hbound : ((t₁.childByField "alias").getD n₁).literalValue s₁ =
        ((t₂.childByField "alias").getD n₂).literalValue s₂ := by
      rcases rel_cases (h.childByField "alias") with ⟨h₁, h₂⟩ | ⟨a₁, a₂, h₁, h₂, ha⟩
      · rw [h₁, h₂]
        exact hn.literalValue_eq
      · rw [h₁, h₂]
        exact ha.literalValue_eq
    simp only [hbound, hn.literalValue_eq]
  · rfl

theorem partBindings_eq (h : Same s₁ s₂ t₁ t₂) :
    Imports.partBindings s₁ t₁ = Imports.partBindings s₂ t₂ := by
  have hnamespace := find?_rel (p := (·.kind == .identifier)) (q := (·.kind == .identifier))
    h.namedChildren fun u₁ u₂ hu => by rw [hu.kind_eq]
  have hspecifiers : t₁.namedChildren.filterMap (Imports.specifierBinding? s₁) =
      t₂.namedChildren.filterMap (Imports.specifierBinding? s₂) := by
    rw [List.filterMap_eq_flatMap_toList, List.filterMap_eq_flatMap_toList]
    exact flatMap_eq_of_forall₂ h.namedChildren fun u₁ u₂ hu => by rw [hu.specifierBinding?_eq]
  rw [Imports.partBindings, Imports.partBindings, h.kind_eq, h.text_eq, hspecifiers,
    map_eq_of_rel hnamespace fun u₁ u₂ hu => by rw [hu.text_eq]]

theorem bindings_eq (h : Same s₁ s₂ t₁ t₂) : Imports.bindings s₁ t₁ = Imports.bindings s₂ t₂ := by
  have hclauses := filter_forall₂ (p := (·.kind == .importClause)) (q := (·.kind == .importClause))
    h.namedChildren fun u₁ u₂ hu => by rw [hu.kind_eq]
  exact flatMap_eq_of_forall₂ hclauses fun _ _ hu =>
    flatMap_eq_of_forall₂ hu.namedChildren fun _ _ hpart => hpart.partBindings_eq

theorem moduleName?_eq (h : Same s₁ s₂ t₁ t₂) :
    Imports.moduleName? s₁ t₁ = Imports.moduleName? s₂ t₂ :=
  map_eq_of_rel (h.childByField "source") fun _ _ hu => hu.literalValue_eq

/-- Same trees leave the same table behind. -/
theorem record_eq (h : Same s₁ s₂ t₁ t₂) (table : ImportTable) :
    table.record s₁ t₁ = table.record s₂ t₂ := by
  rw [ImportTable.record, ImportTable.record, h.kind_eq, h.moduleName?_eq, h.bindings_eq]

end Same

/-! ## What the rule reads of a node -/

/-- A parent reads the same of the two children: field, whether they are a block, and
how they count as a callee. -/
structure SeenAlike (s₁ s₂ : String) (t₁ t₂ : Tree) : Prop where
  field : t₁.label.field = t₂.label.field
  block : t₁.kind = .statementBlock ↔ t₂.kind = .statementBlock
  identifier : t₁.kind = .identifier ↔ t₂.kind = .identifier
  name : t₁.kind = .identifier → t₁.text s₁ = t₂.text s₂
  member : t₁.kind = .memberExpression ↔ t₂.kind = .memberExpression
  method : t₁.kind = .memberExpression → memberRole s₁ t₁ = memberRole s₂ t₂

/-- The rule reads the same of the two nodes and their children. -/
structure ReadAlike (s₁ s₂ : String) (t₁ t₂ : Tree) : Prop where
  kind : t₁.kind = t₂.kind
  children : List.Forall₂ (SeenAlike s₁ s₂) t₁.children t₂.children
  method : t₁.kind = .memberExpression → memberRole s₁ t₁ = memberRole s₂ t₂

theorem Same.memberRole_eq (h : Same s₁ s₂ t₁ t₂) : memberRole s₁ t₁ = memberRole s₂ t₂ :=
  congrArg methodRole (h.fieldText_eq "property")

theorem Same.seenAlike (h : Same s₁ s₂ t₁ t₂) : SeenAlike s₁ s₂ t₁ t₂ where
  field := h.label.field
  block := by rw [h.kind_eq]
  identifier := by rw [h.kind_eq]
  name _ := h.text_eq
  member := by rw [h.kind_eq]
  method _ := h.memberRole_eq

theorem Same.readAlike (h : Same s₁ s₂ t₁ t₂) : ReadAlike s₁ s₂ t₁ t₂ where
  kind := h.kind_eq
  children := h.children.imp fun _ _ hu => hu.seenAlike
  method _ := h.memberRole_eq

namespace ReadAlike

theorem constructorRole_eq (h : ReadAlike s₁ s₂ t₁ t₂) :
    constructorRole s₁ t₁ = constructorRole s₂ t₂ := by
  have hcallee := childByField_rel h.children (fun _ _ hu => hu.field) "constructor"
  rw [constructorRole, constructorRole]
  rcases rel_cases hcallee with ⟨h₁, h₂⟩ | ⟨u₁, u₂, h₁, h₂, hu⟩
  · rw [h₁, h₂]
  · rw [h₁, h₂]
    by_cases hid : u₁.kind = .identifier
    · simp [hid, hu.identifier.mp hid, hu.name hid]
    · simp [hid, mt hu.identifier.mpr hid]

theorem callRole_eq (h : ReadAlike s₁ s₂ t₁ t₂) (heuristic : Heuristic) (table : ImportTable) :
    heuristic.callRole table s₁ t₁ = heuristic.callRole table s₂ t₂ := by
  have hcallee := childByField_rel h.children (fun _ _ hu => hu.field) "function"
  rw [Heuristic.callRole, Heuristic.callRole]
  rcases rel_cases hcallee with ⟨h₁, h₂⟩ | ⟨u₁, u₂, h₁, h₂, hu⟩
  · rw [h₁, h₂]
  · rw [h₁, h₂]
    by_cases hid : u₁.kind = .identifier
    · simp [hid, hu.identifier.mp hid, hu.name hid]
    · by_cases hmember : u₁.kind = .memberExpression
      · have hne : Kind.memberExpression ≠ .identifier := by decide
        simp [hmember, hu.member.mp hmember, hu.method hmember, hne]
      · simp [hid, mt hu.identifier.mpr hid, hmember, mt hu.member.mpr hmember]

/-- Nodes that read alike have the same role under every table. -/
theorem role_eq (h : ReadAlike s₁ s₂ t₁ t₂) (heuristic : Heuristic) (table : ImportTable) :
    heuristic.role table s₁ t₁ = heuristic.role table s₂ t₂ := by
  rw [Heuristic.role, Heuristic.role, h.kind, h.constructorRole_eq, h.callRole_eq]
  split
  · rfl
  · split
    · rfl
    · split
      · rename_i hmember
        exact h.method (h.kind.trans (by simpa using hmember))
      · rfl

end ReadAlike

end Tree

end DroppedResult
