import DroppedResult.Proofs.Verdicts

/-!
# Wrapping a call

A call can be put into a transparent wrapper, or a transforming method can be called
on it.  Neither changes what a check reports: the walks pass through the new nodes,
and no parent takes the new node for something else than the call it holds.

* `Wrapping` lists the two ways to wrap, as the frames that come between a call and
  its place.
* Around the call.  `Unread` says that no node above reads the text of the call, and
  `Frame.SameAround` relates the frames around it in the two units.
  `Frame.SameAround.readAlike_plug` compares a parent before and after, and
  `judgedAlike_around` and `interspersed_around` go all the way up.
* The new nodes.  `Wrapping.judgedAlike` lets the walks pass through them, and
  `Wrapping.interspersed` has a check pass over them.
* The two units.  `Rewrapped` is the change as a whole and
  `Rewrapped.interspersed_nodes` puts the nodes of the units side by side.

`ResultRule.check_wrapping` is the result.
-/

namespace DroppedResult

/-! ## The two ways to wrap -/

/-- The frames that come between the node labelled `call` and the place, with the
given field, that it is taken from. -/
inductive Wrapping (source : String) (field : Option String) (call : Label) :
    List Frame → Prop where
  | wrapper {w : Frame} (hkind : w.label.kind.isTransparent = true)
      (hfield : w.label.field = field) : Wrapping source field call [w]
  | method {m c : Frame} (hobject : m.isAccessOn call = true)
      (hfunction : c.isCallOf m.label = true)
      (hname : ∃ name ∈ transformingMethods,
        (m.childByField call "property").map (·.text source) = some name)
      (hfield : c.label.field = field) : Wrapping source field call [m, c]

theorem Kind.isTransparent_cases {k : Kind} (h : k.isTransparent = true) :
    Barrier.ofKind? k = none ∧ k ≠ .importStatement ∧ k.isCallLike = false ∧
      k ≠ .statementBlock ∧ k ≠ .identifier ∧ k ≠ .memberExpression := by
  have hmem : k ∈ transparentWrappers := by simpa [isTransparent] using h
  clear h
  revert k
  decide

theorem Kind.isCallLike_cases {k : Kind} (h : k.isCallLike = true) :
    k ≠ .importStatement ∧ k ≠ .statementBlock ∧ k ≠ .identifier ∧ k ≠ .memberExpression := by
  have hk : k = .callExpression ∨ k = .newExpression := by simpa [isCallLike] using h
  rcases hk with rfl | rfl <;> decide

theorem Frame.isAccessOn_kind {f : Frame} {child : Label} (h : f.isAccessOn child = true) :
    f.label.kind = .memberExpression := by
  simp only [isAccessOn, Bool.and_eq_true, beq_iff_eq] at h
  exact h.1

theorem Frame.isCallOf_kind {f : Frame} {child : Label} (h : f.isCallOf child = true) :
    f.label.kind = .callExpression := by
  simp only [isCallOf, Bool.and_eq_true, beq_iff_eq] at h
  exact h.1

namespace JudgedAlike

variable {s₁ s₂ : String} {l₁ l₂ : Label} {path₁ path₂ : List Frame}

theorem wrapper {w : Frame} (hkind : w.label.kind.isTransparent = true)
    (hmember : l₁.kind ≠ .memberExpression)
    (hup : JudgedAlike s₁ s₂ l₁ path₁ w.label path₂) :
    JudgedAlike s₁ s₂ l₁ path₁ l₂ (w :: path₂) where
  delegated := by
    rw [hup.delegated, Cursor.delegatedFrom_cons_of_none (Kind.isTransparent_cases hkind).1]
  handled := by
    rw [hup.handled, Cursor.handledFrom_cons, if_pos hkind]
  called h := absurd h hmember

theorem method {m c : Frame} (hobject : m.isAccessOn l₂ = true)
    (hfunction : c.isCallOf m.label = true)
    (hrole : m.memberRole l₂ s₂ = .transformingMethod) (hmember : l₁.kind ≠ .memberExpression)
    (hup : JudgedAlike s₁ s₂ l₁ path₁ c.label path₂) :
    JudgedAlike s₁ s₂ l₁ path₁ l₂ (m :: c :: path₂) where
  delegated := by
    have hm : Barrier.ofKind? m.label.kind = none := by
      rw [Frame.isAccessOn_kind hobject]; decide
    have hc : Barrier.ofKind? c.label.kind = none := by
      rw [Frame.isCallOf_kind hfunction]; decide
    rw [hup.delegated, Cursor.delegatedFrom_cons_of_none hm, Cursor.delegatedFrom_cons_of_none hc]
  handled := by
    have hm : ¬ m.label.kind.isTransparent = true := by
      rw [Frame.isAccessOn_kind hobject]; decide
    rw [hup.handled, Cursor.handledFrom_cons, if_neg hm, hobject, hrole, Cursor.calledFrom,
      hfunction]
    rfl
  called h := absurd h hmember

end JudgedAlike

/-! ## Around the call -/

/-- The frames differ in the text of the parent at most.  That text holds what is
below. -/
structure Frame.SameAround (s₁ s₂ : String) (f₁ f₂ : Frame) : Prop where
  kind : f₁.label.kind = f₂.label.kind
  named : f₁.label.named = f₂.label.named
  field : f₁.label.field = f₂.label.field
  before : List.Forall₂ (Tree.Same s₁ s₂) f₁.before f₂.before
  after : List.Forall₂ (Tree.Same s₁ s₂) f₁.after f₂.after

namespace Cursor

/-- The node labelled `child`, or one above it, is the property of a member access. -/
def inPropertyFrom : Label → List Frame → Bool
  | _, [] => false
  | child, f :: up =>
    (f.label.kind == .memberExpression && f.holdsAs child "property") ||
      inPropertyFrom f.label up

def isInProperty (c : Cursor) : Bool :=
  inPropertyFrom c.label c.path

def isInImport (c : Cursor) : Bool :=
  c.path.any (·.label.kind == .importStatement)

end Cursor

/-- Nobody reads the text of what is below the path: it is in no import, no name and
no property of a member access. -/
structure Unread (child : Label) (path : List Frame) : Prop where
  property : Cursor.inPropertyFrom child path = false
  kinds : ∀ f ∈ path, f.label.kind ≠ .importStatement ∧ f.label.kind ≠ .identifier

theorem Unread.up {child : Label} {f : Frame} {up : List Frame} (h : Unread child (f :: up)) :
    Unread f.label up where
  property := by
    have hproperty := h.property
    rw [Cursor.inPropertyFrom, Bool.or_eq_false_iff] at hproperty
    exact hproperty.2
  kinds g hg := h.kinds g (List.mem_cons_of_mem f hg)

theorem Unread.holdsAs_property {child : Label} {f : Frame} {up : List Frame}
    (h : Unread child (f :: up)) (hmember : f.label.kind = .memberExpression) :
    f.holdsAs child "property" = false := by
  have hproperty := h.property
  rw [Cursor.inPropertyFrom, Bool.or_eq_false_iff, hmember] at hproperty
  exact hproperty.1

section Around

variable {s₁ s₂ : String} {f₁ f₂ : Frame} {t₁ t₂ : Tree}

/-- A child that is not held under the name is not read by a lookup of the name. -/
theorem Frame.SameAround.fieldText_eq (h : f₁.SameAround s₁ s₂ f₂) {name : String}
    (hfield : t₁.label.field = t₂.label.field) (hother : f₁.holdsAs t₁.label name = false) :
    (f₁.plug t₁).fieldText name s₁ = (f₂.plug t₂).fieldText name s₂ := by
  have hsame (u₁ u₂ : Tree) (hu : u₁.Same s₁ s₂ u₂) :
      (u₁.label.field == some name) = (u₂.label.field == some name) := by rw [hu.label.field]
  have hbefore := find?_rel (List.forall₂_reverse_iff.mpr h.before) hsame
  rw [Tree.fieldText, Tree.fieldText, Tree.childByField, Tree.childByField, Frame.plug, Frame.plug,
    Tree.children_node, Tree.children_node, List.find?_append, List.find?_append]
  rcases rel_cases hbefore with ⟨h₁, h₂⟩ | ⟨u₁, u₂, h₁, h₂, hu⟩
  · -- The name is not among the children before, so it is not the field of this one.
    have hnone : f₁.before.any (·.label.field == some name) = false := by
      simpa using h₁
    have hchild : (t₁.label.field == some name) = false := by
      simpa [holdsAs, hnone] using hother
    rw [h₁, h₂, List.find?_cons_of_neg (by simp [hchild]),
      List.find?_cons_of_neg (by simp [← hfield, hchild])]
    exact map_eq_of_rel (find?_rel h.after hsame) fun _ _ hu => hu.text_eq
  · rw [h₁, h₂]
    exact congrArg some hu.text_eq

/-- A parent reads alike before and after a change below that it cannot see. -/
theorem Frame.SameAround.readAlike_plug (h : f₁.SameAround s₁ s₂ f₂)
    (hseen : t₁.SeenAlike s₁ s₂ t₂)
    (hproperty : f₁.label.kind = .memberExpression → f₁.holdsAs t₁.label "property" = false) :
    (f₁.plug t₁).ReadAlike s₁ s₂ (f₂.plug t₂) where
  kind := h.kind
  children := by
    have hbefore := List.forall₂_reverse_iff.mpr h.before
    exact List.rel_append (hbefore.imp fun _ _ hu => hu.seenAlike)
      (.cons hseen (h.after.imp fun _ _ hu => hu.seenAlike))
  method hmember := congrArg methodRole (h.fieldText_eq hseen.field (hproperty hmember))

/-- The change cannot be seen from the parent's parent either, unless the parent is a
name. -/
theorem Frame.SameAround.seenAlike_plug (h : f₁.SameAround s₁ s₂ f₂)
    (hread : (f₁.plug t₁).ReadAlike s₁ s₂ (f₂.plug t₂)) (hname : f₁.label.kind ≠ .identifier) :
    (f₁.plug t₁).SeenAlike s₁ s₂ (f₂.plug t₂) where
  field := h.field
  block := by rw [hread.kind]
  identifier := by rw [hread.kind]
  name hid := absurd hid hname
  member := by rw [hread.kind]
  method := hread.method

theorem judgedAlike_around {path₁ path₂ : List Frame}
    (haround : List.Forall₂ (Frame.SameAround s₁ s₂) path₁ path₂) (hseen : t₁.SeenAlike s₁ s₂ t₂)
    (hunread : Unread t₁.label path₁) :
    JudgedAlike s₁ s₂ t₁.label path₁ t₂.label path₂ := by
  induction haround generalizing t₁ t₂ with
  | nil => exact .root t₁.label t₂.label
  | @cons f₁ f₂ up₁ up₂ hf _ ih =>
    have hread := hf.readAlike_plug hseen hunread.holdsAs_property
    have hparents := hf.seenAlike_plug hread (hunread.kinds f₁ List.mem_cons_self).2
    exact .below hread hf.before.length_eq (ih hparents hunread.up)

theorem addressOf_eq_of_around {path₁ path₂ : List Frame}
    (haround : List.Forall₂ (Frame.SameAround s₁ s₂) path₁ path₂) :
    Cursor.addressOf path₁ = Cursor.addressOf path₂ := by
  induction haround with
  | nil => rfl
  | cons hf _ ih => rw [Cursor.addressOf_cons, Cursor.addressOf_cons, ih, hf.before.length_eq]

/-- The nodes of the two units side by side, given those of the subtrees where they
differ. -/
theorem interspersed_around {path₁ path₂ : List Frame} {move : Address → Address}
    (haround : List.Forall₂ (Frame.SameAround s₁ s₂) path₁ path₂) (hseen : t₁.SeenAlike s₁ s₂ t₂)
    (hunread : Unread t₁.label path₁)
    (hmove : ∀ a, ¬ Cursor.addressOf path₁ <+: a → move a = a)
    (hbelow : Interspersed (NodesAlike s₁ s₂ move) (PassedOver s₂) (t₁.nodesUnder path₁)
      (t₂.nodesUnder path₂)) :
    Interspersed (NodesAlike s₁ s₂ move) (PassedOver s₂) (Cursor.rootOf t₁ path₁).nodes
      (Cursor.rootOf t₂ path₂).nodes := by
  induction haround generalizing t₁ t₂ with
  | nil => rwa [Tree.nodes_eq, Tree.nodes_eq]
  | @cons f₁ f₂ up₁ up₂ hf hrest ih =>
    have hread := hf.readAlike_plug hseen hunread.holdsAs_property
    have hkinds := hunread.kinds f₁ List.mem_cons_self
    have hparents := hf.seenAlike_plug hread hkinds.2
    have hplace := judgedAlike_around hrest hparents hunread.up
    have haddress := addressOf_eq_of_around hrest
    -- A sibling of the subtree, or what is below one, stays where it is.
    have hbeside (j : Nat) (b : Address) (hj : j ≠ f₁.before.length) :
        move (Cursor.addressOf up₁ ++ j :: b) = Cursor.addressOf up₂ ++ j :: b := by
      rw [hmove _ (Address.not_prefix_of_ne _ b hj), haddress]
    have hself : NodesAlike s₁ s₂ move ⟨f₁.plug t₁, up₁⟩ ⟨f₂.plug t₂, up₂⟩ := by
      refine ⟨drops_eq_of_judgedAlike hread hplace, ?_, ?_⟩
      · intro table
        have hkind : (f₂.plug t₂).kind ≠ .importStatement := by
          rw [← hread.kind]
          exact hkinds.1
        rw [ImportTable.record_of_kind_ne (t := f₁.plug t₁) hkinds.1,
          ImportTable.record_of_kind_ne hkind]
      · rw [Cursor.address_mk, Cursor.address_mk, ← haddress, hmove]
        exact Address.not_prefix_above _ f₁.before.length
    have hbefore : List.Forall₂ (NodesAlike s₁ s₂ move)
        (Tree.rowUnder up₁ f₁.label [] (t₁ :: f₁.after) f₁.before.reverse)
        (Tree.rowUnder up₂ f₂.label [] (t₂ :: f₂.after) f₂.before.reverse) := by
      refine forall₂_nodesAlike_rowUnder rfl ?_ hplace ?_ (List.forall₂_reverse_iff.mpr hf.before)
      · simpa [Frame.plug] using hread
      · intro j b _ hlt
        simp only [List.length_nil, List.length_reverse] at hlt
        exact hbeside j b (by omega)
    have hafter : List.Forall₂ (NodesAlike s₁ s₂ move)
        (Tree.rowUnder up₁ f₁.label (t₁ :: f₁.before) [] f₁.after)
        (Tree.rowUnder up₂ f₂.label (t₂ :: f₂.before) [] f₂.after) := by
      refine forall₂_nodesAlike_rowUnder ?_ ?_ hplace ?_ hf.after
      · simp [hf.before.length_eq]
      · simpa [Frame.plug] using hread
      · intro j b hle _
        simp only [List.length_cons] at hle
        exact hbeside j b (by omega)
    refine ih hparents hunread.up ?_ ?_
    · intro a ha
      exact hmove a fun hlong => ha ((List.prefix_append _ _).trans hlong)
    · rw [Cursor.nodesUnder_plug, Cursor.nodesUnder_plug]
      exact ((Interspersed.of_forall₂ (.cons hself hbefore)).append hbelow).append
        (.of_forall₂ hafter)

end Around

/-! ## The new nodes -/

theorem Frame.childByField_plug {f : Frame} {t : Tree} {name : String}
    (h : f.holdsAs t.label name = true) : (f.plug t).childByField name = some t := by
  simp only [holdsAs, Bool.and_eq_true, Bool.not_eq_true', List.any_eq_false] at h
  rw [Tree.childByField, plug, Tree.children_node, List.find?_append,
    List.find?_eq_none.mpr (by simpa using h.2), Option.none_or]
  exact List.find?_cons_of_pos h.1

namespace PassedOver

variable {source : String}

theorem of_kind {c : Cursor} (himport : c.kind ≠ .importStatement)
    (hcall : c.kind.isCallLike = false) : PassedOver source c where
  drops _ _ := ResultRule.drops_of_not_isCallLike hcall
  record _ := ImportTable.record_of_kind_ne himport

/-- The call of a method produces no Result by itself. -/
theorem of_member_callee {call : Cursor} {m : Tree} (hkind : call.kind = .callExpression)
    (hcallee : call.focus.childByField "function" = some m)
    (hmember : m.kind = .memberExpression) : PassedOver source call where
  drops h table := by
    rw [ResultRule.drops, h.role_of_member_callee hkind hcallee hmember, memberRole,
      methodRole_isProducing, Bool.and_false]
  record table := by
    have himport : call.kind ≠ .importStatement := by
      rw [hkind]
      decide
    exact ImportTable.record_of_kind_ne himport

theorem of_isCallOf {m c : Frame} {t : Tree} (hmember : m.label.kind = .memberExpression)
    (hfunction : c.isCallOf m.label = true) (up : List Frame) :
    PassedOver source ⟨c.plug (m.plug t), up⟩ := by
  have hkind : (c.plug (m.plug t)).kind = .callExpression := Frame.isCallOf_kind hfunction
  have hcallee : (c.plug (m.plug t)).childByField "function" = some (m.plug t) := by
    simp only [Frame.isCallOf, Bool.and_eq_true] at hfunction
    exact Frame.childByField_plug hfunction.2
  exact of_member_callee hkind hcallee hmember

end PassedOver

/-- There is no import and no call in the siblings that the frame holds. -/
def Frame.SiblingsQuiet (f : Frame) : Prop :=
  ∀ t ∈ f.before ++ f.after, ∀ u ∈ t.preorder,
    u.kind ≠ .importStatement ∧ u.kind.isCallLike = false

theorem Frame.SiblingsQuiet.passedOver {f : Frame} (h : f.SiblingsQuiet) (source : String)
    {ts : List Tree} (hts : ts ⊆ f.before ++ f.after) {path : List Frame} {l : Label}
    {before after : List Tree} {c : Cursor} (hc : c ∈ Tree.rowUnder path l before after ts) :
    PassedOver source c := by
  obtain ⟨t, ht, hct⟩ := Tree.mem_forestPreorder.mp (Cursor.focus_mem_forestPreorder hc)
  obtain ⟨himport, hcall⟩ := h t (hts ht) c.focus hct
  exact .of_kind himport hcall

/-- A quiet frame around a subtree adds nodes that are passed over. -/
theorem Frame.SiblingsQuiet.interspersed_plug {f : Frame} (h : f.SiblingsQuiet) {source : String}
    {t : Tree} {up : List Frame} {R : Cursor → Cursor → Prop} {cs : List Cursor}
    (hself : PassedOver source ⟨f.plug t, up⟩)
    (hbelow : Interspersed R (PassedOver source) cs (t.nodesUnder (f :: up))) :
    Interspersed R (PassedOver source) cs ((f.plug t).nodesUnder up) := by
  have hbefore : Interspersed R (PassedOver source) []
      (Tree.rowUnder up f.label [] (t :: f.after) f.before.reverse) :=
    .of_quiet fun c hc => h.passedOver source (by simp) hc
  have hafter : Interspersed R (PassedOver source) []
      (Tree.rowUnder up f.label (t :: f.before) [] f.after) :=
    .of_quiet fun c hc => h.passedOver source (by simp) hc
  rw [Cursor.nodesUnder_plug]
  simpa using (Interspersed.append (.extra hself hbefore) hbelow).append hafter

namespace Wrapping

variable {s₁ s₂ : String} {field : Option String} {t : Tree} {inner : List Frame}

/-- A parent cannot tell the wrapped call from the call. -/
theorem seenAlike {u : Tree} (h : Wrapping s₂ u.label.field t.label inner)
    (hcall : u.kind.isCallLike = true) : u.SeenAlike s₁ s₂ (Cursor.rootOf t inner) := by
  obtain ⟨_, hblock, hidentifier, hmember⟩ := Kind.isCallLike_cases hcall
  -- No kind of the wrapped call is one that a parent looks for.
  have hkinds : (Cursor.rootOf t inner).label.field = u.label.field ∧
      (Cursor.rootOf t inner).kind ≠ .statementBlock ∧
      (Cursor.rootOf t inner).kind ≠ .identifier ∧
      (Cursor.rootOf t inner).kind ≠ .memberExpression := by
    cases h with
    | wrapper hkind hfield => exact ⟨hfield, (Kind.isTransparent_cases hkind).2.2.2⟩
    | @method m c _ hfunction _ hfield =>
      have hkind : (c.plug (m.plug t)).kind = .callExpression := Frame.isCallOf_kind hfunction
      refine ⟨hfield, ?_⟩
      show (c.plug (m.plug t)).kind ≠ _ ∧ (c.plug (m.plug t)).kind ≠ _ ∧
        (c.plug (m.plug t)).kind ≠ _
      rw [hkind]
      decide
  obtain ⟨hfield, hblock', hidentifier', hmember'⟩ := hkinds
  exact {
    field := hfield.symm
    block := iff_of_false hblock hblock'
    identifier := iff_of_false hidentifier hidentifier'
    name := fun h => absurd h hidentifier
    member := iff_of_false hmember hmember'
    method := fun h => absurd h hmember }

/-- The walks up from the wrapped call pass through the wrapping. -/
theorem judgedAlike {l : Label} {path outer : List Frame} (h : Wrapping s₂ field t.label inner)
    (hmember : l.kind ≠ .memberExpression)
    (hup : JudgedAlike s₁ s₂ l path (Cursor.rootOf t inner).label outer) :
    JudgedAlike s₁ s₂ l path t.label (inner ++ outer) := by
  cases h with
  | wrapper hkind _ => exact .wrapper hkind hmember hup
  | @method m c hobject hfunction hname _ =>
    obtain ⟨name, hmem, hproperty⟩ := hname
    have hrole : m.memberRole t.label s₂ = .transformingMethod := by
      rw [Frame.memberRole, hproperty]
      exact methodRole_of_mem_transformingMethods hmem
    exact .method hobject hfunction hrole hmember hup

/-- The wrapping adds nodes that are passed over. -/
theorem interspersed {outer : List Frame} {R : Cursor → Cursor → Prop} {cs : List Cursor}
    (h : Wrapping s₂ field t.label inner) (hquiet : ∀ f ∈ inner, f.SiblingsQuiet)
    (hbelow : Interspersed R (PassedOver s₂) cs (t.nodesUnder (inner ++ outer))) :
    Interspersed R (PassedOver s₂) cs ((Cursor.rootOf t inner).nodesUnder outer) := by
  cases h with
  | @wrapper w hkind _ =>
    obtain ⟨_, himport, hcall, _⟩ := Kind.isTransparent_cases hkind
    exact (hquiet w (by simp)).interspersed_plug (.of_kind himport hcall) hbelow
  | @method m c hobject hfunction _ _ =>
    have hmember := Frame.isAccessOn_kind hobject
    have hself : PassedOver s₂ ⟨m.plug t, c :: outer⟩ := by
      refine .of_kind ?_ ?_
      · show m.label.kind ≠ _
        rw [hmember]; decide
      · show m.label.kind.isCallLike = false
        rw [hmember]; decide
    have hinner := (hquiet m (by simp)).interspersed_plug hself hbelow
    exact (hquiet c (by simp)).interspersed_plug (.of_isCallOf hmember hfunction outer) hinner

end Wrapping

/-! ## The two units -/

/-- The second unit has the call `p` of the first at `q`, wrapped.  The frames in
`inner` are new, and there is neither an import nor a call beside the call in them.
The rest of the two units is the same. -/
structure Rewrapped (s₁ s₂ : String) (p q : Cursor) (inner outer : List Frame) : Prop where
  path : q.path = inner ++ outer
  wrapping : Wrapping s₂ p.label.field q.label inner
  quiet : ∀ f ∈ inner, f.SiblingsQuiet
  kind : p.kind = q.kind
  named : p.label.named = q.label.named
  text : p.label.text s₁ = q.label.text s₂
  children : List.Forall₂ (Tree.Same s₁ s₂) p.focus.children q.focus.children
  around : List.Forall₂ (Frame.SameAround s₁ s₂) p.path outer

namespace Cursor

/-- Where a node of the first unit stands in the second. -/
def moved (p q : Cursor) (a : Address) : Address :=
  if p.address.isPrefixOf a then p.carried q a else a

theorem moved_append (p q : Cursor) (b : Address) :
    moved p q (p.address ++ b) = q.address ++ b := by
  have hbelow : p.address.isPrefixOf (p.address ++ b) = true := by simp
  rw [moved, if_pos hbelow, carried_append]

theorem moved_eq_self (p q : Cursor) {a : Address} (h : ¬ p.address <+: a) :
    moved p q a = a := by
  rw [moved, if_neg]
  rwa [List.isPrefixOf_iff_prefix]

theorem prefix_of_prefix_moved {p q : Cursor} {a : Address} (h : p.address <+: moved p q a) :
    q.address <+: moved p q a := by
  by_cases ha : p.address <+: a
  · obtain ⟨b, rfl⟩ := ha
    rw [moved_append]
    exact List.prefix_append _ _
  · rw [moved_eq_self p q ha] at h
    exact absurd h ha

/-- Each frame above a node is a node of its tree that has a child. -/
theorem exists_mem_nodes_of_mem_path {t : Tree} {path : List Frame} {f : Frame} (hf : f ∈ path) :
    ∃ c ∈ (rootOf t path).nodes, c.kind = f.label.kind ∧ c.focus.children ≠ [] := by
  induction path generalizing t with
  | nil => simp at hf
  | cons g up ih =>
    rcases List.mem_cons.mp hf with rfl | hf
    · exact ⟨⟨f.plug t, up⟩, mem_nodes_iff.mpr rfl, rfl, by simp [Frame.plug]⟩
    · exact ih hf

end Cursor

/-- A call outside of imports and properties is unread, if names have nothing below
them. -/
theorem unread_of_leaves {tree : Tree} {p : Cursor} (hp : p ∈ tree.nodes)
    (hleaves : ∀ c ∈ tree.nodes, c.kind = .identifier → c.focus.children = [])
    (himport : p.isInImport = false) (hproperty : p.isInProperty = false) :
    Unread p.label p.path where
  property := hproperty
  kinds f hf := by
    refine ⟨?_, ?_⟩
    · simp only [Cursor.isInImport, List.any_eq_false, beq_iff_eq] at himport
      exact himport f hf
    · intro hid
      obtain ⟨c, hc, hkind, hchildren⟩ := Cursor.exists_mem_nodes_of_mem_path (t := p.focus) hf
      have hroot : Cursor.rootOf p.focus p.path = tree := Cursor.mem_nodes_iff.mp hp
      rw [hroot] at hc
      exact hchildren (hleaves c hc (hkind.trans hid))

namespace Rewrapped

variable {s₁ s₂ : String} {p q : Cursor} {inner outer : List Frame}

theorem readAlike (h : Rewrapped s₁ s₂ p q inner outer) (hcall : p.kind.isCallLike = true) :
    p.focus.ReadAlike s₁ s₂ q.focus where
  kind := h.kind
  children := h.children.imp fun _ _ hu => hu.seenAlike
  method hmember := absurd hmember (Kind.isCallLike_cases hcall).2.2.2

theorem record_eq (h : Rewrapped s₁ s₂ p q inner outer) (hcall : p.kind.isCallLike = true)
    (table : ImportTable) : table.record s₁ p.focus = table.record s₂ q.focus := by
  have hp : p.kind ≠ .importStatement := (Kind.isCallLike_cases hcall).1
  have hq : q.kind ≠ .importStatement := by rwa [← h.kind]
  rw [ImportTable.record_of_kind_ne (t := p.focus) hp, ImportTable.record_of_kind_ne hq]

/-- The nodes of the second unit are those of the first, in their new places, and in
between nodes that a check passes over. -/
theorem interspersed_nodes (h : Rewrapped s₁ s₂ p q inner outer)
    (hcall : p.kind.isCallLike = true) (hunread : Unread p.label p.path) :
    Interspersed (NodesAlike s₁ s₂ (p.moved q)) (PassedOver s₂) p.root.nodes q.root.nodes := by
  have hseen : p.focus.SeenAlike s₁ s₂ (Cursor.rootOf q.focus inner) := h.wrapping.seenAlike hcall
  have hplace : JudgedAlike s₁ s₂ p.label p.path q.label q.path := by
    rw [h.path]
    refine h.wrapping.judgedAlike (Kind.isCallLike_cases hcall).2.2.2 ?_
    exact judgedAlike_around h.around hseen hunread
  have hcalls := forall₂_nodesAlike_nodesUnder (h.readAlike hcall) (h.record_eq hcall) h.children
    hplace (Cursor.moved_append p q)
  rw [h.path] at hcalls
  have hroot : q.root = Cursor.rootOf (Cursor.rootOf q.focus inner) outer := by
    rw [Cursor.root, h.path, Cursor.rootOf_append]
  rw [hroot]
  exact interspersed_around h.around hseen hunread (fun _ ha => Cursor.moved_eq_self p q ha)
    (h.wrapping.interspersed h.quiet (.of_forall₂ hcalls))

end Rewrapped

namespace ResultRule

/-- Wrapping a call changes no finding: a check finds the same nodes of the first unit
as before, in the same order, and no node of the wrapping.  The names of the unit have
to be leaves, and the call is neither in an import nor in the property of a member
access. -/
theorem check_wrapping (rule : ResultRule) {tree₁ tree₂ : Tree} {s₁ s₂ : String}
    {p q : Cursor} {inner outer : List Frame} (hp : p ∈ tree₁.nodes) (hq : q ∈ tree₂.nodes)
    (hcall : p.kind.isCallLike = true)
    (hleaves : ∀ c ∈ tree₁.nodes, c.kind = .identifier → c.focus.children = [])
    (himport : p.isInImport = false) (hproperty : p.isInProperty = false)
    (hwrap : Rewrapped s₁ s₂ p q inner outer) :
    (rule.check tree₂ s₂).map Cursor.address =
        (rule.check tree₁ s₁).map (fun c => p.moved q c.address) ∧
      ∀ c ∈ rule.check tree₂ s₂, p.address <+: c.address → q.address <+: c.address := by
  have hunread := unread_of_leaves hp hleaves himport hproperty
  obtain rfl := Cursor.mem_nodes_iff.mp hp
  obtain rfl := Cursor.mem_nodes_iff.mp hq
  have hplaces := ((hwrap.interspersed_nodes hcall hunread).reports_eq rule.heuristic
    (.empty rule.targetModule)).1
  rw [← check_eq_reports, ← check_eq_reports] at hplaces
  refine ⟨hplaces, ?_⟩
  intro c hc hinside
  have hmem : c.address ∈ (rule.check q.root s₂).map Cursor.address := List.mem_map_of_mem hc
  rw [hplaces] at hmem
  obtain ⟨d, _, hd⟩ := List.mem_map.mp hmem
  rw [← hd] at hinside ⊢
  exact Cursor.prefix_of_prefix_moved hinside

/-- `loadResult()` at the given offset, held under the given field. -/
def loadCall (start : Nat) (field : Option String) : Tree :=
  .node ⟨.callExpression, true, start, start + 12, field⟩
    [.node ⟨.identifier, true, start, start + 10, some "function"⟩ [],
      .node ⟨⟨"arguments"⟩, true, start + 10, start + 12, some "arguments"⟩ []]

/-- The frames around an argument of `keep` that ends at `stop`. -/
def keepFrames (stop : Nat) : List Frame :=
  [⟨⟨⟨"arguments"⟩, true, 4, stop + 1, some "arguments"⟩, [], []⟩,
    ⟨⟨.callExpression, true, 0, stop + 1, none⟩,
      [.node ⟨.identifier, true, 0, 4, some "function"⟩ []], []⟩,
    ⟨⟨.program, true, 0, stop + 1, none⟩, [], []⟩]

def keptLoad : Cursor :=
  ⟨loadCall 5 none, keepFrames 17⟩

/-- `.map(f)` on the call of `loadResult`. -/
def mapFrames : List Frame :=
  [⟨⟨.memberExpression, true, 5, 21, some "function"⟩, [],
      [.node ⟨⟨"property_identifier"⟩, true, 18, 21, some "property"⟩ []]⟩,
    ⟨⟨.callExpression, true, 5, 24, none⟩, [],
      [.node ⟨⟨"arguments"⟩, true, 21, 24, some "arguments"⟩
        [.node ⟨.identifier, true, 22, 23, none⟩ []]]⟩]

def mappedLoad : Cursor :=
  ⟨loadCall 5 (some "object"), mapFrames ++ keepFrames 24⟩

/-- The call in `keep(loadResult())` is a finding, hence the one in
`keep(loadResult().map(f))` is, and nothing else. -/
theorem check_mappedLoad :
    (standard.check keptLoad.root "keep(loadResult())").map Cursor.address = [[0, 1, 0]] ∧
      (standard.check mappedLoad.root "keep(loadResult().map(f))").map Cursor.address =
        [[0, 1, 0, 0, 0]] := by
  have hkept : (standard.check keptLoad.root "keep(loadResult())").map Cursor.address =
      [[0, 1, 0]] := by
    rw [check_eq_reports, Tree.nodes_eq]
    decide +kernel
  have hleaves : ∀ c ∈ keptLoad.root.nodes, c.kind = .identifier → c.focus.children = [] := by
    rw [Tree.nodes_eq]
    decide +kernel
  have hwrapping : Wrapping "keep(loadResult().map(f))" keptLoad.label.field mappedLoad.label
      mapFrames := .method rfl rfl ⟨"map", by decide, by decide +kernel⟩ rfl
  have hwrap : Rewrapped "keep(loadResult())" "keep(loadResult().map(f))" keptLoad mappedLoad
      mapFrames (keepFrames 24) := {
    path := rfl
    wrapping := hwrapping
    quiet := by
      unfold Frame.SiblingsQuiet
      decide
    kind := rfl
    named := rfl
    text := by decide +kernel
    children := by
      refine .cons (.node ⟨rfl, rfl, rfl, by decide +kernel⟩ .nil) (.cons ?_ .nil)
      exact .node ⟨rfl, rfl, rfl, by decide +kernel⟩ .nil
    around := by
      refine .cons ⟨rfl, rfl, rfl, .nil, .nil⟩ (.cons ⟨rfl, rfl, rfl, ?_, .nil⟩ (.cons ?_ .nil))
      · exact .cons (.node ⟨rfl, rfl, rfl, by decide +kernel⟩ .nil) .nil
      · exact ⟨rfl, rfl, rfl, .nil, .nil⟩ }
  obtain ⟨hplaces, _⟩ := check_wrapping standard (Cursor.mem_nodes_iff.mpr rfl)
    (Cursor.mem_nodes_iff.mpr rfl) rfl hleaves rfl rfl hwrap
  have hmoved := congrArg (List.map (keptLoad.moved mappedLoad)) hkept
  rw [List.map_map] at hmoved
  exact ⟨hkept, hplaces.trans (hmoved.trans (by decide))⟩

end ResultRule

end DroppedResult
