import DroppedResult.Proofs.Verdicts

/-!
# Parents and children of a node

The rule's walks go up a path of frames.  A frame says which child the way came from by
the siblings on its two sides.  Here the same is said with nodes, each in its place in
the tree.

* `Cursor.children` lists the children of a node.  They are the nodes whose parent it is
  (`mem_children_iff`), and what is below an earlier child comes before what is below a
  later one (`pairwise_children`).
* `Cursor.childByField?` is the first child under a field name.
  `childByField?_plug_eq_some_iff` is what `Frame.holdsAs` asks.
* Of two nodes that are not one below the other, all that is below the first comes before
  all that is below the second (`Address.isBefore_below`).
-/

namespace DroppedResult

theorem Frame.holdsAs_eq_true_iff (f : Frame) (child : Label) (field : String) :
    f.holdsAs child field = true ↔
      child.field = some field ∧ ∀ t ∈ f.before, t.label.field ≠ some field := by
  simp [holdsAs]

namespace Cursor

/-! ## Children -/

/-- The siblings `ts` below a node labelled `l`, each in its place.  They stand between
`before`, which has the nearest sibling first, and `after`. -/
def row (path : List Frame) (l : Label) (before after : List Tree) : List Tree → List Cursor
  | [] => []
  | t :: ts => ⟨t, ⟨l, before, ts ++ after⟩ :: path⟩ :: row path l (t :: before) after ts

/-- The children of the node, in order. -/
def children (c : Cursor) : List Cursor :=
  row c.path c.label [] [] c.focus.children

def namedChildren (c : Cursor) : List Cursor :=
  c.children.filter (·.label.named)

/-- The first child that the node holds under `field`. -/
def childByField? (c : Cursor) (field : String) : Option Cursor :=
  c.children.find? (·.label.field == some field)

theorem row_append (path : List Frame) (l : Label) (before after ts us : List Tree) :
    row path l before after (ts ++ us) =
      row path l before (us ++ after) ts ++ row path l (ts.reverse ++ before) after us := by
  induction ts generalizing before with
  | nil => rfl
  | cons t ts ih => simp [row, ih]

theorem map_focus_row (path : List Frame) (l : Label) (before after ts : List Tree) :
    (row path l before after ts).map focus = ts := by
  induction ts generalizing before with
  | nil => rfl
  | cons t ts ih => rw [row, List.map_cons, ih]

theorem path_of_mem_row {path : List Frame} {l : Label} {before after ts : List Tree} {c : Cursor}
    (h : c ∈ row path l before after ts) :
    ∃ left right, c.path = ⟨l, left ++ before, right⟩ :: path ∧ left.length < ts.length ∧
      (left ++ before).reverse ++ c.focus :: right = before.reverse ++ ts ++ after := by
  induction ts generalizing before with
  | nil => simp [row] at h
  | cons t ts ih =>
    rw [row, List.mem_cons] at h
    rcases h with rfl | h
    · exact ⟨[], ts ++ after, rfl, by simp, by simp⟩
    · obtain ⟨left, right, hpath, hlength, hrow⟩ := ih h
      refine ⟨left ++ [t], right, by simpa using hpath, ?_, by simpa using hrow⟩
      simp only [List.length_append, List.length_cons, List.length_nil]
      omega

theorem map_focus_children (c : Cursor) : c.children.map focus = c.focus.children :=
  map_focus_row c.path c.label [] [] c.focus.children

theorem map_focus_namedChildren (c : Cursor) :
    c.namedChildren.map focus = c.focus.namedChildren := by
  rw [namedChildren, Tree.namedChildren, ← map_focus_children, List.filter_map]
  rfl

theorem map_focus_childByField? (c : Cursor) (field : String) :
    (c.childByField? field).map focus = c.focus.childByField field := by
  rw [childByField?, Tree.childByField, ← map_focus_children, List.find?_map]
  rfl

/-- The children of the node that a frame stands for: those on the left, the child below,
and those on the right. -/
theorem children_plug (f : Frame) (t : Tree) (up : List Frame) :
    children ⟨f.plug t, up⟩ =
      row up f.label [] (t :: f.after) f.before.reverse ++
        ⟨t, f :: up⟩ :: row up f.label (t :: f.before) [] f.after := by
  have hrow := row_append up f.label [] [] f.before.reverse (t :: f.after)
  simp only [List.append_nil, List.reverse_reverse] at hrow
  show row up f.label [] [] (f.before.reverse ++ t :: f.after) = _
  rw [hrow, row, List.append_nil]

theorem mem_children_iff {c m : Cursor} : c ∈ m.children ↔ c.parent? = some m := by
  constructor
  · intro h
    obtain ⟨left, right, hpath, _, hrow⟩ := path_of_mem_row h
    obtain ⟨t, path⟩ := c
    obtain ⟨⟨l, ts⟩, up⟩ := m
    simp only [List.append_nil, List.reverse_nil, List.nil_append] at hpath hrow
    subst hpath
    have hplug : Frame.plug ⟨l, left, right⟩ t = .node l ts := congrArg (Tree.node l) hrow
    exact congrArg (fun parent => some (Cursor.mk parent up)) hplug
  · intro h
    obtain ⟨t, path⟩ := c
    cases path with
    | nil => cases h
    | cons f up =>
      obtain rfl : ⟨f.plug t, up⟩ = m := Option.some.inj h
      rw [children_plug]
      exact List.mem_append_right _ List.mem_cons_self

theorem parent?_eq_some {c m : Cursor} (h : c.parent? = some m) :
    ∃ f, c.path = f :: m.path ∧ m.focus = f.plug c.focus := by
  obtain ⟨t, path⟩ := c
  cases path with
  | nil => cases h
  | cons f up =>
    obtain rfl : ⟨f.plug t, up⟩ = m := Option.some.inj h
    exact ⟨f, rfl, rfl⟩

theorem path_length_of_parent? {c m : Cursor} (h : c.parent? = some m) :
    c.path.length = m.path.length + 1 := by
  obtain ⟨f, hpath, _⟩ := parent?_eq_some h
  rw [hpath, List.length_cons]

theorem address_prefix_of_parent? {c m : Cursor} (h : c.parent? = some m) :
    m.address <+: c.address := by
  obtain ⟨f, hpath, _⟩ := parent?_eq_some h
  rw [address, address, hpath, addressOf_cons]
  exact List.prefix_append _ _

/-! ## Children by field -/

theorem parent?_of_childByField? {c m : Cursor} {field : String}
    (h : m.childByField? field = some c) : c.parent? = some m :=
  mem_children_iff.mp (List.mem_of_find?_eq_some h)

theorem find?_row_eq_none_iff (path : List Frame) (l : Label) (before after ts : List Tree)
    (field : String) :
    (row path l before after ts).find? (·.label.field == some field) = none ↔
      ∀ t ∈ ts, t.label.field ≠ some field := by
  rw [List.find?_eq_none]
  constructor
  · intro h t ht
    rw [← map_focus_row path l before after ts] at ht
    obtain ⟨c, hc, rfl⟩ := List.mem_map.mp ht
    simpa [label] using h c hc
  · intro h c hc
    have ht : c.focus ∈ ts := by
      rw [← map_focus_row path l before after ts]
      exact List.mem_map_of_mem hc
    simpa [label] using h c.focus ht

/-- The child that the way came from is the first one under a field when its frame says
so. -/
theorem childByField?_plug_eq_some_iff (f : Frame) (t : Tree) (up : List Frame) (field : String) :
    childByField? ⟨f.plug t, up⟩ field = some ⟨t, f :: up⟩ ↔ f.holdsAs t.label field = true := by
  have hleft := find?_row_eq_none_iff up f.label [] (t :: f.after) f.before.reverse field
  simp only [List.mem_reverse] at hleft
  rw [Frame.holdsAs_eq_true_iff, ← hleft]
  constructor
  · intro h
    have hfield : t.label.field = some field := by
      simpa [label] using List.find?_some h
    refine ⟨hfield, ?_⟩
    -- A sibling on the left has fewer siblings on its left than the child has.
    rw [Option.eq_none_iff_forall_ne_some]
    intro d hd
    rw [childByField?, children_plug, List.find?_append, hd, Option.some_or] at h
    obtain rfl := Option.some.inj h
    obtain ⟨left, right, hpath, hlength, _⟩ := path_of_mem_row (List.mem_of_find?_eq_some hd)
    have hframe : f.before.length = left.length := by
      rw [(List.cons.inj hpath).1]
      simp
    rw [List.length_reverse] at hlength
    omega
  · rintro ⟨hfield, hnone⟩
    rw [childByField?, children_plug, List.find?_append, hnone, Option.none_or]
    exact List.find?_cons_of_pos (by simpa [label] using hfield)

end Cursor

/-! ## Order -/

namespace Address

theorem isBefore_of_lt (a : Address) {i j : Nat} (b c : Address) (h : i < j) :
    isBefore (a ++ i :: b) (a ++ j :: c) = true := by
  rw [isBefore_append, isBefore]
  simp [h]

/-- What comes later is below, or leaves the way further to the right. -/
theorem isBefore_cases {a b : Address} (h : isBefore a b = true) :
    a <+: b ∨ ∃ c i j x y, a = c ++ i :: x ∧ b = c ++ j :: y ∧ i < j := by
  induction a generalizing b with
  | nil => exact .inl List.nil_prefix
  | cons i a ih =>
    cases b with
    | nil => simp at h
    | cons j b =>
      simp only [isBefore, Bool.or_eq_true, decide_eq_true_eq, Bool.and_eq_true, beq_iff_eq] at h
      rcases h with hlt | ⟨rfl, hab⟩
      · exact .inr ⟨[], i, j, a, b, rfl, rfl, hlt⟩
      · rcases ih hab with hbelow | ⟨c, k, l, x, y, rfl, rfl, hlt⟩
        · exact .inl (List.cons_prefix_cons.mpr ⟨rfl, hbelow⟩)
        · exact .inr ⟨i :: c, k, l, x, y, rfl, rfl, hlt⟩

theorem isBefore_below {a b x y : Address} (h : isBefore a b = true) (hab : ¬ a <+: b)
    (hx : a <+: x) (hy : b <+: y) : isBefore x y = true := by
  rcases isBefore_cases h with hbelow | ⟨c, i, j, u, v, rfl, rfl, hlt⟩
  · exact absurd hbelow hab
  · obtain ⟨x, rfl⟩ := hx
    obtain ⟨y, rfl⟩ := hy
    simp only [List.append_assoc, List.cons_append]
    exact isBefore_of_lt c _ _ hlt

theorem isBefore_trichotomy (a b : Address) :
    isBefore a b = true ∨ a = b ∨ isBefore b a = true := by
  induction a generalizing b with
  | nil =>
    cases b with
    | nil => exact .inr (.inl rfl)
    | cons j b => exact .inl rfl
  | cons i a ih =>
    cases b with
    | nil => exact .inr (.inr rfl)
    | cons j b =>
      rcases Nat.lt_trichotomy i j with hlt | rfl | hlt
      · exact .inl (isBefore_of_lt [] a b hlt)
      · have hsame (c d : Address) : isBefore (i :: c) (i :: d) = isBefore c d :=
          isBefore_append [i] c d
        rw [hsame, hsame, List.cons.injEq]
        simpa using ih b
      · exact .inr (.inr (isBefore_of_lt [] b a hlt))

end Address

namespace Cursor

/-- What is below an earlier child comes before what is below a later one. -/
theorem pairwise_children (c : Cursor) : c.children.Pairwise fun a b =>
    ∀ x y : Address, a.address <+: x → b.address <+: y → x.isBefore y = true := by
  suffices hrow : ∀ (before after ts : List Tree), (row c.path c.label before after ts).Pairwise
      fun a b => ∀ x y : Address, a.address <+: x → b.address <+: y → x.isBefore y = true from
    hrow [] [] c.focus.children
  intro before after ts
  induction ts generalizing before with
  | nil => exact .nil
  | cons t ts ih =>
    rw [row, List.pairwise_cons]
    refine ⟨?_, ih (t :: before)⟩
    intro d hd x y hx hy
    obtain ⟨left, right, hpath, _, _⟩ := path_of_mem_row hd
    rw [address, hpath, addressOf_cons] at hy
    obtain ⟨b, rfl⟩ := hx
    obtain ⟨b', rfl⟩ := hy
    simp only [address_mk, addressOf_cons, List.append_assoc, List.singleton_append]
    refine Address.isBefore_of_lt (addressOf c.path) b b' ?_
    simp only [List.length_append, List.length_cons]
    omega

end Cursor

end DroppedResult
