import DroppedResult.Run

/-!
# The order of places

Violations are compared by path, line and column, and paths by their components.
The comparisons are computed; here they are tied to relations that say when one
path, or one place, comes before another.

* Components.  `Component.Before` puts the kinds of components in order, and names
  in the order of their bytes.
* Paths.  `FilePath.Before` is the lexicographic order on components.  Paths with the
  same components are the same path, `FilePath.Same`.
* Places.  `Violation.Precedes` and `Violation.SamePlace`.

`Violation.notAfter` is a total preorder, and its ties are the violations at one
place.
-/

namespace DroppedResult

/-- Comparing by a key is as lawful as comparing the keys. -/
theorem transCmp_on {α β : Type} (key : α → β) (cmp : β → β → Ordering) [Std.TransCmp cmp] :
    Std.TransCmp fun a b => cmp (key a) (key b) where
  eq_swap := Std.OrientedCmp.eq_swap
  isLE_trans := Std.TransCmp.isLE_trans

/-- A lexicographic comparison finds the first list smaller when it is so in the
lexicographic order that belongs to the comparison of elements. -/
theorem compareLex_eq_lt_iff {α : Type} {cmp : α → α → Ordering} [Std.LawfulEqCmp cmp]
    {before : α → α → Prop} (hbefore : ∀ a b, cmp a b = .lt ↔ before a b) (as bs : List α) :
    as.compareLex cmp bs = .lt ↔ List.Lex before as bs := by
  induction as generalizing bs with
  | nil => cases bs <;> simp [List.compareLex]
  | cons a as ih =>
    cases bs with
    | nil => simp [List.compareLex]
    | cons b bs =>
      have heq : cmp a b = .eq ↔ a = b := Std.LawfulEqCmp.compare_eq_iff_eq
      rw [List.compareLex_cons_cons, List.cons_lex_cons_iff, ← hbefore, ← ih, ← heq,
        Ordering.then_eq_lt]

/-! ## Bytes -/

theorem compareBytes_eq : compareBytes = List.compareLex compare := by
  funext as bs
  induction as generalizing bs with
  | nil => cases bs <;> rfl
  | cons a as ih =>
    cases bs with
    | nil => rfl
    | cons b bs =>
      rw [compareBytes, List.compareLex_cons_cons, ih]
      cases h : compare a b with
      | lt => simp [Std.compare_eq_lt.mp h]
      | eq => simp [Std.LawfulEqCmp.eq_of_compare h]
      | gt =>
        have hgt := Std.compare_eq_gt.mp h
        simp [hgt, UInt8.lt_asymm hgt]

instance : Std.TransCmp compareBytes :=
  compareBytes_eq ▸ inferInstanceAs (Std.TransCmp (List.compareLex (α := UInt8) compare))

instance : Std.LawfulEqCmp compareBytes :=
  compareBytes_eq ▸ inferInstanceAs (Std.LawfulEqCmp (List.compareLex (α := UInt8) compare))

theorem compareBytes_eq_lt_iff (as bs : List UInt8) : compareBytes as bs = .lt ↔ as < bs := by
  rw [compareBytes_eq]
  exact compareLex_eq_lt_iff (fun _ _ => Std.compare_eq_lt) as bs

namespace FilePath

/-! ## Components -/

namespace Component

/-- The order of components: the root, a leading dot, the parent, and then the names
in the order of their bytes. -/
inductive Before : Component → Component → Prop where
  | kinds {a b : Component} (h : a.rank < b.rank) : Before a b
  | names {s t : List UInt8} (h : s < t) : Before (name s) (name t)

/-- The bytes of a name; the other components have none. -/
def nameBytes : Component → List UInt8
  | name bytes => bytes
  | root | current | parent => []

theorem compare_eq : Component.compare =
    compareLex (compareOn rank) fun a b => compareBytes a.nameBytes b.nameBytes := by
  funext a b
  cases a <;> cases b <;> rfl

theorem eq_of_rank_eq {a b : Component} (hrank : a.rank = b.rank)
    (hbytes : a.nameBytes = b.nameBytes) : a = b := by
  cases a <;> cases b <;> simp_all [rank, nameBytes]

instance : Std.TransCmp Component.compare := by
  have := transCmp_on nameBytes compareBytes
  rw [compare_eq]
  infer_instance

instance : Std.LawfulEqCmp Component.compare where
  compare_self := Std.ReflCmp.compare_self
  eq_of_compare {a b} h := by
    rw [compare_eq, compareLex_eq_eq] at h
    exact eq_of_rank_eq (Std.LawfulEqCmp.eq_of_compare h.1) (Std.LawfulEqCmp.eq_of_compare h.2)

theorem compare_eq_lt_iff (a b : Component) : a.compare b = .lt ↔ Before a b := by
  constructor
  · intro h
    rw [compare_eq, compareLex, Ordering.then_eq_lt] at h
    rcases h with hrank | ⟨hrank, hbytes⟩
    · exact .kinds (Std.compare_eq_lt.mp hrank)
    · have hkinds : a.rank = b.rank := Std.LawfulEqCmp.eq_of_compare hrank
      cases b with
      | name t =>
        cases a with
        | name s => exact .names ((compareBytes_eq_lt_iff s t).mp hbytes)
        | root | current | parent => cases hkinds
      | root | current | parent =>
        exact absurd ((compareBytes_eq_lt_iff ..).mp hbytes) (List.not_lt_nil _)
  · rintro (h | h)
    · rw [compare_eq, compareLex, Ordering.then_eq_lt]
      exact .inl (Std.compare_eq_lt.mpr h)
    · exact (compareBytes_eq_lt_iff ..).mpr h

end Component

/-! ## Paths -/

/-- The order of paths, component by component. -/
def Before (p q : FilePath) : Prop :=
  List.Lex Component.Before p.components q.components

/-- The paths have the same components. -/
def Same (p q : FilePath) : Prop :=
  p.components = q.components

instance (p q : FilePath) : Decidable (Same p q) :=
  inferInstanceAs (Decidable (p.components = q.components))

theorem compareComponents_eq : compareComponents = List.compareLex Component.compare := by
  funext as bs
  induction as generalizing bs with
  | nil => cases bs <;> rfl
  | cons a as ih =>
    cases bs with
    | nil => rfl
    | cons b bs => rw [compareComponents, List.compareLex_cons_cons, ih]

instance : Std.TransCmp FilePath.compare := by
  have := transCmp_on components (List.compareLex Component.compare)
  rwa [← compareComponents_eq] at this

theorem compare_eq_lt_iff (p q : FilePath) : p.compare q = .lt ↔ Before p q := by
  rw [compare, compareComponents_eq]
  exact compareLex_eq_lt_iff Component.compare_eq_lt_iff ..

theorem compare_eq_eq_iff (p q : FilePath) : p.compare q = .eq ↔ Same p q := by
  rw [compare, compareComponents_eq]
  exact Std.LawfulEqCmp.compare_eq_iff_eq

end FilePath

/-! ## Places -/

namespace Violation

/-- The order of places: by path, line and column. -/
def Precedes (a b : Violation) : Prop :=
  a.file.Before b.file ∨
    a.file.Same b.file ∧ (a.line < b.line ∨ a.line = b.line ∧ a.column < b.column)

/-- The violations start at one place of one file. -/
def SamePlace (a b : Violation) : Prop :=
  a.file.Same b.file ∧ a.line = b.line ∧ a.column = b.column

instance (a b : Violation) : Decidable (SamePlace a b) :=
  inferInstanceAs (Decidable (a.file.Same b.file ∧ a.line = b.line ∧ a.column = b.column))

theorem comparePlace_eq_lt_iff (a b : Violation) : comparePlace a b = .lt ↔ Precedes a b := by
  simp only [comparePlace, Precedes, Ordering.then_eq_lt, FilePath.compare_eq_lt_iff,
    FilePath.compare_eq_eq_iff, Std.compare_eq_lt,
    Std.LawfulEqCmp.compare_eq_iff_eq]

theorem comparePlace_eq_eq_iff (a b : Violation) : comparePlace a b = .eq ↔ SamePlace a b := by
  simp only [comparePlace, SamePlace, Ordering.then_eq_eq, FilePath.compare_eq_eq_iff,
    Std.LawfulEqCmp.compare_eq_iff_eq]

instance : Std.TransCmp comparePlace := by
  have := transCmp_on file FilePath.compare
  exact inferInstanceAs (Std.TransCmp (compareLex (fun a b => a.file.compare b.file)
    (compareLex (compareOn line) (compareOn column))))

theorem comparePlace_swap (a b : Violation) : comparePlace b a = (comparePlace a b).swap :=
  Std.OrientedCmp.eq_swap

theorem notAfter_trans (a b c : Violation) (hab : notAfter a b = true) (hbc : notAfter b c = true) :
    notAfter a c = true :=
  Std.TransCmp.isLE_trans hab hbc

theorem notAfter_total (a b : Violation) : (notAfter a b || notAfter b a) = true := by
  rw [notAfter, notAfter, comparePlace_swap a b]
  cases comparePlace a b <;> rfl

theorem notAfter_iff (a b : Violation) : notAfter a b = true ↔ ¬ Precedes b a := by
  rw [notAfter, ← comparePlace_eq_lt_iff, comparePlace_swap a b]
  cases comparePlace a b <;> decide

theorem samePlace_iff (a b : Violation) :
    SamePlace a b ↔ notAfter a b = true ∧ notAfter b a = true := by
  rw [notAfter, notAfter, ← comparePlace_eq_eq_iff, comparePlace_swap a b]
  cases comparePlace a b <;> decide

end Violation

end DroppedResult
