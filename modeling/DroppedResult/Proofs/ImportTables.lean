import DroppedResult.Rule.Role
import DroppedResult.Tree.Cursor

/-!
# Import tables

Two groups of facts about `ImportTable`.

* Reading many nodes.  `recordAll` reads a list of nodes; the target stays, and
  only the import statements among the nodes count.
* Tables that agree.  `Agrees` compares two tables by what a name is bound to, and
  not by the order in which the bindings came.  Reading a node keeps two tables in
  agreement, and a role does not tell them apart.
-/

namespace DroppedResult

namespace ImportTable

/-! ## Reading many nodes -/

/-- The table after reading the given nodes. -/
def recordAll (table : ImportTable) (source : String) (cs : List Cursor) : ImportTable :=
  cs.foldl (fun t c => t.record source c.focus) table

@[simp] theorem recordAll_nil (table : ImportTable) (source : String) :
    table.recordAll source [] = table := rfl

@[simp] theorem recordAll_cons (table : ImportTable) (source : String) (c : Cursor)
    (cs : List Cursor) :
    table.recordAll source (c :: cs) = (table.record source c.focus).recordAll source cs := rfl

theorem recordAll_append (table : ImportTable) (source : String) (cs ds : List Cursor) :
    table.recordAll source (cs ++ ds) = (table.recordAll source cs).recordAll source ds :=
  List.foldl_append

theorem record_of_kind_ne {table : ImportTable} {source : String} {t : Tree}
    (h : t.kind ≠ .importStatement) : table.record source t = table := by
  simp [record, h]

theorem bind_target (table : ImportTable) (name : String) (imported : ImportedName) :
    (table.bind name imported).target = table.target := by
  rw [bind]
  split <;> rfl

theorem bindAll_target (table : ImportTable) (bindings : List (String × ImportedName)) :
    (table.bindAll bindings).target = table.target := by
  induction bindings generalizing table with
  | nil => rfl
  | cons b bindings ih => exact (ih (table.bind b.1 b.2)).trans (bind_target table b.1 b.2)

theorem record_target (table : ImportTable) (source : String) (t : Tree) :
    (table.record source t).target = table.target := by
  rw [record]
  split
  · exact bindAll_target _ _
  · rfl

theorem recordAll_target (table : ImportTable) (source : String) (cs : List Cursor) :
    (table.recordAll source cs).target = table.target := by
  induction cs generalizing table with
  | nil => rfl
  | cons c cs ih => rw [recordAll_cons, ih, record_target]

/-- Only the import statements among the nodes count. -/
theorem recordAll_filter_importStatement (table : ImportTable) (source : String)
    (cs : List Cursor) :
    table.recordAll source (cs.filter (·.kind == .importStatement)) =
      table.recordAll source cs := by
  induction cs generalizing table with
  | nil => rfl
  | cons c cs ih =>
    by_cases hc : c.kind = .importStatement
    · rw [List.filter_cons_of_pos (by simp [hc]), recordAll_cons, recordAll_cons, ih]
    · rw [List.filter_cons_of_neg (by simp [hc]), recordAll_cons, record_of_kind_ne hc, ih]

/-! ## Tables that agree -/

theorem imported?_bind (table : ImportTable) (name : String) (imported : ImportedName)
    (x : String) :
    (table.bind name imported).imported? x =
      if x = name ∧ name ≠ "" then some imported else table.imported? x := by
  by_cases hempty : name = ""
  · simp [bind, hempty]
  · by_cases hx : x = name
    · subst hx
      simp [bind, imported?, hempty]
    · have hkept : (table.bindings.filter (·.1 != name)).find? (·.1 == x) =
          table.bindings.find? (·.1 == x) := by
        rw [List.find?_filter]
        congr 1
        funext b
        by_cases hb : b.1 = x
        · simp [hb, hx]
        · simp [hb]
      simp [bind, imported?, hempty, hx, Ne.symm hx, hkept]

/-- The tables are for one target and bind the same names to the same exports. -/
structure Agrees (a b : ImportTable) : Prop where
  target : a.target = b.target
  imported : ∀ name, a.imported? name = b.imported? name

theorem Agrees.refl (table : ImportTable) : table.Agrees table :=
  ⟨rfl, fun _ => rfl⟩

theorem Agrees.bind {a b : ImportTable} (hab : a.Agrees b) (name : String)
    (imported : ImportedName) : (a.bind name imported).Agrees (b.bind name imported) := by
  refine ⟨?_, ?_⟩
  · rw [bind_target, bind_target, hab.target]
  · intro x
    rw [imported?_bind, imported?_bind, hab.imported]

theorem Agrees.bindAll {a b : ImportTable} (hab : a.Agrees b)
    (bindings : List (String × ImportedName)) : (a.bindAll bindings).Agrees (b.bindAll bindings) := by
  induction bindings generalizing a b with
  | nil => exact hab
  | cons binding bindings ih => exact ih (hab.bind binding.1 binding.2)

theorem Agrees.record {a b : ImportTable} (hab : a.Agrees b) (source : String) (t : Tree) :
    (a.record source t).Agrees (b.record source t) := by
  rw [ImportTable.record, ImportTable.record, hab.target]
  split
  · exact hab.bindAll _
  · exact hab

theorem Agrees.recordAll {a b : ImportTable} (hab : a.Agrees b) (source : String)
    (cs : List Cursor) : (a.recordAll source cs).Agrees (b.recordAll source cs) := by
  induction cs generalizing a b with
  | nil => exact hab
  | cons c cs ih => exact ih (hab.record source c.focus)

theorem Agrees.role_eq {a b : ImportTable} (hab : a.Agrees b) (h : Heuristic) (source : String)
    (t : Tree) : h.role a source t = h.role b source t := by
  simp only [Heuristic.role, Heuristic.callRole, Heuristic.identifierRole, hab.imported]

end ImportTable

end DroppedResult
