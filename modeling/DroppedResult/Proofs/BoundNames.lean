import DroppedResult.Proofs.SharedTable
import Mathlib.Data.List.DropRight
import Mathlib.Data.Set.Card

/-!
# What the names of a table are bound to

A table keeps the last binding of each name and forgets the others.

* Many bindings.  `ImportTable.imported?_bindAll_empty` says what a name is bound to after
  a list of bindings, and `bindAll_bindAll_of_subset` that bindings which are made again
  later have no effect.
* Many nodes.  Reading nodes is binding what they import (`recordAll_eq_bindAll`).
* Many uses.  `TableUse.madeSinceReset` lists the bindings that a sequence of uses makes
  after the last use that clears the table.  `TableUse.applyAll_table` is the run: the
  table that the uses leave is the empty one with these bindings.
-/

namespace DroppedResult

/-- The last of the bindings for the name `x` binds it to `v`. -/
def LastBinding (bindings : List (String × ImportedName)) (x : String) (v : ImportedName) : Prop :=
  ∃ before after, bindings = before ++ (x, v) :: after ∧ ∀ b ∈ after, b.1 ≠ x

theorem lastBinding_concat {bindings : List (String × ImportedName)} {b : String × ImportedName}
    {x : String} {v : ImportedName} :
    LastBinding (bindings ++ [b]) x v ↔ b = (x, v) ∨ b.1 ≠ x ∧ LastBinding bindings x v := by
  constructor
  · rintro ⟨before, after, hsplit, hafter⟩
    rcases List.eq_nil_or_concat after with rfl | ⟨rest, last, rfl⟩
    · obtain ⟨_, hlast⟩ := List.append_inj' hsplit rfl
      exact .inl (List.singleton_inj.mp hlast)
    · have hsplit' : bindings ++ [b] = (before ++ (x, v) :: rest) ++ [last] := by
        simpa using hsplit
      obtain ⟨hbindings, hlast⟩ := List.append_inj' hsplit' rfl
      obtain rfl : b = last := List.singleton_inj.mp hlast
      refine .inr ⟨hafter b (by simp), before, rest, hbindings, ?_⟩
      intro c hc
      exact hafter c (by simp [hc])
  · rintro (rfl | ⟨hb, before, after, rfl, hafter⟩)
    · exact ⟨bindings, [], rfl, by simp⟩
    · refine ⟨before, after ++ [b], by simp, ?_⟩
      intro c hc
      rcases List.mem_append.mp hc with hc | hc
      · exact hafter c hc
      · rw [List.mem_singleton.mp hc]
        exact hb

theorem exists_lastBinding_iff {bindings : List (String × ImportedName)} {x : String} :
    (∃ v, LastBinding bindings x v) ↔ ∃ b ∈ bindings, b.1 = x := by
  induction bindings using List.reverseRecOn with
  | nil => simp [LastBinding]
  | append_singleton bindings b ih =>
    obtain ⟨name, imported⟩ := b
    simp only [lastBinding_concat, exists_or, exists_and_left, ih, List.mem_append,
      List.mem_singleton, Prod.mk.injEq]
    by_cases hname : name = x
    · subst hname
      exact ⟨fun _ => ⟨_, .inr rfl, rfl⟩, fun _ => .inl ⟨rfl, imported, rfl⟩⟩
    · constructor
      · rintro (⟨rfl, _⟩ | ⟨_, b, hb, hx⟩)
        · exact absurd rfl hname
        · exact ⟨b, .inl hb, hx⟩
      · rintro ⟨b, hb | rfl, hx⟩
        · exact .inr ⟨hname, b, hb, hx⟩
        · exact absurd hx hname

namespace ImportTable

/-! ## Many bindings -/

theorem bindAll_append (table : ImportTable) (bs cs : List (String × ImportedName)) :
    table.bindAll (bs ++ cs) = (table.bindAll bs).bindAll cs :=
  List.foldl_append

theorem bindings_bind {name : String} (h : name ≠ "") (table : ImportTable)
    (imported : ImportedName) :
    (table.bind name imported).bindings =
      (name, imported) :: table.bindings.filter (·.1 != name) := by
  rw [bind, if_neg (by simpa using h)]

/-- In a table that starts empty, a name has the value of its last binding. -/
theorem imported?_bindAll_empty (target : String) (bs : List (String × ImportedName)) (x : String)
    (v : ImportedName) :
    ((empty target).bindAll bs).imported? x = some v ↔ x ≠ "" ∧ LastBinding bs x v := by
  induction bs using List.reverseRecOn with
  | nil => simp [bindAll, empty, imported?, LastBinding]
  | append_singleton bs b ih =>
    obtain ⟨name, imported⟩ := b
    have hlast : (empty target).bindAll (bs ++ [(name, imported)]) =
        ((empty target).bindAll bs).bind name imported := bindAll_append _ _ _
    rw [hlast, imported?_bind, lastBinding_concat]
    by_cases hempty : x = ""
    · subst hempty
      have hnone : ¬ ("" = name ∧ name ≠ "") := by
        rintro ⟨rfl, h⟩
        exact h rfl
      rw [if_neg hnone, ih]
      simp
    · by_cases hname : x = name
      · subst hname
        simp [hempty]
      · rw [if_neg (fun h => hname h.1), ih]
        simp [Ne.symm hname]

theorem isBound_eq_isSome (table : ImportTable) (x : String) :
    table.isBound x = (table.imported? x).isSome := by
  rw [Bool.eq_iff_iff, isBound, imported?, Option.isSome_map, List.any_eq_true, List.find?_isSome]

def names (table : ImportTable) : List String :=
  table.bindings.map (·.1)

theorem mem_names_iff {table : ImportTable} {x : String} :
    x ∈ table.names ↔ table.isBound x = true := by
  simp [names, isBound]

/-- Each name is kept once, so there are as many bindings as bound names. -/
theorem size_eq_ncard (table : ImportTable) :
    table.size = Set.ncard {x | table.isBound x = true} := by
  have hnames : {x | table.isBound x = true} = (table.names.toFinset : Set String) := by
    ext x
    simp [mem_names_iff]
  have hnodup : table.names.Nodup := table.nodup
  rw [hnames, Set.ncard_coe_finset, List.toFinset_card_of_nodup hnodup, names, List.length_map,
    size]

/-- The table for `target` holds the last of the given bindings for each name, and nothing
else. -/
structure HoldsLast (target : String) (made : List (String × ImportedName))
    (table : ImportTable) : Prop where
  target_eq : table.target = target
  unnamed : table.isBound "" = false
  size_eq : table.size = Set.ncard {x | table.isBound x = true}
  isBound_eq : ∀ x, table.isBound x = (table.imported? x).isSome
  imported_iff : ∀ x v, table.imported? x = some v ↔ x ≠ "" ∧ LastBinding made x v

theorem holdsLast_bindAll_empty (target : String) (bs : List (String × ImportedName)) :
    HoldsLast target bs ((empty target).bindAll bs) where
  target_eq := bindAll_target _ _
  unnamed := by
    rw [isBound_eq_isSome, Option.isSome_eq_false_iff, Option.isNone_iff_eq_none,
      Option.eq_none_iff_forall_ne_some]
    intro v h
    exact ((imported?_bindAll_empty target bs "" v).mp h).1 rfl
  size_eq := size_eq_ncard _
  isBound_eq := isBound_eq_isSome _
  imported_iff := imported?_bindAll_empty target bs

/-! ## Bindings that are made again -/

/-- Tables that differ in one name are the same once that name is bound. -/
theorem bindAll_eq_of_mem {a b : ImportTable} {x : String} (htarget : a.target = b.target)
    (hrest : a.bindings.filter (·.1 != x) = b.bindings.filter (·.1 != x)) (hx : x ≠ "")
    {bs : List (String × ImportedName)} (hmem : x ∈ bs.map Prod.fst) :
    a.bindAll bs = b.bindAll bs := by
  induction bs generalizing a b with
  | nil => cases hmem
  | cons c bs ih =>
    obtain ⟨name, imported⟩ := c
    show (a.bind name imported).bindAll bs = (b.bind name imported).bindAll bs
    by_cases hname : name = x
    · subst hname
      have hsame : a.bind name imported = b.bind name imported := by
        refine ImportTable.ext ?_ ?_
        · rw [bind_target, bind_target, htarget]
        · rw [bindings_bind hx, bindings_bind hx, hrest]
      rw [hsame]
    · have hlater : x ∈ bs.map Prod.fst := by
        rcases List.mem_cons.mp hmem with h | h
        · exact absurd h.symm hname
        · exact h
      by_cases hempty : name = ""
      · subst hempty
        exact ih htarget hrest hlater
      · have hswap (l : List (String × ImportedName)) :
            ((name, imported) :: l.filter (·.1 != name)).filter (·.1 != x) =
              (name, imported) :: (l.filter (·.1 != x)).filter (·.1 != name) := by
          rw [List.filter_cons_of_pos (by simpa using hname), List.filter_filter,
            List.filter_filter]
          simp only [Bool.and_comm]
        refine ih ?_ ?_ hlater
        · rw [bind_target, bind_target, htarget]
        · rw [bindings_bind hempty, bindings_bind hempty, hswap, hswap, hrest]

/-- Bindings of names that are bound again later have no effect. -/
theorem bindAll_bindAll_of_subset (table : ImportTable) {ps bs : List (String × ImportedName)}
    (h : ∀ p ∈ ps, p.1 ∈ bs.map Prod.fst) :
    (table.bindAll ps).bindAll bs = table.bindAll bs := by
  induction ps generalizing table with
  | nil => rfl
  | cons p ps ih =>
    obtain ⟨name, imported⟩ := p
    have hrest := ih (table.bind name imported) fun q hq => h q (List.mem_cons_of_mem _ hq)
    refine hrest.trans ?_
    by_cases hempty : name = ""
    · subst hempty
      rfl
    · refine bindAll_eq_of_mem (bind_target _ _ _) ?_ hempty (h _ List.mem_cons_self)
      rw [bindings_bind hempty]
      simp [List.filter_filter]

end ImportTable

/-! ## Many nodes -/

/-- The bindings that reading a node makes in a table for the target. -/
def Imports.recorded (source target : String) (t : Tree) : List (String × ImportedName) :=
  if t.kind == .importStatement && moduleName? source t == some target then bindings source t
  else []

namespace ImportTable

theorem record_eq_bindAll (table : ImportTable) (source : String) (t : Tree) :
    table.record source t = table.bindAll (Imports.recorded source table.target t) := by
  rw [record, Imports.recorded]
  split <;> rfl

theorem recordAll_eq_bindAll (table : ImportTable) (source : String) (cs : List Cursor) :
    table.recordAll source cs =
      table.bindAll (cs.flatMap fun c => Imports.recorded source table.target c.focus) := by
  induction cs generalizing table with
  | nil => rfl
  | cons c cs ih =>
    rw [recordAll_cons, ih, record_target, record_eq_bindAll, List.flatMap_cons, bindAll_append]

/-- Reading nodes that have been read changes nothing. -/
theorem recordAll_recordAll (table : ImportTable) (source : String) (cs : List Cursor) :
    (table.recordAll source cs).recordAll source cs = table.recordAll source cs := by
  rw [recordAll_eq_bindAll (table.recordAll source cs), recordAll_target,
    recordAll_eq_bindAll table, bindAll_bindAll_of_subset]
  intro p hp
  exact List.mem_map_of_mem hp

end ImportTable

/-! ## Many uses -/

namespace TableUse

/-- The use leaves the table empty. -/
def clears : TableUse → Bool
  | reset | check _ _ _ => true
  | bind _ _ | record _ _ => false

/-- The bindings that a use makes in a table for the target, and that it leaves there. -/
def made (target : String) : TableUse → List (String × ImportedName)
  | bind name imported => [(name, imported)]
  | record source node => Imports.recorded source target node
  | reset | check _ _ _ => []

/-- The bindings that the uses make after the last one that clears the table. -/
def madeSinceReset (target : String) (uses : List TableUse) : List (String × ImportedName) :=
  (uses.rtakeWhile (!·.clears)).flatMap (made target)

theorem madeSinceReset_concat (target : String) (uses : List TableUse) (use : TableUse) :
    madeSinceReset target (uses ++ [use]) =
      if use.clears then [] else madeSinceReset target uses ++ use.made target := by
  rw [madeSinceReset, List.rtakeWhile_concat]
  cases use.clears with
  | true => rfl
  | false => simp [madeSinceReset]

theorem apply_table (table : ImportTable) (use : TableUse) :
    (use.apply table).2 =
      if use.clears then .empty table.target else table.bindAll (use.made table.target) := by
  cases use with
  | bind name imported => rfl
  | record source node => exact table.record_eq_bindAll source node
  | reset => rfl
  | check rule tree source =>
    rw [apply, checkWith_eq_check]
    rfl

theorem applyAll_concat (table : ImportTable) (uses : List TableUse) (use : TableUse) :
    (applyAll table (uses ++ [use])).2 = (use.apply (applyAll table uses).2).2 := by
  induction uses generalizing table with
  | nil => rfl
  | cons first rest ih => exact ih (first.apply table).2

/-- The table that a sequence of uses leaves. -/
theorem applyAll_table (target : String) (uses : List TableUse) :
    (applyAll (.empty target) uses).2 =
      (ImportTable.empty target).bindAll (madeSinceReset target uses) := by
  induction uses using List.reverseRecOn with
  | nil => rfl
  | append_singleton uses use ih =>
    have htarget : ((ImportTable.empty target).bindAll (madeSinceReset target uses)).target =
        target := ImportTable.bindAll_target _ _
    rw [applyAll_concat, ih, apply_table, htarget, madeSinceReset_concat]
    cases use.clears with
    | true => rfl
    | false => exact (ImportTable.bindAll_append _ _ _).symm

end TableUse

end DroppedResult
