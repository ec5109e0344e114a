import DroppedResult.Proofs.PlaceOrder
import DroppedResult.Proofs.Reports

/-!
# Runs over many files

A run checks its files one by one and arranges what they give by place.  Nothing but
the arrangement joins the files, so a run can be taken apart again.

* Arranging.  An arrangement keeps the order of the violations at each place
  (`filter_samePlace_mergeSort`) and is determined by them (`eq_of_filter_samePlace`).
* One file.  `checkFile_eq` says what one file gives under the rule about Results, and
  when it is skipped.
* All files.  When no two files have the same path, all violations at a place come
  from one file.  So the order of the files does not matter, and each file has its own
  violations: `runRules_resultRule`.
-/

namespace DroppedResult

/-! ## Arranging -/

namespace Violation

theorem samePlace_refl (v : Violation) : v.SamePlace v :=
  ⟨rfl, rfl, rfl⟩

theorem notAfter_refl (v : Violation) : notAfter v v = true :=
  ((samePlace_iff v v).mp v.samePlace_refl).1

theorem mem_of_filter_samePlace {l₁ l₂ : List Violation}
    (h : ∀ v : Violation, l₁.filter (v.SamePlace ·) = l₂.filter (v.SamePlace ·))
    {v : Violation} (hv : v ∈ l₁) : v ∈ l₂ := by
  have hfilter : v ∈ l₁.filter (v.SamePlace ·) :=
    List.mem_filter.mpr ⟨hv, decide_eq_true v.samePlace_refl⟩
  rw [h v] at hfilter
  exact (List.mem_filter.mp hfilter).1

/-- Two arrangements that agree at every place are the same. -/
theorem eq_of_filter_samePlace {l₁ l₂ : List Violation} (h₁ : l₁.Pairwise (notAfter · ·))
    (h₂ : l₂.Pairwise (notAfter · ·))
    (h : ∀ v : Violation, l₁.filter (v.SamePlace ·) = l₂.filter (v.SamePlace ·)) : l₁ = l₂ := by
  induction l₁ generalizing l₂ with
  | nil =>
    refine (List.eq_nil_iff_forall_not_mem.mpr fun v hv => ?_).symm
    cases mem_of_filter_samePlace (fun v => (h v).symm) hv
  | cons a t₁ ih =>
    cases l₂ with
    | nil => cases mem_of_filter_samePlace h List.mem_cons_self
    | cons b t₂ =>
      obtain ⟨ha, ht₁⟩ := List.pairwise_cons.mp h₁
      obtain ⟨hb, ht₂⟩ := List.pairwise_cons.mp h₂
      -- each head is in the other list, and a head is after nothing in its list
      have hab : notAfter a b = true := by
        have hmem := mem_of_filter_samePlace (fun v => (h v).symm) (List.mem_cons_self (a := b))
        rcases List.mem_cons.mp hmem with rfl | hmem
        · exact notAfter_refl b
        · exact ha b hmem
      have hba : notAfter b a = true := by
        have hmem := mem_of_filter_samePlace h (List.mem_cons_self (a := a))
        rcases List.mem_cons.mp hmem with rfl | hmem
        · exact notAfter_refl a
        · exact hb a hmem
      have heads := h a
      simp only [List.filter_cons, a.samePlace_refl, (samePlace_iff a b).mpr ⟨hab, hba⟩,
        decide_true, if_true] at heads
      obtain rfl : a = b := (List.cons.inj heads).1
      refine congrArg (a :: ·) (ih ht₁ ht₂ fun v => ?_)
      have hv := h v
      simp only [List.filter_cons] at hv
      split at hv
      · exact (List.cons.inj hv).2
      · exact hv

theorem pairwise_notAfter_mergeSort (l : List Violation) :
    (l.mergeSort notAfter).Pairwise (notAfter · ·) :=
  List.pairwise_mergeSort notAfter_trans notAfter_total l

/-- Violations at one place stay in the order in which they were found. -/
theorem filter_samePlace_mergeSort (l : List Violation) (v : Violation) :
    (l.mergeSort notAfter).filter (v.SamePlace ·) = l.filter (v.SamePlace ·) := by
  have htied : (l.filter (v.SamePlace ·)).Pairwise (notAfter · ·) := by
    refine List.pairwise_of_forall_mem_list fun a ha b hb => ?_
    have hva := of_decide_eq_true (List.mem_filter.mp ha).2
    have hvb := of_decide_eq_true (List.mem_filter.mp hb).2
    exact notAfter_trans a v b ((samePlace_iff v a).mp hva).2 ((samePlace_iff v b).mp hvb).1
  have hsub := (List.sublist_mergeSort notAfter_trans notAfter_total htied
    List.filter_sublist).filter (v.SamePlace ·)
  rw [List.filter_filter] at hsub
  simp only [Bool.and_self] at hsub
  exact (hsub.eq_of_length ((List.mergeSort_perm l notAfter).filter _).length_eq.symm).symm

theorem mergeSort_congr {l₁ l₂ : List Violation}
    (h : ∀ v : Violation, l₁.filter (v.SamePlace ·) = l₂.filter (v.SamePlace ·)) :
    l₁.mergeSort notAfter = l₂.mergeSort notAfter := by
  refine eq_of_filter_samePlace (pairwise_notAfter_mergeSort l₁) (pairwise_notAfter_mergeSort l₂) ?_
  intro v
  rw [filter_samePlace_mergeSort, filter_samePlace_mergeSort, h]

/-- Leaving out violations and arranging commute. -/
theorem filter_mergeSort (l : List Violation) (p : Violation → Bool) :
    (l.mergeSort notAfter).filter p = (l.filter p).mergeSort notAfter := by
  refine eq_of_filter_samePlace ((pairwise_notAfter_mergeSort l).filter p)
    (pairwise_notAfter_mergeSort _) ?_
  intro v
  have hcomm (l : List Violation) : (l.filter p).filter (v.SamePlace ·) =
      (l.filter (v.SamePlace ·)).filter p := by
    simp only [List.filter_filter, Bool.and_comm]
  rw [filter_samePlace_mergeSort, hcomm, hcomm, filter_samePlace_mergeSort]

end Violation

/-! ## One file -/

/-- The file has no language, or no text that can be read. -/
def SourceFile.isSkipped (fs : FileSystem) (file : SourceFile) : Bool :=
  file.language.isNone || !(fs.readText file.path).isOk

namespace ResultRule

/-- The violations of one file: those of its text, and none when it is skipped. -/
def violationsIn (rule : ResultRule) (grammars : Grammars) (fs : FileSystem)
    (file : SourceFile) : List Violation :=
  match file.language, fs.readText file.path with
  | some language, .ok text => rule.violations file.path (grammars language text) text
  | _, _ => []

theorem of_mem_violationsIn {rule : ResultRule} {grammars : Grammars} {fs : FileSystem}
    {file : SourceFile} {v : Violation} (hv : v ∈ rule.violationsIn grammars fs file) :
    v.file = file.path ∧ v.severity = rule.severity := by
  unfold violationsIn at hv
  split at hv
  · obtain ⟨c, _, rfl⟩ := List.mem_map.mp hv
    exact ⟨rfl, rfl⟩
  · cases hv

theorem appliesTo_toLintRule (rule : ResultRule) (language : Language) :
    rule.toLintRule.appliesTo language = true := by
  cases language <;> rfl

end ResultRule

theorem checkFile_eq (grammars : Grammars) (fs : FileSystem) (rule : ResultRule)
    (file : SourceFile) :
    checkFile grammars fs [rule.toLintRule] file =
      if file.isSkipped fs then none else some (rule.violationsIn grammars fs file) := by
  unfold checkFile SourceFile.isSkipped ResultRule.violationsIn
  cases hlanguage : file.language with
  | none => rfl
  | some language =>
    simp only [List.filter_cons, rule.appliesTo_toLintRule language, if_true, List.filter_nil]
    cases hread : fs.readText file.path with
    | error cause => rfl
    | ok text => simp [Except.isOk, Except.toBool, ResultRule.toLintRule]

theorem ResultRule.violationsIn_of_isSkipped {rule : ResultRule} {grammars : Grammars}
    {fs : FileSystem} {file : SourceFile} (h : file.isSkipped fs = true) :
    rule.violationsIn grammars fs file = [] := by
  unfold violationsIn
  split
  · rename_i hlanguage hread
    rw [SourceFile.isSkipped, hlanguage, hread] at h
    cases h
  · rfl

/-- What a run gives, as the arrangement of what its files give. -/
theorem runRules_eq (grammars : Grammars) (fs : FileSystem) (rule : ResultRule)
    (files : List SourceFile) :
    runRules grammars fs [rule.toLintRule] files =
      { violations := (files.flatMap (rule.violationsIn grammars fs)).mergeSort Violation.notAfter
        filesChecked := files.length
        filesSkipped := files.countP (·.isSkipped fs)
        rulesExecuted := 1 } := by
  have hfound : ((files.map (checkFile grammars fs [rule.toLintRule])).filterMap id).flatten =
      files.flatMap (rule.violationsIn grammars fs) := by
    induction files with
    | nil => rfl
    | cons file files ih =>
      rw [List.map_cons, checkFile_eq, List.flatMap_cons, ← ih]
      split
      · rename_i hskipped
        rw [ResultRule.violationsIn_of_isSkipped hskipped]
        rfl
      · rfl
  have hskipped : (files.map (checkFile grammars fs [rule.toLintRule])).countP (·.isNone) =
      files.countP (·.isSkipped fs) := by
    rw [List.countP_map]
    refine List.countP_congr fun file _ => ?_
    simp only [Function.comp_apply, checkFile_eq]
    split <;> simp [*]
  unfold runRules
  simp only [hfound, hskipped, List.length_singleton]

/-! ## All files -/

/-- Lists of which at most one has elements can be joined in every order. -/
theorem flatMap_eq_of_perm {α β : Type} {f : α → List β} {l₁ l₂ : List α} (hperm : l₁.Perm l₂)
    (hone : l₁.Pairwise fun a b => f a = [] ∨ f b = []) : l₁.flatMap f = l₂.flatMap f := by
  induction hperm with
  | nil => rfl
  | cons a _ ih => rw [List.flatMap_cons, List.flatMap_cons, ih (List.pairwise_cons.mp hone).2]
  | swap a b l =>
    have hba := (List.pairwise_cons.mp hone).1 a List.mem_cons_self
    simp only [List.flatMap_cons]
    rcases hba with h | h <;> simp [h]
  | trans h₁ _ ih₁ ih₂ =>
    have hsymm {a b : α} (h : f a = [] ∨ f b = []) : f b = [] ∨ f a = [] := h.symm
    exact (ih₁ hone).trans (ih₂ ((h₁.pairwise_iff hsymm).mp hone))

section

variable {rule : ResultRule} {grammars : Grammars} {fs : FileSystem}

/-- A file has no violations under another path. -/
theorem filter_violationsIn_eq_nil {file : SourceFile} {p : Violation → Bool} {path : FilePath}
    (hp : ∀ v, p v = true → path.Same v.file) (hfile : ¬ path.Same file.path) :
    (rule.violationsIn grammars fs file).filter p = [] := by
  refine List.filter_eq_nil_iff.mpr fun v hv hpv => hfile ?_
  rw [← (ResultRule.of_mem_violationsIn hv).1]
  exact hp v hpv

/-- The violations under one path can be collected in every order of the files, when
no two files have the same path. -/
theorem flatMap_filter_eq_of_perm {files files' : List SourceFile} {p : Violation → Bool}
    {path : FilePath} (hperm : files.Perm files')
    (hfiles : files.Pairwise fun a b => ¬ a.path.Same b.path)
    (hp : ∀ v, p v = true → path.Same v.file) :
    files.flatMap (fun file => (rule.violationsIn grammars fs file).filter p) =
      files'.flatMap fun file => (rule.violationsIn grammars fs file).filter p := by
  refine flatMap_eq_of_perm hperm (hfiles.imp fun {a b} hab => ?_)
  by_cases ha : path.Same a.path
  · exact .inr (filter_violationsIn_eq_nil hp fun hb => hab (ha.symm.trans hb))
  · exact .inl (filter_violationsIn_eq_nil hp ha)

theorem runRules_eq_of_perm {files files' : List SourceFile} (hperm : files.Perm files')
    (hfiles : files.Pairwise fun a b => ¬ a.path.Same b.path) :
    runRules grammars fs [rule.toLintRule] files =
      runRules grammars fs [rule.toLintRule] files' := by
  have hviolations : (files.flatMap (rule.violationsIn grammars fs)).mergeSort Violation.notAfter =
      (files'.flatMap (rule.violationsIn grammars fs)).mergeSort Violation.notAfter := by
    refine Violation.mergeSort_congr fun v => ?_
    rw [List.filter_flatMap, List.filter_flatMap]
    exact flatMap_filter_eq_of_perm hperm hfiles fun w hw => (of_decide_eq_true hw).1
  rw [runRules_eq, runRules_eq, hviolations, hperm.length_eq, hperm.countP_eq]

/-- The violations under the path of one file are those that the file has alone. -/
theorem filter_violations_runRules {files : List SourceFile} {file : SourceFile}
    (hfiles : files.Pairwise fun a b => ¬ a.path.Same b.path) (hmem : file ∈ files) :
    (runRules grammars fs [rule.toLintRule] files).violations.filter (file.path.Same ·.file) =
      (runRules grammars fs [rule.toLintRule] [file]).violations := by
  have hperm := List.perm_cons_erase hmem
  have hsymm {a b : SourceFile} (h : ¬ a.path.Same b.path) : ¬ b.path.Same a.path :=
    fun hba => h hba.symm
  obtain ⟨hothers, _⟩ := List.pairwise_cons.mp ((hperm.pairwise_iff hsymm).mp hfiles)
  have hself : (rule.violationsIn grammars fs file).filter (file.path.Same ·.file) =
      rule.violationsIn grammars fs file := by
    refine List.filter_eq_self.mpr fun v hv => decide_eq_true ?_
    rw [(ResultRule.of_mem_violationsIn hv).1]
    rfl
  have hrest : (files.erase file).flatMap (fun other =>
      (rule.violationsIn grammars fs other).filter (file.path.Same ·.file)) = [] := by
    refine List.flatMap_eq_nil_iff.mpr fun other hother => ?_
    exact filter_violationsIn_eq_nil (fun v hv => of_decide_eq_true hv) (hothers other hother)
  rw [runRules_eq_of_perm hperm hfiles, runRules_eq, runRules_eq, Violation.filter_mergeSort,
    List.filter_flatMap, List.flatMap_cons, hself, hrest, List.flatMap_singleton, List.append_nil]

end

/-- A run with the rule about Results gives the violations of its files, each once,
in the order of places and as found at one place, and counts the files and those it
skips.  When no two files have the same path, their order does not matter, and each
file has the violations that it has alone. -/
theorem runRules_resultRule (grammars : Grammars) (fs : FileSystem) (rule : ResultRule)
    (files : List SourceFile) :
    let outcome := runRules grammars fs [rule.toLintRule] files
    let found := files.flatMap (rule.violationsIn grammars fs)
    outcome.violations.Perm found ∧
      outcome.violations.Pairwise (fun a b => ¬ b.Precedes a) ∧
      (∀ v : Violation,
        outcome.violations.filter (v.SamePlace ·) = found.filter (v.SamePlace ·)) ∧
      outcome.filesChecked = files.length ∧
      outcome.filesSkipped =
        files.countP (fun file => file.language.isNone || !(fs.readText file.path).isOk) ∧
      ((files.Pairwise fun a b => ¬ a.path.Same b.path) →
        (∀ files' : List SourceFile, files'.Perm files →
          runRules grammars fs [rule.toLintRule] files' = outcome) ∧
        ∀ file ∈ files, outcome.violations.filter (file.path.Same ·.file) =
          (runRules grammars fs [rule.toLintRule] [file]).violations) := by
  intro outcome found
  have houtcome : outcome = _ := runRules_eq grammars fs rule files
  refine ⟨?_, ?_, ?_, ?_, ?_, ?_⟩
  · rw [houtcome]
    exact List.mergeSort_perm found _
  · rw [houtcome]
    exact (Violation.pairwise_notAfter_mergeSort found).imp fun h =>
      (Violation.notAfter_iff ..).mp h
  · intro v
    rw [houtcome]
    exact Violation.filter_samePlace_mergeSort found v
  · rw [houtcome]
  · rw [houtcome]
    rfl
  · intro hfiles
    refine ⟨?_, ?_⟩
    · intro files' hperm
      exact (runRules_eq_of_perm hperm.symm hfiles).symm
    · intro file hmem
      exact filter_violations_runRules hfiles hmem

/-- The unit `loadResult()`. -/
def loadUnit : Tree :=
  .node ⟨.program, true, 0, 12, none⟩
    [.node ⟨⟨"expression_statement"⟩, true, 0, 12, none⟩
      [.node ⟨.callExpression, true, 0, 12, none⟩
        [.node ⟨.identifier, true, 0, 10, some "function"⟩ [],
          .node ⟨⟨"arguments"⟩, true, 10, 12, some "arguments"⟩ []]]]

theorem violations_loadUnit (path : FilePath) :
    (ResultRule.standard.violations path loadUnit "loadResult()").length = 1 := by
  rw [ResultRule.violations, List.length_map, ResultRule.check_eq_reports, Tree.nodes_eq]
  decide +kernel

/-- Two files that call `loadResult`, one that is no text, and one that may not be read. -/
def sampleFiles : FileSystem where
  entries :=
    [([], .directory .readOnly),
      ([(FilePath.ofText "work").bytes], .directory .full),
      ([(FilePath.ofText "work").bytes, (FilePath.ofText "a-b.ts").bytes],
        .file "loadResult()".toByteArray .full),
      ([(FilePath.ofText "work").bytes, (FilePath.ofText "a").bytes], .directory .full),
      ([(FilePath.ofText "work").bytes, (FilePath.ofText "a").bytes, (FilePath.ofText "b.ts").bytes],
        .file "loadResult()".toByteArray .full),
      ([(FilePath.ofText "work").bytes, (FilePath.ofText "c.ts").bytes], .file ⟨#[255]⟩ .full),
      ([(FilePath.ofText "work").bytes, (FilePath.ofText "d.ts").bytes],
        .file "loadResult()".toByteArray .denied)]
  workingDirectory := [(FilePath.ofText "work").bytes]
  userIgnore := none
  nodup := by decide +kernel
  inDirectory := by decide +kernel
  working := by decide +kernel

def samplePaths : List SourceFile :=
  ["a-b.ts", "c.ts", "/work/a/b.ts", "d.ts"].map fun path => .ofPath (.ofText path)

/-- The paths in either order give the same run, in which the file in the directory has
its one violation and the two that cannot be read as text are skipped. -/
theorem runRules_samplePaths :
    let run := runRules (fun _ _ => loadUnit) sampleFiles [ResultRule.standard.toLintRule]
    let nested : SourceFile := .ofPath (.ofText "/work/a/b.ts")
    (samplePaths.Pairwise fun a b => ¬ a.path.Same b.path) ∧
      run samplePaths.reverse = run samplePaths ∧
      (run samplePaths).violations.filter (nested.path.Same ·.file) = (run [nested]).violations ∧
      (run [nested]).violations.length = 1 ∧
      (run samplePaths).filesSkipped = 2 := by
  intro run nested
  have hpaths : samplePaths.Pairwise fun a b => ¬ a.path.Same b.path := by decide +kernel
  obtain ⟨_, _, _, _, hskipped, hdistinct⟩ :=
    runRules_resultRule (fun _ _ => loadUnit) sampleFiles .standard samplePaths
  obtain ⟨horder, halone⟩ := hdistinct hpaths
  refine ⟨hpaths, horder _ samplePaths.reverse_perm, ?_, ?_, ?_⟩
  · exact halone nested (by decide +kernel)
  · have hread : sampleFiles.readText nested.path = .ok "loadResult()" := by rfl
    have hlanguage : nested.language = some .typescript := by decide +kernel
    show (runRules _ _ _ _).violations.length = 1
    rw [runRules_eq, List.length_mergeSort, List.flatMap_singleton, ResultRule.violationsIn, hread,
      hlanguage]
    exact violations_loadUnit nested.path
  · exact hskipped.trans (by decide +kernel)

end DroppedResult
