import DroppedResult.Proofs.Selection

/-!
# What a file's name tells of its language

The languages are tried one after another, and the first one that has a suffix of the file
name is taken.  Some suffixes differ in one letter only, but no file name has suffixes of
two languages, so it does not matter which language is tried first.

* `FilePath.EndsIn` says what the file name of a path is, and `FilePath.endsIn_iff` that
  `FilePath.fileName` finds it.
* `Language.HasEnding` says that a name ends as one of a language's globs does.  This is
  what the glob means where a star stops at a slash (`Glob.matchesWith_endingIn_iff`).
* Of two suffixes of one name the shorter is a suffix of the longer, and no suffix of a
  language is a suffix of another language's suffix: `Language.HasEnding.unique`.

`Language.detect_iff_hasEnding` is the result.
-/

namespace DroppedResult

/-! ## File names -/

namespace FilePath

/-- The name is the text after the last slash of the path, or the whole path when there is
no slash. -/
def EndsIn (path : FilePath) (name : Name) : Prop :=
  slash ∉ name ∧ (path.bytes = name ∨ ∃ front, path.bytes = front ++ slash :: name)

theorem exists_endsIn (path : FilePath) : ∃ name, path.EndsIn name := by
  by_cases hslash : slash ∈ path.bytes
  · -- the last slash is the first one from the end
    obtain ⟨back, front, hsplit, hback⟩ := List.eq_append_cons_of_mem (List.mem_reverse.mpr hslash)
    refine ⟨back.reverse, by simpa using hback, .inr ⟨front.reverse, ?_⟩⟩
    rw [← List.reverse_reverse path.bytes, hsplit]
    simp
  · exact ⟨path.bytes, hslash, .inl rfl⟩

theorem EndsIn.fileName_eq {path : FilePath} {name : Name} (h : path.EndsIn name) :
    path.fileName = name := by
  obtain ⟨hslash, hbytes⟩ := h
  have hname : ∀ b ∈ name.reverse, (b != slash) = true := by
    intro b hb
    rw [bne_iff_ne]
    rintro rfl
    exact hslash (List.mem_reverse.mp hb)
  rw [fileName, List.reverse_eq_iff]
  rcases hbytes with hwhole | ⟨front, hsplit⟩
  · rw [hwhole, List.takeWhile_eq_self_iff]
    exact hname
  · rw [hsplit, List.reverse_append, List.reverse_cons, List.append_assoc,
      List.takeWhile_append_of_pos hname]
    simp

theorem endsIn_iff {path : FilePath} {name : Name} :
    path.EndsIn name ↔ path.fileName = name := by
  refine ⟨EndsIn.fileName_eq, ?_⟩
  rintro rfl
  obtain ⟨name, hname⟩ := path.exists_endsIn
  rwa [hname.fileName_eq]

end FilePath

/-! ## Globs for the end of a name -/

namespace Glob

/-- What a star and the suffix after it are read as. -/
def endingIn (suffix : String) : Glob :=
  ⟨.star :: suffix.toList.map .literal⟩

theorem matchTokens_nil_iff (literalSlash : Bool) (bytes : List UInt8) :
    matchTokens literalSlash [] bytes = true ↔ bytes = [] := by
  rw [matchTokens, List.isEmpty_iff]

/-- A star takes any part of a name away. -/
theorem matchTokens_star_iff (literalSlash : Bool) (ts : List Token) {name : Name}
    (hname : FilePath.slash ∉ name) :
    matchTokens literalSlash (.star :: ts) name = true ↔
      ∃ stem rest, name = stem ++ rest ∧ matchTokens literalSlash ts rest = true := by
  induction name with
  | nil => simp [matchTokens]
  | cons b name ih =>
    rw [List.mem_cons, not_or] at hname
    obtain ⟨hb, hrest⟩ := hname
    have hstep : (!(literalSlash && b == slashByte)) = true := by
      have hne : (b == slashByte) = false := beq_eq_false_iff_ne.mpr (Ne.symm hb)
      rw [hne, Bool.and_false]
      rfl
    rw [matchTokens, hstep, Bool.true_and, Bool.or_eq_true, ih hrest]
    constructor
    · rintro (hhere | ⟨stem, rest, rfl, hlater⟩)
      · exact ⟨[], b :: name, rfl, hhere⟩
      · exact ⟨b :: stem, rest, rfl, hlater⟩
    · rintro ⟨stem, rest, hsplit, hmatch⟩
      cases stem with
      | nil =>
        obtain rfl : b :: name = rest := hsplit
        exact .inl hmatch
      | cons b' stem =>
        obtain ⟨_, rfl⟩ := List.cons.inj hsplit
        exact .inr ⟨stem, rest, rfl, hmatch⟩

/-- A star and a suffix match the names that end in the suffix. -/
theorem matchesWith_endingIn_iff (literalSlash : Bool) (suffix : String) {name : Name}
    (hname : FilePath.slash ∉ name) :
    (endingIn suffix).matchesWith literalSlash name = true ↔
      (FilePath.ofText suffix).bytes <:+ name := by
  have hliterals (rest : List UInt8) :
      matchTokens literalSlash (suffix.toList.map .literal) rest = true ↔
        rest = (FilePath.ofText suffix).bytes := by
    rw [← List.append_nil (suffix.toList.map Token.literal), matchTokens_literals_iff,
      ← bytes_ofText]
    simp [matchTokens_nil_iff]
  rw [matchesWith, endingIn, matchTokens_star_iff literalSlash _ hname]
  simp only [hliterals]
  constructor
  · rintro ⟨stem, rest, rfl, rfl⟩
    exact ⟨stem, rfl⟩
  · rintro ⟨stem, rfl⟩
    exact ⟨stem, _, rfl, rfl⟩

end Glob

/-! ## Languages -/

namespace Language

/-- The name ends with what one of the language's globs has after its star. -/
def HasEnding (l : Language) (name : Name) : Prop :=
  ∃ suffix, "*" ++ suffix ∈ l.globs ∧ (FilePath.ofText suffix).bytes <:+ name

/-- The name matches one of the language's globs, where a star stops at a slash. -/
def Matches (l : Language) (name : Name) : Prop :=
  ∃ pattern ∈ l.globs, ∃ glob, Glob.parse pattern = .ok glob ∧ glob.matchesWith true name = true

theorem mem_all (l : Language) : l ∈ all := by
  cases l <;> decide

theorem mem_globs_iff {l : Language} {suffix : String} :
    "*" ++ suffix ∈ l.globs ↔ suffix ∈ l.suffixes := by
  rw [globs, List.mem_map]
  constructor
  · rintro ⟨other, hother, heq⟩
    obtain rfl := (String.append_right_inj "*").mp heq
    exact hother
  · intro hsuffix
    exact ⟨suffix, hsuffix, rfl⟩

theorem owns_iff {l : Language} {name : Name} : l.owns name = true ↔ l.HasEnding name := by
  simp only [owns, HasEnding, List.any_eq_true, List.isSuffixOf_iff_suffix, mem_globs_iff]

instance (l : Language) (name : Name) : Decidable (l.HasEnding name) :=
  decidable_of_iff _ owns_iff

theorem parse_glob {l : Language} {suffix : String} (h : suffix ∈ l.suffixes) :
    Glob.parse ("*" ++ suffix) = .ok (.endingIn suffix) := by
  have hall : l.suffixes.map (fun s => Glob.parse ("*" ++ s)) =
      l.suffixes.map fun s => .ok (.endingIn s) := by
    cases l <;> rfl
  exact List.map_inj_left.mp hall suffix h

theorem matches_iff_hasEnding {l : Language} {name : Name} (hname : FilePath.slash ∉ name) :
    l.Matches name ↔ l.HasEnding name := by
  constructor
  · rintro ⟨pattern, hpattern, glob, hparse, hmatch⟩
    obtain ⟨suffix, hsuffix, rfl⟩ := List.mem_map.mp hpattern
    obtain rfl := Except.ok.inj ((parse_glob hsuffix).symm.trans hparse)
    exact ⟨suffix, hpattern, (Glob.matchesWith_endingIn_iff true suffix hname).mp hmatch⟩
  · rintro ⟨suffix, hglob, hending⟩
    refine ⟨_, hglob, _, parse_glob (mem_globs_iff.mp hglob), ?_⟩
    exact (Glob.matchesWith_endingIn_iff true suffix hname).mpr hending

/-- No suffix of a language is a suffix of another language's suffix. -/
theorem eq_of_suffix {l₁ l₂ : Language} {s₁ s₂ : String} (h₁ : s₁ ∈ l₁.suffixes)
    (h₂ : s₂ ∈ l₂.suffixes)
    (hsuffix : (FilePath.ofText s₁).bytes <:+ (FilePath.ofText s₂).bytes) : l₁ = l₂ := by
  have hall : ∀ l₁ ∈ all, ∀ l₂ ∈ all, ∀ s₁ ∈ l₁.suffixes, ∀ s₂ ∈ l₂.suffixes,
      (FilePath.ofText s₁).bytes <:+ (FilePath.ofText s₂).bytes → l₁ = l₂ := by
    decide +kernel
  exact hall l₁ l₁.mem_all l₂ l₂.mem_all s₁ h₁ s₂ h₂ hsuffix

theorem HasEnding.unique {l₁ l₂ : Language} {name : Name} (h₁ : l₁.HasEnding name)
    (h₂ : l₂.HasEnding name) : l₁ = l₂ := by
  obtain ⟨s₁, hs₁, hend₁⟩ := h₁
  obtain ⟨s₂, hs₂, hend₂⟩ := h₂
  rw [mem_globs_iff] at hs₁ hs₂
  -- both end the same name, so one of them ends the other
  rcases List.suffix_or_suffix_of_suffix hend₁ hend₂ with h | h
  · exact eq_of_suffix hs₁ hs₂ h
  · exact (eq_of_suffix hs₂ hs₁ h).symm

/-- In whatever order the languages are tried, the one with the name's ending is found. -/
theorem find?_owns_eq_some_iff {order : List Language} (horder : all ⊆ order) (name : Name)
    (l : Language) : order.find? (·.owns name) = some l ↔ l.HasEnding name := by
  constructor
  · intro hfound
    have howns := List.find?_some hfound
    exact owns_iff.mp howns
  · intro hending
    have hfound : (order.find? (·.owns name)).isSome = true := by
      rw [List.find?_isSome]
      exact ⟨l, horder l.mem_all, owns_iff.mpr hending⟩
    obtain ⟨other, hother⟩ := Option.isSome_iff_exists.mp hfound
    have howns := List.find?_some hother
    rwa [hending.unique (owns_iff.mp howns)]

/-- A path tells the language that has the ending of its file name, and none when no
language has it.  A name has endings of one language at most, so the languages can be
tried in any order.  Having an ending is matching one of the globs. -/
theorem detect_iff_hasEnding :
    (∀ (path : FilePath) (name : Name), path.EndsIn name ↔ path.fileName = name) ∧
      (∀ (path : FilePath) (l : Language),
        detect path = some l ↔ l.HasEnding path.fileName) ∧
      (∀ path : FilePath, detect path = none ↔ ∀ l : Language, ¬ l.HasEnding path.fileName) ∧
      (∀ (name : Name) (l₁ l₂ : Language), l₁.HasEnding name → l₂.HasEnding name → l₁ = l₂) ∧
      (∀ (path : FilePath) (order : List Language), all ⊆ order →
        order.find? (·.owns path.fileName) = detect path) ∧
      ∀ (path : FilePath) (l : Language),
        l.Matches path.fileName ↔ l.HasEnding path.fileName := by
  have hdetect (path : FilePath) (l : Language) :
      detect path = some l ↔ l.HasEnding path.fileName :=
    find?_owns_eq_some_iff (List.Subset.refl all) path.fileName l
  refine ⟨fun _ _ => FilePath.endsIn_iff, hdetect, ?_, fun _ _ _ => HasEnding.unique, ?_, ?_⟩
  · intro path
    simp only [Option.eq_none_iff_forall_ne_some, ne_eq, hdetect]
  · intro path order horder
    refine Option.ext fun l => ?_
    rw [find?_owns_eq_some_iff horder, hdetect]
  · intro path l
    obtain ⟨hslash, _⟩ : path.EndsIn path.fileName := FilePath.endsIn_iff.mpr rfl
    exact matches_iff_hasEnding hslash

/-- A name that is nothing but a suffix tells a language, whatever the directory is called and
whichever language is tried first.  Capital letters tell none. -/
theorem detect_bareSuffix :
    detect (.ofText "a.tsx/.mts") = some .typescript ∧
      [javascript, typescript, tsx].find? (·.owns (FilePath.ofText "a.tsx/.mts").fileName) =
        some .typescript ∧
      detect (.ofText "a.ts/b.TS") = none := by
  obtain ⟨_, hsome, hnone, _, horder, _⟩ := detect_iff_hasEnding
  have hmts : detect (.ofText "a.tsx/.mts") = some .typescript :=
    (hsome _ _).mpr ⟨".mts", by decide, by decide +kernel⟩
  refine ⟨hmts, (horder _ _ (by decide)).trans hmts, (hnone _).mpr ?_⟩
  intro l
  cases l <;> decide +kernel

end Language

end DroppedResult
