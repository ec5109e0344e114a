import DroppedResult.Proofs.Relatives

/-!
# Method chains as paths

`Cursor.isHandled` walks up from a node and stops at the first thing that settles the
matter.  Here the walk is told as a path in the tree.

* `MethodCall` is a called method of a node, and `ChainStep` is one step of the path: to
  a wrapper around the node, or to the call of a transforming method of it.
* A path ends well where a handling method is called (`MeetsHandler`).  It ends badly
  where the node has no parent, is not the object of an access, or is the object of one
  that is not called or has another name (`ChainBreaks`).  Every node is in one of the
  three cases (`chain_cases`), and a step goes to one node only (`ChainStep.unique`).
* One lemma for each case says what the walk does there: `ChainStep.isHandled_eq`,
  `MeetsHandler.isHandled`, `ChainBreaks.isHandled`.  No other proof looks into the walk.

`Cursor.isHandled_iff_leadsTo_handler` is the result.
-/

namespace DroppedResult

theorem not_mem_handlingMethods_of_mem_transformingMethods {name : String}
    (h : name ∈ transformingMethods) : name ∉ handlingMethods := by
  revert name
  decide

namespace Cursor

/-! ## Called methods -/

/-- The method `name` of the node `c` is called: `c` is the object of the access `m`,
and `m` is the function of `call`. -/
structure MethodCall (source : String) (c m call : Cursor) (name : String) : Prop where
  member : m.kind = .memberExpression
  object : m.childByField? "object" = some c
  property : (m.childByField? "property").map (·.focus.text source) = some name
  invocation : call.kind = .callExpression
  function : call.childByField? "function" = some m

/-- One step of a chain, from a node to the node that has its value, or the value that
was made of it. -/
inductive ChainStep (source : String) : Cursor → Cursor → Prop where
  | wrapper {c w : Cursor} (hparent : c.parent? = some w)
      (hkind : w.kind.isTransparent = true) : ChainStep source c w
  | method {c m call : Cursor} {name : String} (hcall : MethodCall source c m call name)
      (hname : name ∈ transformingMethods) : ChainStep source c call

/-- A handling method of the node is called. -/
def MeetsHandler (source : String) (c : Cursor) : Prop :=
  ∃ m call name, MethodCall source c m call name ∧ name ∈ handlingMethods

/-- The chain ends at the node, and nothing handles its value. -/
inductive ChainBreaks (source : String) (c : Cursor) : Prop where
  | root (hparent : c.parent? = none)
  /-- The node is an argument, or stands anywhere else where its value is not passed on
  and no access is made to it. -/
  | elsewhere {p : Cursor} (hparent : c.parent? = some p)
      (hkind : p.kind.isTransparent = false)
      (hobject : p.kind = .memberExpression → p.childByField? "object" ≠ some c)
  /-- The method is named, and not called. -/
  | uncalled {m : Cursor} (hparent : c.parent? = some m) (hmember : m.kind = .memberExpression)
      (hcall : ∀ call : Cursor, call.kind = .callExpression →
        call.childByField? "function" ≠ some m)
  /-- The access has no property, or one of another name. -/
  | otherProperty {m : Cursor} (hparent : c.parent? = some m)
      (hmember : m.kind = .memberExpression)
      (hname : ∀ name ∈ handlingMethods ++ transformingMethods,
        (m.childByField? "property").map (·.focus.text source) ≠ some name)

/-- The nodes `cs` follow on the node `n`, step by step, up to `last`. -/
inductive LeadsTo (source : String) : Cursor → List Cursor → Cursor → Prop where
  | here (c : Cursor) : LeadsTo source c [] c
  | step {c d last : Cursor} {cs : List Cursor} (hstep : ChainStep source c d)
      (rest : LeadsTo source d cs last) : LeadsTo source c (d :: cs) last

variable {source : String}

theorem chain_cases (source : String) (c : Cursor) :
    MeetsHandler source c ∨ (∃ d, ChainStep source c d) ∨ ChainBreaks source c := by
  cases hparent : c.parent? with
  | none => exact .inr (.inr (.root hparent))
  | some m =>
    cases hkind : m.kind.isTransparent with
    | true => exact .inr (.inl ⟨m, .wrapper hparent hkind⟩)
    | false =>
      by_cases hobject : m.kind = .memberExpression ∧ m.childByField? "object" = some c
      · obtain ⟨hmember, hobject⟩ := hobject
        by_cases hcall : ∃ call : Cursor, call.kind = .callExpression ∧
            call.childByField? "function" = some m
        · obtain ⟨call, hinvocation, hfunction⟩ := hcall
          by_cases hname : ∃ name ∈ handlingMethods ++ transformingMethods,
              (m.childByField? "property").map (·.focus.text source) = some name
          · obtain ⟨name, hmem, hproperty⟩ := hname
            have hcalled : MethodCall source c m call name :=
              ⟨hmember, hobject, hproperty, hinvocation, hfunction⟩
            rcases List.mem_append.mp hmem with hhandles | htransforms
            · exact .inl ⟨m, call, name, hcalled, hhandles⟩
            · exact .inr (.inl ⟨call, .method hcalled htransforms⟩)
          · refine .inr (.inr (.otherProperty hparent hmember ?_))
            intro name hmem hproperty
            exact hname ⟨name, hmem, hproperty⟩
        · refine .inr (.inr (.uncalled hparent hmember ?_))
          intro call hinvocation hfunction
          exact hcall ⟨call, hinvocation, hfunction⟩
      · refine .inr (.inr (.elsewhere hparent hkind ?_))
        intro hmember hheld
        exact hobject ⟨hmember, hheld⟩

theorem MethodCall.unique {c m m' call call' : Cursor} {name name' : String}
    (h : MethodCall source c m call name) (h' : MethodCall source c m' call' name') :
    call = call' ∧ name = name' := by
  have hm : m = m' := by
    have hparent := parent?_of_childByField? h.object
    rw [parent?_of_childByField? h'.object] at hparent
    exact (Option.some.inj hparent).symm
  subst hm
  refine ⟨?_, ?_⟩
  · have hparent := parent?_of_childByField? h.function
    rw [parent?_of_childByField? h'.function] at hparent
    exact (Option.some.inj hparent).symm
  · have hproperty := h.property
    rw [h'.property] at hproperty
    exact (Option.some.inj hproperty).symm

/-- The parent of an object is no wrapper. -/
theorem MethodCall.not_wrapper {c m call w : Cursor} {name : String}
    (h : MethodCall source c m call name) (hparent : c.parent? = some w) :
    w.kind.isTransparent = false := by
  rw [parent?_of_childByField? h.object] at hparent
  obtain rfl := Option.some.inj hparent
  rw [h.member]
  decide

theorem ChainStep.unique {c d d' : Cursor} (h : ChainStep source c d)
    (h' : ChainStep source c d') : d = d' := by
  cases h with
  | wrapper hparent hkind =>
    cases h' with
    | wrapper hparent' _ =>
      rw [hparent] at hparent'
      exact Option.some.inj hparent'
    | method hcall _ =>
      rw [hcall.not_wrapper hparent] at hkind
      cases hkind
  | method hcall _ =>
    cases h' with
    | wrapper hparent hkind =>
      rw [hcall.not_wrapper hparent] at hkind
      cases hkind
    | method hcall' _ => exact (hcall.unique hcall').1

theorem MeetsHandler.not_step {c d : Cursor} (h : MeetsHandler source c) :
    ¬ ChainStep source c d := by
  obtain ⟨m, call, name, hcall, hname⟩ := h
  intro hstep
  cases hstep with
  | wrapper hparent hkind =>
    rw [hcall.not_wrapper hparent] at hkind
    cases hkind
  | method hcall' hname' =>
    rw [(hcall.unique hcall').2] at hname
    exact not_mem_handlingMethods_of_mem_transformingMethods hname' hname

theorem ChainStep.path_length_lt {c d : Cursor} (h : ChainStep source c d) :
    d.path.length < c.path.length := by
  cases h with
  | wrapper hparent _ =>
    have := path_length_of_parent? hparent
    omega
  | method hcall _ =>
    have hm := path_length_of_parent? (parent?_of_childByField? hcall.object)
    have hd := path_length_of_parent? (parent?_of_childByField? hcall.function)
    omega

/-! ## The walk -/

theorem childByField?_eq_some_iff {c m : Cursor} {f : Frame} (hpath : c.path = f :: m.path)
    (hfocus : m.focus = f.plug c.focus) (field : String) :
    m.childByField? field = some c ↔ f.holdsAs c.label field = true := by
  obtain ⟨t, path⟩ := c
  obtain ⟨u, up⟩ := m
  obtain rfl : path = f :: up := hpath
  obtain rfl : u = f.plug t := hfocus
  exact childByField?_plug_eq_some_iff f t up field

theorem kind_eq_of_focus {c m : Cursor} {f : Frame} (hfocus : m.focus = f.plug c.focus) :
    f.label.kind = m.kind := by
  rw [kind, label, hfocus]
  rfl

theorem memberRole_eq_of_focus {c m : Cursor} {f : Frame} (hfocus : m.focus = f.plug c.focus) :
    f.memberRole c.label source =
      methodRole ((m.childByField? "property").map (·.focus.text source)) := by
  have htext : (m.childByField? "property").map (·.focus.text source) =
      m.focus.fieldText "property" source := by
    rw [Tree.fieldText, ← map_focus_childByField?, Option.map_map]
    rfl
  rw [htext, hfocus]
  exact f.memberRole_eq c.focus source

theorem isHandled_root {c : Cursor} (h : c.parent? = none) : c.isHandled source = false := by
  obtain ⟨t, path⟩ := c
  cases path with
  | nil => rfl
  | cons f up => cases h

theorem isHandled_wrapper {c w : Cursor} (hparent : c.parent? = some w)
    (hkind : w.kind.isTransparent = true) : c.isHandled source = w.isHandled source := by
  obtain ⟨f, hpath, hfocus⟩ := parent?_eq_some hparent
  rw [← kind_eq_of_focus hfocus] at hkind
  rw [isHandled, hpath, handledFrom_cons, if_pos hkind, isHandled, label, hfocus]
  rfl

/-- A node that is not wrapped is handled when it is the object of an access, the access
is called, and its name is that of a handling method, or of a transforming one and the
call is handled. -/
theorem isHandled_access {c m : Cursor} (hparent : c.parent? = some m)
    (hkind : m.kind.isTransparent = false) :
    c.isHandled source = true ↔ m.kind = .memberExpression ∧ m.childByField? "object" = some c ∧
      ∃ call : Cursor, call.kind = .callExpression ∧ call.childByField? "function" = some m ∧
        (methodRole ((m.childByField? "property").map (·.focus.text source))).handles
          (call.isHandled source) = true := by
  obtain ⟨f, hpath, hfocus⟩ := parent?_eq_some hparent
  have hobject := childByField?_eq_some_iff hpath hfocus "object"
  rw [← kind_eq_of_focus hfocus] at hkind ⊢
  rw [isHandled, hpath, handledFrom_cons, if_neg (by simp [hkind]), Bool.and_eq_true,
    Frame.isAccessOn, Bool.and_eq_true, beq_iff_eq, ← hobject, and_assoc,
    memberRole_eq_of_focus hfocus]
  refine and_congr_right fun _ => and_congr_right fun _ => ?_
  have hlabel : f.label = m.label := by
    rw [label, hfocus]
    rfl
  rw [hlabel]
  cases hup : m.parent? with
  | none =>
    obtain ⟨t, path⟩ := m
    cases path with
    | cons g up => cases hup
    | nil =>
      simp only [calledFrom, Bool.false_eq_true, false_iff, not_exists, not_and]
      intro call _ hfunction
      cases parent?_of_childByField? hfunction
  | some call =>
    obtain ⟨g, hpath', hfocus'⟩ := parent?_eq_some hup
    have hfunction := childByField?_eq_some_iff hpath' hfocus' "function"
    have hcall : g.label = call.label := by
      rw [label, hfocus']
      rfl
    rw [hpath', calledFrom, Bool.and_eq_true, Frame.isCallOf, Bool.and_eq_true, beq_iff_eq,
      ← hfunction, hcall, and_assoc]
    constructor
    · intro h
      exact ⟨call, h⟩
    · rintro ⟨call', h⟩
      have hsame := parent?_of_childByField? h.2.1
      rw [hup] at hsame
      obtain rfl := Option.some.inj hsame
      exact h

theorem MethodCall.isHandled_eq {c m call : Cursor} {name : String}
    (h : MethodCall source c m call name) :
    c.isHandled source = (methodRole (some name)).handles (call.isHandled source) := by
  have hparent := parent?_of_childByField? h.object
  rw [Bool.eq_iff_iff, isHandled_access hparent (h.not_wrapper hparent), h.property]
  constructor
  · rintro ⟨_, _, call', _, hfunction, hhandles⟩
    have hsame := parent?_of_childByField? hfunction
    rw [parent?_of_childByField? h.function] at hsame
    rwa [Option.some.inj hsame]
  · intro hhandles
    exact ⟨h.member, h.object, call, h.invocation, h.function, hhandles⟩

theorem ChainStep.isHandled_eq {c d : Cursor} (h : ChainStep source c d) :
    c.isHandled source = d.isHandled source := by
  cases h with
  | wrapper hparent hkind => exact isHandled_wrapper hparent hkind
  | method hcall hname =>
    rw [hcall.isHandled_eq, methodRole_of_mem_transformingMethods hname]
    rfl

theorem MeetsHandler.isHandled {c : Cursor} (h : MeetsHandler source c) :
    c.isHandled source = true := by
  obtain ⟨m, call, name, hcall, hname⟩ := h
  rw [hcall.isHandled_eq, methodRole_of_mem_handlingMethods hname]
  rfl

theorem methodRole_handles_eq_true {property : Option String} {onward : Bool}
    (h : (methodRole property).handles onward = true) :
    ∃ name ∈ handlingMethods ++ transformingMethods, property = some name := by
  cases property with
  | none => cases h
  | some name =>
    refine ⟨name, ?_, rfl⟩
    rw [methodRole] at h
    split at h
    · rename_i hhandles
      exact List.mem_append_left _ (List.contains_iff_mem.mp hhandles)
    · split at h
      · rename_i htransforms
        exact List.mem_append_right _ (List.contains_iff_mem.mp htransforms)
      · cases h

theorem ChainBreaks.isHandled {c : Cursor} (h : ChainBreaks source c) :
    c.isHandled source = false := by
  have hmember_kind : Kind.isTransparent .memberExpression = false := by decide
  rw [Bool.eq_false_iff]
  intro hhandled
  cases h with
  | root hparent =>
    rw [isHandled_root hparent] at hhandled
    cases hhandled
  | elsewhere hparent hkind hobject =>
    obtain ⟨hmember, hheld, _⟩ := (isHandled_access hparent hkind).mp hhandled
    exact hobject hmember hheld
  | uncalled hparent hmember hcall =>
    obtain ⟨_, _, call, hinvocation, hfunction, _⟩ :=
      (isHandled_access hparent (hmember ▸ hmember_kind)).mp hhandled
    exact hcall call hinvocation hfunction
  | otherProperty hparent hmember hname =>
    obtain ⟨_, _, _, _, _, hhandles⟩ :=
      (isHandled_access hparent (hmember ▸ hmember_kind)).mp hhandled
    obtain ⟨name, hmem, hproperty⟩ := methodRole_handles_eq_true hhandles
    exact hname name hmem hproperty

/-! ## Paths -/

/-- From every node there is a path to where the chain ends. -/
theorem exists_leadsTo (source : String) (n : Cursor) :
    ∃ cs last, LeadsTo source n cs last ∧ (MeetsHandler source last ∨ ChainBreaks source last) := by
  -- a step leaves fewer frames above
  induction hlength : n.path.length using Nat.strongRecOn generalizing n with
  | ind length ih =>
    rcases chain_cases source n with hmeets | ⟨d, hstep⟩ | hbreaks
    · exact ⟨[], n, .here n, .inl hmeets⟩
    · have hshorter : d.path.length < length := hlength ▸ hstep.path_length_lt
      obtain ⟨cs, last, hrest, hend⟩ := ih d.path.length hshorter d rfl
      exact ⟨d :: cs, last, .step hstep hrest, hend⟩
    · exact ⟨[], n, .here n, .inr hbreaks⟩

theorem LeadsTo.isHandled_eq {n last : Cursor} {cs : List Cursor}
    (h : LeadsTo source n cs last) :
    n.isHandled source = last.isHandled source ∧
      ∀ c ∈ cs, c.isHandled source = n.isHandled source := by
  induction h with
  | here c => exact ⟨rfl, by simp⟩
  | @step c d last cs hstep _ ih =>
    obtain ⟨hlast, hall⟩ := ih
    have hsame := hstep.isHandled_eq
    refine ⟨hsame.trans hlast, ?_⟩
    intro e he
    rcases List.mem_cons.mp he with rfl | he
    · exact hsame.symm
    · exact (hall e he).trans hsame.symm

theorem LeadsTo.unique {n last last' : Cursor} {cs cs' : List Cursor}
    (h : LeadsTo source n cs last) (hlast : MeetsHandler source last)
    (h' : LeadsTo source n cs' last') (hlast' : MeetsHandler source last') :
    cs = cs' ∧ last = last' := by
  induction h generalizing cs' with
  | here c =>
    cases h' with
    | here => exact ⟨rfl, rfl⟩
    | step hstep _ => exact absurd hstep hlast.not_step
  | @step c d last cs hstep _ ih =>
    cases h' with
    | here => exact absurd hstep hlast'.not_step
    | @step _ d' _ cs' hstep' rest' =>
      obtain rfl := hstep.unique hstep'
      obtain ⟨rfl, hlasts⟩ := ih hlast rest'
      exact ⟨rfl, hlasts⟩

/-- A node is handled when a path leads from it to a called handling method.  There is
one such path at most, and all nodes of a path have one verdict.  A node is not handled
when a path leads from it to where the chain breaks. -/
theorem isHandled_iff_leadsTo_handler (source : String) (n : Cursor) :
    (n.isHandled source = true ↔
        ∃ cs last, LeadsTo source n cs last ∧ MeetsHandler source last) ∧
      (∀ cs last cs' last', LeadsTo source n cs last → MeetsHandler source last →
        LeadsTo source n cs' last' → MeetsHandler source last' → cs = cs' ∧ last = last') ∧
      (∀ cs last, LeadsTo source n cs last →
        ∀ c ∈ cs, c.isHandled source = n.isHandled source) ∧
      (n.isHandled source = false ↔
        ∃ cs last, LeadsTo source n cs last ∧ ChainBreaks source last) := by
  obtain ⟨cs, last, hpath, hend⟩ := exists_leadsTo source n
  have hverdict := hpath.isHandled_eq.1
  refine ⟨?_, ?_, ?_, ?_⟩
  · constructor
    · intro hhandled
      refine ⟨cs, last, hpath, hend.resolve_right ?_⟩
      intro hbreaks
      rw [hverdict, hbreaks.isHandled] at hhandled
      cases hhandled
    · rintro ⟨cs', last', hpath', hmeets⟩
      rw [hpath'.isHandled_eq.1, hmeets.isHandled]
  · intro cs' last' cs'' last'' h' hmeets' h'' hmeets''
    exact h'.unique hmeets' h'' hmeets''
  · intro cs' last' h'
    exact h'.isHandled_eq.2
  · constructor
    · intro hunhandled
      refine ⟨cs, last, hpath, hend.resolve_left ?_⟩
      intro hmeets
      rw [hverdict, hmeets.isHandled] at hunhandled
      cases hunhandled
    · rintro ⟨cs', last', hpath', hbreaks⟩
      rw [hpath'.isHandled_eq.1, hbreaks.isHandled]

/-! ## A wrapped chain -/

/-- `(ok(1)).map(f).unwrapOr(0)` -/
def wrappedSource : String :=
  "(ok(1)).map(f).unwrapOr(0)"

def wrapperFrame : Frame :=
  ⟨⟨.parenthesizedExpression, true, 0, 7, some "object"⟩,
    [.node ⟨⟨"("⟩, false, 0, 1, none⟩ []], [.node ⟨⟨")"⟩, false, 6, 7, none⟩ []]⟩

/-- An access to the property between the given offsets. -/
def accessFrame (start stop : Nat) : Frame :=
  ⟨⟨.memberExpression, true, 0, stop, some "function"⟩, [],
    [.node ⟨⟨"property_identifier"⟩, true, start, stop, some "property"⟩ []]⟩

/-- A call whose arguments stand between the given offsets. -/
def callFrame (start stop : Nat) (field : Option String) : Frame :=
  ⟨⟨.callExpression, true, 0, stop, field⟩, [],
    [.node ⟨⟨"arguments"⟩, true, start, stop, some "arguments"⟩ []]⟩

/-- The frames from the call of `map` upwards. -/
def unwrapFrames : List Frame :=
  [accessFrame 15 23, callFrame 23 26 none, ⟨⟨.program, true, 0, 26, none⟩, [], []⟩]

def mapFrames : List Frame :=
  accessFrame 8 11 :: callFrame 11 14 (some "object") :: unwrapFrames

def wrappedOk : Cursor :=
  ⟨.node ⟨.callExpression, true, 1, 6, none⟩
      [.node ⟨.identifier, true, 1, 3, some "function"⟩ [],
        .node ⟨⟨"arguments"⟩, true, 3, 6, some "arguments"⟩ []],
    wrapperFrame :: mapFrames⟩

def okInParentheses : Cursor :=
  ⟨wrapperFrame.plug wrappedOk.focus, mapFrames⟩

def okMapped : Cursor :=
  ⟨(callFrame 11 14 (some "object")).plug ((accessFrame 8 11).plug okInParentheses.focus),
    unwrapFrames⟩

theorem methodCall_accessFrame {t : Tree} (hobject : t.label.field = some "object")
    {start stop stop' : Nat} {name : String}
    (hname : Source.textBetween source start stop = name) (field : Option String)
    (up : List Frame) :
    MethodCall source ⟨t, accessFrame start stop :: callFrame stop stop' field :: up⟩
      ⟨(accessFrame start stop).plug t, callFrame stop stop' field :: up⟩
      ⟨(callFrame stop stop' field).plug ((accessFrame start stop).plug t), up⟩ name where
  member := rfl
  object := by
    rw [childByField?_plug_eq_some_iff, Frame.holdsAs_eq_true_iff]
    exact ⟨hobject, by simp [accessFrame]⟩
  property := by
    simp [childByField?, children, row, label, hobject, Frame.plug, accessFrame, Tree.text,
      Label.text, hname]
  invocation := rfl
  function := by
    rw [childByField?_plug_eq_some_iff]
    rfl

/-- The path from `ok(1)` goes to the parentheses and from there to the call of `map`,
and no other path leads to a handling method. -/
theorem isHandled_wrappedOk :
    wrappedOk.isHandled wrappedSource = true ∧
      ∀ cs last, LeadsTo wrappedSource wrappedOk cs last → MeetsHandler wrappedSource last →
        cs = [okInParentheses, okMapped] ∧ last = okMapped := by
  obtain ⟨hiff, hunique, _, _⟩ := isHandled_iff_leadsTo_handler wrappedSource wrappedOk
  have hmap : ChainStep wrappedSource okInParentheses okMapped := by
    have hname : Source.textBetween wrappedSource 8 11 = "map" := by decide +kernel
    exact .method (methodCall_accessFrame rfl hname _ _) (by decide)
  have hpath : LeadsTo wrappedSource wrappedOk [okInParentheses, okMapped] okMapped :=
    .step (.wrapper rfl rfl) (.step hmap (.here okMapped))
  have hmeets : MeetsHandler wrappedSource okMapped := by
    have hname : Source.textBetween wrappedSource 15 23 = "unwrapOr" := by decide +kernel
    exact ⟨_, _, "unwrapOr", methodCall_accessFrame rfl hname _ _, by decide⟩
  refine ⟨hiff.mpr ⟨_, _, hpath, hmeets⟩, ?_⟩
  intro cs last hother hlast
  exact hunique cs last _ _ hother hlast hpath hmeets

end Cursor

end DroppedResult
