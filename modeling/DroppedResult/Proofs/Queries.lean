import DroppedResult.Proofs.MethodChains

/-!
# Queries in a method chain

Six of the transforming methods give a result again.  The other two, `isOk` and `isErr`,
ask a result a question, and their value is no result (`queryMethods`).  The walk of
`Cursor.isHandled` makes no difference between the two groups, so it goes on past a query.

* `Cursor.ResultStep` is a step of a chain that keeps a result, and `Cursor.ReachesCall` is
  a path of such steps up to the call of a method.  A chain comes to one call only that does
  not keep a result (`Cursor.ReachesCall.unique`).
* `Cursor.HandledAsResult` says that this call is one of a handling method, and
  `Cursor.Queried` that it is a query.
* A path of `Cursor.LeadsTo` to a handling method is of one of two forms: it keeps a result
  all the way, or it leads to a query and goes on from the value of the query
  (`Cursor.LeadsTo.handledAsResult_or_queried`).

`Cursor.isHandled_past_query` is the result.  A query does not end the walk:
`Cursor.not_forall_queried_unhandled` has a chain with a query that is handled.
-/

namespace DroppedResult

/-- The methods of a result whose value is a result. -/
def resultMethods : List String :=
  ["map", "mapErr", "andThen", "orElse", "asyncAndThen", "asyncMap"]

/-- The methods of a result that tell which of the two it is. -/
def queryMethods : List String :=
  ["isOk", "isErr"]

theorem mem_transformingMethods_iff {name : String} :
    name ∈ transformingMethods ↔ name ∈ resultMethods ∨ name ∈ queryMethods := by
  rw [← List.mem_append]
  rfl

theorem not_mem_resultMethods_of_mem_queryMethods {name : String}
    (h : name ∈ queryMethods) : name ∉ resultMethods := by
  revert name
  decide

theorem not_mem_queryMethods_of_mem_handlingMethods {name : String}
    (h : name ∈ handlingMethods) : name ∉ queryMethods := by
  revert name
  decide

theorem not_mem_resultMethods_of_mem_handlingMethods {name : String}
    (h : name ∈ handlingMethods) : name ∉ resultMethods := by
  revert name
  decide

namespace Cursor

/-! ## Steps that keep a result -/

/-- One step of a chain, to a wrapper or to the call of a method that gives a result. -/
inductive ResultStep (source : String) : Cursor → Cursor → Prop where
  | wrapper {c w : Cursor} (hparent : c.parent? = some w)
      (hkind : w.kind.isTransparent = true) : ResultStep source c w
  | method {c m call : Cursor} {name : String} (hcall : MethodCall source c m call name)
      (hname : name ∈ resultMethods) : ResultStep source c call

/-- Steps that keep a result lead from a node to `call`, a call of the method `name`. -/
inductive ReachesCall (source : String) : Cursor → Cursor → String → Prop where
  | here {c m call : Cursor} {name : String} (hcall : MethodCall source c m call name) :
      ReachesCall source c call name
  | step {c d call : Cursor} {name : String} (hstep : ResultStep source c d)
      (rest : ReachesCall source d call name) : ReachesCall source c call name

/-- A handling method is called on the result itself. -/
def HandledAsResult (source : String) (n : Cursor) : Prop :=
  ∃ call, ∃ name ∈ handlingMethods, ReachesCall source n call name

/-- The result is asked a question, and `call` is the answer. -/
def Queried (source : String) (n call : Cursor) : Prop :=
  ∃ name ∈ queryMethods, ReachesCall source n call name

variable {source : String}

theorem ResultStep.chainStep {c d : Cursor} (h : ResultStep source c d) :
    ChainStep source c d := by
  cases h with
  | wrapper hparent hkind => exact .wrapper hparent hkind
  | method hcall hname => exact .method hcall (mem_transformingMethods_iff.mpr (.inl hname))

theorem ChainStep.resultStep_or_queried {c d : Cursor} (h : ChainStep source c d) :
    ResultStep source c d ∨ Queried source c d := by
  cases h with
  | wrapper hparent hkind => exact .inl (.wrapper hparent hkind)
  | @method m _ name hcall hname =>
    rcases mem_transformingMethods_iff.mp hname with hresult | hquery
    · exact .inl (.method hcall hresult)
    · exact .inr ⟨name, hquery, .here hcall⟩

theorem MethodCall.not_resultStep {c m call d : Cursor} {name : String}
    (h : MethodCall source c m call name) (hname : name ∉ resultMethods) :
    ¬ ResultStep source c d := by
  intro hstep
  cases hstep with
  | wrapper hparent hkind =>
    rw [h.not_wrapper hparent] at hkind
    cases hkind
  | method hcall hresult =>
    rw [← (h.unique hcall).2] at hresult
    exact hname hresult

/-- Steps that keep a result lead to one call at most of a method that does not. -/
theorem ReachesCall.unique {n call call' : Cursor} {name name' : String}
    (h : ReachesCall source n call name) (hname : name ∉ resultMethods)
    (h' : ReachesCall source n call' name') (hname' : name' ∉ resultMethods) :
    call = call' ∧ name = name' := by
  induction h with
  | here hcall =>
    cases h' with
    | here hcall' => exact hcall.unique hcall'
    | step hstep _ => exact absurd hstep (hcall.not_resultStep hname)
  | step hstep _ ih =>
    cases h' with
    | here hcall' => exact absurd hstep (hcall'.not_resultStep hname')
    | step hstep' rest' =>
      obtain rfl := hstep.chainStep.unique hstep'.chainStep
      exact ih hname rest'

theorem Queried.unique {n call call' : Cursor} (h : Queried source n call)
    (h' : Queried source n call') : call = call' := by
  obtain ⟨name, hname, hreaches⟩ := h
  obtain ⟨name', hname', hreaches'⟩ := h'
  exact (hreaches.unique (not_mem_resultMethods_of_mem_queryMethods hname) hreaches'
    (not_mem_resultMethods_of_mem_queryMethods hname')).1

theorem Queried.not_handledAsResult {n call : Cursor} (h : Queried source n call) :
    ¬ HandledAsResult source n := by
  obtain ⟨name, hname, hreaches⟩ := h
  rintro ⟨call', name', hname', hreaches'⟩
  obtain ⟨_, rfl⟩ := hreaches.unique (not_mem_resultMethods_of_mem_queryMethods hname)
    hreaches' (not_mem_resultMethods_of_mem_handlingMethods hname')
  exact not_mem_queryMethods_of_mem_handlingMethods hname' hname

/-! ## The walk along such steps -/

/-- The walk comes from a node to where the method is called. -/
theorem ReachesCall.isHandled_eq {n call : Cursor} {name : String}
    (h : ReachesCall source n call name) :
    n.isHandled source = (methodRole (some name)).handles (call.isHandled source) := by
  induction h with
  | here hcall => exact hcall.isHandled_eq
  | step hstep _ ih => rw [hstep.chainStep.isHandled_eq, ih]

theorem HandledAsResult.isHandled {n : Cursor} (h : HandledAsResult source n) :
    n.isHandled source = true := by
  obtain ⟨call, name, hname, hreaches⟩ := h
  rw [hreaches.isHandled_eq, methodRole_of_mem_handlingMethods hname]
  rfl

/-- The verdict on a result that is asked a question is the verdict on the answer. -/
theorem Queried.isHandled_eq {n call : Cursor} (h : Queried source n call) :
    n.isHandled source = call.isHandled source := by
  obtain ⟨name, hname, hreaches⟩ := h
  rw [hreaches.isHandled_eq,
    methodRole_of_mem_transformingMethods (mem_transformingMethods_iff.mpr (.inr hname))]
  rfl

theorem LeadsTo.handledAsResult_or_queried {n last : Cursor} {cs : List Cursor}
    (h : LeadsTo source n cs last) (hmeets : MeetsHandler source last) :
    HandledAsResult source n ∨
      ∃ call cs', Queried source n call ∧ LeadsTo source call cs' last := by
  induction h with
  | here c =>
    obtain ⟨m, call, name, hcall, hname⟩ := hmeets
    exact .inl ⟨call, name, hname, .here hcall⟩
  | @step c d last cs hstep hrest ih =>
    rcases hstep.resultStep_or_queried with hresult | hqueried
    · rcases ih hmeets with ⟨call, name, hname, hreaches⟩ |
        ⟨call, cs', ⟨name, hname, hreaches⟩, hafter⟩
      · exact .inl ⟨call, name, hname, .step hresult hreaches⟩
      · exact .inr ⟨call, cs', ⟨name, hname, .step hresult hreaches⟩, hafter⟩
    -- the path from the answer on may have more queries
    · exact .inr ⟨d, cs, hqueried, hrest⟩

theorem isHandled_iff_handledAsResult_or_queried (source : String) (n : Cursor) :
    n.isHandled source = true ↔ HandledAsResult source n ∨
      ∃ call cs last, Queried source n call ∧ LeadsTo source call cs last ∧
        MeetsHandler source last := by
  constructor
  · intro hhandled
    obtain ⟨cs, last, hpath, hmeets | hbreaks⟩ := exists_leadsTo source n
    · rcases hpath.handledAsResult_or_queried hmeets with hresult | ⟨call, cs', hqueried, hafter⟩
      · exact .inl hresult
      · exact .inr ⟨call, cs', last, hqueried, hafter, hmeets⟩
    · rw [hpath.isHandled_eq.1, hbreaks.isHandled] at hhandled
      cases hhandled
  · rintro (hresult | ⟨call, cs, last, hqueried, hafter, hmeets⟩)
    · exact hresult.isHandled
    · rw [hqueried.isHandled_eq, hafter.isHandled_eq.1, hmeets.isHandled]

/-- A node is handled when a handling method is called on the result itself, or when the
result is asked a question and a path leads from the answer to a called handling method.
Of a node that is asked a question only the second can hold. -/
theorem isHandled_past_query (source : String) (n : Cursor) :
    (n.isHandled source = true ↔ HandledAsResult source n ∨
        ∃ call cs last, Queried source n call ∧ LeadsTo source call cs last ∧
          MeetsHandler source last) ∧
      ∀ call, Queried source n call → ¬ HandledAsResult source n ∧
        (n.isHandled source = true ↔
          ∃ cs last, LeadsTo source call cs last ∧ MeetsHandler source last) := by
  have hiff := isHandled_iff_handledAsResult_or_queried source n
  refine ⟨hiff, ?_⟩
  intro call hqueried
  refine ⟨hqueried.not_handledAsResult, ?_⟩
  rw [hiff, or_iff_right hqueried.not_handledAsResult]
  constructor
  · rintro ⟨call', cs, last, hqueried', hafter, hmeets⟩
    obtain rfl := hqueried.unique hqueried'
    exact ⟨cs, last, hafter, hmeets⟩
  · rintro ⟨cs, last, hafter, hmeets⟩
    exact ⟨call, cs, last, hqueried, hafter, hmeets⟩

/-! ## A question with a default for the answer -/

def defaultedSource : String :=
  "ok(1).map(f).isOk().unwrapOr(0)"

/-- The frames from the call of `isOk` upwards. -/
def defaultFrames : List Frame :=
  [accessFrame 20 28, callFrame 28 31 none, ⟨⟨.program, true, 0, 31, none⟩, [], []⟩]

def questionFrames : List Frame :=
  accessFrame 13 17 :: callFrame 17 19 (some "object") :: defaultFrames

def questionedOk : Cursor :=
  ⟨.node ⟨.callExpression, true, 0, 5, some "object"⟩
      [.node ⟨.identifier, true, 0, 2, some "function"⟩ [],
        .node ⟨⟨"arguments"⟩, true, 2, 5, some "arguments"⟩ []],
    accessFrame 6 9 :: callFrame 9 12 (some "object") :: questionFrames⟩

def questionedMap : Cursor :=
  ⟨(callFrame 9 12 (some "object")).plug ((accessFrame 6 9).plug questionedOk.focus),
    questionFrames⟩

def answer : Cursor :=
  ⟨(callFrame 17 19 (some "object")).plug ((accessFrame 13 17).plug questionedMap.focus),
    defaultFrames⟩

theorem queried_questionedOk : Queried defaultedSource questionedOk answer := by
  have hmap : Source.textBetween defaultedSource 6 9 = "map" := by decide +kernel
  have hquery : Source.textBetween defaultedSource 13 17 = "isOk" := by decide +kernel
  have hstep : ResultStep defaultedSource questionedOk questionedMap :=
    .method (methodCall_accessFrame rfl hmap _ _) (by decide)
  exact ⟨"isOk", by decide, .step hstep (.here (methodCall_accessFrame rfl hquery _ _))⟩

/-- The call of `unwrapOr` is one on a Boolean, and nothing is called on the result. -/
theorem isHandled_questionedOk :
    ¬ HandledAsResult defaultedSource questionedOk ∧
      questionedOk.isHandled defaultedSource = true := by
  obtain ⟨_, hqueried⟩ := isHandled_past_query defaultedSource questionedOk
  obtain ⟨hnot, hiff⟩ := hqueried answer queried_questionedOk
  refine ⟨hnot, hiff.mpr ⟨[], answer, .here answer, ?_⟩⟩
  have hname : Source.textBetween defaultedSource 20 28 = "unwrapOr" := by decide +kernel
  exact ⟨_, _, "unwrapOr", methodCall_accessFrame rfl hname _ _, by decide⟩

/-- A result that is asked a question may count as handled. -/
theorem not_forall_queried_unhandled :
    ¬ ∀ (source : String) (n call : Cursor), Queried source n call →
      n.isHandled source = false := by
  intro hall
  have hunhandled := hall defaultedSource questionedOk answer queried_questionedOk
  have hhandled : questionedOk.isHandled defaultedSource = true := by decide +kernel
  rw [hhandled] at hunhandled
  cases hunhandled

end Cursor

end DroppedResult
