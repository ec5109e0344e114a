import DroppedResult.Proofs.MethodChains
import DroppedResult.Proofs.Wrapping

/-!
# One finding for each chain of calls

In `ok(x).map(f).then(g)` three calls stand one inside the other, and a check judges each
of them by itself, the outermost first.  Only the innermost can be a finding.

* `Cursor.ReceiverStep` goes from a node to a wrapper around it, or to the call of a method
  of it.  Unlike a step of `Cursor.LeadsTo`, it asks for no particular method.
* One step.  What a step leads to is passed over (`Cursor.ReceiverStep.passedOver`): a
  wrapper is no call, and the call of a method has the role of the method.
* A chain.  So all nodes but the first are passed over
  (`Cursor.passedOver_of_isChain_receiverStep`), and a check finds none of them.

`ResultRule.check_receiverChain` is the result.
-/

namespace DroppedResult

namespace Cursor

/-! ## One step -/

/-- The node `d` is a wrapper around `c`, or the call of a method of `c`. -/
inductive ReceiverStep : Cursor → Cursor → Prop where
  | wrapper {c w : Cursor} (hparent : c.parent? = some w)
      (hkind : w.kind.isTransparent = true) : ReceiverStep c w
  | method {c m call : Cursor} (hmember : m.kind = .memberExpression)
      (hobject : m.childByField? "object" = some c) (hcall : call.kind = .callExpression)
      (hfunction : call.childByField? "function" = some m) : ReceiverStep c call

theorem MethodCall.receiverStep {source : String} {c m call : Cursor} {name : String}
    (h : MethodCall source c m call name) : ReceiverStep c call :=
  .method h.member h.object h.invocation h.function

theorem focus_childByField {c m : Cursor} {field : String}
    (h : c.childByField? field = some m) : c.focus.childByField field = some m.focus := by
  rw [← map_focus_childByField?, h, Option.map_some]

theorem role_of_method_call {call m : Cursor} (hcall : call.kind = .callExpression)
    (hfunction : call.childByField? "function" = some m) (hmember : m.kind = .memberExpression)
    (h : Heuristic) (table : ImportTable) (source : String) :
    h.role table source call.focus = memberRole source m.focus :=
  h.role_of_member_callee hcall (focus_childByField hfunction) hmember table source

/-- A check passes over what a step leads to. -/
theorem ReceiverStep.passedOver {c d : Cursor} (h : ReceiverStep c d) (source : String) :
    PassedOver source d := by
  cases h with
  | wrapper hparent hkind =>
    obtain ⟨_, himport, hcall, _⟩ := Kind.isTransparent_cases hkind
    exact .of_kind himport hcall
  | method hmember hobject hcall hfunction =>
    exact .of_member_callee hcall (focus_childByField hfunction) hmember

/-! ## A chain -/

theorem passedOver_of_isChain_receiverStep {first : Cursor} {rest : List Cursor}
    (h : (first :: rest).IsChain ReceiverStep) (source : String) :
    ∀ c ∈ rest, PassedOver source c := by
  induction rest generalizing first with
  | nil => simp
  | cons d rest ih =>
    obtain ⟨hstep, hrest⟩ := List.isChain_cons_cons.mp h
    intro c hc
    rcases List.mem_cons.mp hc with rfl | hc
    · exact hstep.passedOver source
    · exact ih hrest c hc

end Cursor

namespace ResultRule

theorem not_mem_check_of_passedOver (rule : ResultRule) (tree : Tree) {source : String}
    {c : Cursor} (h : PassedOver source c) : c ∉ rule.check tree source := by
  rw [check_eq_filter_nodes, List.mem_filter, flags_eq_drops, h.drops]
  simp

/-- Of the nodes of a chain of calls and wrappers, whatever the methods are, a check finds
the first one at most.  The call of a method has one role under all imports and heuristics,
and it is never a finding. -/
theorem check_receiverChain (rule : ResultRule) (tree : Tree) (source : String) :
    (∀ chain : List Cursor, chain.IsChain Cursor.ReceiverStep →
      ∀ i c, chain[i]? = some c → c ∈ rule.check tree source → i = 0) ∧
    ∀ call m : Cursor, call.kind = .callExpression → call.childByField? "function" = some m →
      m.kind = .memberExpression →
      (∀ (h h' : Heuristic) (table table' : ImportTable),
        h.role table source call.focus = h'.role table' source call.focus) ∧
      call ∉ rule.check tree source := by
  refine ⟨?_, ?_⟩
  · intro chain hchain i c hi hc
    cases chain with
    | nil => simp at hi
    | cons first rest =>
      cases i with
      | zero => rfl
      | succ i =>
        have hmem : c ∈ rest := List.mem_of_getElem? (by simpa using hi)
        have hquiet := Cursor.passedOver_of_isChain_receiverStep hchain source c hmem
        exact absurd hc (rule.not_mem_check_of_passedOver tree hquiet)
  · intro call m hcall hfunction hmember
    refine ⟨?_, ?_⟩
    · intro h h' table table'
      rw [Cursor.role_of_method_call hcall hfunction hmember,
        Cursor.role_of_method_call hcall hfunction hmember]
    · exact rule.not_mem_check_of_passedOver tree
        (.of_member_callee hcall (Cursor.focus_childByField hfunction) hmember)

/-! ## A chain that ends in a query -/

def queriedSource : String :=
  "loadResult().map(f).isOk()"

/-- The frames from the call of `map` upwards. -/
def queryFrames : List Frame :=
  [Cursor.accessFrame 20 24, Cursor.callFrame 24 26 none, ⟨⟨.program, true, 0, 26, none⟩, [], []⟩]

def queriedLoad : Cursor :=
  ⟨loadCall 0 (some "object"),
    Cursor.accessFrame 13 16 :: Cursor.callFrame 16 19 (some "object") :: queryFrames⟩

def queriedMap : Cursor :=
  ⟨(Cursor.callFrame 16 19 (some "object")).plug
    ((Cursor.accessFrame 13 16).plug queriedLoad.focus), queryFrames⟩

def queryCall : Cursor :=
  ⟨(Cursor.callFrame 24 26 none).plug ((Cursor.accessFrame 20 24).plug queriedMap.focus),
    [⟨⟨.program, true, 0, 26, none⟩, [], []⟩]⟩

/-- The call of `loadResult` is a finding, and neither call of a method is. -/
theorem check_queriedLoad :
    (standard.check queriedLoad.root queriedSource).map Cursor.address = [queriedLoad.address] ∧
      queriedMap ∉ standard.check queriedLoad.root queriedSource ∧
      queryCall ∉ standard.check queriedLoad.root queriedSource := by
  have hmap : Source.textBetween queriedSource 13 16 = "map" := by decide +kernel
  have hquery : Source.textBetween queriedSource 20 24 = "isOk" := by decide +kernel
  have hchain : [queriedLoad, queriedMap, queryCall].IsChain Cursor.ReceiverStep := by
    refine .cons_cons ?_ (.cons_cons ?_ (.singleton _))
    · exact (Cursor.methodCall_accessFrame rfl hmap _ _).receiverStep
    · exact (Cursor.methodCall_accessFrame rfl hquery _ _).receiverStep
  obtain ⟨hfirst, _⟩ := check_receiverChain standard queriedLoad.root queriedSource
  refine ⟨?_, ?_, ?_⟩
  · rw [check_eq_reports, Tree.nodes_eq]
    decide +kernel
  · intro hmem
    cases hfirst _ hchain 1 queriedMap rfl hmem
  · intro hmem
    cases hfirst _ hchain 2 queryCall rfl hmem

end ResultRule

end DroppedResult
