import Preflight.Plan.Edit
import Preflight.Proofs.Store.Building

/-!
# What building can make of a plan

`Plan.Step` lists all that an edit can do to a plan, with the condition under which it does
it; an edit that is refused leaves the plan as it is (`after_eq_or_step`). A property that
the empty plan has and that every step keeps is therefore one of every plan that can be
built (`build_induction`).

Two such properties carry the rest. The store of a plan is well owned
(`wellOwned_build`), which `ownership_build` spells out. And the expressions that a plan's
nodes speak of are in its store (`grounded_build`): what a node holds was there when it was
attached, and expressions are never removed.
-/

namespace Preflight

/-- The expressions that a node speaks of: those of its conditions and of its action. -/
def Node.holds (node : Node) : List ExprId :=
  node.conditions.map Condition.expr ++ node.action.toList.flatMap Action.exprs

namespace Plan

variable {p q : Plan}

/-- What one edit can do to a plan. -/
inductive Step (p : Plan) : Plan → Prop where
  | declare (d : Declaration) : Step p (p.declare d)
  | exprs {s : Store} (hs : p.exprs.Step s) : Step p { p with exprs := s }
  | addRoot (name : String) :
      Step p { p with
        nodes := p.nodes.push ⟨name, none, [], [], none, []⟩, roots := p.roots ++ [p.size] }
  | addChild (name : String) (m : NodeId) (hm : m < p.size) :
      Step p { p with
        nodes := (p.nodes.modify m fun above =>
          { above with children := above.children ++ [p.size] }).push
            ⟨name, some m, [], [], none, []⟩ }
  | declareVariable (n : NodeId) (v : Variable) (hn : n < p.size) :
      Step p { p with
        nodes := p.nodes.modify n fun node => { node with locals := node.locals ++ [v] } }
  | addCondition (n : NodeId) (kind : ConditionKind) (h : ExprId) (hn : n < p.size)
      (hh : p.exprs.contains h = true) :
      Step p { p with
        nodes := p.nodes.modify n fun node =>
          { node with conditions := node.conditions ++ [⟨kind, h⟩] } }
  | setAction (n : NodeId) (a : Action) (hn : n < p.size)
      (ha : ∀ h ∈ a.exprs, p.exprs.contains h = true) :
      Step p { p with nodes := p.nodes.modify n fun node => { node with action := some a } }

/-! ### The conditions of the operations -/

/-- The check for expressions is passed exactly if all of them are there. -/
theorem requireExprs_eq_ok_iff {hs : List ExprId} {u : Unit} :
    p.requireExprs hs = .ok u ↔ ∀ h ∈ hs, p.exprs.contains h = true := by
  induction hs with
  | nil => simp [requireExprs]
  | cons h hs ih =>
    rw [requireExprs, List.forall_mem_cons]
    by_cases hh : p.exprs.contains h = true
    · simp [hh, ih]
    · simp [hh]

/-- A node is changed exactly if it is there. -/
theorem updateNode_eq_ok_iff {n : NodeId} {f : Node → Node} :
    p.updateNode n f = .ok q ↔ n < p.size ∧ { p with nodes := p.nodes.modify n f } = q := by
  unfold updateNode requireNode
  split <;> simp [map_eq_ok_iff, *]

/-- The addition of a node is a step. -/
theorem step_addNode {name : String} {parent : Option NodeId} {r : NodeId × Plan}
    (h : p.addNode name parent = .ok r) : p.Step r.2 := by
  cases parent with
  | none =>
    obtain rfl := Except.ok.inj h
    exact .addRoot name
  | some m =>
    obtain ⟨q, hq, rfl⟩ := map_eq_ok_iff.1 h
    obtain ⟨hm, rfl⟩ := updateNode_eq_ok_iff.1 hq
    exact .addChild name m hm

/-- The declaration of a variable is a step. -/
theorem step_declareVariable {n : NodeId} {v : Variable} (h : p.declareVariable n v = .ok q) :
    p.Step q := by
  obtain ⟨hn, rfl⟩ := updateNode_eq_ok_iff.1 h
  exact .declareVariable n v hn

/-- The addition of a condition is a step, on an expression that is there. -/
theorem step_addCondition {n : NodeId} {kind : ConditionKind} {h : ExprId}
    (hq : p.addCondition n kind h = .ok q) : p.Step q := by
  obtain ⟨_, hh, hq⟩ := bind_eq_ok_iff.1 hq
  obtain ⟨hn, rfl⟩ := updateNode_eq_ok_iff.1 hq
  exact .addCondition n kind h hn (requireExprs_eq_ok_iff.1 hh h (List.mem_singleton_self h))

/-- To give a node its action is a step, over expressions that are there. -/
theorem step_setAction {n : NodeId} {a : Action} (hq : p.setAction n a = .ok q) : p.Step q := by
  obtain ⟨_, ha, hq⟩ := bind_eq_ok_iff.1 hq
  obtain ⟨hn, rfl⟩ := updateNode_eq_ok_iff.1 hq
  exact .setAction n a hn (requireExprs_eq_ok_iff.1 ha)

/-- An edit that is carried out is a step. -/
theorem step_of_apply {e : Edit} {r : Outcome × Plan} (h : p.apply e = .ok r) : p.Step r.2 := by
  cases e with
  | declare d =>
    obtain rfl := Except.ok.inj h
    exact .declare d
  | addNode name parent =>
    obtain ⟨r, hr, rfl⟩ := map_eq_ok_iff.1 h
    exact step_addNode hr
  | declareVariable n v =>
    obtain ⟨q, hq, rfl⟩ := map_eq_ok_iff.1 h
    exact step_declareVariable hq
  | constant text type =>
    obtain rfl := Except.ok.inj h
    exact .exprs (p.exprs.step_constant text type)
  | reference name type =>
    obtain rfl := Except.ok.inj h
    exact .exprs (p.exprs.step_reference name type)
  | lookup call type =>
    obtain ⟨r, hr, rfl⟩ := map_eq_ok_iff.1 h
    exact .exprs (Store.step_lookup hr)
  | unary element operand =>
    obtain ⟨r, hr, rfl⟩ := map_eq_ok_iff.1 h
    exact .exprs (Store.step_unary hr)
  | binary element left right =>
    obtain ⟨r, hr, rfl⟩ := map_eq_ok_iff.1 h
    exact .exprs (Store.step_binary hr)
  | setType i type =>
    obtain ⟨s, hs, rfl⟩ := map_eq_ok_iff.1 h
    exact .exprs (Store.step_setType hs)
  | setOperandType i type =>
    obtain ⟨s, hs, rfl⟩ := map_eq_ok_iff.1 h
    exact .exprs (Store.step_setOperandType hs)
  | addCondition n kind i =>
    obtain ⟨q, hq, rfl⟩ := map_eq_ok_iff.1 h
    exact step_addCondition hq
  | setAction n a =>
    obtain ⟨q, hq, rfl⟩ := map_eq_ok_iff.1 h
    exact step_setAction hq

/-- **An edit is a step or changes nothing.** -/
theorem after_eq_or_step (p : Plan) (e : Edit) : p.after e = p ∨ p.Step (p.after e) := by
  unfold after
  cases h : p.apply e with
  | error f => exact .inl rfl
  | ok r => exact .inr (step_of_apply h)

/-- **What the empty plan has and every step keeps, every plan has.** -/
theorem build_induction {P : Plan → Prop} (base : P empty)
    (step : ∀ {p q : Plan}, P p → p.Step q → P q) (edits : List Edit) : P (build edits) := by
  unfold build
  generalize empty = p at base
  induction edits generalizing p with
  | nil => exact base
  | cons e edits ih =>
    refine ih _ ?_
    rcases p.after_eq_or_step e with h | h
    · rwa [h]
    · exact step base h

/-! ### The store of a plan -/

/-- A step leaves the store as it is, or is a building step on it. -/
theorem Step.exprs_eq_or_step (h : p.Step q) : q.exprs = p.exprs ∨ p.exprs.Step q.exprs := by
  cases h with
  | exprs hs => exact .inr hs
  | _ => exact .inl rfl

/-- **The store of every plan that was built is well owned.** -/
theorem wellOwned_build (edits : List Edit) : (build edits).exprs.WellOwned := by
  refine build_induction (P := fun p => p.exprs.WellOwned) Store.wellOwned_empty ?_ edits
  intro p q hp hstep
  rcases hstep.exprs_eq_or_step with h | h
  · rwa [h]
  · exact hp.step h

/-- **Ownership in every store that can be built.**  Handles go down from user to used. The
owner of an expression is the one that uses it. Nothing is used twice, so there is one user
at most, and the way up from any expression ends in one that is free. Every form has as many
operands as its element takes, a call exactly if it is a lookup, and a type if it is a
constant. -/
theorem ownership_build (edits : List Edit) :
    let s := (build edits).exprs
    (∀ h k, s.Uses h k → k < h) ∧
      (∀ h o, s.OwnedBy h o ↔ ∃ c, s.get? o = some c ∧
        (h ∈ c.form.operands ∨ ∃ a, c.form.call? = some a ∧ h ∈ a.exprs)) ∧
      ((s.cells.toList.flatMap fun c => c.form.uses).Nodup ∧
        (∀ h o o', s.Uses o h → s.Uses o' h → o = o') ∧
        ∀ h, s.contains h = true → ∃! r, Relation.ReflTransGen s.OwnedBy h r ∧ s.Free r) ∧
      ∀ h c, s.get? h = some c →
        c.form.operands.length = c.element.arity ∧
          (c.form.call?.isSome ↔ c.element = .leaf .lookup) ∧
          (c.element = .leaf .const → c.type.isSome) := by
  intro s
  have hs : s.WellOwned := wellOwned_build edits
  refine ⟨fun _ _ => hs.descends, fun _ _ => ?_,
    ⟨hs.nodup_uses, fun _ _ _ => hs.user_unique, fun _ => hs.existsUnique_root⟩,
    fun h c hc => ⟨?_, ?_, hs.typed hc⟩⟩
  · simp only [hs.ownedBy_iff, Store.Uses, Store.mem_uses_iff]
  · rw [Cell.element]
    cases c.form <;> rfl
  · rw [Cell.element]
    cases c.form <;> simp [Form.call?, Form.element]

/-! ### The expressions of its nodes -/

/-- All expressions that the nodes of a plan speak of are in its store. -/
def Grounded (p : Plan) : Prop :=
  ∀ n node, p.node? n = some node → ∀ h ∈ node.holds, p.exprs.contains h = true

/-- A node after a change of one of them is as it was, or is the changed one. -/
theorem node_of_modify {nodes : Array Node} {m n : NodeId} {f : Node → Node} {node : Node}
    (h : (nodes.modify m f)[n]? = some node) :
    ∃ old, nodes[n]? = some old ∧ (node = old ∨ node = f old) := by
  rw [Array.getElem?_modify] at h
  split_ifs at h
  · obtain ⟨old, hold, rfl⟩ := Option.map_eq_some_iff.1 h
    exact ⟨old, hold, .inr rfl⟩
  · exact ⟨node, h, .inl rfl⟩

/-- A node that is new, or changed in what it holds by expressions that are there, keeps a
plan grounded. -/
theorem Grounded.modify (hp : p.Grounded) {m n : NodeId} {f : Node → Node} {node : Node}
    (hnode : (p.nodes.modify m f)[n]? = some node) {h : ExprId} (hh : h ∈ node.holds)
    (hf : ∀ node, ∀ h ∈ (f node).holds, h ∈ node.holds ∨ p.exprs.contains h = true) :
    p.exprs.contains h = true := by
  obtain ⟨old, hold, rfl | rfl⟩ := node_of_modify hnode
  · exact hp n node hold h hh
  · rcases hf old h hh with hin | hin
    · exact hp n old hold h hin
    · exact hin

/-- A step keeps the nodes speaking of expressions that are there, since none is taken away. -/
theorem Grounded.step (hp : p.Grounded) (hstep : p.Step q) : q.Grounded := by
  intro n node hnode h hh
  cases hstep with
  | declare d => exact hp n node hnode h hh
  | exprs hs => exact hs.contains (hp n node hnode h hh)
  | addRoot name =>
    rw [node?, Array.getElem?_push] at hnode
    split_ifs at hnode
    · obtain rfl := Option.some.inj hnode
      simp [Node.holds] at hh
    · exact hp n node hnode h hh
  | addChild name m hm =>
    rw [node?, Array.getElem?_push] at hnode
    split_ifs at hnode
    · obtain rfl := Option.some.inj hnode
      simp [Node.holds] at hh
    · exact hp.modify hnode hh fun _ _ => .inl
  | declareVariable m v hm => exact hp.modify hnode hh fun _ _ => .inl
  | addCondition m kind i hm hi =>
    refine hp.modify hnode hh fun old k hk => ?_
    simp only [Node.holds, List.map_append, List.mem_append, List.map_cons, List.map_nil,
      List.mem_singleton] at hk ⊢
    rcases hk with (hk | rfl) | hk
    · exact .inl (.inl hk)
    · exact .inr hi
    · exact .inl (.inr hk)
  | setAction m a hm ha =>
    refine hp.modify hnode hh fun old k hk => ?_
    simp only [Node.holds, List.mem_append, Option.toList_some, List.flatMap_cons,
      List.flatMap_nil, List.append_nil] at hk ⊢
    rcases hk with hk | hk
    · exact .inl (.inl hk)
    · exact .inr (ha k hk)

/-- **What the nodes of a plan speak of is in its store.** -/
theorem grounded_build (edits : List Edit) : (build edits).Grounded := by
  refine build_induction ?_ (fun hp hstep => hp.step hstep) edits
  intro n node hnode
  simp [node?, empty] at hnode

end Plan

end Preflight
