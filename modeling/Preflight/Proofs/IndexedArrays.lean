import Preflight.Proofs.Acceptance

/-!
# Of what an element is taken

That an element is taken only of an array is checked in two places. The check of types asks that
the array of an array element be a reference or a lookup (`HasType.canBeArray`), wherever in an
expression the element stands (`HasType.of_reaches`). Whether a reference names an array is left
to the check of references, which compares its use to the variable that it finds in scope
(`RefersFrom.standsForArray_or`).

A reference to a node falls between the two. To the check of types it is a reference, and the
check of references asks no more of it than that the node can be seen. So there is nothing to
report on an element of a node (`not_standsForArray_indexedNode`), and this is the one exception
(`standsForArray_or_refersToNode`).
-/

namespace Preflight

namespace Store

variable {s : Store} {vars : String → Option Variable} {h k : ExprId} {c : Cell} {t r : Ty}

/-- The operands of a well typed expression are well typed. -/
theorem HasType.operand (H : HasType s vars h t r) (hk : s.HasOperand h k) :
    ∃ u a, HasType s vars k u a := by
  obtain ⟨c, hc, hk⟩ := hk
  cases H with
  | leaf hc' hleaf =>
    obtain rfl := Option.some.inj (hc.symm.trans hc')
    rw [hleaf] at hk
    cases hk
  | unary hc' hform _ ha =>
    obtain rfl := Option.some.inj (hc.symm.trans hc')
    rw [hform] at hk
    obtain rfl := List.mem_singleton.1 hk
    exact ⟨_, _, ha⟩
  | binary hc' hform _ _ ha hb =>
    obtain rfl := Option.some.inj (hc.symm.trans hc')
    rw [hform] at hk
    rcases List.mem_pair.1 hk with rfl | rfl
    · exact ⟨_, _, ha⟩
    · exact ⟨_, _, hb⟩
  | element hc' hform _ _ ha hi =>
    obtain rfl := Option.some.inj (hc.symm.trans hc')
    rw [hform] at hk
    rcases List.mem_pair.1 hk with rfl | rfl
    · exact ⟨_, _, ha⟩
    · exact ⟨_, _, hi⟩

/-- What a well typed expression reaches is well typed. -/
theorem HasType.of_reaches (H : HasType s vars h t r) (hk : s.Reaches h k) :
    ∃ u a, HasType s vars k u a := by
  induction hk with
  | refl => exact ⟨t, r, H⟩
  | tail _ hk ih =>
    obtain ⟨u, a, ha⟩ := ih
    exact ha.operand hk

/-- The array of a well typed array element can be one. -/
theorem HasType.canBeArray (H : HasType s vars h t r) (hc : s.get? h = some c)
    {array index : ExprId} (hform : c.form = .binary .arrayElem array index) :
    s.canBeArray array = true := by
  cases H with
  | leaf hc' hleaf =>
    obtain rfl := Option.some.inj (hc.symm.trans hc')
    simp [hform, Form.operands] at hleaf
  | unary hc' hform' =>
    obtain rfl := Option.some.inj (hc.symm.trans hc')
    cases hform.symm.trans hform'
  | binary hc' hform' hop =>
    obtain rfl := Option.some.inj (hc.symm.trans hc')
    cases hform.symm.trans hform'
    exact absurd rfl hop
  | element hc' hform' harray =>
    obtain rfl := Option.some.inj (hc.symm.trans hc')
    cases hform.symm.trans hform'
    exact harray

/-- An expression can be an array exactly if it is a reference or a lookup. -/
theorem canBeArray_iff : s.canBeArray h = true ↔
    ∃ c, s.get? h = some c ∧ (c.element = .leaf .ref ∨ c.element = .leaf .lookup) := by
  rw [canBeArray, Option.any_eq_true]
  simp

end Store

namespace Plan

variable {p : Plan} {n : NodeId} {node : Node} {h : ExprId} {c : Cell} {name : String}

/-- Inside `n` the expression at `h` stands for an array: it is a lookup, or a reference by the
name of an array in scope. -/
def StandsForArray (p : Plan) (n : NodeId) (h : ExprId) : Prop :=
  ∃ c, p.exprs.get? h = some c ∧ (c.element = .leaf .lookup ∨
    ∃ name v, c.form = .ref name ∧ p.findInScope? n name = some v ∧ v.isArray = true)

/-- The expression at `h` is a reference to a node that can be seen from `n`. -/
def RefersToNode (p : Plan) (n : NodeId) (h : ExprId) : Prop :=
  ∃ c name, p.exprs.get? h = some c ∧ c.form = .ref name ∧ c.nodeProperty?.isSome ∧
    p.canSee n name = true

/-- A reference that is right and of which an element is taken names an array, or a node. -/
theorem RefersFrom.standsForArray_or (href : p.RefersFrom n h c name)
    (hc : p.exprs.get? h = some c) (hform : c.form = .ref name) (hindexed : p.exprs.Indexed h) :
    p.StandsForArray n h ∨ p.RefersToNode n h := by
  cases href with
  | node hprop hsee => exact .inr ⟨c, name, hc, hform, hprop, hsee⟩
  | var _ hscope _ harray =>
    exact .inl ⟨c, hc, .inr ⟨name, _, hform, hscope, harray.2 hindexed⟩⟩

/-- **Where there is nothing to report, an element is taken only of a lookup, of an array in
scope, or of a node that can be seen.** -/
theorem standsForArray_or_refersToNode (edits : List Edit)
    (hclean : (build edits).checkExprs = []) :
    let p := build edits
    ∀ n node root, p.node? n = some node → root ∈ node.checked →
      ∀ h c array index, p.exprs.Reaches root h → p.exprs.get? h = some c →
        c.form = .binary .arrayElem array index →
        p.StandsForArray n array ∨ p.RefersToNode n array := by
  intro p n node root hnode hroot h c array index hreach hc hform
  have hs : p.exprs.WellOwned := wellOwned_build edits
  obtain ⟨⟨context, hrefs, _⟩, t, r, H⟩ :=
    passes_of_mem_checked hs (grounded_build edits) hclean hnode hroot
  obtain ⟨u, a, ha⟩ := H.of_reaches hreach
  obtain ⟨d, hd, hel⟩ := Store.canBeArray_iff.1 (ha.canBeArray hc hform)
  rcases hel with hel | hel
  · obtain ⟨name, hname⟩ := Form.element_eq_ref_iff.1 hel
    have harray : p.exprs.Reaches root array :=
      hreach.tail ⟨c, hc, by simp [hform, Form.operands]⟩
    have href := (checkReferences_eq_nil_iff hs).1 hrefs array d name harray hd hname
    exact href.standsForArray_or hd hname ⟨h, c, index, hc, hform⟩
  · exact .inl ⟨d, hd, .inl hel⟩

/-- A node with an array of truth values and one of numbers, which starts on the truth value at the
first of these numbers. -/
def flagInOrder : List Edit :=
  [.addNode "A" none, .declareVariable 0 ⟨"flags", .boolean, .unstated, some 3⟩,
    .declareVariable 0 ⟨"order", .integer, .unstated, some 3⟩, .reference "flags" none,
    .reference "order" none, .constant "0" .num, .binary (.binary .arrayElem) 1 2,
    .binary (.binary .arrayElem) 0 3, .addCondition 0 .start 4]

/-- There is nothing to report, and the inner element is one of an array too. -/
theorem standsForArray_or_refersToNode_flagInOrder :
    let p := build flagInOrder
    p.checkExprs = [] ∧ p.exprs.Reaches 4 3 ∧ p.StandsForArray 0 1 := by
  intro p
  have hclean : p.checkExprs = [] := by decide +kernel
  have hnode : p.node? 0 = some ⟨"A", none, [], [⟨.start, 4⟩], none,
      [⟨"flags", .boolean, .unstated, some 3⟩, ⟨"order", .integer, .unstated, some 3⟩]⟩ := by
    decide +kernel
  have houter : p.exprs.get? 4 = some ⟨.binary .arrayElem 0 3, none, none, none⟩ := by
    decide +kernel
  have hinner : p.exprs.get? 3 = some ⟨.binary .arrayElem 1 2, none, none, some 4⟩ := by
    decide +kernel
  have horder : p.exprs.get? 1 = some ⟨.ref "order", none, none, some 3⟩ := by decide +kernel
  have hreach : p.exprs.Reaches 4 3 := .single ⟨_, houter, by decide⟩
  refine ⟨hclean, hreach, ?_⟩
  rcases standsForArray_or_refersToNode flagInOrder hclean 0 _ 4 hnode (by decide) 3 _ 1 2 hreach
    hinner rfl with harray | ⟨c, _, hc, _, hprop, _⟩
  · exact harray
  · obtain rfl := Option.some.inj (horder.symm.trans hc)
    cases hprop

/-- A node that starts on an element of its own state. -/
def indexedNode : List Edit :=
  [.addNode "A" none, .reference "A" (some .nodeState), .constant "0" .num,
    .binary (.binary .arrayElem) 0 1, .constant "FINISHED" .nodeState,
    .binary (.binary .eq) 2 3, .addCondition 0 .start 4]

/-- **A plan with nothing to report can take an element of what is no array.**  There is no
variable in the plan at all. -/
theorem not_standsForArray_indexedNode :
    let p := build indexedNode
    p.check = [] ∧ ¬ ∀ n node root, p.node? n = some node → root ∈ node.checked →
      ∀ h c array index, p.exprs.Reaches root h → p.exprs.get? h = some c →
        c.form = .binary .arrayElem array index → p.StandsForArray n array := by
  intro p
  refine ⟨by decide +kernel, fun hall => ?_⟩
  have hnode : p.node? 0 = some ⟨"A", none, [], [⟨.start, 4⟩], none, []⟩ := by decide +kernel
  have hroot : p.exprs.get? 4 = some ⟨.binary .eq 2 3, none, none, none⟩ := by decide +kernel
  have helement : p.exprs.get? 2 = some ⟨.binary .arrayElem 0 1, none, none, some 4⟩ := by
    decide +kernel
  have harray : p.exprs.get? 0 = some ⟨.ref "A", some .nodeState, none, some 2⟩ := by
    decide +kernel
  have hreach : p.exprs.Reaches 4 2 := .single ⟨_, hroot, by decide⟩
  obtain ⟨c, hc, hlookup | ⟨name, v, hform, hv, _⟩⟩ :=
    hall 0 _ 4 hnode (by decide) 2 _ 0 1 hreach helement rfl
  · obtain rfl := Option.some.inj (harray.symm.trans hc)
    cases hlookup
  · obtain rfl := Option.some.inj (harray.symm.trans hc)
    obtain rfl := Form.ref.inj hform
    have hnone : p.findInScope? 0 "A" = none := by decide +kernel
    cases hnone.symm.trans hv

end Plan

end Preflight
