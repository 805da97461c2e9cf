import Preflight.Proofs.Frame
import Preflight.Proofs.IndexFindings
import Preflight.Proofs.Plan.Scope
import Preflight.Proofs.Resolution

/-!
# When an expression that no node uses changes the verdict

A new expression becomes the owner of what it uses, and conditions and actions do not own
their expressions. So an expression that is a condition can later become the array of an
array element that no node has anything to do with, and then counts as indexed
(`element_of_condition`).

This is all that can happen. What a new expression uses is free, so it is no part of another
expression; among the expressions that are checked it can only be one as a whole. There
indexing matters only if it is a variable in scope, by itself. If the new expression takes
an element of such a variable the count of findings on indices rises, so the verdict changes;
in all other cases it is the same (`check_after_eq_iff`).
-/

namespace Preflight

/-- The edits that build an expression. -/
def Edit.buildsExpr : Edit → Bool
  | .constant .. | .reference .. | .lookup .. | .unary .. | .binary .. => true
  | _ => false

namespace Store

variable {s : Store} {h : ExprId}

/-- After an addition an expression is indexed if it was, or if the new one takes an element
of it. -/
theorem indexed_add (form : Form) (type : Option Ty) :
    (s.add form type).2.Indexed h ↔
      s.Indexed h ∨ ∃ index, form = .binary .arrayElem h index := by
  constructor
  · rintro ⟨o, c, index, hc, hform⟩
    rcases cell_of_get?_add hc with ⟨_, rfl⟩ | ⟨o', hold⟩
    · exact .inr ⟨index, hform⟩
    · exact .inl ⟨o, _, index, hold, hform⟩
  · rintro (⟨o, c, index, hc, hform⟩ | ⟨index, rfl⟩)
    · obtain ⟨o', hnew⟩ := get?_add_of_get? hc form type
      exact ⟨o, _, index, hnew, hform⟩
    · exact ⟨s.size, _, index, by rw [get?_add, if_pos rfl], rfl⟩

/-- An expression without an owner is below no other. -/
theorem eq_of_reaches_of_free (hs : s.WellOwned) (hfree : s.Free h) {root : ExprId}
    (hreach : s.Reaches root h) : root = h := by
  rcases hreach.cases_tail with rfl | ⟨o, _, ho⟩
  · rfl
  · obtain ⟨c, hc, howner⟩ := hs.ownedBy_iff.2 ho.uses
    obtain ⟨d, hd, hnone⟩ := hfree
    obtain rfl := Option.some.inj (hc.symm.trans hd)
    rw [hnone] at howner
    cases howner

/-- No element is taken of an expression without an owner. -/
theorem isIndexed_of_free (hfree : s.Free h) : s.isIndexed h = false := by
  obtain ⟨c, hc, howner⟩ := hfree
  simp [isIndexed, hc, howner]

end Store

namespace Plan

variable {p : Plan} {form : Form} {type : Option Ty}

/-- The plan with one more expression, which no node uses. -/
abbrev extend (p : Plan) (form : Form) (type : Option Ty) : Plan :=
  { p with exprs := (p.exprs.add form type).2 }

/-- Some node has the expression at `h` itself among those that are checked, and from inside
that node it is a variable in scope. -/
def ReadBare (p : Plan) (h : ExprId) : Prop :=
  ∃ n node c name v, p.node? n = some node ∧ h ∈ node.checked ∧ p.exprs.get? h = some c ∧
    c.form = .ref name ∧ c.nodeProperty? = none ∧ p.findInScope? n name = some v

/-- The edit is carried out and takes an element of the expression at `h`. -/
def TakesElement (p : Plan) (e : Edit) (h : ExprId) : Prop :=
  ∃ index, e = .binary (.binary .arrayElem) h index ∧ h ≠ index ∧ p.exprs.Free h ∧
    p.exprs.Free index

/-- An edit that hands on what the store says is refused, or puts the new store in place. -/
theorem after_of_apply_eq_map {e : Edit} {built : Except Fault (ExprId × Store)}
    (h : p.apply e = built.map p.withExpr) :
    (∃ f, built = .error f ∧ p.after e = p) ∨
      ∃ r, built = .ok r ∧ p.after e = { p with exprs := r.2 } := by
  unfold after
  rw [h]
  cases built with
  | error f => exact .inl ⟨f, rfl, rfl⟩
  | ok r => exact .inr ⟨r, rfl, rfl⟩

/-- An edit that builds an expression is refused, or it adds a cell over free and distinct
expressions. -/
theorem after_of_buildsExpr (hs : p.exprs.WellOwned) {e : Edit} (he : e.buildsExpr = true) :
    (p.after e = p ∧ ∀ h, ¬ p.TakesElement e h) ∨
      ∃ form type, (∀ k ∈ form.uses, p.exprs.Free k) ∧ (p.exprs.add form type).2.WellOwned ∧
        p.after e = p.extend form type ∧
          ∀ h, p.TakesElement e h ↔ ∃ index, form = .binary .arrayElem h index := by
  cases e with
  | constant text type =>
    exact .inr ⟨.const text, some type, by simp [Form.uses, Form.operands],
      hs.step (Store.step_constant _ text type), rfl, by simp [TakesElement]⟩
  | reference name type =>
    exact .inr ⟨.ref name, type, by simp [Form.uses, Form.operands],
      hs.step (Store.step_reference _ name type), rfl, by simp [TakesElement]⟩
  | lookup call type =>
    rcases after_of_apply_eq_map (p := p) (e := .lookup call type) rfl with
      ⟨_, _, hafter⟩ | ⟨r, hr, hafter⟩
    · exact .inl ⟨hafter, by simp [TakesElement]⟩
    · have hadd := hs.step (Store.step_lookup hr)
      obtain ⟨⟨_, hfree⟩, rfl⟩ := Store.lookup_eq_ok_iff.1 hr
      exact .inr ⟨.lookup _ call, type, hfree, hadd, hafter, by simp [TakesElement]⟩
  | unary element operand =>
    rcases after_of_apply_eq_map (p := p) (e := .unary element operand) rfl with
      ⟨_, _, hafter⟩ | ⟨r, hr, hafter⟩
    · exact .inl ⟨hafter, by simp [TakesElement]⟩
    · have hadd := hs.step (Store.step_unary hr)
      obtain ⟨op, _, hfree, rfl⟩ := Store.unary_eq_ok_iff.1 hr
      exact .inr ⟨.unary op operand, none, by simpa [Form.uses, Form.operands] using hfree, hadd,
        hafter, by simp [TakesElement]⟩
  | binary element left right =>
    rcases after_of_apply_eq_map (p := p) (e := .binary element left right) rfl with
      ⟨_, hr, hafter⟩ | ⟨r, hr, hafter⟩
    · refine .inl ⟨hafter, ?_⟩
      rintro h ⟨index, heq, hne, hleft, hright⟩
      obtain ⟨rfl, rfl, rfl⟩ := Edit.binary.inj heq
      rw [Store.binary_eq_ok_iff.2 ⟨_, rfl, hne, hleft, hright, rfl⟩] at hr
      cases hr
    · have hadd := hs.step (Store.step_binary hr)
      obtain ⟨op, rfl, hne, hleft, hright, rfl⟩ := Store.binary_eq_ok_iff.1 hr
      refine .inr ⟨.binary op left right, none,
        by simpa [Form.uses, Form.operands] using ⟨hleft, hright⟩, hadd, hafter,
        fun h => ⟨?_, ?_⟩⟩
      · rintro ⟨index, heq, _⟩
        obtain ⟨hop, rfl, rfl⟩ := Edit.binary.inj heq
        exact ⟨right, by rw [Element.binary.inj hop]⟩
      · rintro ⟨index, heq⟩
        obtain ⟨rfl, rfl, rfl⟩ := Form.binary.inj heq
        exact ⟨right, rfl, hne, hleft, hright⟩
  | _ => cases he

/-! ### The verdict after an addition -/

variable {n : NodeId} {node : Node} {context : String} {root h : ExprId}

/-- A new expression makes no difference to calls. -/
theorem checkCalls_add (hs : p.exprs.WellOwned) (hp : p.Grounded) (form : Form)
    (type : Option Ty) :
    (p.extend form type).checkCalls = p.checkCalls := by
  refine List.flatMap_congr fun ⟨node, n⟩ hmem => ?_
  have hnode := mem_zipIdx_nodes_iff.1 hmem
  refine checkNodeCall_frame (Store.sameOn_add hs form type) hs fun a ha h hh => ?_
  exact hp n node hnode h (List.mem_append_right _ (by simpa [ha] using hh))

/-- An addition that takes no element of a bare variable leaves the findings on references
as they are. -/
theorem checkReferences_add (hs : p.exprs.WellOwned) (hp : p.Grounded)
    (ht : (p.exprs.add form type).2.WellOwned) (free : ∀ k ∈ form.uses, p.exprs.Free k)
    (hbare : ∀ h index, form = .binary .arrayElem h index → ¬ p.ReadBare h)
    (hnode : p.node? n = some node) (hroot : root ∈ node.checked) (context : String) :
    (p.extend form type).checkReferences n context root =
      p.checkReferences n context root := by
  refine checkReferences_frame (Store.sameOn_add hs form type) hs (hp.contains_checked hnode hroot)
    (fun h c name v hreach hc hform hprop hv => ?_) context
  rw [Bool.eq_iff_iff, Store.isIndexed_iff ht, Store.isIndexed_iff hs, Store.indexed_add]
  refine or_iff_left ?_
  -- What is newly indexed was free, so it is no part of `root` but `root` itself.
  rintro ⟨index, heq⟩
  have hfree : p.exprs.Free h := free h (by simp [heq, Form.uses, Form.operands])
  obtain rfl := Store.eq_of_reaches_of_free hs hfree hreach
  exact hbare root index heq ⟨n, node, c, name, v, hnode, hroot, hc, hform, hprop, hv⟩

/-- **An addition that takes no element of a bare variable leaves the verdict as it is.** -/
theorem check_add (hs : p.exprs.WellOwned) (hp : p.Grounded)
    (ht : (p.exprs.add form type).2.WellOwned) (free : ∀ k ∈ form.uses, p.exprs.Free k)
    (hbare : ∀ h index, form = .binary .arrayElem h index → ¬ p.ReadBare h) :
    (p.extend form type).check = p.check := by
  have hexprs : (p.extend form type).checkExprs =
      p.checkExprs := by
    refine List.flatMap_congr fun ⟨node, n⟩ hmem => ?_
    have hnode := mem_zipIdx_nodes_iff.1 hmem
    exact checkNodeExprs_frame (Store.sameOn_add hs form type) hs
      (fun root hroot => hp.contains_checked hnode hroot)
      fun root hroot => checkReferences_add hs hp ht free hbare hnode hroot
  rw [check, check, checkCalls_add hs hp, hexprs]
  rfl

/-! ### The count of findings after an addition -/

/-- An addition can only raise the count of a reference. -/
theorem weigh_checkReference_add_le (hs : p.exprs.WellOwned)
    (ht : (p.exprs.add form type).2.WellOwned) (hroot : p.exprs.contains root = true)
    (hh : p.exprs.contains h = true) :
    weigh (p.checkReference n context root h) ≤
      weigh ((p.extend form type).checkReference n context
        root h) := by
  have H := Store.sameOn_add hs form type
  by_cases hvar : ∃ c name v, p.exprs.get? h = some c ∧ c.form = .ref name ∧
      c.nodeProperty? = none ∧ p.findInScope? n name = some v
  · obtain ⟨c, name, v, hc, hform, hprop, hv⟩ := hvar
    have hmono : p.exprs.isIndexed h = true → (p.exprs.add form type).2.isIndexed h = true := by
      rw [Store.isIndexed_iff hs, Store.isIndexed_iff ht, Store.indexed_add]
      exact .inl
    rw [checkReference_var hc hform hprop hv,
      checkReference_var_frame H hs hroot hh hc hform hprop hv, weigh_append, weigh_append]
    exact Int.add_le_add_left (v.weigh_indexMisuse_le _ hmono) _
  · rw [checkReference_frame H hs hroot hh]
    exact fun c name v hc hform hprop hv => absurd ⟨c, name, v, hc, hform, hprop, hv⟩ hvar

/-- An element taken of a variable in scope, by itself, raises the count of the reference. -/
theorem weigh_checkReference_add_lt (hs : p.exprs.WellOwned) {index : ExprId}
    (ht : (p.exprs.add (.binary .arrayElem h index) type).2.WellOwned) (hfree : p.exprs.Free h)
    {c : Cell} {name : String} {v : Variable} (hc : p.exprs.get? h = some c)
    (hform : c.form = .ref name) (hprop : c.nodeProperty? = none)
    (hv : p.findInScope? n name = some v) :
    weigh (p.checkReference n context h h) <
      weigh ((p.extend (.binary .arrayElem h index) type).checkReference n context h h) := by
  have hh := Store.contains_iff.2 ⟨c, hc⟩
  have hindexed : (p.exprs.add (.binary .arrayElem h index) type).2.isIndexed h = true := by
    rw [Store.isIndexed_iff ht, Store.indexed_add]
    exact .inr ⟨index, rfl⟩
  have htext : p.exprs.text h = v.name := by
    rw [Store.text_eq hs hc, Store.textStep, hform, name_of_findInScope? hv]
  rw [checkReference_var hc hform hprop hv,
    checkReference_var_frame (Store.sameOn_add hs _ type) hs hh hh hc hform hprop hv,
    Store.isIndexed_of_free hfree, hindexed, htext, weigh_append, weigh_append]
  exact Int.add_lt_add_left v.weigh_indexMisuse_lt _

/-- A new expression can only raise the count of findings on indices. -/
theorem weigh_checkReferences_add_le (hs : p.exprs.WellOwned)
    (ht : (p.exprs.add form type).2.WellOwned) (hroot : p.exprs.contains root = true) :
    weigh (p.checkReferences n context root) ≤
      weigh ((p.extend form type).checkReferences n context
        root) := by
  rw [checkReferences, checkReferences, ← (Store.sameOn_add hs form type).find_eq hs hroot]
  refine weigh_flatMap_le fun h hmem => ?_
  have hreach := ((Store.mem_find_iff hs).1 hmem).1
  exact weigh_checkReference_add_le hs ht hroot (hreach.contains hs hroot)

/-- **An addition that takes an element of a bare variable raises the count.** -/
theorem weigh_check_add_lt (hs : p.exprs.WellOwned) (hp : p.Grounded) {index : ExprId}
    (ht : (p.exprs.add (.binary .arrayElem h index) type).2.WellOwned) (hfree : p.exprs.Free h)
    (hbare : p.ReadBare h) :
    weigh p.check <
      weigh (p.extend (.binary .arrayElem h index) type).check := by
  obtain ⟨n, node, c, name, v, hnode, hchecked, hc, hform, hprop, hv⟩ := hbare
  have H := Store.sameOn_add hs (.binary .arrayElem h index) type
  have hroots : ∀ m other, p.node? m = some other → ∀ root ∈ other.checked,
      weigh (p.checkReferences m "" root) ≤
        weigh ((p.extend (.binary .arrayElem h index) type).checkReferences m "" root) :=
    fun m other hother root hroot =>
      weigh_checkReferences_add_le hs ht (hp.contains_checked hother hroot)
  have hroot : weigh (p.checkReferences n "" h) <
      weigh ((p.extend (.binary .arrayElem h index) type).checkReferences n "" h) := by
    have hh := hp.contains_checked hnode hchecked
    have hmem : h ∈ p.exprs.find h (.leaf .ref) :=
      (Store.mem_find_iff hs).2 ⟨.refl, c, hc, Form.element_eq_ref_iff.2 ⟨name, hform⟩⟩
    rw [checkReferences, checkReferences, ← H.find_eq hs hh]
    refine weigh_flatMap_lt (fun k hk => ?_) ⟨h, hmem, ?_⟩
    · exact weigh_checkReference_add_le hs ht hh (((Store.mem_find_iff hs).1 hk).1.contains hs hh)
    · exact weigh_checkReference_add_lt hs ht hfree hc hform hprop hv
  have hexprs : weigh p.checkExprs <
      weigh (p.extend (.binary .arrayElem h index) type).checkExprs := by
    refine weigh_flatMap_lt ?_ ⟨(node, n), mem_zipIdx_nodes_iff.2 hnode, ?_⟩
    · rintro ⟨other, m⟩ hmem
      rw [weigh_checkNodeExprs hs, weigh_checkNodeExprs ht]
      exact weigh_flatMap_le (hroots m other (mem_zipIdx_nodes_iff.1 hmem))
    · rw [weigh_checkNodeExprs hs, weigh_checkNodeExprs ht]
      exact weigh_flatMap_lt (hroots n node hnode) ⟨h, hchecked, hroot⟩
  rw [check, check, checkCalls_add hs hp, weigh_append, weigh_append, weigh_append, weigh_append]
  exact Int.add_lt_add_left hexprs _

/-! ### The verdict after an edit -/

/-- An expression without uses, such as a constant, leaves the verdict as it is. -/
theorem check_constant (hs : p.exprs.WellOwned) (hp : p.Grounded) (text : String) (ty : Ty) :
    (p.extend (.const text) (some ty)).check = p.check :=
  check_add hs hp (hs.step (Store.step_constant _ text ty)) (by simp [Form.uses, Form.operands])
    nofun

/-- **Building an expression changes the verdict exactly if it takes an element of a variable
that is, by itself, a condition or a side of an assignment.**  The name that an action
brings with it changes nothing. -/
theorem check_after_eq_iff (edits : List Edit) :
    let p := build edits
    (∀ e : Edit, e.buildsExpr = true →
      ((p.after e).check = p.check ↔ ∀ h, p.TakesElement e h → ¬ p.ReadBare h)) ∧
    (∀ kind callee args target,
      { p with exprs := (p.exprs.callAction kind callee args target).2 }.check = p.check) ∧
    (∀ target value, { p with exprs := (p.exprs.assignAction target value).2 }.check = p.check) ∧
    { p with exprs := p.exprs.emptyAction.2 }.check = p.check := by
  intro p
  have hs : p.exprs.WellOwned := wellOwned_build edits
  have hp : p.Grounded := grounded_build edits
  refine ⟨fun e he => ?_, fun _ callee _ _ => check_constant hs hp callee .str,
    fun _ _ => check_constant hs hp "" .str, check_constant hs hp "" .str⟩
  rcases after_of_buildsExpr hs he with ⟨hafter, hnone⟩ | ⟨form, type, free, ht, hafter, htakes⟩
  · rw [hafter]
    exact ⟨fun _ h hh => absurd hh (hnone h), fun _ => rfl⟩
  · rw [hafter]
    constructor
    · intro heq h hh hbare
      obtain ⟨index, rfl⟩ := (htakes h).1 hh
      have hfree : p.exprs.Free h := free h (by simp [Form.uses, Form.operands])
      have hlt := weigh_check_add_lt hs hp ht hfree hbare
      rw [heq] at hlt
      exact Int.lt_irrefl _ hlt
    · intro hbare
      exact check_add hs hp ht free fun h index heq => hbare h ((htakes h).2 ⟨index, heq⟩)

/-- A node that has an array for its start condition, and a constant besides. -/
def arrayCondition : List Edit :=
  [.addNode "A" none, .declareVariable 0 ⟨"x", .boolean, .unstated, some 3⟩,
    .reference "x" none, .addCondition 0 .start 0, .constant "0" .num]

/-- An element of another reference to the array, which is no condition, changes nothing. -/
theorem check_after_element_of_other :
    (Edit.binary (.binary .arrayElem) 2 1).buildsExpr = true ∧
      ((build (arrayCondition ++ [.reference "x" none])).after
        (.binary (.binary .arrayElem) 2 1)).check =
          (build (arrayCondition ++ [.reference "x" none])).check := by
  have hiff := (check_after_eq_iff (arrayCondition ++ [.reference "x" none])).1
    (.binary (.binary .arrayElem) 2 1) rfl
  refine ⟨rfl, hiff.2 ?_⟩
  rintro h ⟨index, heq, _⟩ ⟨n, node, _, _, _, hnode, hchecked, _⟩
  obtain ⟨_, rfl, _⟩ := Edit.binary.inj heq
  have hunchecked : ∀ node ∈ (build (arrayCondition ++ [.reference "x" none])).nodes.toList,
      2 ∉ node.checked := by decide +kernel
  exact hunchecked node (List.mem_of_getElem? (by rwa [Array.getElem?_toList])) hchecked

/-- **An element of the condition itself takes its finding away,** though no node uses that
element. -/
theorem element_of_condition :
    (build arrayCondition).check = [.arrayNeedsIndex "x" "x"] ∧
      ((build arrayCondition).after (.binary (.binary .arrayElem) 0 1)).check = [] := by
  decide +kernel

end Plan
end Preflight
