import Preflight.Proofs.Plan.Checked
import Preflight.Proofs.Plan.Scope
import Preflight.Proofs.Store.Locality

/-!
# The parts of the verdict over another store

A plan is looked at over a store `t` in the place of its own, where the two agree, owners
apart, on a closed set of handles (`Store.SameOn`). Names are resolved in the nodes alone and
do not see the store. Calls, lookups and types see only what `SameOn` keeps, so on the
handles of the set there is nothing else to say on them.

Only a reference looks at an owner: whether an element is taken of a variable. The findings
on the references of an expression are the same if that is the same for each variable in
scope among them (`checkReferences_frame`).
-/

namespace Preflight
namespace Plan

variable {p : Plan} {t : Store} {S : ExprId → Prop} {n : NodeId} {node : Node}

/-! ### Names -/

/-- What a name stands for in a node does not depend on the store. -/
theorem findInScope?_frame (p : Plan) (t : Store) (n : NodeId) (name : String) :
    ({ p with exprs := t } : Plan).findInScope? n name = p.findInScope? n name :=
  findInScope?_congr (p := p) (q := { p with exprs := t }) rfl n name

/-! ### Calls -/

/-- Types are compared with the same result. -/
theorem haveTypesOf_frame (H : p.exprs.SameOn S t) {hs : List ExprId} (hin : ∀ h ∈ hs, S h)
    (vars : List Variable) :
    ({ p with exprs := t } : Plan).haveTypesOf hs vars = p.haveTypesOf hs vars := by
  unfold haveTypesOf
  rw [Bool.eq_iff_iff, List.all_eq_true, List.all_eq_true]
  refine forall₂_congr fun ⟨h, v⟩ hmem => ?_
  have hh : p.exprs.resultType p.findVariable? h = t.resultType p.findVariable? h :=
    H.resultType_eq (hin h (List.of_mem_zip hmem).1)
  show ((t.resultType p.findVariable? h == _) = true ↔ (p.exprs.resultType _ h == _) = true)
  rw [hh]

/-- A call conforms to the same declarations. -/
theorem conforms_frame (H : p.exprs.SameOn S t) {a : Action} (ha : ∀ h ∈ a.exprs, S h)
    (d : Declaration) : ({ p with exprs := t } : Plan).conforms a d = p.conforms a d := by
  have hargs : ∀ h ∈ a.args, S h := fun h hh => ha h (by simp [Action.exprs, hh])
  have hreturns : ∀ h ∈ a.returns, S h := fun h hh => ha h (by
    rw [Action.returns] at hh
    simp [Action.exprs, hh])
  rw [conforms, conforms, haveTypesOf_frame H hargs, haveTypesOf_frame H hreturns]

/-- The check of a call finds the same. -/
theorem checkCall_frame (H : p.exprs.SameOn S t) (hs : p.exprs.WellOwned) {a : Action}
    (ha : ∀ h ∈ a.exprs, S h) (name : String) (undeclared : Finding) :
    ({ p with exprs := t } : Plan).checkCall name undeclared a = p.checkCall name undeclared a := by
  have hcallee : S a.callee := ha a.callee (by simp [Action.exprs])
  simp only [checkCall, mismatch?, conforms_frame H ha, ← H.staticText?_eq hs hcallee,
    ← H.text_eq hs hcallee, ← H.actionText_eq hs ha]
  rfl

/-- The check of a node's call finds the same. -/
theorem checkNodeCall_frame (H : p.exprs.SameOn S t) (hs : p.exprs.WellOwned)
    (hnode : ∀ a, node.action = some a → ∀ h ∈ a.exprs, S h) :
    ({ p with exprs := t } : Plan).checkNodeCall node = p.checkNodeCall node := by
  unfold checkNodeCall
  cases ha : node.action with
  | none => rfl
  | some a => simp only [checkCall_frame H hs (hnode a ha), ← H.actionText_eq hs (hnode a ha)]

/-! ### References and lookups -/

/-- The findings on a reference to a variable in scope. -/
theorem checkReference_var {context : String} {root h : ExprId} {c : Cell} {name : String}
    {v : Variable} (hc : p.exprs.get? h = some c) (hform : c.form = .ref name)
    (hprop : c.nodeProperty? = none) (hv : p.findInScope? n name = some v) :
    p.checkReference n context root h =
      v.typeMisuse c.type context ++ v.indexMisuse (p.exprs.isIndexed h) (p.exprs.text root) := by
  simp [checkReference, hc, hform, hprop, hv]

/-- The findings on such a reference over the other store. -/
theorem checkReference_var_frame (H : p.exprs.SameOn S t) (hs : p.exprs.WellOwned)
    {context : String} {root h : ExprId} (hroot : S root) (hh : S h) {c : Cell} {name : String}
    {v : Variable} (hc : p.exprs.get? h = some c) (hform : c.form = .ref name)
    (hprop : c.nodeProperty? = none) (hv : p.findInScope? n name = some v) :
    ({ p with exprs := t } : Plan).checkReference n context root h =
      v.typeMisuse c.type context ++ v.indexMisuse (t.isIndexed h) (p.exprs.text root) := by
  obtain ⟨d, o, hd, ht⟩ := H.same hh
  obtain rfl := Option.some.inj (hc.symm.trans hd)
  rw [H.text_eq hs hroot]
  exact checkReference_var (c := { c with owner := o }) ht hform hprop
    ((findInScope?_frame p t n name).trans hv)

/-- A reference has the same findings over both stores, if it is not to a variable in scope
or an element is taken of it in both or in neither. -/
theorem checkReference_frame (H : p.exprs.SameOn S t) (hs : p.exprs.WellOwned)
    {context : String} {root h : ExprId} (hroot : S root) (hh : S h)
    (hindexed : ∀ c name v, p.exprs.get? h = some c → c.form = .ref name →
      c.nodeProperty? = none → p.findInScope? n name = some v →
        t.isIndexed h = p.exprs.isIndexed h) :
    ({ p with exprs := t } : Plan).checkReference n context root h =
      p.checkReference n context root h := by
  obtain ⟨c, o, hc, ht⟩ := H.same hh
  simp only [checkReference, hc, ht, Cell.nodeProperty?, findInScope?_frame, ← H.text_eq hs hroot]
  cases hform : c.form with
  | ref name =>
    by_cases hprop : (c.type.filter Ty.isNodeProperty).isSome
    · simp only [hprop, if_true]
      rfl
    · simp only [hprop, Bool.false_eq_true, if_false]
      cases hv : p.findInScope? n name with
      | none => rfl
      | some v =>
        have hnone := Option.not_isSome_iff_eq_none.1 hprop
        simp only [hindexed c name v hc hform hnone hv]
  | _ => rfl

/-- The check of references finds the same, if an element is taken of the same variables. -/
theorem checkReferences_frame (H : p.exprs.SameOn S t) (hs : p.exprs.WellOwned)
    {root : ExprId} (hroot : S root)
    (hindexed : ∀ h c name v, p.exprs.Reaches root h → p.exprs.get? h = some c →
      c.form = .ref name → c.nodeProperty? = none → p.findInScope? n name = some v →
        t.isIndexed h = p.exprs.isIndexed h) (context : String) :
    ({ p with exprs := t } : Plan).checkReferences n context root =
      p.checkReferences n context root := by
  rw [checkReferences, checkReferences, ← H.find_eq hs hroot]
  refine List.flatMap_congr fun h hmem => ?_
  have hreach := ((Store.mem_find_iff hs).1 hmem).1
  exact checkReference_frame H hs hroot (H.closed_reaches hroot hreach)
    fun c name v => hindexed h c name v hreach

/-- The check of a lookup finds the same. -/
theorem checkLookup_frame (H : p.exprs.SameOn S t) (hs : p.exprs.WellOwned) {h : ExprId}
    (hh : S h) (context : String) :
    ({ p with exprs := t } : Plan).checkLookup n context h = p.checkLookup n context h := by
  obtain ⟨c, o, hc, ht⟩ := H.same hh
  simp only [checkLookup, hc, ht, Cell.nodeProperty?]
  cases hform : c.form with
  | lookup name call =>
    have hcall : ∀ k ∈ call.exprs, S k := fun k hk =>
      H.closed hh ⟨c, hc, by rwa [hform]⟩
    simp only [checkCall_frame H hs hcall, ← H.actionText_eq hs hcall]
    rfl
  | _ => rfl

/-- The check of the lookups in an expression finds the same. -/
theorem checkLookups_frame (H : p.exprs.SameOn S t) (hs : p.exprs.WellOwned) {root : ExprId}
    (hroot : S root) (context : String) :
    ({ p with exprs := t } : Plan).checkLookups n context root = p.checkLookups n context root := by
  rw [checkLookups, checkLookups, ← H.find_eq hs hroot]
  refine List.flatMap_congr fun h hmem => ?_
  have hreach := ((Store.mem_find_iff hs).1 hmem).1
  exact checkLookup_frame H hs (H.closed_reaches hroot hreach) context

/-! ### Types -/

/-- The typing is the same. -/
theorem typing_frame (H : p.exprs.SameOn S t) (hs : p.exprs.WellOwned) {h : ExprId} (hh : S h)
    (expected : Ty) :
    ({ p with exprs := t } : Plan).typing h expected = p.typing h expected := by
  rw [typing, typing, H.typing_eq hs hh]
  rfl

/-- The target of an assignment is named the same. -/
theorem targetText_frame (H : p.exprs.SameOn S t) (hs : p.exprs.WellOwned) {target : ExprId}
    (htarget : S target) :
    ({ p with exprs := t } : Plan).targetText n target = p.targetText n target := by
  have hlabel : ∀ h ∈ p.exprs.find target (.leaf .ref),
      ((t.get? h).bind fun c => c.form.label?) = (p.exprs.get? h).bind fun c => c.form.label? := by
    intro h hmem
    have hreach := ((Store.mem_find_iff hs).1 hmem).1
    obtain ⟨c, o, hc, ht⟩ := H.same (H.closed_reaches htarget hreach)
    rw [hc, ht]
    rfl
  simp only [targetText, ← H.find_eq hs htarget, ← H.text_eq hs htarget]
  cases hhead : (p.exprs.find target (.leaf .ref)).head? with
  | none => rfl
  | some h =>
    simp only [Option.bind_some, hlabel h (List.mem_of_mem_head? hhead)]
    cases (p.exprs.get? h).bind fun c => c.form.label? with
    | none => rfl
    | some name => simp only [Option.bind_some, findInScope?_frame]

/-! ### Nodes -/

/-- The findings on a node are the same if those on the references are. -/
theorem checkNodeExprs_frame (H : p.exprs.SameOn S t) (hs : p.exprs.WellOwned)
    (hin : ∀ root ∈ node.checked, S root)
    (hrefs : ∀ root ∈ node.checked, ∀ context,
      ({ p with exprs := t } : Plan).checkReferences n context root =
        p.checkReferences n context root) :
    ({ p with exprs := t } : Plan).checkNodeExprs n node = p.checkNodeExprs n node :=
  checkNodeExprs_congr hrefs (fun root hroot => checkLookups_frame H hs (hin root hroot))
    (fun root hroot => typing_frame H hs (hin root hroot))
    fun root hroot => targetText_frame H hs (hin root hroot)

end Plan
end Preflight
