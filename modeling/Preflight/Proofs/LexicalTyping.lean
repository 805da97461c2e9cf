import Preflight.Proofs.Acceptance
import Preflight.Proofs.Plan.Scope

/-!
# Types by scope and types by name

References are resolved from inside a node, by the nearest variable on the way up. Types are
not: a name has the type of the first variable of that name in the whole plan, whichever node
declares it. Where several nodes declare a name, the two can differ, and then a plan on which
there is nothing to report can hold a condition that is not a truth value in its scope
(`not_typed_in_scope`).

This is the only way. `TypeDiffers` says that a name stands for variables of two nodes and of
different types, one by scope and one by name. An expression that reads no such name is well
typed by scope as well (`typed_in_scope`).
-/

namespace Preflight
namespace Plan

variable {p : Plan} {n : NodeId} {node : Node} {name : String} {v : Variable}

/-- The conditions of the node are truth values, and the sides of its assignment agree, where
`vars` gives the variables. -/
structure TypedBy (p : Plan) (vars : String → Option Variable) (node : Node) : Prop where
  conditions : ∀ c ∈ node.conditions, ∃ r, p.exprs.HasType vars c.expr .bool r
  assignments : ∀ target value, node.Assigns target value →
    p.exprs.SidesAgree vars target value

/-- Inside `n` the name stands for a variable of one node, and by itself for that of another
node, and these differ in type. -/
def TypeDiffers (p : Plan) (n : NodeId) (name : String) : Prop :=
  ∃ m m' v w, m ≠ m' ∧ p.findLocal? m name = some v ∧ p.findLocal? m' name = some w ∧
    p.findInScope? n name = some v ∧ p.findVariable? name = some w ∧ v.type.ty ≠ w.type.ty

/-- A name in scope has the same type by scope and by name, unless it differs by two nodes. -/
theorem type_eq_of_not_typeDiffers (hv : p.findInScope? n name = some v)
    (hsame : ¬ p.TypeDiffers n name) :
    (p.findVariable? name).map (fun v => v.type.ty) =
      (p.findInScope? n name).map fun v => v.type.ty := by
  obtain ⟨m, hm⟩ := exists_findLocal?_of_findInScope? hv
  obtain ⟨w, hw⟩ := Option.isSome_iff_exists.1 (isSome_findVariable? hm)
  obtain ⟨m', hm', _⟩ := exists_findLocal?_of_findVariable? hw
  rw [hv, hw, Option.map_some, Option.map_some]
  by_contra hne
  have hty : v.type.ty ≠ w.type.ty := fun heq => hne (by rw [heq])
  refine hsame ⟨m, m', v, w, ?_, hm, hm', hv, hw, hty⟩
  rintro rfl
  obtain rfl := Option.some.inj (hm.symm.trans hm')
  exact hty rfl

/-- Where the references of an expression have no finding, the variables that it reads are in
scope. -/
theorem inScope_of_reads (hs : p.exprs.WellOwned) {context : String} {root : ExprId}
    (hclean : p.checkReferences n context root = []) (hname : p.exprs.Reads root name) :
    ∃ v, p.findInScope? n name = some v := by
  obtain ⟨h, c, hreach, hc, hform, hprop⟩ := hname
  exact ((checkReferences_eq_nil_iff hs).1 hclean h c name hreach hc hform).inScope hprop

/-- A judgement by name is one by scope, if the names that are read do not differ. -/
theorem hasType_in_scope (hs : p.exprs.WellOwned) {context : String} {root : ExprId} {t r : Ty}
    (hclean : p.checkReferences n context root = [])
    (H : p.exprs.HasType p.findVariable? root t r)
    (hsame : ∀ name, p.exprs.Reads root name → ¬ p.TypeDiffers n name) :
    p.exprs.HasType (p.findInScope? n) root t r := by
  refine H.congr_vars fun name hname => ?_
  obtain ⟨v, hv⟩ := inScope_of_reads hs hclean hname
  exact type_eq_of_not_typeDiffers hv (hsame name hname)

/-- **Where there is nothing to report, every expression is well typed by name, all it reads
is in scope, and it is well typed by scope unless it reads a name whose type differs.** -/
theorem typed_in_scope (edits : List Edit) (hclean : (build edits).checkExprs = []) :
    let p := build edits
    ∀ n node, p.node? n = some node → p.TypedBy p.findVariable? node ∧
      (∀ c ∈ node.conditions,
        (∀ name, p.exprs.Reads c.expr name → ∃ v, p.findInScope? n name = some v) ∧
          ((∀ name, p.exprs.Reads c.expr name → ¬ p.TypeDiffers n name) →
            ∃ r, p.exprs.HasType (p.findInScope? n) c.expr .bool r)) ∧
      ∀ target value, node.Assigns target value →
        (∀ name, p.exprs.Reads target name ∨ p.exprs.Reads value name →
          ∃ v, p.findInScope? n name = some v) ∧
          ((∀ name, p.exprs.Reads target name ∨ p.exprs.Reads value name →
            ¬ p.TypeDiffers n name) → p.exprs.SidesAgree (p.findInScope? n) target value) := by
  intro p n node hnode
  have hs : p.exprs.WellOwned := wellOwned_build edits
  have hin := fun h (hh : h ∈ node.checked) => (grounded_build edits).contains_checked hnode hh
  obtain ⟨hconditions, hassignments⟩ := checkExprs_eq_nil_iff.1 hclean n node hnode
  have hcond := fun c hc =>
    (checkCondition_eq_nil_iff hs (hin c.expr (Node.expr_mem_checked hc))).1 (hconditions c hc)
  have hassign := fun target value (ha : node.Assigns target value) =>
    have hsides := Node.sides_mem_checked (Node.assigns_iff.1 ha)
    (checkAssignment_eq_nil_iff hs (hin target hsides.1) (hin value hsides.2)).1
      (hassignments target value ha)
  refine ⟨⟨fun c hc => (hcond c hc).2, fun target value ha => (hassign target value ha).2.2⟩,
    fun c hc => ?_, fun target value ha => ?_⟩
  · obtain ⟨⟨hrefs, _⟩, r, hr⟩ := hcond c hc
    exact ⟨fun name hname => inScope_of_reads hs hrefs hname,
      fun hsame => ⟨r, hasType_in_scope hs hrefs hr hsame⟩⟩
  · obtain ⟨⟨hleft, _⟩, ⟨hright, _⟩, l, r, hl, hr, hagree⟩ := hassign target value ha
    refine ⟨fun name hname => ?_, fun hsame => ⟨l, r, ?_, ?_, hagree⟩⟩
    · rcases hname with hname | hname
      · exact inScope_of_reads hs hleft hname
      · exact inScope_of_reads hs hright hname
    · exact hasType_in_scope hs hleft hl fun name hname => hsame name (.inl hname)
    · exact hasType_in_scope hs hright hr fun name hname => hsame name (.inr hname)

/-- A node with an integer, and a node below it with a real of the same name, which it
compares to a constant. -/
def integerAndReal : List Edit :=
  [.addNode "A" none, .declareVariable 0 ⟨"x", .integer, .unstated, none⟩,
    .addNode "B" (some 0), .declareVariable 1 ⟨"x", .real, .unstated, none⟩,
    .reference "x" none, .constant "0" .num, .binary (.binary .gt) 0 1, .addCondition 1 .start 2]

/-- Two variables of one name are no obstacle if both are numbers. -/
theorem typed_in_scope_integerAndReal :
    let p := build integerAndReal
    p.checkExprs = [] ∧ (∀ name, ¬ p.TypeDiffers 1 name) ∧
      ∃ r, p.exprs.HasType (p.findInScope? 1) 2 .bool r := by
  intro p
  have hclean : p.checkExprs = [] := by decide +kernel
  have hnum : ∀ v ∈ p.allVariables, v.type.ty = .num := by decide +kernel
  have hsame : ∀ name, ¬ p.TypeDiffers 1 name := by
    rintro name ⟨m, m', v, w, _, hv, hw, _, _, hne⟩
    have hv := (mem_allVariables_of_findLocal? hv).1
    have hw := (mem_allVariables_of_findLocal? hw).1
    exact hne ((hnum v hv).trans (hnum w hw).symm)
  have hnode : p.node? 1 =
      some ⟨"B", some 0, [], [⟨.start, 2⟩], none, [⟨"x", .real, .unstated, none⟩]⟩ := by
    decide +kernel
  obtain ⟨_, hconditions, _⟩ := typed_in_scope integerAndReal hclean 1 _ hnode
  exact ⟨hclean, hsame, (hconditions ⟨.start, 2⟩ (by simp)).2 fun name _ => hsame name⟩

/-- Two nodes with a variable of the same name, the first a Boolean and the second an integer,
which the second takes for its start condition. -/
def booleanAndInteger : List Edit :=
  [.addNode "A" none, .declareVariable 0 ⟨"x", .boolean, .unstated, none⟩,
    .addNode "B" none, .declareVariable 1 ⟨"x", .integer, .unstated, none⟩,
    .reference "x" none, .addCondition 1 .start 0]

/-- **A plan with nothing to report can have a condition that is no truth value in its
scope.**  The condition is typed by the variable of the other node. -/
theorem not_typed_in_scope :
    let p := build booleanAndInteger
    p.checkExprs = [] ∧
      ¬ ∀ n node, p.node? n = some node → p.TypedBy (p.findInScope? n) node := by
  intro p
  refine ⟨by decide +kernel, fun hall => ?_⟩
  have hnode : p.node? 1 =
      some ⟨"B", none, [], [⟨.start, 0⟩], none, [⟨"x", .integer, .unstated, none⟩]⟩ := by
    decide +kernel
  have htyped := (hall 1 _ hnode).conditions ⟨.start, 0⟩ (by simp)
  rw [← Store.findings_eq_nil_iff (wellOwned_build _) (by decide +kernel)] at htyped
  revert htyped
  decide +kernel

end Plan
end Preflight
