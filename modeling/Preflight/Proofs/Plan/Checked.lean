import Preflight.Proofs.Plan.Building
import Preflight.Verdict

/-!
# What is checked of a node

Of the expressions of a node its conditions are checked, and both sides of its assignment if
it makes one. All of these are in the store of a plan that was built
(`Grounded.contains_checked`). If it makes a command or a lookup instead, this is compared with
its declaration (`Node.checkedCall?`).
-/

namespace Preflight

namespace Node

variable {node : Node} {target value h : ExprId}

/-- The node assigns the expression at `value` to the one at `target`. -/
def Assigns (node : Node) (target value : ExprId) : Prop :=
  ∃ a, node.action = some a ∧ a.kind = .assignment ∧ a.target = some target ∧
    a.value? = some value

/-- Target and value of the assignment that a node makes. -/
def assignment? (node : Node) : Option (ExprId × ExprId) :=
  match node.action with
  | some ⟨.assignment, _, value :: _, some target⟩ => some (target, value)
  | _ => none

/-- A node assigns a value to a target exactly if these are the two sides of its assignment. -/
theorem assigns_iff : node.Assigns target value ↔ node.assignment? = some (target, value) := by
  unfold Assigns assignment?
  constructor
  · rintro ⟨⟨kind, callee, args, place⟩, haction, hkind, htarget, hvalue⟩
    obtain ⟨rest, rfl⟩ := List.head?_eq_some_iff.1 hvalue
    obtain rfl : kind = _ := hkind
    obtain rfl : place = _ := htarget
    rw [haction]
  · intro h
    split at h
    · rename_i haction
      obtain ⟨rfl, rfl⟩ := Prod.mk.inj (Option.some.inj h)
      exact ⟨_, haction, rfl, rfl, rfl⟩
    · cases h

/-- The expressions of a node that are checked: its conditions, and both sides of its
assignment. -/
def checked (node : Node) : List ExprId :=
  node.conditions.map Condition.expr ++
    node.assignment?.toList.flatMap fun (target, value) => [target, value]

/-- The command or lookup that a node makes. -/
def checkedCall? (node : Node) : Option Action :=
  node.action.filter fun a => a.kind = .command ∨ a.kind = .lookup

/-- A condition is checked. -/
theorem expr_mem_checked {c : Condition} (hc : c ∈ node.conditions) : c.expr ∈ node.checked :=
  List.mem_append_left _ (List.mem_map_of_mem hc)

/-- Both sides of an assignment are checked. -/
theorem sides_mem_checked (h : node.assignment? = some (target, value)) :
    target ∈ node.checked ∧ value ∈ node.checked := by
  simp [checked, h]

/-- What is checked of a node is among the expressions it speaks of. -/
theorem mem_holds_of_mem_checked (hh : h ∈ node.checked) : h ∈ node.holds := by
  rcases List.mem_append.1 hh with hh | hh
  · exact List.mem_append_left _ hh
  · obtain ⟨⟨target, value⟩, hmem, hh⟩ := List.mem_flatMap.1 hh
    obtain ⟨a, haction, _, htarget, hvalue⟩ := assigns_iff.2 (Option.mem_toList.1 hmem)
    have hargs : value ∈ a.args := List.mem_of_mem_head? hvalue
    refine List.mem_append_right _ ?_
    rw [haction, Option.toList_some, List.flatMap_singleton]
    rcases List.mem_pair.1 hh with rfl | rfl
    · simp [Action.exprs, htarget]
    · simp [Action.exprs, hargs]

end Node

namespace Plan

variable {p q : Plan} {n : NodeId} {node : Node}

/-- The nodes with their positions are the nodes at their handles. -/
theorem mem_zipIdx_nodes_iff :
    (node, n) ∈ p.nodes.toList.zipIdx ↔ p.node? n = some node := by
  rw [List.mem_zipIdx_iff_getElem?, Array.getElem?_toList, node?]

/-- What is found on the nodes is what is found on one of them. -/
theorem mem_onNodes_iff {check : NodeId → Node → List Finding} {f : Finding} :
    f ∈ p.onNodes check ↔ ∃ n node, p.node? n = some node ∧ f ∈ check n node := by
  rw [onNodes, List.mem_flatMap]
  constructor
  · rintro ⟨⟨node, n⟩, hmem, hf⟩
    exact ⟨n, node, mem_zipIdx_nodes_iff.1 hmem, hf⟩
  · rintro ⟨n, node, hnode, hf⟩
    exact ⟨(node, n), mem_zipIdx_nodes_iff.2 hnode, hf⟩

/-- The nodes of a plan stand at the handles below its size. -/
theorem onNodes_eq_flatMap_range (p : Plan) (check : NodeId → Node → List Finding) :
    p.onNodes check = (List.range p.size).flatMap fun n => (p.node? n).elim [] (check n) := by
  have hrange : List.range p.size = p.nodes.toList.zipIdx.map Prod.snd := by
    rw [List.zipIdx_map_snd, Array.length_toList, List.range_eq_range', size]
  rw [onNodes, hrange, List.flatMap_map]
  refine List.flatMap_congr fun ⟨node, n⟩ hmem => ?_
  rw [mem_zipIdx_nodes_iff.1 hmem, Option.elim_some]

/-- What is checked of a node is there. -/
theorem Grounded.contains_checked (hp : p.Grounded) (hnode : p.node? n = some node) {h : ExprId}
    (hh : h ∈ node.checked) : p.exprs.contains h = true :=
  hp n node hnode h (Node.mem_holds_of_mem_checked hh)

/-- A node that makes an assignment is checked for it. -/
theorem checkNodeAssignment_of_eq_some {target value : ExprId}
    (h : node.assignment? = some (target, value)) :
    p.checkNodeAssignment n node = p.checkAssignment n node target value := by
  obtain ⟨⟨kind, callee, args, place⟩, haction, hkind, htarget, hvalue⟩ := Node.assigns_iff.2 h
  obtain ⟨rest, rfl⟩ := List.head?_eq_some_iff.1 hvalue
  obtain rfl : kind = _ := hkind
  obtain rfl : place = _ := htarget
  rw [checkNodeAssignment, haction]

/-- There is nothing to say about the assignment of a node that makes none. -/
theorem checkNodeAssignment_of_eq_none (h : node.assignment? = none) :
    p.checkNodeAssignment n node = [] := by
  unfold checkNodeAssignment
  split
  · rename_i haction
    rw [Node.assignment?, haction] at h
    cases h
  · rfl

/-- The findings on the expressions of a node are made up of those on what is checked of it. -/
theorem checkNodeExprs_congr
    (hrefs : ∀ root ∈ node.checked, ∀ context,
      q.checkReferences n context root = p.checkReferences n context root)
    (hlookups : ∀ root ∈ node.checked, ∀ context,
      q.checkLookups n context root = p.checkLookups n context root)
    (htyping : ∀ root ∈ node.checked, ∀ t, q.typing root t = p.typing root t)
    (htext : ∀ root ∈ node.checked, q.targetText n root = p.targetText n root) :
    q.checkNodeExprs n node = p.checkNodeExprs n node := by
  rw [checkNodeExprs, checkNodeExprs]
  congr 1
  · refine List.flatMap_congr fun c hc => ?_
    have hmem := Node.expr_mem_checked hc
    simp only [checkCondition, hrefs c.expr hmem, hlookups c.expr hmem, htyping c.expr hmem]
  · cases h : node.assignment? with
    | none => rw [checkNodeAssignment_of_eq_none h, checkNodeAssignment_of_eq_none h]
    | some sides =>
      obtain ⟨target, value⟩ := sides
      obtain ⟨ht, hv⟩ := Node.sides_mem_checked h
      rw [checkNodeAssignment_of_eq_some h, checkNodeAssignment_of_eq_some h]
      simp only [checkAssignment, assignmentReferences, assignmentTypes, hrefs target ht,
        hrefs value hv, hlookups target ht, hlookups value hv, htyping target ht, htyping value hv,
        htext target ht]

end Plan

end Preflight
