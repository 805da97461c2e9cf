import Preflight.Proofs.Plan.Checked
import Preflight.Proofs.Resolution
import Preflight.Proofs.Typing

/-!
# Which plans are accepted

`Plan.Acceptable` says without reference to the checks what a plan must be like: no name is
declared twice; the commands and lookups of nodes are declared; what conditions and
assignments refer to resolves; conditions are truth values; the two sides of an assignment
agree in type. The verdict on a plan that was built is empty exactly if the plan is
acceptable (`check_eq_nil_iff`).

Each part of the verdict is taken by itself first. An assignment is the one place where the
parts hang together: types are looked at only if all references are right, and so the
verdict on it is empty if there is nothing to say on either.
-/

namespace Preflight

namespace Plan

variable {p : Plan} {n : NodeId} {node : Node}

/-- What a plan must be like for there to be nothing to say about it. -/
structure Acceptable (p : Plan) : Prop where
  names : (p.declarations.map Declaration.name).Nodup
  calls : ∀ n node a, p.node? n = some node → node.action = some a →
    a.kind = .command ∨ a.kind = .lookup → p.Declared a
  conditions : ∀ n node c, p.node? n = some node → c ∈ node.conditions →
    p.Resolves n c.expr ∧ ∃ r, p.exprs.HasType p.findVariable? c.expr .bool r
  assignments : ∀ n node target value, p.node? n = some node → node.Assigns target value →
    p.Resolves n target ∧ p.Resolves n value ∧ p.exprs.SidesAgree p.findVariable? target value

/-! ### The parts of the verdict -/

/-- There is nothing to say about the nodes exactly if there is nothing about any of them. -/
theorem onNodes_eq_nil_iff {check : NodeId → Node → List Finding} :
    p.onNodes check = [] ↔ ∀ n node, p.node? n = some node → check n node = [] := by
  simp only [List.eq_nil_iff_forall_not_mem, mem_onNodes_iff]
  constructor
  · intro hnil n node hnode f hf
    exact hnil f ⟨n, node, hnode, hf⟩
  · rintro hall f ⟨n, node, hnode, hf⟩
    exact hall n node hnode f hf

/-- There is nothing to say about the call of a node exactly if what it calls is declared. -/
theorem checkNodeCall_eq_nil_iff (hnames : (p.declarations.map Declaration.name).Nodup) :
    p.checkNodeCall node = [] ↔
      ∀ a, node.action = some a → a.kind = .command ∨ a.kind = .lookup → p.Declared a := by
  unfold checkNodeCall
  cases ha : node.action with
  | none => simp
  | some a =>
    simp only [Option.some.injEq, forall_eq']
    split
    · rename_i hkind
      simp [hkind, checkCall_eq_nil_iff hnames]
    · rename_i hkind
      simp [hkind]

/-- A condition has no finding if its references and lookups have none and it is a truth
value. -/
theorem checkCondition_eq_nil_iff (hs : p.exprs.WellOwned) {c : Condition}
    (hc : p.exprs.contains c.expr = true) :
    p.checkCondition n node c = [] ↔
      (p.checkReferences n ("in " ++ c.kind.name ++ " Condition of node " ++ node.name)
          c.expr = [] ∧
        p.checkLookups n ("in " ++ c.kind.name ++ " Condition of node " ++ node.name)
          c.expr = []) ∧
      ∃ r, p.exprs.HasType p.findVariable? c.expr .bool r := by
  rw [checkCondition, List.append_eq_nil_iff, List.append_eq_nil_iff, typing,
    Store.findings_eq_nil_iff hs hc]

/-- There is no finding on the types of an assignment if its sides are well typed and
agree. -/
theorem assignmentTypes_eq_nil_iff (hs : p.exprs.WellOwned) {target value : ExprId}
    (htarget : p.exprs.contains target = true) (hvalue : p.exprs.contains value = true) :
    p.assignmentTypes n node target value = [] ↔
      p.exprs.SidesAgree p.findVariable? target value := by
  rw [assignmentTypes, List.append_eq_nil_iff, List.append_eq_nil_iff, typing, typing,
    Store.findings_eq_nil_iff hs htarget, Store.findings_eq_nil_iff hs hvalue]
  constructor
  · rintro ⟨⟨⟨l, hl⟩, ⟨r, hr⟩⟩, hagree⟩
    refine ⟨l, r, hl, hr, ?_⟩
    rw [hl.typing_eq hs, hr.typing_eq hs] at hagree
    by_contra hne
    simp [hne] at hagree
  · rintro ⟨l, r, hl, hr, hagree⟩
    refine ⟨⟨⟨l, hl⟩, ⟨r, hr⟩⟩, ?_⟩
    rw [hl.typing_eq hs, hr.typing_eq hs]
    simp [hagree]

/-- An assignment has no finding if there is none on its references, its lookups and its
types. -/
theorem checkAssignment_eq_nil_iff (hs : p.exprs.WellOwned) {target value : ExprId}
    (htarget : p.exprs.contains target = true) (hvalue : p.exprs.contains value = true) :
    p.checkAssignment n node target value = [] ↔
      (p.checkReferences n ("in LHS Assignment of node " ++ node.name) target = [] ∧
        p.checkLookups n ("in LHS Assignment of node " ++ node.name) target = []) ∧
      (p.checkReferences n ("in RHS Assignment of node " ++ node.name) value = [] ∧
        p.checkLookups n ("in RHS Assignment of node " ++ node.name) value = []) ∧
      p.exprs.SidesAgree p.findVariable? target value := by
  have hrefs : p.assignmentReferences n node target value = [] ↔
      (p.checkReferences n ("in LHS Assignment of node " ++ node.name) target = [] ∧
        p.checkLookups n ("in LHS Assignment of node " ++ node.name) target = []) ∧
      (p.checkReferences n ("in RHS Assignment of node " ++ node.name) value = [] ∧
        p.checkLookups n ("in RHS Assignment of node " ++ node.name) value = []) := by
    simp only [assignmentReferences, List.append_eq_nil_iff, and_assoc]
  have htypes : p.assignmentTypes n node target value = [] ↔ _ :=
    assignmentTypes_eq_nil_iff hs htarget hvalue
  rw [← and_assoc, ← hrefs, ← htypes, checkAssignment]
  cases p.assignmentReferences n node target value <;> simp

/-- There is nothing to say about the assignment of a node exactly if there is nothing about its two
sides. -/
theorem checkNodeAssignment_eq_nil_iff :
    p.checkNodeAssignment n node = [] ↔
      ∀ target value, node.Assigns target value → p.checkAssignment n node target value = [] := by
  simp only [Node.assigns_iff]
  cases h : node.assignment? with
  | none => simp [checkNodeAssignment_of_eq_none h]
  | some sides =>
    obtain ⟨target, value⟩ := sides
    simp [checkNodeAssignment_of_eq_some h]

/-- Conditions and assignments have no finding if each of them has none. -/
theorem checkExprs_eq_nil_iff :
    p.checkExprs = [] ↔ ∀ n node, p.node? n = some node →
      (∀ c ∈ node.conditions, p.checkCondition n node c = []) ∧
        ∀ target value, node.Assigns target value →
          p.checkAssignment n node target value = [] := by
  rw [checkExprs, onNodes_eq_nil_iff]
  simp only [checkNodeExprs, List.append_eq_nil_iff, List.flatMap_eq_nil_iff,
    checkNodeAssignment_eq_nil_iff]

/-- Where conditions and assignments have no finding, the references and lookups of what is
checked have none, and it is well typed. -/
theorem passes_of_mem_checked (hs : p.exprs.WellOwned) (hground : p.Grounded)
    (hclean : p.checkExprs = []) (hnode : p.node? n = some node) {root : ExprId}
    (hroot : root ∈ node.checked) :
    (∃ context, p.checkReferences n context root = [] ∧ p.checkLookups n context root = []) ∧
      ∃ t r, p.exprs.HasType p.findVariable? root t r := by
  obtain ⟨hconditions, hassignments⟩ := checkExprs_eq_nil_iff.1 hclean n node hnode
  have hin := fun h (hh : h ∈ node.checked) => hground.contains_checked hnode hh
  rcases List.mem_append.1 hroot with hmem | hmem
  · obtain ⟨c, hc, rfl⟩ := List.mem_map.1 hmem
    obtain ⟨hrefs, r, hr⟩ := (checkCondition_eq_nil_iff hs (hin _ hroot)).1 (hconditions c hc)
    exact ⟨⟨_, hrefs⟩, _, r, hr⟩
  · obtain ⟨⟨target, value⟩, hsides, hmem⟩ := List.mem_flatMap.1 hmem
    have hsides := Option.mem_toList.1 hsides
    obtain ⟨ht, hv⟩ := Node.sides_mem_checked hsides
    obtain ⟨hleft, hright, l, r, hl, hr, _⟩ :=
      (checkAssignment_eq_nil_iff hs (hin _ ht) (hin _ hv)).1
        (hassignments target value (Node.assigns_iff.2 hsides))
    rcases List.mem_pair.1 hmem with rfl | rfl
    · exact ⟨⟨_, hleft⟩, _, l, hl⟩
    · exact ⟨⟨_, hright⟩, _, r, hr⟩

/-- In a plan that passes, the references and lookups of all that is checked are in order. -/
theorem clean_of_mem_checked (hs : p.exprs.WellOwned) (hground : p.Grounded)
    (hclean : p.checkExprs = []) (hnode : p.node? n = some node) {root : ExprId}
    (hroot : root ∈ node.checked) :
    ∃ context, p.checkReferences n context root = [] ∧ p.checkLookups n context root = [] :=
  (passes_of_mem_checked hs hground hclean hnode hroot).1

/-! ### The whole verdict -/

/-- **The verdict on a plan is empty exactly if the plan is acceptable.** -/
theorem check_eq_nil_iff (edits : List Edit) :
    (build edits).check = [] ↔ (build edits).Acceptable := by
  generalize hp : build edits = p
  have hs : p.exprs.WellOwned := hp ▸ wellOwned_build edits
  have hground : p.Grounded := hp ▸ grounded_build edits
  rw [check, List.append_eq_nil_iff, List.append_eq_nil_iff, checkConflicts,
    Declaration.conflicts_eq_nil_iff, checkCalls, onNodes_eq_nil_iff, checkExprs_eq_nil_iff]
  constructor
  · rintro ⟨⟨hnames, hcalls⟩, hexprs⟩
    refine ⟨hnames, fun n node a hnode => ?_, fun n node c hnode hc => ?_,
      fun n node target value hnode hassign => ?_⟩
    · exact (checkNodeCall_eq_nil_iff hnames).1 (hcalls n node hnode) a
    · have hin := hground.contains_checked hnode (Node.expr_mem_checked hc)
      have := (checkCondition_eq_nil_iff hs hin).1 ((hexprs n node hnode).1 c hc)
      rwa [resolves_iff hs hnames] at this
    · obtain ⟨ht, hv⟩ := Node.sides_mem_checked (Node.assigns_iff.1 hassign)
      have ht := hground.contains_checked hnode ht
      have hv := hground.contains_checked hnode hv
      have := (checkAssignment_eq_nil_iff hs ht hv).1 ((hexprs n node hnode).2 _ _ hassign)
      rwa [resolves_iff hs hnames, resolves_iff hs hnames] at this
  · rintro ⟨hnames, hcalls, hconditions, hassignments⟩
    refine ⟨⟨hnames, fun n node hnode => ?_⟩, fun n node hnode => ⟨fun c hc => ?_,
      fun target value hassign => ?_⟩⟩
    · exact (checkNodeCall_eq_nil_iff hnames).2 fun a => hcalls n node a hnode
    · have hin := hground.contains_checked hnode (Node.expr_mem_checked hc)
      rw [checkCondition_eq_nil_iff hs hin, resolves_iff hs hnames]
      exact hconditions n node c hnode hc
    · obtain ⟨ht, hv⟩ := Node.sides_mem_checked (Node.assigns_iff.1 hassign)
      have ht := hground.contains_checked hnode ht
      have hv := hground.contains_checked hnode hv
      rw [checkAssignment_eq_nil_iff hs ht hv, resolves_iff hs hnames, resolves_iff hs hnames]
      exact hassignments n node target value hnode hassign

end Plan

end Preflight
