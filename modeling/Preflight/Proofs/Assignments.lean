import Preflight.Proofs.Blame
import Preflight.Proofs.Plan.Checked
import Preflight.Proofs.Resolution

/-!
# Findings on an assignment do not follow from each other

An assignment is checked in two stages. If there is anything to report on the references and
lookups of its two sides, that is all that is reported, and none of it is on types
(`ReferenceReport.not_onTypes`). Otherwise the two sides are typed, each by itself, and then
compared.

What the comparison reports can be said without the check, since some type remains of each side
where anything is expected (`Store.isSome_type_typing_any`): the types of the two sides disagree
if and only if both are concrete and they differ (`assignmentTypes_eq`). It is reported last, and
nothing else on a node is a report of this kind (`mismatchLast_checkNodeExprs`).
-/

namespace Preflight

/-- The finding is that the two sides of an assignment disagree. -/
def Finding.isAssignmentMismatch : Finding → Bool
  | .assignmentMismatch .. => true
  | _ => false

/-- A finding of the typing is not on the two sides of an assignment. -/
theorem Store.TypeReport.not_isAssignmentMismatch {s : Store} {f : Finding} (hf : s.TypeReport f) :
    f.isAssignmentMismatch = false := by
  cases hf <;> rfl

namespace Plan

variable {p : Plan} {n : NodeId} {node : Node} {target value : ExprId}

/-- A finding on references or lookups is not one on types. -/
theorem ReferenceReport.not_onTypes {f : Finding} (hf : ReferenceReport f) :
    f.isTypeMismatch = false ∧ f.isAssignmentMismatch = false := by
  cases hf <;> exact ⟨rfl, rfl⟩

/-- The findings on the references and lookups of an assignment: on those of its target, then on
those of its value. -/
def referenceFindings (p : Plan) (n : NodeId) (node : Node) (target value : ExprId) :
    List (List Finding) :=
  [p.checkReferences n ("in LHS Assignment of node " ++ node.name) target,
    p.checkLookups n ("in LHS Assignment of node " ++ node.name) target,
    p.checkReferences n ("in RHS Assignment of node " ++ node.name) value,
    p.checkLookups n ("in RHS Assignment of node " ++ node.name) value]

/-- The four lists make up all that is found on the references and lookups. -/
theorem flatten_referenceFindings (p : Plan) (n : NodeId) (node : Node) (target value : ExprId) :
    (p.referenceFindings n node target value).flatten =
      p.assignmentReferences n node target value := by
  simp [referenceFindings, assignmentReferences]

/-- Each of the four lists holds findings on references and lookups only. -/
theorem referenceReport_of_mem_referenceFindings {fs : List Finding} {f : Finding}
    (hfs : fs ∈ p.referenceFindings n node target value) (hf : f ∈ fs) : ReferenceReport f := by
  simp only [referenceFindings, List.mem_cons, List.not_mem_nil, or_false] at hfs
  rcases hfs with rfl | rfl | rfl | rfl
  · exact referenceReport_of_mem_checkReferences hf
  · exact referenceReport_of_mem_checkLookups hf
  · exact referenceReport_of_mem_checkReferences hf
  · exact referenceReport_of_mem_checkLookups hf

/-! ### The comparison of the two sides -/

/-- **The two sides of an assignment disagree exactly if both have a concrete type and these
differ.**  Each side has a type, as some type remains of every expression where anything is
expected. -/
theorem assignmentTypes_eq (hs : p.exprs.WellOwned) (n : NodeId) (node : Node)
    (htarget : p.exprs.contains target = true) (hvalue : p.exprs.contains value = true) :
    ∃ l r, (p.typing target .any).type = some l ∧ (p.typing value .any).type = some r ∧
      p.assignmentTypes n node target value =
        (p.typing target .any).findings ++ (p.typing value .any).findings ++
          if l ≠ .any ∧ r ≠ .any ∧ l ≠ r then
            [.assignmentMismatch (p.targetText n target) r.name node.name]
          else [] := by
  obtain ⟨l, hl⟩ : ∃ l, (p.typing target .any).type = some l :=
    Option.isSome_iff_exists.1 (Store.isSome_type_typing_any hs p.findVariable? htarget)
  obtain ⟨r, hr⟩ : ∃ r, (p.typing value .any).type = some r :=
    Option.isSome_iff_exists.1 (Store.isSome_type_typing_any hs p.findVariable? hvalue)
  refine ⟨l, r, hl, hr, ?_⟩
  simp only [assignmentTypes, hl, hr, Ty.meetKnown?_some, ← Ty.meet?_eq_none_iff]
  cases l.meet? r <;> rfl

/-! ### At most one disagreement, and last -/

/-- There is at most one finding among `fs` that the two sides of an assignment disagree. It is on
the given node and comes last. -/
def MismatchLast (node : String) (fs : List Finding) : Prop :=
  ∃ before, (∀ f ∈ before, f.isAssignmentMismatch = false) ∧
    (fs = before ∨ ∃ target found, fs = before ++ [.assignmentMismatch target found node])

/-- Where the two sides are not reported, nothing has to come last. -/
theorem mismatchLast_of_forall {name : String} {fs : List Finding}
    (hfs : ∀ f ∈ fs, f.isAssignmentMismatch = false) : MismatchLast name fs :=
  ⟨fs, hfs, .inl rfl⟩

/-- Other findings may come before. -/
theorem MismatchLast.append_left {name : String} {fs gs : List Finding} (hgs : MismatchLast name gs)
    (hfs : ∀ f ∈ fs, f.isAssignmentMismatch = false) : MismatchLast name (fs ++ gs) := by
  obtain ⟨before, hbefore, rfl | ⟨target, found, rfl⟩⟩ := hgs
  · exact mismatchLast_of_forall (List.forall_mem_append.2 ⟨hfs, hbefore⟩)
  · exact ⟨fs ++ before, List.forall_mem_append.2 ⟨hfs, hbefore⟩, .inr
      ⟨target, found, (List.append_assoc ..).symm⟩⟩

/-- The typing does not report the two sides of an assignment. -/
theorem not_isAssignmentMismatch_of_mem_typing (hs : p.exprs.WellOwned) {h : ExprId} {t : Ty} :
    ∀ f ∈ (p.typing h t).findings, f.isAssignmentMismatch = false := fun _ hf =>
  (Store.typeReport_of_mem_typing hs hf).not_isAssignmentMismatch

/-- The check of a condition does not report the two sides of an assignment. -/
theorem not_isAssignmentMismatch_of_mem_checkCondition (hs : p.exprs.WellOwned) (c : Condition) :
    ∀ f ∈ p.checkCondition n node c, f.isAssignmentMismatch = false := by
  intro f hf
  simp only [checkCondition, List.mem_append] at hf
  rcases hf with (hf | hf) | hf
  · exact (referenceReport_of_mem_checkReferences hf).not_onTypes.2
  · exact (referenceReport_of_mem_checkLookups hf).not_onTypes.2
  · exact not_isAssignmentMismatch_of_mem_typing hs f hf

/-- That the two sides disagree is the last finding on an assignment. -/
theorem mismatchLast_checkAssignment (hs : p.exprs.WellOwned)
    (htarget : p.exprs.contains target = true) (hvalue : p.exprs.contains value = true) :
    MismatchLast node.name (p.checkAssignment n node target value) := by
  rw [checkAssignment]
  split_ifs with hnone
  · obtain ⟨l, r, _, _, heq⟩ := assignmentTypes_eq hs n node htarget hvalue
    rw [heq]
    refine MismatchLast.append_left ?_ (List.forall_mem_append.2
      ⟨not_isAssignmentMismatch_of_mem_typing hs, not_isAssignmentMismatch_of_mem_typing hs⟩)
    split_ifs
    · exact ⟨[], List.forall_mem_nil _, .inr ⟨_, _, rfl⟩⟩
    · exact mismatchLast_of_forall (List.forall_mem_nil _)
  · refine mismatchLast_of_forall fun f hf => ?_
    rw [← flatten_referenceFindings] at hf
    obtain ⟨fs, hfs, hf⟩ := List.mem_flatten.1 hf
    exact (referenceReport_of_mem_referenceFindings hfs hf).not_onTypes.2

/-- **The findings on a node hold at most one that an assignment disagrees, and hold it last.** -/
theorem mismatchLast_checkNodeExprs (hs : p.exprs.WellOwned) (hground : p.Grounded)
    (hnode : p.node? n = some node) : MismatchLast node.name (p.checkNodeExprs n node) := by
  rw [checkNodeExprs]
  refine MismatchLast.append_left ?_ fun f hf => ?_
  · cases hassign : node.assignment? with
    | none =>
      rw [checkNodeAssignment_of_eq_none hassign]
      exact mismatchLast_of_forall (List.forall_mem_nil _)
    | some sides =>
      obtain ⟨target, value⟩ := sides
      obtain ⟨ht, hv⟩ := Node.sides_mem_checked hassign
      rw [checkNodeAssignment_of_eq_some hassign]
      exact mismatchLast_checkAssignment hs (hground.contains_checked hnode ht)
        (hground.contains_checked hnode hv)
  · obtain ⟨c, _, hf⟩ := List.mem_flatMap.1 hf
    exact not_isAssignmentMismatch_of_mem_checkCondition hs c f hf

/-- **Findings on an assignment do not follow from each other.**  If there is one on its references
or lookups, only these are reported, and nothing on types. Otherwise what is reported is what
there is on the types of its target, what there is on those of its value, and last, exactly if the
two sides are of different concrete types, that the target does not have the type of the value. So
there is at most one such finding on a node, and it comes last. -/
theorem assignment_findings (edits : List Edit) :
    let p := build edits
    ∀ n node, p.node? n = some node →
      (∀ target value, node.Assigns target value →
        ((∃ fs ∈ p.referenceFindings n node target value, fs ≠ []) →
          p.checkNodeAssignment n node = (p.referenceFindings n node target value).flatten ∧
          ∀ f ∈ p.checkNodeAssignment n node,
            f.isTypeMismatch = false ∧ f.isAssignmentMismatch = false) ∧
        ((∀ fs ∈ p.referenceFindings n node target value, fs = []) → ∃ l r,
          (p.typing target .any).type = some l ∧ (p.typing value .any).type = some r ∧
          p.checkNodeAssignment n node =
            (p.typing target .any).findings ++ (p.typing value .any).findings ++
              (if l ≠ .any ∧ r ≠ .any ∧ l ≠ r then
                [.assignmentMismatch (p.targetText n target) r.name node.name]
              else []) ∧
          ∀ f ∈ (p.typing target .any).findings ++ (p.typing value .any).findings,
            f.isAssignmentMismatch = false)) ∧
      MismatchLast node.name (p.checkNodeExprs n node) := by
  intro p n node hnode
  have hs : p.exprs.WellOwned := wellOwned_build edits
  have hground : p.Grounded := grounded_build edits
  refine ⟨fun target value hassign => ?_, mismatchLast_checkNodeExprs hs hground hnode⟩
  have hsides := Node.assigns_iff.1 hassign
  obtain ⟨ht, hv⟩ := Node.sides_mem_checked hsides
  rw [checkNodeAssignment_of_eq_some hsides, checkAssignment, ← flatten_referenceFindings]
  refine ⟨fun hsome => ?_, fun hnone => ?_⟩
  · have hne : (p.referenceFindings n node target value).flatten.isEmpty = false := by
      obtain ⟨fs, hfs, hne⟩ := hsome
      rw [List.isEmpty_eq_false_iff]
      exact fun hnil => hne (List.flatten_eq_nil_iff.1 hnil fs hfs)
    simp only [hne, Bool.false_eq_true, if_false, true_and]
    intro f hf
    obtain ⟨fs, hfs, hf⟩ := List.mem_flatten.1 hf
    exact (referenceReport_of_mem_referenceFindings hfs hf).not_onTypes
  · rw [List.flatten_eq_nil_iff.2 hnone, List.isEmpty_nil, if_pos rfl]
    obtain ⟨l, r, hl, hr, heq⟩ := assignmentTypes_eq hs n node
      (hground.contains_checked hnode ht) (hground.contains_checked hnode hv)
    exact ⟨l, r, hl, hr, heq, List.forall_mem_append.2
      ⟨not_isAssignmentMismatch_of_mem_typing hs, not_isAssignmentMismatch_of_mem_typing hs⟩⟩

/-- A node that assigns a sum with a text in it to a text, and a node that assigns to a variable
which is not declared. -/
def sumToText : List Edit :=
  [.addNode "A" none, .declareVariable 0 ⟨"x", .string, .unstated, none⟩, .reference "x" none,
    .constant "1" .num, .constant "a" .str, .binary (.binary .plus) 1 2, .constant "" .str,
    .setAction 0 ⟨.assignment, 4, [3], some 0⟩, .addNode "B" none, .reference "y" none,
    .constant "b" .str, .constant "" .str, .setAction 1 ⟨.assignment, 7, [6], some 5⟩]

/-- The first assignment is reported for what is wrong inside its value and then for the types of
its sides, the second one for the unknown variable alone. -/
theorem assignment_findings_sumToText :
    let p := build sumToText
    let a : Node := ⟨"A", none, [], [], some ⟨.assignment, 4, [3], some 0⟩,
      [⟨"x", .string, .unstated, none⟩]⟩
    let b : Node := ⟨"B", none, [], [], some ⟨.assignment, 7, [6], some 5⟩, []⟩
    p.node? 0 = some a ∧ a.Assigns 0 3 ∧ (∀ fs ∈ p.referenceFindings 0 a 0 3, fs = []) ∧
      p.checkNodeAssignment 0 a =
        [.expressionType "\"a\"" "type Str" "type Num", .assignmentMismatch "String x" "Num" "A"] ∧
      MismatchLast "A" (p.checkNodeExprs 0 a) ∧
      p.node? 1 = some b ∧ b.Assigns 5 6 ∧ (∃ fs ∈ p.referenceFindings 1 b 5 6, fs ≠ []) ∧
      p.checkNodeAssignment 1 b = [.variableNotFound "y" "in LHS Assignment of node B"] := by
  intro p a b
  have ha : p.node? 0 = some a := by decide +kernel
  have hb : p.node? 1 = some b := by decide +kernel
  have haSides : a.Assigns 0 3 := ⟨_, rfl, rfl, rfl, rfl⟩
  have hbSides : b.Assigns 5 6 := ⟨_, rfl, rfl, rfl, rfl⟩
  have hnone : ∀ fs ∈ p.referenceFindings 0 a 0 3, fs = [] := by decide +kernel
  have hsome : ∃ fs ∈ p.referenceFindings 1 b 5 6, fs ≠ [] := by decide +kernel
  obtain ⟨hfirst, hlast⟩ := assignment_findings sumToText 0 a ha
  obtain ⟨hsecond, _⟩ := assignment_findings sumToText 1 b hb
  obtain ⟨l, r, hl, hr, heq, _⟩ := (hfirst 0 3 haSides).2 hnone
  have hleft : (p.typing 0 .any).type = some .str := by decide +kernel
  have hright : (p.typing 3 .any).type = some .num := by decide +kernel
  obtain rfl := Option.some.inj (hl.symm.trans hleft)
  obtain rfl := Option.some.inj (hr.symm.trans hright)
  refine ⟨ha, haSides, hnone, heq.trans (by decide +kernel), hlast, hb, hbSides, hsome,
    ((hsecond 5 6 hbSides).1 hsome).1.trans (by decide +kernel)⟩

end Plan

end Preflight
