import Preflight.Proofs.Plan.Run
import Preflight.Proofs.Typing

/-!
# The fallbacks of the checks are never taken

The checks say what they give where a handle has no expression or an expression no type: an
unknown type, a text that tells of a missing expression, no finding at all. On a plan that was
built none of this is ever needed. The runs of the checks look at existing expressions only
(`allows_contains`), so no text is that of a missing expression and no reference is missing
where it is taken for granted. Every expression has a type, and against the wildcard some type
remains of every expression (`Store.isSome_resultType`, `Store.isSome_type_typing_any`). So
there is no finding that speaks of an unknown type (`definite_check`).
-/

namespace Preflight

/-- The finding does not speak of an unknown type. -/
def Finding.Definite : Finding → Prop
  | .expressionType _ found expected => found ≠ "unknown type" ∧ expected ≠ "unknown type"
  | .assignmentMismatch _ found _ => found ≠ "unknown"
  | _ => True

/-- A known type is not described as an unknown one. -/
theorem Ty.describe_some_ne (t : Ty) : Ty.describe (some t) ≠ "unknown type" := by
  cases t <;> decide

/-- No type is called unknown. -/
theorem Ty.name_ne_unknown (t : Ty) : t.name ≠ "unknown" := by
  cases t <;> decide

/-- The findings on types speak of known types. -/
theorem Store.TypeReport.definite {s : Store} {f : Finding} (hf : s.TypeReport f) :
    f.Definite := by
  cases hf with
  | mismatch h found expected => exact ⟨found.describe_some_ne, expected.describe_some_ne⟩
  | shape hc hform => trivial

/-- From an expression that is there a run comes to expressions that are there. -/
theorem Store.allows_contains {s : Store} (hs : s.WellOwned) :
    s.Allows fun l => s.contains l.handle = true where
  outside := id
  down := hs.contains_of_uses

namespace Plan

variable {p : Plan} {n : NodeId} {node : Node}

/-- Conflicts of names do not speak of types. -/
theorem definite_conflicts (ds : List Declaration) :
    ∀ f ∈ Declaration.conflicts ds, f.Definite := by
  induction ds with
  | nil => exact nofun
  | cons d ds ih =>
    rw [Declaration.conflicts, List.forall_mem_append, List.forall_mem_map]
    exact ⟨fun _ _ => trivial, ih⟩

/-- Findings on calls do not speak of unknown types. -/
theorem definite_checkNodeCall (p : Plan) (node : Node) :
    ∀ f ∈ p.checkNodeCall node, f.Definite := by
  intro f hf
  unfold checkNodeCall at hf
  split at hf
  · split at hf
    · rcases mem_checkCall hf with rfl | ⟨_, rfl⟩ | ⟨_, _, rfl⟩ <;> trivial
    · cases hf
  · cases hf

/-- Findings on references and lookups do not speak of unknown types. -/
theorem ReferenceReport.definite {f : Finding} (hf : ReferenceReport f) : f.Definite := by
  cases hf <;> trivial

/-- Whatever type is expected, the typing reports known types. -/
theorem definite_typing (hs : p.exprs.WellOwned) (h : ExprId) (t : Ty) :
    ∀ f ∈ (p.typing h t).findings, f.Definite := fun _ hf =>
  (Store.typeReport_of_mem_typing hs hf).definite

/-- An assignment of a value that is there is reported with known types. -/
theorem definite_checkAssignment (hs : p.exprs.WellOwned) {target value : ExprId}
    (hvalue : p.exprs.contains value = true) :
    ∀ f ∈ p.checkAssignment n node target value, f.Definite := by
  intro f hf
  rw [checkAssignment] at hf
  split_ifs at hf
  · -- the value is there, so that some type remains of it
    obtain ⟨r, hr⟩ := Option.isSome_iff_exists.1
      (Store.isSome_type_typing_any hs p.findVariable? hvalue)
    have hname : ((p.typing value .any).type.map Ty.name).getD "unknown" = r.name := by
      rw [typing, hr, Option.map_some, Option.getD_some]
    simp only [assignmentTypes, hname, List.mem_append] at hf
    rcases hf with (hf | hf) | hf
    · exact definite_typing hs _ _ f hf
    · exact definite_typing hs _ _ f hf
    · split_ifs at hf
      · cases hf
      · obtain rfl := List.mem_singleton.1 hf
        exact r.name_ne_unknown
  · simp only [assignmentReferences, List.mem_append] at hf
    rcases hf with ((hf | hf) | hf) | hf
    · exact (referenceReport_of_mem_checkReferences hf).definite
    · exact (referenceReport_of_mem_checkLookups hf).definite
    · exact (referenceReport_of_mem_checkReferences hf).definite
    · exact (referenceReport_of_mem_checkLookups hf).definite

/-- The conditions and the assignment of a node are reported with known types. -/
theorem definite_checkNodeExprs (hs : p.exprs.WellOwned) (hp : p.Grounded)
    (hnode : p.node? n = some node) : ∀ f ∈ p.checkNodeExprs n node, f.Definite := by
  intro f hf
  rcases List.mem_append.1 hf with hf | hf
  · obtain ⟨c, _, hf⟩ := List.mem_flatMap.1 hf
    simp only [checkCondition, List.mem_append] at hf
    rcases hf with (hf | hf) | hf
    · exact (referenceReport_of_mem_checkReferences hf).definite
    · exact (referenceReport_of_mem_checkLookups hf).definite
    · exact definite_typing hs _ _ f hf
  · cases hassign : node.assignment? with
    | none =>
      rw [checkNodeAssignment_of_eq_none hassign] at hf
      cases hf
    | some sides =>
      obtain ⟨target, value⟩ := sides
      rw [checkNodeAssignment_of_eq_some hassign] at hf
      have hvalue := hp.contains_checked hnode (Node.sides_mem_checked hassign).2
      exact definite_checkAssignment hs hvalue f hf

/-- **No finding on a plan whose nodes speak of expressions that are there is on an unknown type.**
-/
theorem definite_check (hs : p.exprs.WellOwned) (hp : p.Grounded) :
    ∀ f ∈ p.check, f.Definite := by
  intro f hf
  simp only [check, List.mem_append] at hf
  rcases hf with (hf | hf) | hf
  · exact definite_conflicts _ f hf
  · obtain ⟨_, _, _, hf⟩ := mem_onNodes_iff.1 hf
    exact definite_checkNodeCall _ _ f hf
  · obtain ⟨_, _, hnode, hf⟩ := mem_onNodes_iff.1 hf
    exact definite_checkNodeExprs hs hp hnode f hf

/-- **On a plan that was built no fallback of the checks is taken.**  Every expression has a
type, and one that remains against the wildcard. All that texts, types and the whole check look
at is there: the expression itself to begin with, and for the whole check the names of the calls,
the conditions and both sides of the assignments. No finding speaks of an unknown type. -/
theorem no_fallback (edits : List Edit) :
    let p := build edits
    let s := p.exprs
    (∀ vars h, s.contains h = true → (s.resultType vars h).isSome) ∧
    (∀ vars h, s.contains h = true → (s.typing vars h .any).type.isSome) ∧
    (∀ h n, s.contains h = true → h < n →
      (s.staticRun n ⟨none, h⟩).Covers (fun l => s.contains l.handle = true) [⟨none, h⟩]
        (s.staticText? h) ∧
      (s.textRun n ⟨none, h⟩).Covers (fun l => s.contains l.handle = true) [⟨none, h⟩]
        (s.text h) ∧
      ∀ vars expected, (s.typingRun vars n ⟨none, h⟩ expected).Covers
        (fun l => s.contains l.handle = true) [⟨none, h⟩] (s.typing vars h expected)) ∧
    (∀ n, s.size ≤ n → p.size ≤ n →
      (p.checkRun n).Covers (fun l => s.contains l.handle = true) p.entries p.check) ∧
    ∀ f ∈ p.check, f.Definite := by
  intro p s
  have hs : s.WellOwned := wellOwned_build edits
  have hp : p.Grounded := grounded_build edits
  have hP := Store.allows_contains hs
  refine ⟨fun vars h hh => ?_, fun vars h hh => Store.isSome_type_typing_any hs vars hh,
    fun h n hh hn => ⟨Store.staticRun_covers hP hs n _ hn hh,
      Store.textRun_covers hP hs n _ hn hh, fun _ => Store.typingRun_covers hP hs n _ hn hh⟩,
    fun n hn hpn => checkRun_covers hP hs hp hn (forest_build edits) hpn, definite_check hs hp⟩
  obtain ⟨c, hc⟩ := Store.contains_iff.1 hh
  rw [Store.resultType, hc]
  exact Store.isSome_resultType hs vars hc

/-- A node that starts on a number and assigns a number to a truth value. -/
def numbersForTruths : List Edit :=
  [.addNode "A" none, .declareVariable 0 ⟨"x", .boolean, .unstated, none⟩, .reference "x" none,
    .constant "1" .num, .constant "" .str, .setAction 0 ⟨.assignment, 2, [1], some 0⟩,
    .constant "2" .num, .addCondition 0 .start 3]

/-- Both of its mistakes are reported with the types that the expressions have, after looks at the
condition and at both sides of the assignment. -/
theorem no_fallback_numbersForTruths :
    (build numbersForTruths).exprs.contains 1 = true ∧
      ((build numbersForTruths).typing 1 .any).type.isSome ∧
      (build numbersForTruths).exprs.size ≤ 4 ∧ (build numbersForTruths).size ≤ 4 ∧
      ((build numbersForTruths).checkRun 4).Covers
        (fun l => (build numbersForTruths).exprs.contains l.handle = true)
        [⟨none, 3⟩, ⟨none, 0⟩, ⟨none, 1⟩]
        [.expressionType "2" "type Num" "type Bool", .assignmentMismatch "Boolean x" "Num" "A"] ∧
      ∀ f ∈ (build numbersForTruths).check, f.Definite := by
  obtain ⟨_, htype, _, hcheck, hdefinite⟩ := no_fallback numbersForTruths
  have hcontains : (build numbersForTruths).exprs.contains 1 = true := by decide +kernel
  have hexprs : (build numbersForTruths).exprs.size ≤ 4 := by decide +kernel
  have hnodes : (build numbersForTruths).size ≤ 4 := by decide +kernel
  have hentries : (build numbersForTruths).entries = [⟨none, 3⟩, ⟨none, 0⟩, ⟨none, 1⟩] := by
    decide +kernel
  have hverdict : (build numbersForTruths).check = [.expressionType "2" "type Num" "type Bool",
      .assignmentMismatch "Boolean x" "Num" "A"] := by decide +kernel
  exact ⟨hcontains, htype _ 1 hcontains, hexprs, hnodes,
    hentries ▸ hverdict ▸ hcheck 4 hexprs hnodes, hdefinite⟩

end Plan

end Preflight
