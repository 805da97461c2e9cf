import Mathlib.Algebra.Order.BigOperators.Group.List
import Mathlib.Algebra.Ring.Int.Defs
import Preflight.Proofs.Plan.Checked
import Preflight.Proofs.Resolution
import Preflight.Proofs.Typing

/-!
# A count of the findings on indices

`weigh` counts the findings on the index of a variable that stands by itself: down for an
index that is missing, up for one that is too many. Taking an element of such a variable
lets the first kind of finding go and the second kind come, so it can only raise the count.

Nothing but references adds to the count. The check of types also reports what is not an
array, but of an array element, whose text is longer than that of its array. So the count is
that of the references of the conditions and assignments (`weigh_checkNodeExprs`), whether
or not an assignment goes on to have its types checked.
-/

namespace Preflight

/-- A missing index counts down, an index too many on a variable by itself counts up. -/
def Finding.indexWeight : Finding → Int
  | .arrayNeedsIndex .. => -1
  | .notAnArray name expr => if name = expr then 1 else 0
  | _ => 0

/-- The count of findings on indices, missing ones against those too many. -/
def weigh (fs : List Finding) : Int :=
  (fs.map Finding.indexWeight).sum

/-- The counts of two lists of findings add up. -/
theorem weigh_append (fs gs : List Finding) : weigh (fs ++ gs) = weigh fs + weigh gs := by
  rw [weigh, List.map_append, List.sum_append, weigh, weigh]

/-- Findings none of which is on an index count nothing. -/
theorem weigh_eq_zero {fs : List Finding} (h : ∀ f ∈ fs, f.indexWeight = 0) : weigh fs = 0 := by
  refine List.sum_eq_zero fun w hw => ?_
  obtain ⟨f, hf, rfl⟩ := List.mem_map.1 hw
  exact h f hf

/-- What several checks find together counts what each of them finds. -/
theorem weigh_flatMap {α : Type} (l : List α) (f : α → List Finding) :
    weigh (l.flatMap f) = (l.map fun x => weigh (f x)).sum := by
  induction l with
  | nil => rfl
  | cons x l ih => rw [List.flatMap_cons, weigh_append, ih, List.map_cons, List.sum_cons]

/-- Checks that count the same one by one count the same together. -/
theorem weigh_flatMap_congr {α : Type} {l : List α} {f g : α → List Finding}
    (h : ∀ x ∈ l, weigh (f x) = weigh (g x)) : weigh (l.flatMap f) = weigh (l.flatMap g) := by
  rw [weigh_flatMap, weigh_flatMap, List.map_congr_left h]

/-- Checks that count no more one by one count no more together. -/
theorem weigh_flatMap_le {α : Type} {l : List α} {f g : α → List Finding}
    (h : ∀ x ∈ l, weigh (f x) ≤ weigh (g x)) : weigh (l.flatMap f) ≤ weigh (l.flatMap g) := by
  rw [weigh_flatMap, weigh_flatMap]
  exact List.sum_le_sum h

/-- If besides one of them counts less, so do all together. -/
theorem weigh_flatMap_lt {α : Type} {l : List α} {f g : α → List Finding}
    (hle : ∀ x ∈ l, weigh (f x) ≤ weigh (g x)) (hlt : ∃ x ∈ l, weigh (f x) < weigh (g x)) :
    weigh (l.flatMap f) < weigh (l.flatMap g) := by
  rw [weigh_flatMap, weigh_flatMap]
  exact List.sum_lt_sum _ _ hle hlt

namespace Variable

/-- A use at a wrong type says nothing on indices. -/
theorem weigh_typeMisuse (v : Variable) (used : Option Ty) (context : String) :
    weigh (v.typeMisuse used context) = 0 := by
  refine weigh_eq_zero fun f hf => ?_
  cases used with
  | none => simp [typeMisuse] at hf
  | some t =>
    obtain ⟨_, rfl⟩ : v.type.admits t = false ∧ f = _ := by simpa [typeMisuse] using hf
    rfl

/-- An index on a variable can only raise the count. -/
theorem weigh_indexMisuse_le (v : Variable) (root : String) {indexed indexed' : Bool}
    (h : indexed = true → indexed' = true) :
    weigh (v.indexMisuse indexed root) ≤ weigh (v.indexMisuse indexed' root) := by
  cases indexed with
  | true => rw [h rfl]
  | false =>
    cases indexed' with
    | false => exact Int.le_refl _
    | true =>
      unfold indexMisuse
      cases v.isArray with
      | true => simp [weigh, Finding.indexWeight]
      | false => by_cases hname : v.name = root <;> simp [weigh, Finding.indexWeight, hname]

/-- An index on a variable by itself does raise the count. -/
theorem weigh_indexMisuse_lt (v : Variable) :
    weigh (v.indexMisuse false v.name) < weigh (v.indexMisuse true v.name) := by
  unfold indexMisuse
  cases v.isArray <;> simp [weigh, Finding.indexWeight]

end Variable

namespace Store

variable {s : Store} {vars : String → Option Variable}

/-- The text of an array element is not that of its array. -/
theorem text_ne_text_array (hs : s.WellOwned) {h array index : ExprId} {c : Cell}
    (hc : s.get? h = some c) (hform : c.form = .binary .arrayElem array index) :
    s.text array ≠ s.text h := by
  intro heq
  have hlength := congrArg String.length heq
  rw [text_eq hs hc, textStep, hform] at hlength
  simp only [String.length_append] at hlength
  have : ("[" : String).length = 1 := rfl
  omega

/-- What the check of types reports does not count. -/
theorem indexWeight_of_mem_typing (hs : s.WellOwned) {h : ExprId} {t : Ty} {f : Finding}
    (hf : f ∈ (s.typing vars h t).findings) : f.indexWeight = 0 := by
  cases typeReport_of_mem_typing hs hf with
  | mismatch h found expected => rfl
  | shape hc hform => exact if_neg (text_ne_text_array hs hc hform)

end Store

namespace Plan

variable {p : Plan} {n : NodeId} {node : Node}

/-- Lookups say nothing on indices. -/
theorem weigh_checkLookups (p : Plan) (n : NodeId) (context : String) (root : ExprId) :
    weigh (p.checkLookups n context root) = 0 := by
  refine weigh_eq_zero fun f hf => ?_
  obtain ⟨call, hf⟩ := mem_checkLookups hf
  rcases mem_checkCall hf with rfl | ⟨_, rfl⟩ | ⟨_, _, rfl⟩ <;> rfl

/-- What the typing reports as no array is never a variable by itself, so it counts nothing. -/
theorem weigh_typing (hs : p.exprs.WellOwned) (h : ExprId) (t : Ty) :
    weigh (p.typing h t).findings = 0 :=
  weigh_eq_zero fun _ hf => Store.indexWeight_of_mem_typing hs hf

/-- The comparison of the two sides of an assignment counts nothing either. -/
theorem weigh_assignmentTypes (hs : p.exprs.WellOwned) (target value : ExprId) :
    weigh (p.assignmentTypes n node target value) = 0 := by
  rw [assignmentTypes, weigh_append, weigh_append, weigh_typing hs, weigh_typing hs]
  split <;> rfl

/-- The count of the references does not depend on the words of the context. -/
theorem weigh_checkReferences_context (p : Plan) (n : NodeId) (context context' : String)
    (root : ExprId) :
    weigh (p.checkReferences n context root) = weigh (p.checkReferences n context' root) := by
  refine weigh_flatMap_congr fun h _ => ?_
  unfold checkReference
  split
  · split
    · split
      · rfl
      · split
        · rfl
        · rw [weigh_append, weigh_append, Variable.weigh_typeMisuse, Variable.weigh_typeMisuse]
    · rfl
  · rfl

/-- An assignment counts what its references count. Its types are checked only if these have
no finding, and count nothing. -/
theorem weigh_checkAssignment (hs : p.exprs.WellOwned) (target value : ExprId) :
    weigh (p.checkAssignment n node target value) =
      weigh (p.checkReferences n "" target) + weigh (p.checkReferences n "" value) := by
  have hrefs : weigh (p.assignmentReferences n node target value) =
      weigh (p.checkReferences n "" target) + weigh (p.checkReferences n "" value) := by
    rw [assignmentReferences, weigh_append, weigh_append, weigh_append, weigh_checkLookups,
      weigh_checkLookups, p.weigh_checkReferences_context n _ "" target,
      p.weigh_checkReferences_context n _ "" value]
    omega
  rw [← hrefs, checkAssignment]
  cases hnil : p.assignmentReferences n node target value with
  | nil => exact weigh_assignmentTypes hs target value
  | cons f fs => rfl

/-- **The count of a node is that of the references of what is checked of it.** -/
theorem weigh_checkNodeExprs (hs : p.exprs.WellOwned) (n : NodeId) (node : Node) :
    weigh (p.checkNodeExprs n node) = weigh (node.checked.flatMap (p.checkReferences n "")) := by
  rw [checkNodeExprs, Node.checked, List.flatMap_append, weigh_append, weigh_append,
    List.flatMap_map]
  congr 1
  · refine weigh_flatMap_congr fun c _ => ?_
    rw [checkCondition, weigh_append, weigh_append, weigh_checkLookups, weigh_typing hs,
      p.weigh_checkReferences_context n _ "" c.expr]
    omega
  · cases h : node.assignment? with
    | none =>
      rw [checkNodeAssignment_of_eq_none h]
      rfl
    | some sides =>
      rw [checkNodeAssignment_of_eq_some h, weigh_checkAssignment hs]
      simp [weigh_append]

end Plan

end Preflight
