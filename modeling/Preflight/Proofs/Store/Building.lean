import Preflight.Proofs.Store.Ownership

/-!
# When building succeeds

For each operation that builds an expression, the exact condition under which it is carried
out, and the store it then gives: one more cell, over expressions that are there, have no
owner and are distinct. So each is a `Step`.
-/

namespace Preflight
namespace Store

variable {s : Store}

/-- The check for a free expression is passed exactly by free expressions. -/
theorem requireFree_eq_ok_iff {h : ExprId} {u : Unit} : s.requireFree h = .ok u ↔ s.Free h := by
  unfold requireFree Free
  split
  · simp [*]
  · split <;> simp [*]

/-- All handles pass if none repeats another or one seen before, and each is free. -/
theorem requireAllFree_eq_ok_iff {seen hs : List ExprId} {u : Unit} :
    s.requireAllFree seen hs = .ok u ↔ hs.Nodup ∧ ∀ h ∈ hs, h ∉ seen ∧ s.Free h := by
  induction hs generalizing seen with
  | nil => simp [requireAllFree]
  | cons h hs ih =>
    rw [requireAllFree, List.nodup_cons, List.forall_mem_cons]
    by_cases hseen : h ∈ seen
    · simp [hseen]
    · rw [if_neg hseen, bind_eq_ok_iff]
      simp only [ih, requireFree_eq_ok_iff, exists_const, List.mem_cons, not_or]
      constructor
      · rintro ⟨hfree, hnodup, hall⟩
        exact ⟨⟨fun hmem => (hall h hmem).1.1 rfl, hnodup⟩, ⟨hseen, hfree⟩,
          fun k hk => ⟨(hall k hk).1.2, (hall k hk).2⟩⟩
      · rintro ⟨⟨hnot, hnodup⟩, ⟨_, hfree⟩, hall⟩
        exact ⟨hfree, hnodup, fun k hk =>
          ⟨⟨fun heq => hnot (heq ▸ hk), (hall k hk).1⟩, (hall k hk).2⟩⟩

/-- A lookup is added if the expressions of its call are free and distinct. -/
theorem lookup_eq_ok_iff {call : Action} {type : Option Ty} {r : ExprId × Store} :
    s.lookup call type = .ok r ↔ (call.exprs.Nodup ∧ ∀ h ∈ call.exprs, s.Free h) ∧
      s.add (.lookup ((s.staticText? call.callee).getD "") call) type = r := by
  rw [lookup, map_eq_ok_iff]
  simp only [requireAllFree_eq_ok_iff, exists_const, List.not_mem_nil, not_false_eq_true,
    true_and]

/-- A unary expression is added if the element is a unary operator and the operand free. -/
theorem unary_eq_ok_iff {e : Element} {operand : ExprId} {r : ExprId × Store} :
    s.unary e operand = .ok r ↔
      ∃ op, e = .unary op ∧ s.Free operand ∧ s.add (.unary op operand) none = r := by
  unfold unary
  split
  · simp [map_eq_ok_iff, requireFree_eq_ok_iff]
  · rename_i hne
    constructor
    · intro h
      cases h
    · rintro ⟨op, rfl, _⟩
      exact absurd rfl (hne op)

/-- A binary expression is added if the element is a binary operator and the operands are
free and differ. -/
theorem binary_eq_ok_iff {e : Element} {left right : ExprId} {r : ExprId × Store} :
    s.binary e left right = .ok r ↔ ∃ op, e = .binary op ∧ left ≠ right ∧ s.Free left ∧
      s.Free right ∧ s.add (.binary op left right) none = r := by
  unfold binary
  split
  · split
    · simp [*]
    · simp [*, map_eq_ok_iff, bind_eq_ok_iff, requireFree_eq_ok_iff]
  · rename_i hne
    constructor
    · intro h
      cases h
    · rintro ⟨op, rfl, _⟩
      exact absurd rfl (hne op)

/-- A cell is changed exactly if it is there. -/
theorem update_eq_ok_iff {h : ExprId} {f : Cell → Cell} {t : Store} :
    s.update h f = .ok t ↔ s.contains h = true ∧ ⟨s.cells.modify h f⟩ = t := by
  unfold update
  split <;> simp [*]

/-! ### Every operation is a step -/

/-- A constant is a building step. -/
theorem step_constant (s : Store) (text : String) (type : Ty) :
    s.Step (s.constant text type).2 :=
  .add _ _ (by simp [Form.uses, Form.operands]) (by simp [Form.uses, Form.operands]) fun _ => rfl

/-- A reference is a building step. -/
theorem step_reference (s : Store) (name : String) (type : Option Ty) :
    s.Step (s.reference name type).2 :=
  .add _ _ (by simp [Form.uses, Form.operands]) (by simp [Form.uses, Form.operands])
    fun h => by cases h

/-- A lookup is a building step, since its check makes sure of what it uses. -/
theorem step_lookup {call : Action} {type : Option Ty} {r : ExprId × Store}
    (h : s.lookup call type = .ok r) : s.Step r.2 := by
  obtain ⟨⟨hnodup, hfree⟩, rfl⟩ := lookup_eq_ok_iff.1 h
  exact .add _ _ hfree hnodup fun h => by cases h

/-- An operation on one expression is a building step. -/
theorem step_unary {e : Element} {operand : ExprId} {r : ExprId × Store}
    (h : s.unary e operand = .ok r) : s.Step r.2 := by
  obtain ⟨op, _, hfree, rfl⟩ := unary_eq_ok_iff.1 h
  exact .add _ _ (by simpa [Form.uses, Form.operands] using hfree)
    (by simp [Form.uses, Form.operands]) fun h => by cases h

/-- An operation on two expressions is a building step. -/
theorem step_binary {e : Element} {left right : ExprId} {r : ExprId × Store}
    (h : s.binary e left right = .ok r) : s.Step r.2 := by
  obtain ⟨op, _, hne, hleft, hright, rfl⟩ := binary_eq_ok_iff.1 h
  exact .add _ _ (by simpa [Form.uses, Form.operands] using ⟨hleft, hright⟩)
    (by simpa [Form.uses, Form.operands] using hne) fun h => by cases h

/-- To state a type is a building step. -/
theorem step_setType {h : ExprId} {type : Ty} {t : Store} (ht : s.setType h type = .ok t) :
    s.Step t := by
  obtain ⟨_, rfl⟩ := update_eq_ok_iff.1 ht
  exact .retype h _ (fun _ => rfl) (fun _ => rfl) fun _ _ => rfl

/-- To state the type of operands is a building step. -/
theorem step_setOperandType {h : ExprId} {type : Ty} {t : Store}
    (ht : s.setOperandType h type = .ok t) : s.Step t := by
  obtain ⟨_, rfl⟩ := update_eq_ok_iff.1 ht
  exact .retype h _ (fun _ => rfl) (fun _ => rfl) fun _ hc => hc

/-- A step loses no expression. -/
theorem Step.contains {t : Store} (hst : s.Step t) {h : ExprId} (hh : s.contains h = true) :
    t.contains h = true := by
  obtain ⟨c, hc⟩ := contains_iff.1 hh
  cases hst with
  | add form type free distinct typed =>
    obtain ⟨o, ho⟩ := get?_add_of_get? hc form type
    exact contains_iff.2 ⟨_, ho⟩
  | retype i f form owner typed =>
    exact contains_iff.2 ⟨_, by rw [get?_modify, hc, Option.map_some]⟩

end Store
end Preflight
