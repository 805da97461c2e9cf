import Preflight.Store.Basic

/-!
# Searching an expression

`Store.visits` works off an agenda of handles: it takes the first, puts that expression's
operands in its place, and goes on until the agenda is empty. From the agenda `[h]` it so
visits `h` and all below it, an owner before its operands and the left before the right. It
does not enter the calls of lookups.

The agenda empties: a handle weighs three times what the one before it weighs, its at most
two operands are smaller handles, and so every visit lowers the weight of the agenda.
-/

namespace Preflight
namespace Store

/-- The operands of the expression at `h`, as far as their handles go down. -/
def operandsBelow (s : Store) (h : ExprId) : List ExprId :=
  match s.get? h with
  | none => []
  | some c => c.form.operands.filter fun k => k < h

/-- The weight of a handle, three times that of the one before it. -/
def handleWeight : ExprId → Nat
  | 0 => 1
  | h + 1 => 3 * handleWeight h

/-- The weight of an agenda, which bounds the visits it leads to. -/
def agendaWeight : List ExprId → Nat
  | [] => 0
  | h :: agenda => handleWeight h + agendaWeight agenda

/-- No handle is without weight. -/
theorem handleWeight_pos (h : ExprId) : 0 < handleWeight h := by
  induction h with
  | zero => decide
  | succ h ih =>
    rw [handleWeight]
    omega

/-- A handle weighs at least three times what any smaller one weighs. -/
theorem three_mul_handleWeight_le {k h : Nat} (hk : k < h) :
    3 * handleWeight k ≤ handleWeight h := by
  induction h with
  | zero => omega
  | succ h ih =>
    rw [handleWeight]
    rcases Nat.lt_succ_iff_lt_or_eq.1 hk with hlt | rfl
    · have := ih hlt
      omega
    · exact Nat.le_refl _

/-- The first handle of an agenda adds its weight. -/
theorem agendaWeight_cons (h : ExprId) (hs : List ExprId) :
    agendaWeight (h :: hs) = handleWeight h + agendaWeight hs := rfl

/-- The weights of two agendas add up. -/
theorem agendaWeight_append (hs ks : List ExprId) :
    agendaWeight (hs ++ ks) = agendaWeight hs + agendaWeight ks := by
  induction hs with
  | nil => rw [List.nil_append, agendaWeight, Nat.zero_add]
  | cons h hs ih =>
    rw [List.cons_append, agendaWeight_cons, agendaWeight_cons, ih]
    omega

/-- No expression has more than two operands. -/
theorem length_operands_le_two (f : Form) : f.operands.length ≤ 2 := by
  cases f <;> simp [Form.operands]

/-- Operands are followed down only. -/
theorem mem_operandsBelow {s : Store} {h k : ExprId} (hk : k ∈ s.operandsBelow h) : k < h := by
  unfold operandsBelow at hk
  split at hk
  · simp at hk
  · simpa using (List.mem_filter.mp hk).2

/-- No more than two operands are followed. -/
theorem length_operandsBelow_le_two (s : Store) (h : ExprId) :
    (s.operandsBelow h).length ≤ 2 := by
  unfold operandsBelow
  split
  · simp
  · exact Nat.le_trans (List.length_filter_le ..) (length_operands_le_two _)

/-- An agenda of `n` handles below `h` weighs at most `n` thirds of `h`. -/
theorem three_mul_agendaWeight_le {h : ExprId} {hs : List ExprId} (below : ∀ k ∈ hs, k < h) :
    3 * agendaWeight hs ≤ hs.length * handleWeight h := by
  induction hs with
  | nil => simp [agendaWeight]
  | cons k ks ih =>
    have hk := three_mul_handleWeight_le (below k (by simp))
    have hks := ih fun j hj => below j (by simp [hj])
    rw [agendaWeight_cons, List.length_cons, Nat.mul_add, Nat.add_mul]
    omega

/-- The operands of an expression weigh less than the expression. -/
theorem agendaWeight_operandsBelow_lt (s : Store) (h : ExprId) :
    agendaWeight (s.operandsBelow h) < handleWeight h := by
  have hw := three_mul_agendaWeight_le fun k (hk : k ∈ s.operandsBelow h) => mem_operandsBelow hk
  have hl := Nat.mul_le_mul_right (handleWeight h) (s.length_operandsBelow_le_two h)
  have hp := handleWeight_pos h
  omega

/-- The handles visited from an agenda, in order. -/
def visits (s : Store) : List ExprId → List ExprId
  | [] => []
  | h :: agenda => h :: s.visits (s.operandsBelow h ++ agenda)
termination_by agenda => agendaWeight agenda
decreasing_by
  rw [agendaWeight_append, agendaWeight_cons]
  have := s.agendaWeight_operandsBelow_lt h
  omega

/-- The expressions with the given element in and below `root`, in the order of the visits. -/
def find (s : Store) (root : ExprId) (e : Element) : List ExprId :=
  (s.visits [root]).filter fun h => (s.get? h).any fun c => c.element == e

end Store
end Preflight
