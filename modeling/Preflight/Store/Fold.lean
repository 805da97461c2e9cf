import Preflight.Store.Basic

/-!
# Folding over a store

`Store.fold` computes a value for an expression from the values of the expressions it refers
to. Whatever is computed recursively over expressions (static text, written form, typing) is
one `step` for this fold. The fold ends because it goes only to smaller handles; one that is
not smaller counts as `missing`, which does not happen in a store that was built.
-/

namespace Preflight
namespace Store

variable {α : Type}

/-- The value of `h`, where `step` sees the cell of `h` and the values at smaller handles. -/
def fold (s : Store) (missing : ExprId → α) (step : ExprId → Cell → (ExprId → α) → α) (h : ExprId) :
    α :=
  match s.get? h with
  | none => missing h
  | some c => step h c fun k => if _ : k < h then s.fold missing step k else missing k
termination_by h

/-- Without an expression the fold has the value for what is missing. -/
theorem fold_of_get?_eq_none {s : Store} {missing : ExprId → α}
    {step : ExprId → Cell → (ExprId → α) → α} {h : ExprId} (hs : s.get? h = none) :
    s.fold missing step h = missing h := by
  rw [fold, hs]

/-- At an expression the fold takes one step, which sees the values at smaller handles. -/
theorem fold_of_get?_eq_some {s : Store} {missing : ExprId → α}
    {step : ExprId → Cell → (ExprId → α) → α} {h : ExprId} {c : Cell} (hs : s.get? h = some c) :
    s.fold missing step h =
      step h c fun k => if k < h then s.fold missing step k else missing k := by
  rw [fold, hs]
  simp only [dite_eq_ite]

end Store
end Preflight
