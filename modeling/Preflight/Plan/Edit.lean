import Preflight.Plan.Basic

/-!
# Edits

Every operation that builds a plan, as data. `Plan.apply` carries out one edit and says what
came of it; `Plan.build` carries out a list of them from the empty plan and passes over
those that are refused. The plans that can come about are those of `Plan.build`.
-/

namespace Preflight

/-- The operations that build a plan. -/
inductive Edit where
  | declare (declaration : Declaration)
  | addNode (name : String) (parent : Option NodeId)
  | declareVariable (node : NodeId) (v : Variable)
  | constant (text : String) (type : Ty)
  | reference (name : String) (type : Option Ty)
  | lookup (call : Action) (type : Option Ty)
  | unary (element : Element) (operand : ExprId)
  | binary (element : Element) (left right : ExprId)
  | setType (expr : ExprId) (type : Ty)
  | setOperandType (expr : ExprId) (type : Ty)
  | addCondition (node : NodeId) (kind : ConditionKind) (expr : ExprId)
  | setAction (node : NodeId) (action : Action)
  deriving DecidableEq, Repr

/-- What an edit brought about. -/
inductive Outcome where
  | done
  /-- The number of declarations there are now. -/
  | declared (count : Nat)
  | node (n : NodeId)
  | expr (h : ExprId)
  deriving DecidableEq, Repr

namespace Plan

/-- Puts a store with a new expression in the place of the plan's. -/
def withExpr (p : Plan) (added : ExprId × Store) : Outcome × Plan :=
  (.expr added.1, { p with exprs := added.2 })

/-- Puts a store that was changed in the place of the plan's. -/
def withStore (p : Plan) (s : Store) : Outcome × Plan :=
  (.done, { p with exprs := s })

/-- Carries out an edit, or refuses it with a fault. -/
def apply (p : Plan) : Edit → Except Fault (Outcome × Plan)
  | .declare d => .ok (.declared (p.declare d).declarations.length, p.declare d)
  | .addNode name parent => (p.addNode name parent).map fun (n, q) => (.node n, q)
  | .declareVariable n v => (p.declareVariable n v).map (.done, ·)
  | .constant text type => .ok (p.withExpr (p.exprs.constant text type))
  | .reference name type => .ok (p.withExpr (p.exprs.reference name type))
  | .lookup call type => (p.exprs.lookup call type).map p.withExpr
  | .unary element operand => (p.exprs.unary element operand).map p.withExpr
  | .binary element left right => (p.exprs.binary element left right).map p.withExpr
  | .setType h type => (p.exprs.setType h type).map p.withStore
  | .setOperandType h type => (p.exprs.setOperandType h type).map p.withStore
  | .addCondition n kind h => (p.addCondition n kind h).map (.done, ·)
  | .setAction n a => (p.setAction n a).map (.done, ·)

/-- The plan after an edit, which is the same plan if the edit is refused. -/
def after (p : Plan) (e : Edit) : Plan :=
  match p.apply e with
  | .ok (_, q) => q
  | .error _ => p

/-- The plan that a list of edits leads to. -/
def build (edits : List Edit) : Plan :=
  edits.foldl after empty

end Plan

end Preflight
