import Preflight.Action
import Preflight.Operator

/-!
# The expression store

All expressions of a plan live in one store and refer to each other by handle, the position
at which they were added. A `Cell` is one stored expression: its `Form`, the types that
whoever built it stated, and the expression that owns it. An expression uses only
expressions that were added before it, and is owned by at most one other.

The store is plain data. That handles go down from an owner to what it owns is a property of
the stores that building produces (`Preflight.Store.Build`), not of the type, and the
functions that walk a store end on any store: they follow a handle only if it is smaller
than the one they come from.
-/

namespace Preflight

/-- What an expression is made of. -/
inductive Form where
  | const (text : String)
  /-- A variable, or a node if the type stated for the expression is a property of nodes. -/
  | ref (name : String)
  /-- A value of the world. `name` is the static name of the call at the time it was added. -/
  | lookup (name : String) (call : Action)
  | unary (op : UnaryOp) (operand : ExprId)
  | binary (op : BinaryOp) (left right : ExprId)
  deriving DecidableEq, Repr

namespace Form

/-- What stands at the head of the form. -/
def element : Form → Element
  | const _ => .leaf .const
  | ref _ => .leaf .ref
  | lookup .. => .leaf .lookup
  | unary op _ => .unary op
  | binary op .. => .binary op

/-- The operands from left to right. The expressions of a lookup's call are not operands. -/
def operands : Form → List ExprId
  | const _ | ref _ | lookup .. => []
  | unary _ operand => [operand]
  | binary _ left right => [left, right]

/-- The expressions that this one takes hold of: its operands, or those of its call. -/
def uses : Form → List ExprId
  | lookup _ call => call.exprs
  | f => f.operands

/-- The text or name of a leaf. -/
def label? : Form → Option String
  | const text => some text
  | ref name => some name
  | lookup name _ => some name
  | unary .. | binary .. => none

/-- The call that a lookup makes. -/
def call? : Form → Option Action
  | lookup _ call => some call
  | const _ | ref _ | unary .. | binary .. => none

end Form

/-- One stored expression. -/
structure Cell where
  form : Form
  /-- The type stated for the expression. -/
  type : Option Ty
  /-- The type stated for its operands. -/
  operandType : Option Ty
  owner : Option ExprId
  deriving DecidableEq, Repr

namespace Cell

/-- What stands at the head of the expression. -/
def element (c : Cell) : Element :=
  c.form.element

/-- The type that the operands must have: what the element fixes, else what was stated, else
any. -/
def requiredOperandType (c : Cell) : Ty :=
  (c.element.operandType?.or c.operandType).getD .any

/-- The node property stated as the type. A reference with one names a node and not a
variable. -/
def nodeProperty? (c : Cell) : Option Ty :=
  c.type.filter Ty.isNodeProperty

/-- The type of the expression, where `vars` gives the variables in reach. A reference
without a variable has the wildcard type, and a constant the type stated for it. -/
def resultType (vars : String → Option Variable) (c : Cell) : Option Ty :=
  match c.form with
  | .const _ => c.type
  | .ref name =>
    match c.nodeProperty? with
    | some t => some t
    | none => some (((vars name).map fun v => v.type.ty).getD .any)
  | .lookup .. => some (c.type.getD .any)
  | .unary op _ => some op.resultType
  | .binary op .. => some op.resultType

end Cell

/-- The expressions of a plan, each at its handle. -/
structure Store where
  cells : Array Cell
  deriving Repr

namespace Store

/-- The store in which there is nothing yet. -/
def empty : Store := ⟨#[]⟩

/-- The number of expressions, which is the handle of the next one. -/
def size (s : Store) : Nat :=
  s.cells.size

/-- Whether the store has no expressions. -/
def isEmpty (s : Store) : Bool :=
  s.cells.isEmpty

/-- The cell at a handle, if there is one. -/
def get? (s : Store) (h : ExprId) : Option Cell :=
  s.cells[h]?

/-- Whether there is an expression at the handle. -/
def contains (s : Store) (h : ExprId) : Bool :=
  (s.get? h).isSome

/-- The type of an expression, which is unknown for a handle without one. -/
def resultType (s : Store) (vars : String → Option Variable) (h : ExprId) : Option Ty :=
  (s.get? h).bind (Cell.resultType vars)

/-- The type that the operands of an expression must have. -/
def requiredOperandType (s : Store) (h : ExprId) : Ty :=
  ((s.get? h).map Cell.requiredOperandType).getD .any

/-- Whether the owner of `h` takes an array element and `h` is its array. -/
def isIndexed (s : Store) (h : ExprId) : Bool :=
  match ((s.get? h).bind Cell.owner).bind s.get? with
  | some ⟨.binary .arrayElem array _, _, _, _⟩ => array == h
  | _ => false

end Store

end Preflight
