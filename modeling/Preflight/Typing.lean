import Preflight.Finding
import Preflight.Store.Text

/-!
# Typing of expressions

`Store.typing` checks an expression against the type that is expected of it. It gives the
type that remains, the meet of the expected type and the expression's own, and one finding
for each place where types do not meet. At such a place the type is unknown, and nothing
below it is looked at.

The operands of an operator are checked against the type it requires of them, and then
against each other. An array element takes its type from its array, and its array must be
something that can be an array, a reference or a lookup.
-/

namespace Preflight

/-- What the check of an expression gives. -/
structure Typing where
  /-- The type that remains, if types met. -/
  type : Option Ty
  findings : List Finding
  deriving DecidableEq, Repr

namespace Store

/-- The finding that an expression has one type where another is expected. -/
def typeFinding (s : Store) (h : ExprId) (found expected : Option Ty) : Finding :=
  .expressionType (s.text h) (Ty.describe found) (Ty.describe expected)

/-- Whether the expression is one that can stand for an array. -/
def canBeArray (s : Store) (h : ExprId) : Bool :=
  (s.get? h).any fun c => c.element == .leaf .ref || c.element == .leaf .lookup

/-- The finding on two operands each of which is right by itself and which do not agree. -/
def operandClash (s : Store) (right : ExprId) (l r : Typing) : List Finding :=
  match l.type, r.type with
  | some a, some b =>
    if (a.meet? b).isNone then [s.typeFinding right (some b) (some a)] else []
  | _, _ => []

/-- The typing of the array element `h`, of which `t` is expected, from those of array and
index. -/
def elementTyping (s : Store) (h : ExprId) (t : Ty) (array : ExprId) (a i : Typing) : Typing :=
  let shape := if s.canBeArray array then [] else [.notAnArray (s.text array) (s.text h)]
  match a.type with
  | none => ⟨some t, shape ++ a.findings ++ i.findings⟩
  | some u =>
    match t.meet? u with
    | some v => ⟨some v, shape ++ a.findings ++ i.findings⟩
    | none =>
      ⟨none, shape ++ [s.typeFinding h (some u) (some t)] ++ a.findings ++ i.findings⟩

/-- The typing of a cell whose own type met the expected one in `t`. -/
def operandTyping (s : Store) (h : ExprId) (c : Cell) (t : Ty) (typing : ExprId → Ty → Typing) :
    Typing :=
  let required := c.requiredOperandType
  match c.form with
  | .const _ | .ref _ | .lookup .. => ⟨some t, []⟩
  | .unary _ operand => ⟨some t, (typing operand required).findings⟩
  | .binary .arrayElem array index =>
    s.elementTyping h t array (typing array required) (typing index .num)
  | .binary _ left right =>
    let l := typing left required
    let r := typing right required
    ⟨some t, s.operandClash right l r ++ l.findings ++ r.findings⟩

/-- One step of `typing`. -/
def typingStep (s : Store) (vars : String → Option Variable) (h : ExprId) (c : Cell)
    (typing : ExprId → Ty → Typing) (expected : Ty) : Typing :=
  let found := c.resultType vars
  match Ty.meetKnown? (some expected) found with
  | none => ⟨none, [s.typeFinding h found (some expected)]⟩
  | some t => s.operandTyping h c t typing

/-- The check of an expression against an expected type. -/
def typing (s : Store) (vars : String → Option Variable) : ExprId → Ty → Typing :=
  s.fold (fun _ _ => ⟨none, []⟩) (s.typingStep vars)

end Store

end Preflight
