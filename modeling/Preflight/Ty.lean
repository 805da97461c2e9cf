/-!
# Types

`Ty` is the type of an expression: a number, a truth value, a text, one of the five
properties of a node, or the wildcard `any`.

Two types agree when one is the wildcard or they are equal, and then `Ty.meet?` gives the
more specific of the two. A type may also be unknown (`none`): an unknown type agrees with
nothing, not even with the wildcard.
-/

namespace Preflight

/-- The types of expressions. -/
inductive Ty where
  | num
  | bool
  | str
  | nodeState
  | nodeOutcome
  | nodeFailureType
  | nodeTimepointValue
  | nodeCommandHandle
  /-- The wildcard, which agrees with every known type. -/
  | any
  deriving DecidableEq, Repr

namespace Ty

/-- The name of the type, as it stands in findings. -/
def name : Ty → String
  | num => "Num"
  | bool => "Bool"
  | str => "Str"
  | nodeState => "NodeState"
  | nodeOutcome => "NodeOutcome"
  | nodeFailureType => "NodeFailureType"
  | nodeTimepointValue => "NodeTimepointValue"
  | nodeCommandHandle => "NodeCommandHandle"
  | any => "A"

/-- Whether the type is a property of a node, so that a reference of this type names a node. -/
def isNodeProperty : Ty → Bool
  | nodeState | nodeOutcome | nodeFailureType | nodeTimepointValue | nodeCommandHandle => true
  | num | bool | str | any => false

/-- The more specific of two types that agree. -/
def meet? : Ty → Ty → Option Ty
  | any, t => some t
  | s, any => some s
  | s, t => if s = t then some s else none

/-- The meet of two types either of which may be unknown. -/
def meetKnown? (s t : Option Ty) : Option Ty :=
  s.bind fun s => t.bind fun t => s.meet? t

/-- How a message speaks of a type that may be unknown. -/
def describe : Option Ty → String
  | some t => "type " ++ t.name
  | none => "unknown type"

/-- The wildcard on the left gives way. -/
@[simp] theorem meet?_any_left (t : Ty) : any.meet? t = some t := by
  cases t <;> rfl

/-- The wildcard on the right gives way. -/
@[simp] theorem meet?_any_right (t : Ty) : t.meet? any = some t := by
  cases t <;> rfl

/-- A type agrees with itself. -/
@[simp] theorem meet?_self (t : Ty) : t.meet? t = some t := by
  cases t <;> rfl

/-- It does not matter which of two types comes first. -/
theorem meet?_comm (s t : Ty) : s.meet? t = t.meet? s := by
  cases s <;> cases t <;> rfl

/-- Two types have a meet exactly when they are equal or one is the wildcard. -/
theorem isSome_meet?_iff {s t : Ty} : (s.meet? t).isSome ↔ s = any ∨ t = any ∨ s = t := by
  cases s <;> cases t <;> simp [meet?]

/-- Two types have no meet exactly when both are concrete and they differ. -/
theorem meet?_eq_none_iff {s t : Ty} : s.meet? t = none ↔ s ≠ any ∧ t ≠ any ∧ s ≠ t := by
  rw [← Option.not_isSome_iff_eq_none, isSome_meet?_iff, not_or, not_or]

/-- Known types meet as they are. -/
@[simp] theorem meetKnown?_some (s t : Ty) : meetKnown? (some s) (some t) = s.meet? t := rfl

/-- An unknown type on the left agrees with nothing. -/
@[simp] theorem meetKnown?_none_left (t : Option Ty) : meetKnown? none t = none := rfl

/-- An unknown type on the right agrees with nothing. -/
@[simp] theorem meetKnown?_none_right (s : Option Ty) : meetKnown? s none = none := by
  cases s <;> rfl

end Ty

end Preflight
