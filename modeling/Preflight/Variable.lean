import Preflight.Fault
import Preflight.Text.Blank
import Preflight.Ty

/-!
# Variables

A variable has a declared type, a name, a direction in which it is passed, and, if it is an
array, a capacity. Its written form is what declarations and messages show: direction, type,
name and capacity, each only if there is one.
-/

namespace Preflight

/-- The types a variable can be declared with. -/
inductive VarType where
  | boolean
  | integer
  | real
  | string
  deriving DecidableEq, Repr

namespace VarType

/-- The name of the type, with which its variables are written. -/
def name : VarType → String
  | boolean => "Boolean"
  | integer => "Integer"
  | real => "Real"
  | string => "String"

/-- The type an expression has when it reads such a variable: integers and reals are both
numbers. -/
def ty : VarType → Ty
  | boolean => .bool
  | integer => .num
  | real => .num
  | string => .str

/-- Whether a use at type `t` is one that a variable of this type allows. -/
def admits (v : VarType) (t : Ty) : Bool :=
  t == .any || t == v.ty

/-- The words for each type: its name or its initial. -/
def words : List (String × VarType) :=
  [("B", boolean), ("Boolean", boolean), ("I", integer), ("Integer", integer),
   ("R", real), ("Real", real), ("S", string), ("String", string)]

/-- Reads a type word, with any blanks around it. -/
def read (word : String) : Except Fault VarType :=
  match words.lookup (Text.strip word) with
  | some v => .ok v
  | none => .error (.unknownVarType word)

end VarType

/-- How a variable is passed. -/
inductive Direction where
  | unstated
  | input
  | inputOutput
  deriving DecidableEq, Repr

/-- The word for the direction with a blank after it, or nothing if it is unstated. -/
def Direction.lead : Direction → String
  | .unstated => ""
  | .input => "In "
  | .inputOutput => "InOut "

/-- A variable of a node, or a parameter or result of a declaration. -/
structure Variable where
  name : String
  type : VarType
  direction : Direction
  /-- The number of elements, if the variable is an array. -/
  capacity : Option Nat
  deriving DecidableEq, Repr

namespace Variable

/-- Whether the variable is an array, which it is if it has a capacity. -/
def isArray (v : Variable) : Bool :=
  v.capacity.isSome

/-- The written form. A variable without a name is written without the blank before it. -/
def text (v : Variable) : String :=
  let name := if v.name.isEmpty then "" else " " ++ v.name
  let capacity := match v.capacity with
    | some n => "[" ++ toString n ++ "]"
    | none => ""
  v.direction.lead ++ v.type.name ++ name ++ capacity

end Variable

end Preflight
