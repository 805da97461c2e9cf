import Preflight.Ty

/-!
# Operators

An `Element` says what kind of expression one has in hand: a leaf, or the operator at its
head. Most operators fix the type of their result and of their operands. Where an operator
leaves the operand type open (`operandType?` is `none`) the expression itself may state one.
-/

namespace Preflight

/-- The expressions without operands. -/
inductive LeafKind where
  | const
  | ref
  | lookup
  deriving DecidableEq, Repr

/-- The operators on one expression. -/
inductive UnaryOp where
  | sqrt
  | abs
  | ceil
  | floor
  | round
  | trunc
  | realToInt
  | strlen
  | not
  | isKnown
  deriving DecidableEq, Repr

/-- The operators on two expressions. -/
inductive BinaryOp where
  /-- The element of the array on the left at the index on the right. -/
  | arrayElem
  | aliasOf
  | plus
  | minus
  | mult
  | div
  | mod
  | max
  | min
  | eq
  | ne
  | lt
  | gt
  | le
  | ge
  | or
  | and
  | xor
  | concat
  deriving DecidableEq, Repr

namespace LeafKind

/-- The name of the kind of leaf. -/
def name : LeafKind → String
  | const => "Const"
  | ref => "Var"
  | lookup => "Lookup"

/-- The sign for the kind of leaf. -/
def symbol : LeafKind → String
  | const => "const"
  | ref => "var"
  | lookup => "lookup"

end LeafKind

namespace UnaryOp

/-- The name of the operator. -/
def name : UnaryOp → String
  | sqrt => "Sqrt"
  | abs => "Abs"
  | ceil => "Ceil"
  | floor => "Floor"
  | round => "Round"
  | trunc => "Trunc"
  | realToInt => "RealToInt"
  | strlen => "Strlen"
  | not => "Not"
  | isKnown => "IsKnown"

/-- The sign for the operator in written expressions, before its operand. -/
def symbol : UnaryOp → String
  | sqrt => "sqrt"
  | abs => "abs"
  | ceil => "ceil"
  | floor => "floor"
  | round => "round"
  | trunc => "trunc"
  | realToInt => "real_to_int"
  | strlen => "strlen"
  | not => "!"
  | isKnown => "is_known"

/-- The type of the result. -/
def resultType : UnaryOp → Ty
  | sqrt | abs | ceil | floor | round | trunc | realToInt | strlen => .num
  | not | isKnown => .bool

/-- The type of the operand, which only the question whether something is known leaves open. -/
def operandType? : UnaryOp → Option Ty
  | sqrt | abs | ceil | floor | round | trunc | realToInt => some .num
  | strlen => some .str
  | not => some .bool
  | isKnown => none

end UnaryOp

namespace BinaryOp

/-- The name of the operator. -/
def name : BinaryOp → String
  | arrayElem => "ArrayElem"
  | aliasOf => "Alias"
  | plus => "Plus"
  | minus => "Minus"
  | mult => "Mult"
  | div => "Div"
  | mod => "Mod"
  | max => "Max"
  | min => "Min"
  | eq => "Eq"
  | ne => "NEq"
  | lt => "LT"
  | gt => "GT"
  | le => "LEq"
  | ge => "GEq"
  | or => "Or"
  | and => "And"
  | xor => "XOr"
  | concat => "Concat"

/-- The sign for the operator in written expressions. Sums and joined texts share one. -/
def symbol : BinaryOp → String
  | arrayElem => "[]"
  | aliasOf => "alias"
  | plus => "+"
  | minus => "-"
  | mult => "*"
  | div => "/"
  | mod => "mod"
  | max => "max"
  | min => "min"
  | eq => "=="
  | ne => "!="
  | lt => "<"
  | gt => ">"
  | le => "<="
  | ge => ">="
  | or => "||"
  | and => "&&"
  | xor => "xor"
  | concat => "+"

/-- The type of the result. An array element or an alias may be anything. -/
def resultType : BinaryOp → Ty
  | arrayElem | aliasOf => .any
  | plus | minus | mult | div | mod | max | min => .num
  | eq | ne | lt | gt | le | ge | or | and | xor => .bool
  | concat => .str

/-- The type of both operands, which arrays, aliases and tests for equality leave open. -/
def operandType? : BinaryOp → Option Ty
  | arrayElem | aliasOf | eq | ne => none
  | plus | minus | mult | div | mod | max | min => some .num
  | lt | gt | le | ge => some .num
  | or | and | xor => some .bool
  | concat => some .str

end BinaryOp

/-- What stands at the head of an expression. -/
inductive Element where
  | leaf (kind : LeafKind)
  | unary (op : UnaryOp)
  | binary (op : BinaryOp)
  deriving DecidableEq, Repr

namespace Element

/-- The number of operands. -/
def arity : Element → Nat
  | leaf _ => 0
  | unary _ => 1
  | binary _ => 2

/-- The name of the element, by which a fault speaks of it. -/
def name : Element → String
  | leaf kind => kind.name
  | unary op => op.name
  | binary op => op.name

/-- The sign for the element in written expressions. -/
def symbol : Element → String
  | leaf kind => kind.symbol
  | unary op => op.symbol
  | binary op => op.symbol

/-- The type of the result, which for a leaf the element does not fix. -/
def resultType? : Element → Option Ty
  | leaf _ => none
  | unary op => some op.resultType
  | binary op => some op.resultType

/-- The type of the operands, if the element fixes one. -/
def operandType? : Element → Option Ty
  | leaf _ => none
  | unary op => op.operandType?
  | binary op => op.operandType?

end Element

end Preflight
