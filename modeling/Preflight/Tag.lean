import Preflight.Fault
import Preflight.Operator

/-!
# Tags of expressions

The tags under which a plan document writes expressions. A tag decides the element at the
head of an expression (`Element.ofTag`) and often the type it speaks of (`Ty.ofTag?`):
`EQBoolean` is an equality of truth values, `IntegerVariable` a reference to a number.
-/

namespace Preflight

namespace Element

/-- Every tag with its element, by kind of element. -/
def tags : List (String × Element) :=
  let consts := ["NodeStateValue", "NodeOutcomeValue", "NodeFailureValue", "NodeTimepointValue",
    "NodeCommandHandleValue", "BooleanValue", "StringValue", "IntegerValue", "RealValue"]
  let refs := ["NodeStateVariable", "NodeOutcomeVariable", "NodeFailureVariable",
    "NodeCommandHandleVariable", "BooleanVariable", "StringVariable", "IntegerVariable",
    "RealVariable"]
  let lookups := ["LookupNow", "LookupOnChange"]
  let equalities := ["EQInternal", "EQBoolean", "EQString", "EQNumeric"]
  let inequalities := ["NEInternal", "NEBoolean", "NEString", "NENumeric"]
  consts.map (·, leaf .const) ++ refs.map (·, leaf .ref) ++ lookups.map (·, leaf .lookup) ++
    [("ArrayElement", binary .arrayElem), ("Alias", binary .aliasOf),
     ("ADD", binary .plus), ("SUB", binary .minus), ("MUL", binary .mult), ("DIV", binary .div),
     ("MOD", binary .mod), ("MAX", binary .max), ("MIN", binary .min),
     ("SQRT", unary .sqrt), ("ABS", unary .abs), ("CEIL", unary .ceil), ("FLOOR", unary .floor),
     ("ROUND", unary .round), ("TRUNC", unary .trunc), ("REAL_TO_INT", unary .realToInt),
     ("STRLEN", unary .strlen)] ++
    equalities.map (·, binary .eq) ++ inequalities.map (·, binary .ne) ++
    [("GT", binary .gt), ("LT", binary .lt), ("GE", binary .ge), ("LE", binary .le),
     ("NOT", unary .not), ("OR", binary .or), ("AND", binary .and), ("XOR", binary .xor),
     ("IsKnown", unary .isKnown), ("Concat", binary .concat)]

/-- Reads the tag of an expression. -/
def ofTag (tag : String) : Except Fault Element :=
  match tags.lookup tag with
  | some e => .ok e
  | none => .error (.unknownElement tag)

/-- Every tag with its element, in the order of the tags. -/
def vocabulary : List (String × Element) :=
  tags.mergeSort fun a b => decide (a.1 ≤ b.1)

end Element

namespace Ty

/-- The words inside a tag that speak of a type. A later entry is more telling than an
earlier one. -/
def tagWords : List (String × Ty) :=
  [("Boolean", bool), ("String", str), ("Numeric", num), ("Integer", num), ("Real", num),
   ("Internal", nodeState), ("NodeState", nodeState), ("NodeOutcome", nodeOutcome),
   ("NodeFailure", nodeFailureType), ("NodeTimepointValue", nodeTimepointValue),
   ("NodeCommandHandle", nodeCommandHandle)]

/-- The type that a tag speaks of: that of the last word in the list that occurs in it. -/
def ofTag? (tag : String) : Option Ty :=
  (tagWords.reverse.find? fun w => tag.contains w.1).map (·.2)

end Ty

end Preflight
