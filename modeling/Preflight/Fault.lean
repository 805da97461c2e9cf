import Preflight.Text.Quoted

/-!
# Faults

Why a word could not be read or a building step was refused. A fault has a name for
programs, a message for people and sometimes a tip on what would be accepted. Messages quote
the word at fault; tips show it bare, between backquotes.
-/

namespace Preflight

/-- Why something was refused, with the word or the handles at fault. -/
inductive Fault where
  | unknownVarType (word : String)
  | unknownElement (word : String)
  | unknownConditionType (word : String)
  | unknownCallType (word : String)
  /-- An operator was given `received` operands and takes `expected`. -/
  | arityMismatch (element : String) (expected received : Nat)
  | exprNotFound (expr : Nat)
  /-- The expression is already part of `owner`. -/
  | exprAlreadyOwned (expr owner : Nat)
  | nodeNotFound (node : Nat)
  deriving DecidableEq, Repr

namespace Fault

/-- The name of the fault for programs. -/
def name : Fault → String
  | unknownVarType _ => "UnknownVarType"
  | unknownElement _ => "UnknownElement"
  | unknownConditionType _ => "UnknownConditionType"
  | unknownCallType _ => "UnknownCallType"
  | arityMismatch .. => "ArityMismatch"
  | exprNotFound _ => "ExprNotFound"
  | exprAlreadyOwned .. => "ExprAlreadyOwned"
  | nodeNotFound _ => "NodeNotFound"

/-- The fault in words. -/
def message : Fault → String
  | unknownVarType word => "unknown variable type " ++ Text.quoted word
  | unknownElement word => "unknown expression element " ++ Text.quoted word
  | unknownConditionType word => "unknown condition type " ++ Text.quoted word
  | unknownCallType word => "unknown call type " ++ Text.quoted word
  | arityMismatch element expected received =>
    s!"element {element} expects {expected} operand(s), received {received}"
  | exprNotFound expr => s!"expression #{expr} does not exist"
  | exprAlreadyOwned expr owner => s!"expression #{expr} already belongs to expression #{owner}"
  | nodeNotFound node => s!"node #{node} does not exist"

/-- What would be accepted, where that can be said. -/
def tip : Fault → Option String
  | unknownVarType word =>
    some s!"Unknown variable type `{word}`, expected one of Boolean, Integer, Real or String"
  | unknownElement word => some s!"Element `{word}` has no expression equivalent"
  | unknownConditionType word =>
    some s!"Condition `{word}` is not one of Start, End, Pre, Post, Invariant, Repeat or Skip"
  | unknownCallType word => some s!"`{word}` does not name a declaration or action"
  | arityMismatch element expected received =>
    some s!"`{element}` takes {expected} operand(s), received {received}"
  | exprNotFound _ => none
  | exprAlreadyOwned .. => some "Each expression can only be the operand of a single parent"
  | nodeNotFound _ => none

end Fault

end Preflight
