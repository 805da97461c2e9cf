import Preflight.Store.Fold

/-!
# The text of expressions

Two readings of an expression as text. `staticText?` is the text that an expression is sure
to have when the plan runs: literal texts and what is joined from them. `text` is the
written form for messages.
-/

namespace Preflight
namespace Store

/-- One step of `staticText?`. A type stated for the expression must leave room for a text,
and a constant must state one. -/
def staticStep (_ : ExprId) (c : Cell) (static : ExprId → Option String) : Option String :=
  match c.form with
  | .const text => if c.type = some .str ∨ c.type = some .any then some text else none
  | .binary .concat left right =>
    if c.type = none ∨ c.type = some .str ∨ c.type = some .any then
      (static left).bind fun l => (static right).map fun r => l ++ r
    else none
  | _ => none

/-- The text of an expression, if it is known before the plan runs. -/
def staticText? (s : Store) : ExprId → Option String :=
  s.fold (fun _ => none) staticStep

/-- What is written for a handle without an expression. -/
def missingText (h : ExprId) : String :=
  "<missing #" ++ toString h ++ ">"

/-- One step of `text`. -/
def textStep (static : ExprId → Option String) (_ : ExprId) (c : Cell) (text : ExprId → String) :
    String :=
  match c.form with
  | .const literal => if c.type = some .str then "\"" ++ literal ++ "\"" else literal
  | .ref name => name
  | .lookup _ call => call.textWith static text
  | .unary op operand => op.symbol ++ "(" ++ text operand ++ ")"
  | .binary .arrayElem left right => text left ++ "[" ++ text right ++ "]"
  | .binary op left right => "(" ++ text left ++ " " ++ op.symbol ++ " " ++ text right ++ ")"

/-- The written form of an expression. -/
def text (s : Store) : ExprId → String :=
  s.fold missingText (textStep s.staticText?)

/-- The written form of an action over the expressions of this store. -/
def actionText (s : Store) (a : Action) : String :=
  a.textWith s.staticText? s.text

end Store
end Preflight
