import Preflight.Plan.Basic

/-!
# Calls and their declarations

A call conforms to a declaration if it is of the declared kind, has as many arguments as
there are parameters and each of its parameter's type, and takes no more results than are
declared, each of its declared type. Types are compared for equality here: the wildcard type
is not that of any parameter.

The declaration of a call is found by its name, which must be known before the plan runs.
-/

namespace Preflight
namespace Plan

/-- Whether each expression has the type of the variable at its position. -/
def haveTypesOf (p : Plan) (exprs : List ExprId) (vars : List Variable) : Bool :=
  (exprs.zip vars).all fun (h, v) => p.resultType h == some v.type.ty

/-- Whether a call is one that the declaration allows: in kind, arguments and results. -/
def conforms (p : Plan) (a : Action) (d : Declaration) : Bool :=
  a.kind.declaredAs.all (· == d.kind) &&
    (a.args.length == d.params.length && p.haveTypesOf a.args d.params) &&
    (decide (a.returns.length ≤ d.returns.length) && p.haveTypesOf a.returns d.returns)

/-- The finding on a call in `node` that does not conform to its declaration. -/
def mismatch? (p : Plan) (node : String) (a : Action) (d : Declaration) : Option Finding :=
  if p.conforms a d then none
  else some (.declarationMismatch (p.exprs.actionText a) node d.text)

/-- Checks a call in `node` against the declaration of its name, where `undeclared` is the
finding if there is none. -/
def checkCall (p : Plan) (node : String) (undeclared : Finding) (a : Action) : List Finding :=
  match p.exprs.staticText? a.callee with
  | none => [.nonStaticName (p.exprs.text a.callee) node]
  | some name =>
    match p.findDeclaration? name with
    | none => [undeclared]
    | some d => (p.mismatch? node a d).toList

end Plan
end Preflight
