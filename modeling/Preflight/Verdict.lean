import Preflight.Resolution
import Preflight.Typing

/-!
# The verdict on a plan

The findings on a whole plan, in order: names declared twice, calls that nodes make against
their declarations, and, node by node, the conditions and assignments.

A condition is checked for its references, its lookups and the type `Bool`. An assignment is
checked for the references and lookups on both sides; only if there is nothing to say about
these are its two types checked and compared, since a bad reference already explains a type
that does not fit.
-/

namespace Preflight
namespace Plan

/-- The findings that `check` has on each node, in the order of the nodes. -/
def onNodes (p : Plan) (check : NodeId → Node → List Finding) : List Finding :=
  p.nodes.toList.zipIdx.flatMap fun (node, n) => check n node

/-- The typing of an expression of the plan against an expected type. -/
def typing (p : Plan) (h : ExprId) (expected : Ty) : Typing :=
  p.exprs.typing p.findVariable? h expected

/-- The findings on names that are declared more than once. -/
def checkConflicts (p : Plan) : List Finding :=
  Declaration.conflicts p.declarations

/-- Checks the command or lookup that a node makes. -/
def checkNodeCall (p : Plan) (node : Node) : List Finding :=
  match node.action with
  | some a =>
    if a.kind = .command ∨ a.kind = .lookup then
      p.checkCall node.name (.noDeclarationMatch (p.exprs.actionText a) node.name) a
    else []
  | none => []

/-- The findings on the calls that nodes make. -/
def checkCalls (p : Plan) : List Finding :=
  p.onNodes fun _ node => p.checkNodeCall node

/-- The findings on a condition: its references, its lookups, and then its type. -/
def checkCondition (p : Plan) (n : NodeId) (node : Node) (c : Condition) : List Finding :=
  let context := "in " ++ c.kind.name ++ " Condition of node " ++ node.name
  p.checkReferences n context c.expr ++ p.checkLookups n context c.expr ++
    (p.typing c.expr .bool).findings

/-- The references and lookups on both sides of an assignment. -/
def assignmentReferences (p : Plan) (n : NodeId) (node : Node) (target value : ExprId) :
    List Finding :=
  let onLeft := "in LHS Assignment of node " ++ node.name
  let onRight := "in RHS Assignment of node " ++ node.name
  p.checkReferences n onLeft target ++ p.checkLookups n onLeft target ++
    p.checkReferences n onRight value ++ p.checkLookups n onRight value

/-- How a message names the target of an assignment: the variable that its first reference
stands for, else as it is written. -/
def targetText (p : Plan) (n : NodeId) (target : ExprId) : String :=
  let named := (p.exprs.find target (.leaf .ref)).head?.bind fun h =>
    ((p.exprs.get? h).bind fun c => c.form.label?).bind (p.findInScope? n)
  (named.map Variable.text).getD (p.exprs.text target)

/-- The types on both sides of an assignment, by themselves and then against each other. -/
def assignmentTypes (p : Plan) (n : NodeId) (node : Node) (target value : ExprId) : List Finding :=
  let l := p.typing target .any
  let r := p.typing value .any
  let disagreement :=
    if (Ty.meetKnown? l.type r.type).isSome then []
    else
      let found := (r.type.map Ty.name).getD "unknown"
      [.assignmentMismatch (p.targetText n target) found node.name]
  l.findings ++ r.findings ++ disagreement

/-- The findings on an assignment: its types only if its references are in order. -/
def checkAssignment (p : Plan) (n : NodeId) (node : Node) (target value : ExprId) : List Finding :=
  let references := p.assignmentReferences n node target value
  if references.isEmpty then p.assignmentTypes n node target value else references

/-- Checks the action of a node as far as it is an assignment with a target and a value. -/
def checkNodeAssignment (p : Plan) (n : NodeId) (node : Node) : List Finding :=
  match node.action with
  | some ⟨.assignment, _, value :: _, some target⟩ => p.checkAssignment n node target value
  | _ => []

/-- The findings on what a node speaks of: its conditions, then its assignment. -/
def checkNodeExprs (p : Plan) (n : NodeId) (node : Node) : List Finding :=
  node.conditions.flatMap (p.checkCondition n node) ++ p.checkNodeAssignment n node

/-- The findings on conditions and assignments, node by node. -/
def checkExprs (p : Plan) : List Finding :=
  p.onNodes p.checkNodeExprs

/-- All that is to be said about a plan. -/
def check (p : Plan) : List Finding :=
  p.checkConflicts ++ p.checkCalls ++ p.checkExprs

end Plan
end Preflight
