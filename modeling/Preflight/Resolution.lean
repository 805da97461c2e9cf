import Preflight.Conformance
import Preflight.Plan.Scope
import Preflight.Store.Search

/-!
# References of an expression

The references in an expression are checked from inside a node. One that names a node must
name one that can be seen from there. Any other must name a variable in scope, be used at a
type that the variable admits, and take a single element if and only if the variable is an
array. A lookup must call what is declared, in the way it is declared.

The `context` says where the expression stands, in the words of a message.
-/

namespace Preflight

namespace Variable

/-- The finding on a use at a stated type that the variable does not admit. -/
def typeMisuse (v : Variable) (used : Option Ty) (context : String) : List Finding :=
  match used with
  | some t =>
    if v.type.admits t then [] else [.variableMismatch v.name v.type.name t.name context]
  | none => []

/-- The finding on an array without an index, or an index without an array, in the
expression `root`. -/
def indexMisuse (v : Variable) (indexed : Bool) (root : String) : List Finding :=
  match v.isArray, indexed with
  | true, false => [.arrayNeedsIndex v.name root]
  | false, true => [.notAnArray v.name root]
  | true, true | false, false => []

end Variable

namespace Plan

/-- Checks the reference at `h`, which is part of the expression `root`. -/
def checkReference (p : Plan) (n : NodeId) (context : String) (root h : ExprId) : List Finding :=
  match p.exprs.get? h with
  | some c =>
    match c.form with
    | .ref name =>
      if c.nodeProperty?.isSome then
        if p.canSee n name then [] else [.inaccessibleNode name (p.nodeName n)]
      else
        match p.findInScope? n name with
        | none => [.variableNotFound name context]
        | some v =>
          v.typeMisuse c.type context ++ v.indexMisuse (p.exprs.isIndexed h) (p.exprs.text root)
    | _ => []
  | none => []

/-- Checks the lookup at `h`. One that is said to give a property of a node is passed over:
such a value never comes from a lookup. -/
def checkLookup (p : Plan) (n : NodeId) (context : String) (h : ExprId) : List Finding :=
  match p.exprs.get? h with
  | some c =>
    match c.form with
    | .lookup _ call =>
      if c.nodeProperty?.isSome then []
      else
        p.checkCall (p.nodeName n) (.noLookupDeclaration (p.exprs.actionText call) context) call
    | _ => []
  | none => []

/-- Checks every variable and node that an expression refers to. -/
def checkReferences (p : Plan) (n : NodeId) (context : String) (root : ExprId) : List Finding :=
  (p.exprs.find root (.leaf .ref)).flatMap (p.checkReference n context root)

/-- Checks every lookup in an expression. -/
def checkLookups (p : Plan) (n : NodeId) (context : String) (root : ExprId) : List Finding :=
  (p.exprs.find root (.leaf .lookup)).flatMap (p.checkLookup n context)

end Plan

end Preflight
