import Preflight.Declaration

/-!
# Actions

An action is what a node does, or what a lookup reads: a kind, an expression that gives the
name of what is called, arguments and perhaps a place for the result. An action refers to
its expressions by handle, so it is written with the help of the texts of those expressions.

An assignment is the action whose one argument is the value and whose result place is the
target; its name is empty.
-/

namespace Preflight

/-- A handle of an expression: its position in the store that holds it. -/
abbrev ExprId := Nat

/-- The kinds of action. -/
inductive ActionKind where
  | command
  | function
  | lookup
  | libraryCall
  | assignment
  | update
  | empty
  deriving DecidableEq, Repr

namespace ActionKind

/-- The name of the kind, with which its written form begins. -/
def name : ActionKind → String
  | command => "Command"
  | function => "Function"
  | lookup => "Lookup"
  | libraryCall => "LibraryCall"
  | assignment => "Assignment"
  | update => "Update"
  | empty => "Empty"

/-- The kind that the declaration of what is called must have. The other kinds ask for none. -/
def declaredAs : ActionKind → Option CallKind
  | command => some .command
  | lookup => some .lookup
  | libraryCall => some .libraryCall
  | function | assignment | update | empty => none

/-- The tags of each kind, those of lookups apart. -/
def tags : List (String × ActionKind) :=
  [("Command", command), ("FunctionCall", function), ("Function", function),
   ("LibraryNodeCall", libraryCall), ("Assignment", assignment), ("Update", update),
   ("NodeList", empty), ("Empty", empty)]

/-- Reads the tag of an action. Every tag that begins with `Lookup` is a lookup. -/
def ofTag (tag : String) : Except Fault ActionKind :=
  match tags.lookup tag with
  | some k => .ok k
  | none => if tag.startsWith "Lookup" then .ok lookup else .error (.unknownCallType tag)

end ActionKind

/-- An action, with its expressions by handle. -/
structure Action where
  kind : ActionKind
  /-- The expression that gives the name of what is called. -/
  callee : ExprId
  args : List ExprId
  /-- Where the result goes. -/
  target : Option ExprId
  deriving DecidableEq, Repr

namespace Action

/-- The value that an assignment assigns. -/
def value? (a : Action) : Option ExprId :=
  a.args.head?

/-- The places for results, of which there is at most one. -/
def returns (a : Action) : List ExprId :=
  a.target.toList

/-- Every expression of the action: callee, arguments, target. -/
def exprs (a : Action) : List ExprId :=
  a.callee :: a.args ++ a.target.toList

/-- The written form, given the static text, if any, and the written form of each
expression. A name that is known statically is written bare. -/
def textWith (static : ExprId → Option String) (text : ExprId → String) (a : Action) : String :=
  match a.kind with
  | .assignment =>
    "Assignment " ++ (a.target.map text).getD "" ++ " = " ++ (a.value?.map text).getD ""
  | kind =>
    let callee := (static a.callee).getD (text a.callee)
    let target := match a.target with
      | some t => " -> " ++ text t
      | none => ""
    kind.name ++ " " ++ callee ++ "(" ++ ", ".intercalate (a.args.map text) ++ ")" ++ target

end Action

end Preflight
