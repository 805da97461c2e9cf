import Preflight.Store.Build

/-!
# Plans

A plan is a forest of nodes over one expression store, with the declarations of what its
nodes may call. A node has a name, local variables, conditions and at most one action. Nodes
are known by handle, the position at which they were added, and a node is added after its
parent.

The operations here build a plan. One that is refused gives a fault and no plan.
-/

namespace Preflight

/-- A handle of a node: its position in the plan. -/
abbrev NodeId := Nat

/-- When a condition of a node is asked. -/
inductive ConditionKind where
  | start
  | finish
  | pre
  | post
  | invariant
  | repetition
  | skip
  deriving DecidableEq, Repr

namespace ConditionKind

/-- The name of the kind, as it stands in findings. -/
def name : ConditionKind → String
  | start => "Start"
  | finish => "End"
  | pre => "Pre"
  | post => "Post"
  | invariant => "Invariant"
  | repetition => "Repeat"
  | skip => "Skip"

/-- The tag of each kind of condition. -/
def tags : List (String × ConditionKind) :=
  [("StartCondition", start), ("EndCondition", finish), ("PreCondition", pre),
   ("PostCondition", post), ("InvariantCondition", invariant), ("RepeatCondition", repetition),
   ("SkipCondition", skip)]

/-- Reads a condition's tag, of which the ending `Condition` may be left out. -/
def read (word : String) : Except Fault ConditionKind :=
  let tag := if word.endsWith "Condition" then word else word ++ "Condition"
  match tags.lookup tag with
  | some k => .ok k
  | none => .error (.unknownConditionType word)

end ConditionKind

/-- A condition of a node: when it is asked, and the expression that decides it. -/
structure Condition where
  kind : ConditionKind
  expr : ExprId
  deriving DecidableEq, Repr

/-- A node with all that hangs on it. -/
structure Node where
  name : String
  parent : Option NodeId
  children : List NodeId
  conditions : List Condition
  action : Option Action
  locals : List Variable
  deriving DecidableEq, Repr

/-- The first variable of that name that the node itself declares. -/
def Node.findVariable? (node : Node) (name : String) : Option Variable :=
  node.locals.find? fun v => v.name == name

/-- A plan: declarations, nodes, and the expressions that the nodes speak of. -/
structure Plan where
  declarations : List Declaration
  nodes : Array Node
  /-- The nodes without a parent. -/
  roots : List NodeId
  exprs : Store
  deriving Repr

namespace Plan

/-- The plan in which there is nothing yet. -/
def empty : Plan := ⟨[], #[], [], .empty⟩

/-- The plan that has declarations only. -/
def withDeclarations (declarations : List Declaration) : Plan :=
  { empty with declarations }

/-- The number of nodes, which is the handle of the next one. -/
def size (p : Plan) : Nat :=
  p.nodes.size

/-- Whether the plan has no nodes. -/
def isEmpty (p : Plan) : Bool :=
  p.nodes.isEmpty

/-- The node at a handle, if there is one. -/
def node? (p : Plan) (n : NodeId) : Option Node :=
  p.nodes[n]?

/-- The name of a node, empty for a handle without one. -/
def nodeName (p : Plan) (n : NodeId) : String :=
  ((p.node? n).map Node.name).getD ""

/-- The declaration that a name stands for: the first that bears it. -/
def findDeclaration? (p : Plan) (name : String) : Option Declaration :=
  Declaration.find? p.declarations name

/-- The variables of all nodes, node by node. -/
def allVariables (p : Plan) : List Variable :=
  p.nodes.toList.flatMap Node.locals

/-- The first variable of that name in the whole plan, wherever it is declared. -/
def findVariable? (p : Plan) (name : String) : Option Variable :=
  p.allVariables.find? fun v => v.name == name

/-- The type of an expression of the plan. -/
def resultType (p : Plan) (h : ExprId) : Option Ty :=
  p.exprs.resultType p.findVariable? h

/-- Refuses a handle without a node. -/
def requireNode (p : Plan) (n : NodeId) : Except Fault Unit :=
  if n < p.size then .ok () else .error (.nodeNotFound n)

/-- Refuses at the first handle without an expression. -/
def requireExprs (p : Plan) : List ExprId → Except Fault Unit
  | [] => .ok ()
  | h :: hs => if p.exprs.contains h then p.requireExprs hs else .error (.exprNotFound h)

/-- Changes the node at a handle that has one. -/
def updateNode (p : Plan) (n : NodeId) (f : Node → Node) : Except Fault Plan :=
  (p.requireNode n).map fun _ => { p with nodes := p.nodes.modify n f }

/-- Adds a declaration behind the others, also where its name is taken. -/
def declare (p : Plan) (d : Declaration) : Plan :=
  { p with declarations := p.declarations ++ [d] }

/-- Adds a node as the last child of its parent, or as the last root. -/
def addNode (p : Plan) (name : String) (parent : Option NodeId) : Except Fault (NodeId × Plan) :=
  let n := p.size
  let node : Node := ⟨name, parent, [], [], none, []⟩
  match parent with
  | none => .ok (n, { p with nodes := p.nodes.push node, roots := p.roots ++ [n] })
  | some m =>
    (p.updateNode m fun above => { above with children := above.children ++ [n] }).map fun q =>
      (n, { q with nodes := q.nodes.push node })

/-- Adds a variable behind those that the node has. -/
def declareVariable (p : Plan) (n : NodeId) (v : Variable) : Except Fault Plan :=
  p.updateNode n fun node => { node with locals := node.locals ++ [v] }

/-- Adds a condition behind those that the node has, on an expression of the store. -/
def addCondition (p : Plan) (n : NodeId) (kind : ConditionKind) (h : ExprId) : Except Fault Plan :=
  (p.requireExprs [h]).bind fun _ =>
    p.updateNode n fun node => { node with conditions := node.conditions ++ [⟨kind, h⟩] }

/-- Gives the node its action, in place of any it had. -/
def setAction (p : Plan) (n : NodeId) (a : Action) : Except Fault Plan :=
  (p.requireExprs a.exprs).bind fun _ => p.updateNode n fun node => { node with action := some a }

end Plan

end Preflight
