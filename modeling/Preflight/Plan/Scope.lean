import Preflight.Plan.Basic

/-!
# Scope

What can be named from inside a node. Variables: those of the node itself and of the nodes
above it, the nearest first. Nodes: the node itself, its children, its parent and its
parent's children.
-/

namespace Preflight
namespace Plan

/-- The node and the nodes above it, nearest first. A parent is followed only to a smaller
handle, which every parent has in a plan that was built. -/
def ancestry (p : Plan) (n : NodeId) : List NodeId :=
  match p.node? n with
  | none => []
  | some node =>
    match node.parent with
    | none => [n]
    | some m => if _ : m < n then n :: p.ancestry m else [n]
termination_by n

/-- The variable of that name that the node itself declares. -/
def findLocal? (p : Plan) (n : NodeId) (name : String) : Option Variable :=
  (p.node? n).bind fun node => node.findVariable? name

/-- The variable that a name stands for inside a node: the nearest one on the way up. -/
def findInScope? (p : Plan) (n : NodeId) (name : String) : Option Variable :=
  (p.ancestry n).findSome? fun m => p.findLocal? m name

/-- Whether the node has that name. -/
def isNamed (p : Plan) (n : NodeId) (name : String) : Bool :=
  (p.node? n).any fun node => node.name == name

/-- Whether a child of the node has that name. -/
def hasChildNamed (p : Plan) (n : NodeId) (name : String) : Bool :=
  (p.node? n).any fun node => node.children.any fun child => p.isNamed child name

/-- Whether a node of that name can be referred to from inside `n`. -/
def canSee (p : Plan) (n : NodeId) (name : String) : Bool :=
  p.isNamed n name || p.hasChildNamed n name ||
    ((p.node? n).bind Node.parent).any fun m => p.isNamed m name || p.hasChildNamed m name

end Plan
end Preflight
