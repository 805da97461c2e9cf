/-!
# Findings

What a check has to say about a plan. A finding carries the texts it speaks of; its
severity, name, message and tip follow from its kind alone.
-/

namespace Preflight

/-- How grave a finding is. -/
inductive Severity where
  | error
  | warning
  deriving DecidableEq, Repr

/-- The word that a report begins with. -/
def Severity.name : Severity → String
  | .error => "Error"
  | .warning => "Warning"

/-- What there is to say about a plan, with the texts it speaks of. -/
inductive Finding where
  /-- Two declarations share one name. -/
  | nameConflict (first second : String)
  /-- A call whose name is only known while the plan runs. -/
  | nonStaticName (callee node : String)
  /-- A node calls what is not declared. -/
  | noDeclarationMatch (call node : String)
  /-- An expression looks up what is not declared. -/
  | noLookupDeclaration (call context : String)
  | declarationMismatch (call node declaration : String)
  | inaccessibleNode (target node : String)
  | expressionType (expr found expected : String)
  | variableNotFound (variableName context : String)
  | variableMismatch (variableName declared used context : String)
  | assignmentMismatch (target found node : String)
  | notAnArray (variableName expr : String)
  | arrayNeedsIndex (variableName expr : String)
  deriving DecidableEq, Repr

namespace Finding

/-- Names that are not known yet, calls without a declaration and nodes out of sight are warnings,
all else is an error. -/
def severity : Finding → Severity
  | nonStaticName .. | noDeclarationMatch .. | noLookupDeclaration ..
  | inaccessibleNode .. => .warning
  | nameConflict .. | declarationMismatch .. | expressionType .. | variableNotFound ..
  | variableMismatch .. | assignmentMismatch .. | notAnArray .. | arrayNeedsIndex .. => .error

/-- Whether the finding is an error. -/
def isError (f : Finding) : Bool :=
  f.severity == .error

/-- Whether the finding is a warning. -/
def isWarning (f : Finding) : Bool :=
  f.severity == .warning

/-- The name of the finding for programs. -/
def name : Finding → String
  | nameConflict .. => "NameConflict"
  | nonStaticName .. => "NonStaticName"
  | noDeclarationMatch .. => "NoDeclarationMatch"
  | noLookupDeclaration .. => "NoLookupDeclaration"
  | declarationMismatch .. => "DeclarationMismatch"
  | inaccessibleNode .. => "InaccessibleNode"
  | expressionType .. => "ExpressionType"
  | variableNotFound .. => "VariableNotFound"
  | variableMismatch .. => "VariableMismatch"
  | assignmentMismatch .. => "AssignmentMismatch"
  | notAnArray .. => "NotAnArray"
  | arrayNeedsIndex .. => "ArrayNeedsIndex"

/-- The finding in words. -/
def message : Finding → String
  | nameConflict first second => s!"Name conflict between {first} and {second}"
  | nonStaticName callee node =>
    s!"Cannot statically determine correctness of name {callee} in {node}"
  | noDeclarationMatch call node => s!"No declaration matches {call} in {node}"
  | noLookupDeclaration call context => s!"No declaration matches {call} {context}"
  | declarationMismatch call node declaration => s!"{call} in {node} does not match {declaration}"
  | inaccessibleNode target node => s!"Node {target} is not accessible from scope of node {node}"
  | expressionType expr found expected => s!"Expr {expr} with {found} does not match {expected}"
  | variableNotFound variableName context =>
    s!"Could not find variable definition to match expression {variableName} {context}"
  | variableMismatch variableName declared used context =>
    s!"Var {variableName} with type {declared} does not match expected type {used} {context}"
  | assignmentMismatch target found node =>
    s!"Var {target} does not match RHS expected type {found} in {node}"
  | notAnArray variableName expr => s!"{variableName} in expression {expr} is not an array."
  | arrayNeedsIndex variableName expr =>
    s!"{variableName} in expression {expr} needs to be accessed as a single array element."

/-- What to do about the finding, where there is something to advise. -/
def tip : Finding → Option String
  | nameConflict .. => some "Rename or remove one of the declarations"
  | nonStaticName .. => some "Names built from variables or lookups are only known while executing"
  | noDeclarationMatch .. | noLookupDeclaration .. => some "Add a global declaration for this call"
  | declarationMismatch .. =>
    some "Check the call kind, argument types and return types against the declaration"
  | inaccessibleNode .. =>
    some "Only the node itself, its children, its parent and its siblings can be referenced"
  | expressionType .. => none
  | variableNotFound variableName _ => some s!"Declare `{variableName}` in this node or an ancestor"
  | variableMismatch .. => none
  | assignmentMismatch .. => none
  | notAnArray .. => some "Only array variables can be indexed"
  | arrayNeedsIndex .. => some "Access a single element with an index"

/-- The finding on one line. -/
def line (f : Finding) : String :=
  f.severity.name ++ ": " ++ f.message

end Finding

end Preflight
