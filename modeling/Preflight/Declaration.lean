import Preflight.Finding
import Preflight.Variable

/-!
# Declarations

A declaration gives the kind, name, parameters and results of something a plan may call. A
plan keeps its declarations in a list in the order they were made, and a name stands for the
first of them that bears it.
-/

namespace Preflight

/-- The kinds of thing that can be declared. -/
inductive CallKind where
  | command
  | function
  | lookup
  | libraryCall
  deriving DecidableEq, Repr

namespace CallKind

/-- The name of the kind, with which a declaration is written. -/
def name : CallKind → String
  | command => "Command"
  | function => "Function"
  | lookup => "Lookup"
  | libraryCall => "LibraryCall"

/-- The words for each kind: its name, or the tag of its declaration. -/
def words : List (String × CallKind) :=
  [("Command", command), ("CommandDeclaration", command),
   ("Function", function), ("FunctionDeclaration", function),
   ("Lookup", lookup), ("StateDeclaration", lookup),
   ("LibraryCall", libraryCall), ("LibraryNodeDeclaration", libraryCall)]

/-- Reads the word for a kind. -/
def read (word : String) : Except Fault CallKind :=
  match words.lookup word with
  | some k => .ok k
  | none => .error (.unknownCallType word)

end CallKind

/-- What a plan may call, and with what. -/
structure Declaration where
  kind : CallKind
  name : String
  params : List Variable
  returns : List Variable
  deriving DecidableEq, Repr

namespace Declaration

/-- Kind, name and parameters, then the results if there are any. -/
def text (d : Declaration) : String :=
  let commaList (vs : List Variable) := ", ".intercalate (vs.map Variable.text)
  let returns := if d.returns.isEmpty then "" else " -> " ++ commaList d.returns
  d.kind.name ++ " " ++ d.name ++ "(" ++ commaList d.params ++ ")" ++ returns

/-- The first declaration of that name. -/
def find? (ds : List Declaration) (name : String) : Option Declaration :=
  ds.find? fun d => d.name == name

/-- The declarations of one kind, in their order. -/
def ofKind (ds : List Declaration) (kind : CallKind) : List Declaration :=
  ds.filter fun d => d.kind == kind

/-- One finding for every pair of declarations of one name, ordered by the first of the pair
and then by the second. -/
def conflicts : List Declaration → List Finding
  | [] => []
  | d :: ds =>
    (ds.filter fun e => e.name == d.name).map (fun e => .nameConflict d.text e.text) ++ conflicts ds

end Declaration

end Preflight
