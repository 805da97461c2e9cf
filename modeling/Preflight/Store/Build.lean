import Preflight.Store.Text

/-!
# Building expressions

The operations that add to a store. Each checks first that the expressions it uses are
there, are distinct and have no owner yet; then it appends one cell and makes it the owner
of what it uses. An operation that is refused gives a fault and no store, so the one at hand
stays as it was.
-/

namespace Preflight
namespace Store

/-- Makes `owner` the owner of the given expressions. -/
def adopt (s : Store) (owner : ExprId) (hs : List ExprId) : Store :=
  ⟨hs.foldl (fun cells h => cells.modify h fun c => { c with owner := some owner }) s.cells⟩

/-- Appends a cell that owns all it uses, and gives its handle. -/
def add (s : Store) (form : Form) (type : Option Ty) : ExprId × Store :=
  let adopted := s.adopt s.size form.uses
  (s.size, ⟨adopted.cells.push ⟨form, type, none, none⟩⟩)

/-- Adoption adds no expression. -/
@[simp] theorem size_adopt (s : Store) (owner : ExprId) (hs : List ExprId) :
    (s.adopt owner hs).size = s.size := by
  induction hs generalizing s with
  | nil => rfl
  | cons h hs ih =>
    have := ih ⟨s.cells.modify h fun c => { c with owner := some owner }⟩
    simpa [adopt, size] using this

/-- Adoption changes the owner of the adopted cells and nothing else. -/
theorem get?_adopt (s : Store) (owner : ExprId) (hs : List ExprId) (k : ExprId) :
    (s.adopt owner hs).get? k =
      (s.get? k).map fun c => if k ∈ hs then { c with owner := some owner } else c := by
  induction hs generalizing s with
  | nil => simp [adopt]
  | cons h hs ih =>
    have step := ih ⟨s.cells.modify h fun c => { c with owner := some owner }⟩
    simp only [adopt, List.foldl_cons, get?, Array.getElem?_modify] at step ⊢
    rw [step]
    by_cases hk : h = k
    · subst hk
      cases s.cells[h]? <;> simp
    · have hk' : k ≠ h := fun e => hk e.symm
      cases s.cells[k]? <;> simp [hk, hk']

/-- A new expression gets the next handle. -/
@[simp] theorem fst_add (s : Store) (form : Form) (type : Option Ty) :
    (s.add form type).1 = s.size := rfl

/-- An addition adds one expression. -/
@[simp] theorem size_add (s : Store) (form : Form) (type : Option Ty) :
    (s.add form type).2.size = s.size + 1 := by
  have := s.size_adopt s.size form.uses
  simpa [add, size] using this

/-- After an addition the new handle has the new cell, and every other handle the cell it had,
now owned if it is used. -/
theorem get?_add (s : Store) (form : Form) (type : Option Ty) (k : ExprId) :
    (s.add form type).2.get? k =
      if k = s.size then some ⟨form, type, none, none⟩
      else (s.get? k).map fun c =>
        if k ∈ form.uses then { c with owner := some s.size } else c := by
  have hsize := s.size_adopt s.size form.uses
  have hget := s.get?_adopt s.size form.uses k
  simp only [size, get?] at hsize hget
  simp only [add, get?, size, Array.getElem?_push, hsize, hget]
  rfl

/-- Refuses a handle that has no expression, or one whose expression has an owner. -/
def requireFree (s : Store) (h : ExprId) : Except Fault Unit :=
  match s.get? h with
  | none => .error (.exprNotFound h)
  | some c =>
    match c.owner with
    | some owner => .error (.exprAlreadyOwned h owner)
    | none => .ok ()

/-- Refuses at the first handle that was seen before or is not free. A handle seen before
counts as owned by the expression about to be added. -/
def requireAllFree (s : Store) (seen : List ExprId) : List ExprId → Except Fault Unit
  | [] => .ok ()
  | h :: hs =>
    if h ∈ seen then .error (.exprAlreadyOwned h s.size)
    else (s.requireFree h).bind fun _ => s.requireAllFree (h :: seen) hs

/-- A literal with its type. -/
def constant (s : Store) (text : String) (type : Ty) : ExprId × Store :=
  s.add (.const text) (some type)

/-- A name, with the type that is stated for it if one is. -/
def reference (s : Store) (name : String) (type : Option Ty) : ExprId × Store :=
  s.add (.ref name) type

/-- A lookup, which owns every expression of its call. -/
def lookup (s : Store) (call : Action) (type : Option Ty) : Except Fault (ExprId × Store) :=
  (s.requireAllFree [] call.exprs).map fun _ =>
    s.add (.lookup ((s.staticText? call.callee).getD "") call) type

/-- An operator over one expression, which it owns. -/
def unary (s : Store) (e : Element) (operand : ExprId) : Except Fault (ExprId × Store) :=
  match e with
  | .unary op => (s.requireFree operand).map fun _ => s.add (.unary op operand) none
  | _ => .error (.arityMismatch e.name e.arity 1)

/-- An operator over two expressions, both of which it owns. -/
def binary (s : Store) (e : Element) (left right : ExprId) : Except Fault (ExprId × Store) :=
  match e with
  | .binary op =>
    if left = right then .error (.exprAlreadyOwned right s.size)
    else
      (s.requireFree left).bind fun _ =>
        (s.requireFree right).map fun _ => s.add (.binary op left right) none
  | _ => .error (.arityMismatch e.name e.arity 2)

/-- Changes the cell at a handle that has one. -/
def update (s : Store) (h : ExprId) (f : Cell → Cell) : Except Fault Store :=
  if s.contains h then .ok ⟨s.cells.modify h f⟩ else .error (.exprNotFound h)

/-- States the type of an expression, in place of any stated before. -/
def setType (s : Store) (h : ExprId) (type : Ty) : Except Fault Store :=
  s.update h fun c => { c with type := some type }

/-- States the type of an expression's operands. -/
def setOperandType (s : Store) (h : ExprId) (type : Ty) : Except Fault Store :=
  s.update h fun c => { c with operandType := some type }

/-- A call by a literal name, which is added to the store for it. -/
def callAction (s : Store) (kind : ActionKind) (callee : String) (args : List ExprId)
    (target : Option ExprId) : Action × Store :=
  let (h, s) := s.constant callee .str
  (⟨kind, h, args, target⟩, s)

/-- The action that assigns the value of one expression to another. -/
def assignAction (s : Store) (target value : ExprId) : Action × Store :=
  s.callAction .assignment "" [value] (some target)

/-- The action that does nothing. -/
def emptyAction (s : Store) : Action × Store :=
  s.callAction .empty "" [] none

end Store
end Preflight
