import Preflight.Proofs.Store.Building

/-!
# Building in place

Where a store is changed in place, a new expression is appended first and then takes hold of
what it uses, one by one. Each adoption looks again whether the expression is there and has no
owner (`adoptOne`). If one were refused, the new expression and the adoptions before it would
stay behind.

None is refused. What an operation uses was found free and distinct before the addition; the
addition takes nothing away, and an adoption changes the adopted expression alone, so that the
next is still free (`adoptEach_eq`). The operations in place therefore give what the operations
on values give, and where they are refused the store is as it was (`lookupInPlace_eq`,
`unaryInPlace_eq`, `binaryInPlace_eq`, `updateInPlace_eq`).
-/

namespace Preflight

section

variable {σ α : Type}

/-- Acts in place behind a check. Where the check fails, the state is as it was. -/
def actIf (s : σ) (check : Except Fault Unit) (act : σ → Except Fault α × σ) :
    Except Fault α × σ :=
  match check with
  | .error f => (.error f, s)
  | .ok _ => act s

/-- What an operation on values comes to in place: its answer and the state it gives, or its
fault and the state as it was. -/
def settle (s : σ) : Except Fault (α × σ) → Except Fault α × σ
  | .ok (a, t) => (.ok a, t)
  | .error f => (.error f, s)

/-- It makes no difference whether an entry is changed before or after another is appended. -/
theorem modify_push {xs : Array α} {i : Nat} (hi : i < xs.size) (f : α → α) (x : α) :
    (xs.push x).modify i f = (xs.modify i f).push x := by
  refine Array.ext_getElem? fun k => ?_
  rw [Array.getElem?_modify, Array.getElem?_push, Array.getElem?_push, Array.getElem?_modify,
    Array.size_modify]
  by_cases hk : k = xs.size
  · have hne : i ≠ k := fun heq => Nat.ne_of_lt hi (heq.trans hk)
    simp [hk, hk ▸ hne]
  · rw [if_neg hk, if_neg hk]

end

namespace Store

variable {s : Store}

/-! ### The operations in place -/

/-- Makes `owner` the owner of one expression, if it has none. -/
def adoptOne (s : Store) (owner h : ExprId) : Except Fault Unit × Store :=
  match s.requireFree h with
  | .error f => (.error f, s)
  | .ok _ => (.ok (), ⟨s.cells.modify h fun c => { c with owner := some owner }⟩)

/-- Adopts one by one and stops where it is refused, with what was adopted until then. -/
def adoptEach (owner : ExprId) : Store → List ExprId → Except Fault Unit × Store
  | s, [] => (.ok (), s)
  | s, h :: hs =>
    match s.adoptOne owner h with
    | (.error f, t) => (.error f, t)
    | (.ok _, t) => adoptEach owner t hs

/-- Appends a cell, then adopts what it uses. -/
def addInPlace (s : Store) (form : Form) (type : Option Ty) : Except Fault ExprId × Store :=
  let pushed : Store := ⟨s.cells.push ⟨form, type, none, none⟩⟩
  let adopted := adoptEach s.size pushed form.uses
  (adopted.1.map fun _ => s.size, adopted.2)

/-- Adds a lookup in place, behind the check that its call uses free and distinct expressions. -/
def lookupInPlace (s : Store) (call : Action) (type : Option Ty) : Except Fault ExprId × Store :=
  actIf s (s.requireAllFree [] call.exprs) fun t =>
    t.addInPlace (.lookup ((s.staticText? call.callee).getD "") call) type

/-- Adds an operation on one expression in place. -/
def unaryInPlace (s : Store) (e : Element) (operand : ExprId) : Except Fault ExprId × Store :=
  match e with
  | .unary op => actIf s (s.requireFree operand) fun t => t.addInPlace (.unary op operand) none
  | _ => (.error (.arityMismatch e.name e.arity 1), s)

/-- Adds an operation on two expressions in place. -/
def binaryInPlace (s : Store) (e : Element) (left right : ExprId) :
    Except Fault ExprId × Store :=
  match e with
  | .binary op =>
    if left = right then (.error (.exprAlreadyOwned right s.size), s)
    else
      actIf s ((s.requireFree left).bind fun _ => s.requireFree right) fun t =>
        t.addInPlace (.binary op left right) none
  | _ => (.error (.arityMismatch e.name e.arity 2), s)

/-- Changes a cell in place, behind the check that it is there. -/
def updateInPlace (s : Store) (h : ExprId) (f : Cell → Cell) : Except Fault Unit × Store :=
  match s.get? h with
  | none => (.error (.exprNotFound h), s)
  | some _ => (.ok (), ⟨s.cells.modify h f⟩)

/-! ### No adoption is refused -/

/-- A free expression stays free when another one is adopted. -/
theorem free_of_adoptOne {owner h k : ExprId} (hk : s.Free k) (hne : h ≠ k) :
    (⟨s.cells.modify h fun c => { c with owner := some owner }⟩ : Store).Free k := by
  obtain ⟨c, hc, howner⟩ := hk
  exact ⟨c, by rw [get?_modify, hc, Option.map_some, if_neg hne], howner⟩

/-- **Free and distinct expressions are adopted one by one without a refusal.** -/
theorem adoptEach_eq {hs : List ExprId} (owner : ExprId) (free : ∀ h ∈ hs, s.Free h)
    (distinct : hs.Nodup) : adoptEach owner s hs = (.ok (), s.adopt owner hs) := by
  induction hs generalizing s with
  | nil => rfl
  | cons h hs ih =>
    obtain ⟨hnot, hnodup⟩ := List.nodup_cons.1 distinct
    have hfree : s.requireFree h = .ok () := requireFree_eq_ok_iff.2 (free h List.mem_cons_self)
    rw [adoptEach, adoptOne, hfree]
    refine ih (fun k hk => ?_) hnodup
    exact free_of_adoptOne (free k (List.mem_cons_of_mem h hk)) fun heq => hnot (heq ▸ hk)

/-- A free expression stays free when a cell is appended. -/
theorem free_of_push {k : ExprId} (hk : s.Free k) (c : Cell) :
    (⟨s.cells.push c⟩ : Store).Free k := by
  obtain ⟨d, hd, howner⟩ := hk
  refine ⟨d, ?_, howner⟩
  have hne : k ≠ s.cells.size := Nat.ne_of_lt (lt_size_of_get? hd)
  rw [get?, Array.getElem?_push, if_neg hne]
  exact hd

/-- It makes no difference whether the cell is appended before or after the adoptions. -/
theorem adopt_push {hs : List ExprId} (hin : ∀ h ∈ hs, h < s.size) (owner : ExprId) (c : Cell) :
    (⟨s.cells.push c⟩ : Store).adopt owner hs = ⟨(s.adopt owner hs).cells.push c⟩ := by
  induction hs generalizing s with
  | nil => rfl
  | cons h hs ih =>
    obtain ⟨hlt, hin⟩ := List.forall_mem_cons.1 hin
    have hrest := ih (s := ⟨s.cells.modify h fun c => { c with owner := some owner }⟩) fun k hk =>
      Nat.lt_of_lt_of_eq (hin k hk) Array.size_modify.symm
    rw [← modify_push hlt] at hrest
    exact hrest

/-- **An addition in place over free and distinct expressions is an addition.** -/
theorem addInPlace_eq {form : Form} (free : ∀ k ∈ form.uses, s.Free k)
    (distinct : form.uses.Nodup) (type : Option Ty) :
    s.addInPlace form type = (.ok s.size, (s.add form type).2) := by
  have hin : ∀ k ∈ form.uses, k < s.size := by
    intro k hk
    obtain ⟨c, hc, _⟩ := free k hk
    exact lt_size_of_get? hc
  rw [addInPlace, adoptEach_eq s.size (fun k hk => free_of_push (free k hk) _) distinct,
    adopt_push hin]
  rfl

/-- An addition in place behind a check that makes sure of what it uses is an addition behind
that check. -/
theorem actIf_addInPlace_eq {check : Except Fault Unit} {form : Form} (type : Option Ty)
    (hcheck : check = .ok () → (∀ k ∈ form.uses, s.Free k) ∧ form.uses.Nodup) :
    (actIf s check fun t => t.addInPlace form type) =
      settle s (check.map fun _ => s.add form type) := by
  cases check with
  | error f => rfl
  | ok u =>
    obtain ⟨free, distinct⟩ := hcheck rfl
    exact addInPlace_eq free distinct type

/-! ### The operations in place give what those on values give -/

/-- A lookup in place is a lookup. -/
theorem lookupInPlace_eq (s : Store) (call : Action) (type : Option Ty) :
    s.lookupInPlace call type = settle s (s.lookup call type) := by
  refine actIf_addInPlace_eq type fun hcheck => ?_
  obtain ⟨hnodup, hall⟩ := requireAllFree_eq_ok_iff.1 hcheck
  exact ⟨fun k hk => (hall k hk).2, hnodup⟩

/-- An operation on one expression in place is one on values. -/
theorem unaryInPlace_eq (s : Store) (e : Element) (operand : ExprId) :
    s.unaryInPlace e operand = settle s (s.unary e operand) := by
  cases e with
  | leaf kind => rfl
  | binary op => rfl
  | unary op =>
    refine actIf_addInPlace_eq none fun hcheck => ?_
    have hfree := requireFree_eq_ok_iff.1 hcheck
    simpa [Form.uses, Form.operands] using hfree

/-- An operation on two expressions in place is one on values. -/
theorem binaryInPlace_eq (s : Store) (e : Element) (left right : ExprId) :
    s.binaryInPlace e left right = settle s (s.binary e left right) := by
  cases e with
  | leaf kind => rfl
  | unary op => rfl
  | binary op =>
    rw [binaryInPlace, binary]
    by_cases heq : left = right
    · rw [if_pos heq, if_pos heq]
      rfl
    · rw [if_neg heq, if_neg heq, actIf_addInPlace_eq none]
      · cases s.requireFree left <;> rfl
      · intro hcheck
        obtain ⟨_, hleft, hright⟩ := bind_eq_ok_iff.1 hcheck
        have hleft := requireFree_eq_ok_iff.1 hleft
        have hright := requireFree_eq_ok_iff.1 hright
        simpa [Form.uses, Form.operands, heq] using ⟨hleft, hright⟩

/-- A change of a cell in place is one on values. -/
theorem updateInPlace_eq (s : Store) (h : ExprId) (f : Cell → Cell) :
    s.updateInPlace h f = settle s ((s.update h f).map ((), ·)) := by
  rw [updateInPlace, update, contains]
  cases s.get? h <;> rfl

end Store
end Preflight
