import Preflight.Proofs.Plan.Building
import Preflight.Proofs.Store.InPlace

/-!
# When an edit is refused

`Plan.Allows` is the condition under which an edit is carried out. `Plan.Refuses` lists the ways
in which an edit is refused, each with its fault; the premises of a way say that every earlier
check was passed, so the fault is that of the first check that was not. Edits are carried out
exactly if they are allowed (`exists_apply_eq_ok_iff`) and refused exactly with those faults
(`apply_eq_error_iff`).

`applyInPlace` carries out an edit on a plan that is changed in place, check by check and change by
change. It comes to the same (`applyInPlace_eq`), so that an edit that is refused changes nothing
there either.
-/

namespace Preflight

/-- To map an answer does not change whether there is one. -/
theorem exists_map_eq_ok_iff {ε α β : Type} {x : Except ε α} {f : α → β} :
    (∃ b, x.map f = .ok b) ↔ ∃ a, x = .ok a := by
  cases x <;> simp [Except.map]

/-- To map an answer does not change the fault. -/
theorem map_eq_error_iff {ε α β : Type} {x : Except ε α} {f : α → β} {e : ε} :
    x.map f = .error e ↔ x = .error e := by
  cases x <;> simp [Except.map]

/-- Two operations in a row fail with the fault of the first that fails. -/
theorem bind_eq_error_iff {ε α β : Type} {x : Except ε α} {f : α → Except ε β} {e : ε} :
    x.bind f = .error e ↔ x = .error e ∨ ∃ a, x = .ok a ∧ f a = .error e := by
  cases x <;> simp [Except.bind]

namespace Store

variable {s : Store} {h : ExprId} {f : Fault}

/-- The expression at `h` cannot be taken hold of, and why. -/
inductive Blocked (s : Store) (h : ExprId) : Fault → Prop where
  | missing (hnone : s.contains h = false) : Blocked s h (.exprNotFound h)
  | owned {o : ExprId} (howner : s.OwnedBy h o) : Blocked s h (.exprAlreadyOwned h o)

/-- The expression at `h` cannot be taken hold of after those of `before`, and why. One of
these counts as owned by the expression about to be added. -/
inductive Offends (s : Store) (before : List ExprId) (h : ExprId) : Fault → Prop where
  | repeated (hmem : h ∈ before) : Offends s before h (.exprAlreadyOwned h s.size)
  | blocked {f : Fault} (hf : s.Blocked h f) : Offends s before h f

/-- There is no cell exactly if there is no expression. -/
theorem get?_eq_none_iff : s.get? h = none ↔ s.contains h = false := by
  rw [contains, Option.isSome_eq_false_iff, Option.isNone_iff_eq_none]

/-- The check for a free expression fails exactly with the reason why it is not free. -/
theorem requireFree_eq_error_iff : s.requireFree h = .error f ↔ s.Blocked h f := by
  constructor
  · intro heq
    unfold requireFree at heq
    split at heq
    · rename_i hc
      exact Except.error.inj heq ▸ .missing (get?_eq_none_iff.1 hc)
    · rename_i c hc
      split at heq
      · rename_i o ho
        exact Except.error.inj heq ▸ .owned ⟨c, hc, ho⟩
      · cases heq
  · intro hf
    cases hf with
    | missing hnone => rw [requireFree, get?_eq_none_iff.2 hnone]
    | owned howner =>
      obtain ⟨c, hc, ho⟩ := howner
      simp only [requireFree, hc, ho]

/-- What cannot be taken hold of is not free. -/
theorem not_free_of_blocked (hf : s.Blocked h f) : ¬ s.Free h := by
  intro hfree
  have hok : s.requireFree h = .ok () := requireFree_eq_ok_iff.2 hfree
  rw [requireFree_eq_error_iff.2 hf] at hok
  cases hok

/-- What offends after some handles offends after more of them. -/
theorem Offends.of_subset {hs ks : List ExprId} (hsub : hs ⊆ ks) (hoff : s.Offends hs h f) :
    s.Offends ks h f := by
  cases hoff with
  | repeated hmem => exact .repeated (hsub hmem)
  | blocked hf => exact .blocked hf

/-- Handles that pass are seen when the rest is looked at. -/
theorem requireAllFree_append {seen before hs : List ExprId}
    (hok : s.requireAllFree seen before = .ok ()) :
    s.requireAllFree seen (before ++ hs) = s.requireAllFree (before.reverse ++ seen) hs := by
  induction before generalizing seen with
  | nil => rfl
  | cons k before ih =>
    rw [requireAllFree] at hok
    split at hok
    · cases hok
    · rename_i hk
      obtain ⟨_, hfree, hok⟩ := bind_eq_ok_iff.1 hok
      rw [List.cons_append, requireAllFree, if_neg hk, hfree, List.reverse_cons, List.append_assoc]
      exact ih hok

/-- Where handles are refused, one of them offends and those before it pass. -/
theorem exists_offends {seen hs : List ExprId} (herror : s.requireAllFree seen hs = .error f) :
    ∃ before h after, hs = before ++ h :: after ∧ s.requireAllFree seen before = .ok () ∧
      s.Offends (before.reverse ++ seen) h f := by
  induction hs generalizing seen with
  | nil => cases herror
  | cons k ks ih =>
    rw [requireAllFree] at herror
    split at herror
    · rename_i hk
      exact ⟨[], k, ks, rfl, rfl, Except.error.inj herror ▸ .repeated hk⟩
    · rename_i hk
      rcases bind_eq_error_iff.1 herror with hf | ⟨_, hfree, herror⟩
      · exact ⟨[], k, ks, rfl, rfl, .blocked (requireFree_eq_error_iff.1 hf)⟩
      · obtain ⟨before, h, after, rfl, hok, hoff⟩ := ih herror
        refine ⟨k :: before, h, after, rfl, ?_, by simpa using hoff⟩
        rw [requireAllFree, if_neg hk, hfree]
        exact hok

/-- **Handles are refused at the first that offends.** -/
theorem requireAllFree_eq_error_iff {hs : List ExprId} :
    s.requireAllFree [] hs = .error f ↔ ∃ before h after, hs = before ++ h :: after ∧
      (before.Nodup ∧ ∀ k ∈ before, s.Free k) ∧ s.Offends before h f := by
  constructor
  · intro herror
    obtain ⟨before, h, after, rfl, hok, hoff⟩ := exists_offends herror
    obtain ⟨hnodup, hfree⟩ := requireAllFree_eq_ok_iff.1 hok
    exact ⟨before, h, after, rfl, ⟨hnodup, fun k hk => (hfree k hk).2⟩,
      hoff.of_subset (by simp)⟩
  · rintro ⟨before, h, after, rfl, ⟨hnodup, hfree⟩, hoff⟩
    have hok : s.requireAllFree [] before = .ok () :=
      requireAllFree_eq_ok_iff.2 ⟨hnodup, fun k hk => ⟨List.not_mem_nil, hfree k hk⟩⟩
    rw [requireAllFree_append hok, requireAllFree]
    cases hoff with
    | repeated hmem => rw [if_pos (by simpa using hmem)]
    | blocked hf =>
      have hnew : h ∉ before.reverse ++ [] := by
        simpa using fun hmem => not_free_of_blocked hf (hfree h hmem)
      rw [if_neg hnew, requireFree_eq_error_iff.2 hf]
      rfl

end Store

namespace Plan

variable {p : Plan} {n : NodeId} {f : Fault}

/-- The edit is one that the plan can carry out. -/
def Allows (p : Plan) : Edit → Prop
  | .declare _ | .constant .. | .reference .. => True
  | .addNode _ parent => ∀ m, parent = some m → m < p.size
  | .declareVariable n _ => n < p.size
  | .lookup call _ => call.exprs.Nodup ∧ ∀ h ∈ call.exprs, p.exprs.Free h
  | .unary e operand => e.arity = 1 ∧ p.exprs.Free operand
  | .binary e left right =>
    e.arity = 2 ∧ left ≠ right ∧ p.exprs.Free left ∧ p.exprs.Free right
  | .setType h _ | .setOperandType h _ => p.exprs.contains h = true
  | .addCondition n _ h => p.exprs.contains h = true ∧ n < p.size
  | .setAction n a => (∀ h ∈ a.exprs, p.exprs.contains h = true) ∧ n < p.size

/-- The edit is one that the plan refuses, and why. -/
inductive Refuses (p : Plan) : Edit → Fault → Prop where
  | unaryArity {e : Element} {operand : ExprId} (harity : e.arity ≠ 1) :
      Refuses p (.unary e operand) (.arityMismatch e.name e.arity 1)
  | unaryOperand {e : Element} {operand : ExprId} {f : Fault} (harity : e.arity = 1)
      (hf : p.exprs.Blocked operand f) : Refuses p (.unary e operand) f
  | binaryArity {e : Element} {left right : ExprId} (harity : e.arity ≠ 2) :
      Refuses p (.binary e left right) (.arityMismatch e.name e.arity 2)
  | binaryEqual {e : Element} {operand : ExprId} (harity : e.arity = 2) :
      Refuses p (.binary e operand operand) (.exprAlreadyOwned operand p.exprs.size)
  | binaryLeft {e : Element} {left right : ExprId} {f : Fault} (harity : e.arity = 2)
      (hne : left ≠ right) (hf : p.exprs.Blocked left f) : Refuses p (.binary e left right) f
  | binaryRight {e : Element} {left right : ExprId} {f : Fault} (harity : e.arity = 2)
      (hne : left ≠ right) (hleft : p.exprs.Free left) (hf : p.exprs.Blocked right f) :
      Refuses p (.binary e left right) f
  /-- The first expression of the call that offends: those before it are free and distinct. -/
  | lookup {call : Action} {type : Option Ty} {before after : List ExprId} {h : ExprId}
      {f : Fault} (hexprs : call.exprs = before ++ h :: after)
      (hbefore : before.Nodup ∧ ∀ k ∈ before, p.exprs.Free k)
      (hoff : p.exprs.Offends before h f) : Refuses p (.lookup call type) f
  | setType {h : ExprId} {type : Ty} (hnone : p.exprs.contains h = false) :
      Refuses p (.setType h type) (.exprNotFound h)
  | setOperandType {h : ExprId} {type : Ty} (hnone : p.exprs.contains h = false) :
      Refuses p (.setOperandType h type) (.exprNotFound h)
  | addNode {name : String} {m : NodeId} (hm : ¬ m < p.size) :
      Refuses p (.addNode name (some m)) (.nodeNotFound m)
  | declareVariable {n : NodeId} {v : Variable} (hn : ¬ n < p.size) :
      Refuses p (.declareVariable n v) (.nodeNotFound n)
  | conditionExpr {n : NodeId} {kind : ConditionKind} {h : ExprId}
      (hnone : p.exprs.contains h = false) : Refuses p (.addCondition n kind h) (.exprNotFound h)
  | conditionNode {n : NodeId} {kind : ConditionKind} {h : ExprId}
      (hh : p.exprs.contains h = true) (hn : ¬ n < p.size) :
      Refuses p (.addCondition n kind h) (.nodeNotFound n)
  /-- The first expression of the action that is not there. -/
  | actionExpr {n : NodeId} {a : Action} {before after : List ExprId} {h : ExprId}
      (hexprs : a.exprs = before ++ h :: after)
      (hbefore : ∀ k ∈ before, p.exprs.contains k = true)
      (hnone : p.exprs.contains h = false) : Refuses p (.setAction n a) (.exprNotFound h)
  | actionNode {n : NodeId} {a : Action} (hexprs : ∀ h ∈ a.exprs, p.exprs.contains h = true)
      (hn : ¬ n < p.size) : Refuses p (.setAction n a) (.nodeNotFound n)

/-! ### The faults of the operations -/

/-- A change of a cell fails exactly where there is none. -/
theorem update_eq_error_iff {s : Store} {h : ExprId} {g : Cell → Cell} :
    s.update h g = .error f ↔ s.contains h = false ∧ .exprNotFound h = f := by
  unfold Store.update
  split <;> simp [*]

/-- An operation on one expression fails at its arity, or else at the operand. -/
theorem unary_eq_error_iff {s : Store} {e : Element} {operand : ExprId} :
    s.unary e operand = .error f ↔
      e.arity ≠ 1 ∧ .arityMismatch e.name e.arity 1 = f ∨ e.arity = 1 ∧ s.Blocked operand f := by
  cases e <;> simp [Store.unary, Element.arity, map_eq_error_iff, Store.requireFree_eq_error_iff]

/-- An operation on two expressions fails at its arity, else if the two are the same, else at the
left and then at the right one. -/
theorem binary_eq_error_iff {s : Store} {e : Element} {left right : ExprId} :
    s.binary e left right = .error f ↔
      e.arity ≠ 2 ∧ .arityMismatch e.name e.arity 2 = f ∨
      e.arity = 2 ∧ (left = right ∧ .exprAlreadyOwned right s.size = f ∨
        left ≠ right ∧ (s.Blocked left f ∨ s.Free left ∧ s.Blocked right f)) := by
  cases e with
  | leaf kind => simp [Store.binary, Element.arity]
  | unary op => simp [Store.binary, Element.arity]
  | binary op =>
    by_cases heq : left = right
    · simp [Store.binary, Element.arity, heq]
    · simp [Store.binary, Element.arity, heq, bind_eq_error_iff, map_eq_error_iff,
        Store.requireFree_eq_error_iff, Store.requireFree_eq_ok_iff]

/-- A change of a node fails exactly where there is none. -/
theorem updateNode_eq_error_iff {g : Node → Node} :
    p.updateNode n g = .error f ↔ ¬ n < p.size ∧ .nodeNotFound n = f := by
  unfold updateNode requireNode
  split <;> simp [map_eq_error_iff, *]

/-- Handles are refused at the first that has no expression. -/
theorem requireExprs_eq_error_iff {hs : List ExprId} :
    p.requireExprs hs = .error f ↔ ∃ before h after, hs = before ++ h :: after ∧
      (∀ k ∈ before, p.exprs.contains k = true) ∧ p.exprs.contains h = false ∧
        .exprNotFound h = f := by
  induction hs with
  | nil => simp [requireExprs]
  | cons k ks ih =>
    rw [requireExprs]
    by_cases hk : p.exprs.contains k = true
    · rw [if_pos hk, ih]
      constructor
      · rintro ⟨before, h, after, rfl, hbefore, hnone⟩
        exact ⟨k :: before, h, after, rfl, List.forall_mem_cons.2 ⟨hk, hbefore⟩, hnone⟩
      · rintro ⟨before, h, after, heq, hbefore, hnone, hf⟩
        cases before with
        | nil =>
          obtain ⟨rfl, _⟩ := List.cons.inj heq
          rw [hk] at hnone
          cases hnone
        | cons b before =>
          obtain ⟨rfl, rfl⟩ := List.cons.inj heq
          exact ⟨before, h, after, rfl, fun j hj => hbefore j (List.mem_cons_of_mem k hj), hnone, hf⟩
    · rw [if_neg hk]
      constructor
      · intro heq
        exact ⟨[], k, ks, rfl, List.forall_mem_nil _, Bool.eq_false_iff.2 hk, Except.error.inj heq⟩
      · rintro ⟨before, h, after, heq, hbefore, _, rfl⟩
        cases before with
        | nil =>
          obtain ⟨rfl, _⟩ := List.cons.inj heq
          rfl
        | cons b before =>
          obtain ⟨rfl, _⟩ := List.cons.inj heq
          exact absurd (hbefore k List.mem_cons_self) hk

/-! ### Edits -/

/-- **An edit is carried out exactly if it is allowed.** -/
theorem exists_apply_eq_ok_iff {e : Edit} : (∃ r, p.apply e = .ok r) ↔ p.Allows e := by
  cases e with
  | declare d => exact ⟨fun _ => trivial, fun _ => ⟨_, rfl⟩⟩
  | constant text type => exact ⟨fun _ => trivial, fun _ => ⟨_, rfl⟩⟩
  | reference name type => exact ⟨fun _ => trivial, fun _ => ⟨_, rfl⟩⟩
  | addNode name parent =>
    cases parent with
    | none => exact ⟨fun _ => nofun, fun _ => ⟨_, rfl⟩⟩
    | some m => simp [apply, addNode, Allows, exists_map_eq_ok_iff, updateNode_eq_ok_iff]
  | declareVariable n v =>
    simp [apply, declareVariable, Allows, exists_map_eq_ok_iff, updateNode_eq_ok_iff]
  | lookup call type =>
    rw [apply, exists_map_eq_ok_iff]
    simp [Store.lookup_eq_ok_iff, Allows]
  | unary e operand =>
    rw [apply, exists_map_eq_ok_iff]
    cases e <;> simp [Store.unary_eq_ok_iff, Allows, Element.arity]
  | binary e left right =>
    rw [apply, exists_map_eq_ok_iff]
    cases e <;> simp [Store.binary_eq_ok_iff, Allows, Element.arity]
  | setType h type =>
    simp [apply, Store.setType, Allows, exists_map_eq_ok_iff, Store.update_eq_ok_iff]
  | setOperandType h type =>
    simp [apply, Store.setOperandType, Allows, exists_map_eq_ok_iff, Store.update_eq_ok_iff]
  | addCondition n kind h =>
    simp [apply, addCondition, Allows, exists_map_eq_ok_iff, bind_eq_ok_iff,
      requireExprs_eq_ok_iff, updateNode_eq_ok_iff]
  | setAction n a =>
    simp [apply, setAction, Allows, exists_map_eq_ok_iff, bind_eq_ok_iff,
      requireExprs_eq_ok_iff, updateNode_eq_ok_iff]

/-- **An edit is refused exactly with the fault of the first check that it does not pass.** -/
theorem apply_eq_error_iff {e : Edit} : p.apply e = .error f ↔ p.Refuses e f := by
  cases e with
  | declare d => exact ⟨nofun, nofun⟩
  | constant text type => exact ⟨nofun, nofun⟩
  | reference name type => exact ⟨nofun, nofun⟩
  | addNode name parent =>
    cases parent with
    | none => exact ⟨nofun, nofun⟩
    | some m =>
      rw [apply, addNode, map_eq_error_iff, map_eq_error_iff, updateNode_eq_error_iff]
      constructor
      · rintro ⟨hm, rfl⟩
        exact .addNode hm
      · rintro ⟨⟩
        exact ⟨‹_›, rfl⟩
  | declareVariable n v =>
    rw [apply, declareVariable, map_eq_error_iff, updateNode_eq_error_iff]
    constructor
    · rintro ⟨hn, rfl⟩
      exact .declareVariable hn
    · rintro ⟨⟩
      exact ⟨‹_›, rfl⟩
  | lookup call type =>
    rw [apply, Store.lookup, map_eq_error_iff, map_eq_error_iff,
      Store.requireAllFree_eq_error_iff]
    constructor
    · rintro ⟨before, h, after, hexprs, hbefore, hoff⟩
      exact .lookup hexprs hbefore hoff
    · intro href
      cases href with
      | lookup hexprs hbefore hoff => exact ⟨_, _, _, hexprs, hbefore, hoff⟩
  | unary e operand =>
    rw [apply, map_eq_error_iff, unary_eq_error_iff]
    constructor
    · rintro (⟨harity, rfl⟩ | ⟨harity, hf⟩)
      · exact .unaryArity harity
      · exact .unaryOperand harity hf
    · intro href
      cases href with
      | unaryArity harity => exact .inl ⟨harity, rfl⟩
      | unaryOperand harity hf => exact .inr ⟨harity, hf⟩
  | binary e left right =>
    rw [apply, map_eq_error_iff, binary_eq_error_iff]
    constructor
    · rintro (⟨harity, rfl⟩ | ⟨harity, ⟨rfl, rfl⟩ | ⟨hne, hf | ⟨hleft, hf⟩⟩⟩)
      · exact .binaryArity harity
      · exact .binaryEqual harity
      · exact .binaryLeft harity hne hf
      · exact .binaryRight harity hne hleft hf
    · intro href
      cases href with
      | binaryArity harity => exact .inl ⟨harity, rfl⟩
      | binaryEqual harity => exact .inr ⟨harity, .inl ⟨rfl, rfl⟩⟩
      | binaryLeft harity hne hf => exact .inr ⟨harity, .inr ⟨hne, .inl hf⟩⟩
      | binaryRight harity hne hleft hf => exact .inr ⟨harity, .inr ⟨hne, .inr ⟨hleft, hf⟩⟩⟩
  | setType h type =>
    rw [apply, Store.setType, map_eq_error_iff, update_eq_error_iff]
    constructor
    · rintro ⟨hnone, rfl⟩
      exact .setType hnone
    · rintro ⟨⟩
      exact ⟨‹_›, rfl⟩
  | setOperandType h type =>
    rw [apply, Store.setOperandType, map_eq_error_iff, update_eq_error_iff]
    constructor
    · rintro ⟨hnone, rfl⟩
      exact .setOperandType hnone
    · rintro ⟨⟩
      exact ⟨‹_›, rfl⟩
  | addCondition n kind h =>
    rw [apply, addCondition, map_eq_error_iff, bind_eq_error_iff]
    simp only [updateNode_eq_error_iff, requireExprs_eq_ok_iff, List.forall_mem_singleton,
      exists_const]
    constructor
    · rintro (hexpr | ⟨hh, hn, rfl⟩)
      · by_cases hh : p.exprs.contains h = true
        · simp [requireExprs, hh] at hexpr
        · simp only [requireExprs, hh, Bool.false_eq_true, if_false] at hexpr
          exact Except.error.inj hexpr ▸ .conditionExpr (Bool.eq_false_iff.2 hh)
      · exact .conditionNode hh hn
    · intro href
      cases href with
      | conditionExpr hnone => exact .inl (by simp [requireExprs, hnone])
      | conditionNode hh hn => exact .inr ⟨hh, hn, rfl⟩
  | setAction n a =>
    rw [apply, setAction, map_eq_error_iff, bind_eq_error_iff, requireExprs_eq_error_iff]
    simp only [updateNode_eq_error_iff, requireExprs_eq_ok_iff, exists_const]
    constructor
    · rintro (⟨before, h, after, hexprs, hbefore, hnone, rfl⟩ | ⟨hexprs, hn, rfl⟩)
      · exact .actionExpr hexprs hbefore hnone
      · exact .actionNode hexprs hn
    · intro href
      cases href with
      | actionExpr hexprs hbefore hnone => exact .inl ⟨_, _, _, hexprs, hbefore, hnone, rfl⟩
      | actionNode hexprs hn => exact .inr ⟨hexprs, hn, rfl⟩

/-! ### Edits in place -/

/-- Keeps the store that an operation in place has left, whatever its answer. -/
def keepStore {α : Type} (p : Plan) (outcome : α → Outcome) (r : Except Fault α × Store) :
    Except Fault Outcome × Plan :=
  (r.1.map outcome, { p with exprs := r.2 })

/-- Changes a node in place, behind the check that it is there. -/
def updateNodeInPlace (p : Plan) (n : NodeId) (g : Node → Node) : Except Fault Outcome × Plan :=
  actIf p (p.requireNode n) fun q => (.ok .done, { q with nodes := q.nodes.modify n g })

/-- Enters a node that was appended among the children of its parent, or among the roots. -/
def enterNode (p : Plan) (n : NodeId) : Option NodeId → Plan
  | none => { p with roots := p.roots ++ [n] }
  | some m =>
    { p with
      nodes := p.nodes.modify m fun above => { above with children := above.children ++ [n] } }

/-- Appends a node in place and then enters it, behind the check that its parent is there. -/
def addNodeInPlace (p : Plan) (name : String) (parent : Option NodeId) :
    Except Fault Outcome × Plan :=
  actIf p (parent.elim (.ok ()) p.requireNode) fun q =>
    let pushed : Plan := { q with nodes := q.nodes.push ⟨name, parent, [], [], none, []⟩ }
    (.ok (.node q.size), pushed.enterNode q.size parent)

/-- An edit of a plan that is changed in place, with its checks and changes in the order in which
they are made. A node is appended before it is entered with its parent, and an expression before
it takes hold of what it uses, one by one. Only there could an edit be refused after a change. -/
def applyInPlace (p : Plan) : Edit → Except Fault Outcome × Plan
  | .declare d => (.ok (.declared (p.declarations.length + 1)), p.declare d)
  | .addNode name parent => p.addNodeInPlace name parent
  | .declareVariable n v =>
    p.updateNodeInPlace n fun node => { node with locals := node.locals ++ [v] }
  | .constant text type => p.keepStore .expr (p.exprs.addInPlace (.const text) (some type))
  | .reference name type => p.keepStore .expr (p.exprs.addInPlace (.ref name) type)
  | .lookup call type => p.keepStore .expr (p.exprs.lookupInPlace call type)
  | .unary e operand => p.keepStore .expr (p.exprs.unaryInPlace e operand)
  | .binary e left right => p.keepStore .expr (p.exprs.binaryInPlace e left right)
  | .setType h type =>
    p.keepStore (fun _ => .done) (p.exprs.updateInPlace h fun c => { c with type := some type })
  | .setOperandType h type =>
    p.keepStore (fun _ => .done)
      (p.exprs.updateInPlace h fun c => { c with operandType := some type })
  | .addCondition n kind h =>
    actIf p (p.requireExprs [h]) fun q =>
      q.updateNodeInPlace n fun node => { node with conditions := node.conditions ++ [⟨kind, h⟩] }
  | .setAction n a =>
    actIf p (p.requireExprs a.exprs) fun q =>
      q.updateNodeInPlace n fun node => { node with action := some a }

/-- A plan with the store that an operation comes to is what the plan comes to. -/
theorem keepStore_settle {α : Type} (p : Plan) (outcome : α → Outcome)
    (built : Except Fault (α × Store)) :
    p.keepStore outcome (settle p.exprs built) =
      settle p (built.map fun r => (outcome r.1, { p with exprs := r.2 })) := by
  cases built <;> rfl

/-- A leaf is added in place as it is on values, since there is nothing for it to take hold of. -/
theorem keepStore_addInPlace {form : Form} (hleaf : form.uses = []) (p : Plan)
    (type : Option Ty) :
    p.keepStore .expr (p.exprs.addInPlace form type) =
      settle p (.ok (p.withExpr (p.exprs.add form type))) := by
  rw [Store.addInPlace_eq (by simp [hleaf]) (by simp [hleaf])]
  rfl

/-- A change of a node in place is one on values. -/
theorem updateNodeInPlace_eq (p : Plan) (n : NodeId) (g : Node → Node) :
    p.updateNodeInPlace n g = settle p ((p.updateNode n g).map (.done, ·)) := by
  rw [updateNodeInPlace, updateNode]
  cases p.requireNode n <;> rfl

/-- A change of a node in place behind a check of expressions is one on values. -/
theorem actIf_updateNodeInPlace_eq (p : Plan) (check : Except Fault Unit) (n : NodeId)
    (g : Node → Node) :
    (actIf p check fun q => q.updateNodeInPlace n g) =
      settle p ((check.bind fun _ => p.updateNode n g).map (.done, ·)) := by
  cases check with
  | error f => rfl
  | ok u => exact p.updateNodeInPlace_eq n g

/-- The addition of a node in place is one on values. Its parent was there before it, so that the
two changes are of different nodes. -/
theorem addNodeInPlace_eq (p : Plan) (name : String) (parent : Option NodeId) :
    p.addNodeInPlace name parent =
      settle p ((p.addNode name parent).map fun (n, q) => (.node n, q)) := by
  cases parent with
  | none => rfl
  | some m =>
    rw [addNodeInPlace, addNode, updateNode, Option.elim_some, requireNode]
    by_cases hm : m < p.size
    · rw [if_pos hm]
      simp only [actIf, enterNode, modify_push hm]
      rfl
    · rw [if_neg hm]
      rfl

/-- **In place an edit comes to the same.** -/
theorem applyInPlace_eq (p : Plan) (e : Edit) : p.applyInPlace e = settle p (p.apply e) := by
  cases e with
  | declare d => simp [applyInPlace, apply, settle, declare]
  | addNode name parent => exact p.addNodeInPlace_eq name parent
  | declareVariable n v => exact p.updateNodeInPlace_eq n _
  | constant text type => exact keepStore_addInPlace rfl p (some type)
  | reference name type => exact keepStore_addInPlace rfl p type
  | lookup call type =>
    rw [applyInPlace, Store.lookupInPlace_eq, keepStore_settle]
    rfl
  | unary e operand =>
    rw [applyInPlace, Store.unaryInPlace_eq, keepStore_settle]
    rfl
  | binary e left right =>
    rw [applyInPlace, Store.binaryInPlace_eq, keepStore_settle]
    rfl
  | setType h type =>
    rw [applyInPlace, Store.updateInPlace_eq, keepStore_settle, apply, Store.setType]
    cases p.exprs.update h _ <;> rfl
  | setOperandType h type =>
    rw [applyInPlace, Store.updateInPlace_eq, keepStore_settle, apply, Store.setOperandType]
    cases p.exprs.update h _ <;> rfl
  | addCondition n kind h => exact p.actIf_updateNodeInPlace_eq _ n _
  | setAction n a => exact p.actIf_updateNodeInPlace_eq _ n _

/-- **Edits are refused exactly and leave no trace.**  An edit is carried out if and only if it
is allowed. If it is refused, the fault is that of the first check it does not pass, and the
plan is as it was, also where it is changed in place and an expression is appended before it
takes hold of what it uses. -/
theorem refused_without_trace (edits : List Edit) (e : Edit) :
    let p := build edits
    ((∃ r, p.apply e = .ok r) ↔ p.Allows e) ∧
      (∀ f, p.apply e = .error f ↔ p.Refuses e f) ∧
      (∀ f, p.apply e = .error f → p.after e = p ∧ p.applyInPlace e = (.error f, p)) ∧
      ∀ o q, p.apply e = .ok (o, q) → p.after e = q ∧ p.applyInPlace e = (.ok o, q) := by
  intro p
  refine ⟨exists_apply_eq_ok_iff, fun _ => apply_eq_error_iff, fun f hf => ?_, fun o q hq => ?_⟩
  · rw [after, applyInPlace_eq, hf]
    exact ⟨rfl, rfl⟩
  · rw [after, applyInPlace_eq, hq]
    exact ⟨rfl, rfl⟩

end Plan
end Preflight
