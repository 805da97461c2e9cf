import Preflight.Proofs.Plan.Checked
import Preflight.Proofs.Plan.Forest
import Preflight.Proofs.Resolution
import Preflight.Proofs.Store.Run

/-!
# The run of the whole check

Each check of a plan once more as a run (`Preflight.Proofs.Store.Run`): it follows handles and
parents wherever they go, looks at nothing before it needs to, renders a text only where a
finding carries it, and stops at the first disagreement between a call and its declaration. The
bound `n` is the same for all that is run: for the depth in expressions and on the way up from
a node, and for the entries of a search. A node that is not there ends the way up without an
answer, and so does a reference that is not there when the target of an assignment is named.

In a plan that was built parents go up (`climb_eq`) and the expressions of the nodes are in the
store, so every run gives the findings of its counterpart, one lemma for each check up to the
whole verdict (`checkRun_covers`). The number of expressions and that of nodes are enough for a
bound. No node is passed over: the run of the whole check enters the store at the name of every
call and at every condition and side of an assignment (`Plan.entries`).
-/

namespace Preflight

open Run

namespace Plan

variable {p : Plan} {P : Look → Prop} {n : Nat} {m : NodeId} {node : Node} {context : String}

/-! ### The runs -/

/-- The node and the nodes above it, nearest first, at most `n` of them. -/
def climb (p : Plan) : Nat → NodeId → Option (List NodeId)
  | 0, _ => none
  | n + 1, m =>
    (p.node? m).bind fun node =>
      match node.parent with
      | none => some [m]
      | some above => (p.climb n above).map (m :: ·)

/-- The run of `findInScope?`. -/
def scopeRun (p : Plan) (n : Nat) (m : NodeId) (name : String) : Run (Option Variable) := do
  let above ← StateT.lift (p.climb n m)
  pure (above.findSome? fun k => p.findLocal? k name)

/-- The run of `haveTypesOf`, for expressions of a node or of the lookup at `via`. -/
def haveTypesRun (p : Plan) (via : Option ExprId) (exprs : List ExprId) (vars : List Variable) :
    Run Bool :=
  (exprs.zip vars).allM fun (h, v) => do
    let cell ← p.exprs.look ⟨via, h⟩
    pure (cell.bind (Cell.resultType p.findVariable?) == some v.type.ty)

/-- The run of `conforms`. -/
def conformsRun (p : Plan) (via : Option ExprId) (a : Action) (d : Declaration) : Run Bool := do
  if a.kind.declaredAs.all (· == d.kind) && a.args.length == d.params.length then
    if ← p.haveTypesRun via a.args d.params then
      if a.returns.length ≤ d.returns.length then p.haveTypesRun via a.returns d.returns
      else pure false
    else pure false
  else pure false

/-- The run of `mismatch?`. -/
def mismatchRun (p : Plan) (n : Nat) (via : Option ExprId) (node : String) (a : Action)
    (d : Declaration) : Run (Option Finding) := do
  if ← p.conformsRun via a d then pure none
  else
    let text ← p.exprs.actionRun n via a
    pure (some (.declarationMismatch text node d.text))

/-- The run of `checkCall`, where `undeclared` makes the finding from the text of the call. -/
def callRun (p : Plan) (n : Nat) (via : Option ExprId) (node : String)
    (undeclared : String → Finding) (a : Action) : Run (List Finding) := do
  match ← p.exprs.staticRun n ⟨via, a.callee⟩ with
  | none =>
    let text ← p.exprs.textRun n ⟨via, a.callee⟩
    pure [.nonStaticName text node]
  | some name =>
    match p.findDeclaration? name with
    | none =>
      let text ← p.exprs.actionRun n via a
      pure [undeclared text]
    | some d =>
      let mismatch ← p.mismatchRun n via node a d
      pure mismatch.toList

/-- The run of `isIndexed`. -/
def indexedRun (p : Plan) (h : ExprId) : Run Bool := do
  let cell ← p.exprs.look ⟨none, h⟩
  match cell.bind Cell.owner with
  | none => pure false
  | some o =>
    match ← p.exprs.look ⟨none, o⟩ with
    | some ⟨.binary .arrayElem array _, _, _, _⟩ => pure (array == h)
    | _ => pure false

/-- The run of `checkReference`. -/
def referenceRun (p : Plan) (n : Nat) (m : NodeId) (context : String) (root h : ExprId) :
    Run (List Finding) := do
  match ← p.exprs.look ⟨none, h⟩ with
  | none => pure []
  | some c =>
    match c.form with
    | .ref name =>
      if c.nodeProperty?.isSome then
        pure (if p.canSee m name then [] else [.inaccessibleNode name (p.nodeName m)])
      else
        match ← p.scopeRun n m name with
        | none => pure [.variableNotFound name context]
        | some v =>
          let indexed ← p.indexedRun h
          if v.isArray = indexed then pure (v.typeMisuse c.type context)
          else
            let text ← p.exprs.textRun n ⟨none, root⟩
            pure (v.typeMisuse c.type context ++ v.indexMisuse indexed text)
    | _ => pure []

/-- The run of `checkLookup`. -/
def lookupRun (p : Plan) (n : Nat) (m : NodeId) (context : String) (h : ExprId) :
    Run (List Finding) := do
  match ← p.exprs.look ⟨none, h⟩ with
  | none => pure []
  | some c =>
    match c.form with
    | .lookup _ call =>
      if c.nodeProperty?.isSome then pure []
      else p.callRun n (some h) (p.nodeName m) (.noLookupDeclaration · context) call
    | _ => pure []

/-- The runs of `checkReferences` and then of `checkLookups` on one expression. -/
def leavesRun (p : Plan) (n : Nat) (m : NodeId) (context : String) (root : ExprId) :
    Run (List Finding) := do
  let refs ← p.exprs.searchRun (.leaf .ref) n [⟨none, root⟩]
  let onRefs ← collect refs (p.referenceRun n m context root)
  let lookups ← p.exprs.searchRun (.leaf .lookup) n [⟨none, root⟩]
  let onLookups ← collect lookups (p.lookupRun n m context)
  pure (onRefs ++ onLookups)

/-- The run of `typing` on an expression of a node. -/
def typingRun (p : Plan) (n : Nat) (h : ExprId) (expected : Ty) : Run Typing :=
  p.exprs.typingRun p.findVariable? n ⟨none, h⟩ expected

/-- The run of `checkCondition`. -/
def conditionRun (p : Plan) (n : Nat) (m : NodeId) (node : Node) (c : Condition) :
    Run (List Finding) := do
  let leaves ← p.leavesRun n m ("in " ++ c.kind.name ++ " Condition of node " ++ node.name) c.expr
  let typing ← p.typingRun n c.expr .bool
  pure (leaves ++ typing.findings)

/-- The run of `targetText`, which has no answer if the first reference is not there. -/
def targetRun (p : Plan) (n : Nat) (m : NodeId) (target : ExprId) : Run String := do
  let refs ← p.exprs.searchRun (.leaf .ref) n [⟨none, target⟩]
  match refs.head? with
  | none => p.exprs.textRun n ⟨none, target⟩
  | some h =>
    match ← p.exprs.look ⟨none, h⟩ with
    | none => failure
    | some c =>
      match c.form.label? with
      | none => p.exprs.textRun n ⟨none, target⟩
      | some name =>
        match ← p.scopeRun n m name with
        | none => p.exprs.textRun n ⟨none, target⟩
        | some v => pure v.text

/-- The run of `assignmentTypes`. -/
def assignmentTypesRun (p : Plan) (n : Nat) (m : NodeId) (node : Node) (target value : ExprId) :
    Run (List Finding) := do
  let l ← p.typingRun n target .any
  let r ← p.typingRun n value .any
  if (Ty.meetKnown? l.type r.type).isSome then pure (l.findings ++ r.findings)
  else
    let text ← p.targetRun n m target
    pure (l.findings ++ r.findings ++
      [.assignmentMismatch text ((r.type.map Ty.name).getD "unknown") node.name])

/-- The run of `checkAssignment`. -/
def assignmentRun (p : Plan) (n : Nat) (m : NodeId) (node : Node) (target value : ExprId) :
    Run (List Finding) := do
  let onLeft ← p.leavesRun n m ("in LHS Assignment of node " ++ node.name) target
  let onRight ← p.leavesRun n m ("in RHS Assignment of node " ++ node.name) value
  if (onLeft ++ onRight).isEmpty then p.assignmentTypesRun n m node target value
  else pure (onLeft ++ onRight)

/-- The run of `checkNodeCall`. -/
def nodeCallRun (p : Plan) (n : Nat) (node : Node) : Run (List Finding) :=
  match node.action with
  | some a =>
    if a.kind = .command ∨ a.kind = .lookup then
      p.callRun n none node.name (.noDeclarationMatch · node.name) a
    else pure []
  | none => pure []

/-- The run of `checkNodeExprs`. -/
def nodeExprsRun (p : Plan) (n : Nat) (m : NodeId) (node : Node) : Run (List Finding) := do
  let onConditions ← collect node.conditions (p.conditionRun n m node)
  match node.assignment? with
  | none => pure onConditions
  | some (target, value) =>
    let onAssignment ← p.assignmentRun n m node target value
    pure (onConditions ++ onAssignment)

/-- The run of `onNodes`. -/
def onNodesRun (p : Plan) (check : NodeId → Node → Run (List Finding)) : Run (List Finding) :=
  collect p.nodes.toList.zipIdx fun (node, m) => check m node

/-- The run of `check`. -/
def checkRun (p : Plan) (n : Nat) : Run (List Finding) := do
  let onCalls ← p.onNodesRun fun _ node => p.nodeCallRun n node
  let onExprs ← p.onNodesRun (p.nodeExprsRun n)
  pure (p.checkConflicts ++ onCalls ++ onExprs)

/-- The looks with which the check enters the store: at the names of the calls that nodes make,
then at their conditions and at both sides of their assignments. -/
def entries (p : Plan) : List Look :=
  (p.nodes.toList.flatMap fun node => node.checkedCall?.toList.map fun a => ⟨none, a.callee⟩) ++
    p.nodes.toList.flatMap fun node => node.checked.map fun h => ⟨none, h⟩

/-! ### Names -/

/-- **The way up ends,** since each parent has a smaller handle. -/
theorem climb_eq (hf : p.Forest) (hm : m < p.size) (hn : m < n) :
    p.climb n m = some (p.ancestry m) := by
  induction n generalizing m with
  | zero => exact absurd hn (Nat.not_lt_zero m)
  | succ n ih =>
    have hnode : p.node? m = some p.nodes[m] := Array.getElem?_eq_getElem hm
    rw [climb, ancestry, hnode, Option.bind_some]
    cases hparent : p.nodes[m].parent with
    | none => simp only [hparent]
    | some above =>
      have hlt : above < m := hf.above (by rw [parent?, hnode, Option.bind_some, hparent])
      have habove := ih (Nat.lt_trans hlt hm) (Nat.lt_of_lt_of_le hlt (Nat.le_of_lt_succ hn))
      simp only [hparent, hlt, dite_true, habove, Option.map_some]

/-- A name is resolved from a node of the plan without a look at the store. -/
theorem scopeRun_gives (hf : p.Forest) (hm : m < p.size) (hn : m < n) (name : String) :
    (p.scopeRun n m name).Gives P (p.findInScope? m name) :=
  (gives_lift (climb_eq hf hm hn)).bind (gives_pure _)

/-! ### Calls -/

/-- Types are compared with those of variables one by one, up to the first that differs. -/
theorem haveTypesRun_gives {via : Option ExprId} {exprs : List ExprId}
    (hexprs : ∀ k ∈ exprs, P ⟨via, k⟩) (vars : List Variable) :
    (p.haveTypesRun via exprs vars).Gives P (p.haveTypesOf exprs vars) := by
  refine gives_allM fun ⟨h, v⟩ hmem => ?_
  exact Store.gives_look (hexprs h (List.of_mem_zip hmem).1) rfl (gives_pure _)

/-- A call is compared with a declaration up to the first disagreement. -/
theorem conformsRun_gives {via : Option ExprId} {a : Action} (ha : ∀ k ∈ a.exprs, P ⟨via, k⟩)
    (d : Declaration) : (p.conformsRun via a d).Gives P (p.conforms a d) := by
  have hargs : (p.haveTypesRun via a.args d.params).Gives P (p.haveTypesOf a.args d.params) :=
    haveTypesRun_gives (fun k hk => ha k (by simp [Action.exprs, hk])) _
  have hreturns :
      (p.haveTypesRun via a.returns d.returns).Gives P (p.haveTypesOf a.returns d.returns) :=
    haveTypesRun_gives (fun k hk => ha k (List.mem_append_right _ hk)) _
  have hsplit : p.conforms a d =
      ((a.kind.declaredAs.all (· == d.kind) && a.args.length == d.params.length) &&
        (p.haveTypesOf a.args d.params &&
          (decide (a.returns.length ≤ d.returns.length) &&
            p.haveTypesOf a.returns d.returns))) := by
    simp only [conforms, Bool.and_assoc]
  rw [hsplit, conformsRun]
  by_cases hfits : (a.kind.declaredAs.all (· == d.kind) && a.args.length == d.params.length) = true
  · rw [if_pos hfits, hfits, Bool.true_and]
    refine hargs.bind ?_
    cases p.haveTypesOf a.args d.params with
    | false => exact gives_pure false
    | true =>
      rw [if_pos rfl, Bool.true_and]
      by_cases hlength : a.returns.length ≤ d.returns.length
      · rw [if_pos hlength, decide_eq_true hlength, Bool.true_and]
        exact hreturns
      · rw [if_neg hlength, decide_eq_false hlength, Bool.false_and]
        exact gives_pure false
  · rw [if_neg hfits, Bool.eq_false_iff.2 hfits, Bool.false_and]
    exact gives_pure false

section

variable (hP : p.exprs.Allows P) (hs : p.exprs.WellOwned)
include hP hs

/-- The text of a call is rendered only where it does not conform. -/
theorem mismatchRun_gives {via : Option ExprId} {a : Action}
    (ha : ∀ k ∈ a.exprs, k < n ∧ P ⟨via, k⟩) (name : String) (d : Declaration) :
    (p.mismatchRun n via name a d).Gives P (p.mismatch? name a d) := by
  rw [mismatchRun, mismatch?]
  refine (conformsRun_gives (fun k hk => (ha k hk).2) d).bind ?_
  split_ifs
  · exact gives_pure none
  · exact (Store.actionRun_gives hP hs ha).bind (gives_pure _)

/-- The check of a call begins at its name. -/
theorem callRun_covers {via : Option ExprId} {a : Action}
    (ha : ∀ k ∈ a.exprs, k < n ∧ P ⟨via, k⟩) (name : String) (undeclared : String → Finding) :
    (p.callRun n via name undeclared a).Covers P [⟨via, a.callee⟩]
      (p.checkCall name (undeclared (p.exprs.actionText a)) a) := by
  obtain ⟨hlt, hcallee⟩ := ha a.callee (by simp [Action.exprs])
  rw [callRun, checkCall]
  refine (Store.staticRun_covers hP hs n _ hlt hcallee).bind_gives ?_
  cases p.exprs.staticText? a.callee with
  | none => exact (Store.textRun_covers hP hs n _ hlt hcallee).gives.bind (gives_pure _)
  | some callee =>
    dsimp only
    cases p.findDeclaration? callee with
    | none => exact (Store.actionRun_gives hP hs ha).bind (gives_pure _)
    | some d => exact (mismatchRun_gives hP hs ha name d).bind (gives_pure _)

/-! ### References and lookups -/

/-- Whether an expression is indexed is seen at its owner. -/
theorem indexedRun_gives {h : ExprId} (hh : p.exprs.contains h = true) :
    (p.indexedRun h).Gives P (p.exprs.isIndexed h) := by
  obtain ⟨c, hc⟩ := Store.contains_iff.1 hh
  rw [indexedRun, Store.isIndexed, hc, Option.bind_some]
  refine Store.gives_look (hP.outside hh) hc ?_
  rw [Option.bind_some]
  cases howner : c.owner with
  | none => exact gives_pure false
  | some o =>
    obtain ⟨d, hd, _⟩ := hs.ownedBy_iff.1 ⟨c, hc, howner⟩
    rw [Option.bind_some, hd]
    refine Store.gives_look (hP.outside (Store.contains_iff.2 ⟨d, hd⟩)) hd ?_
    obtain ⟨form, type, operandType, owner⟩ := d
    cases form with
    | binary op left right => cases op <;> exact gives_pure _
    | _ => exact gives_pure _

variable (hn : p.exprs.size ≤ n)
include hn

/-- A lookup of the store is checked within the bound. -/
theorem lookupRun_gives {h : ExprId} (hh : p.exprs.contains h = true) :
    (p.lookupRun n m context h).Gives P (p.checkLookup m context h) := by
  obtain ⟨c, hc⟩ := Store.contains_iff.1 hh
  have hdown : ∀ k ∈ c.form.uses, k < n ∧ P ⟨some h, k⟩ := fun k hk =>
    ⟨Nat.lt_of_lt_of_le (Store.lt_size_of_contains (hs.contains_of_uses ⟨c, hc, hk⟩)) hn,
      hP.down ⟨c, hc, hk⟩⟩
  rw [lookupRun, checkLookup, hc]
  refine Store.gives_look (hP.outside hh) hc ?_
  obtain ⟨form, type, operandType, owner⟩ := c
  cases form with
  | lookup name call =>
    dsimp only
    split_ifs
    · exact gives_pure []
    · exact (callRun_covers hP hs hdown _ _).gives
  | _ => exact gives_pure []

/-- An expression of the store is rendered within the bound. -/
theorem textRun_gives {h : ExprId} (hh : p.exprs.contains h = true) :
    (p.exprs.textRun n ⟨none, h⟩).Gives P (p.exprs.text h) :=
  (Store.textRun_covers hP hs n ⟨none, h⟩
    (Nat.lt_of_lt_of_le (Store.lt_size_of_contains hh) hn) (hP.outside hh)).gives

/-- An expression of the store is typed within the bound. -/
theorem typingRun_gives {h : ExprId} (hh : p.exprs.contains h = true) (expected : Ty) :
    (p.typingRun n h expected).Gives P (p.typing h expected) :=
  (Store.typingRun_covers hP hs n ⟨none, h⟩
    (Nat.lt_of_lt_of_le (Store.lt_size_of_contains hh) hn) (hP.outside hh) expected).gives

/-- An expression of the store is searched within the bound, from itself on. -/
theorem searchRun_covers {root : ExprId} (hroot : p.exprs.contains root = true) (e : Element) :
    (p.exprs.searchRun e n [⟨none, root⟩]).Covers P [⟨none, root⟩] (p.exprs.find root e) :=
  Store.searchRun_covers hP hs e (hP.outside hroot)
    (Nat.le_trans (Store.length_visits_le hs hroot) hn)

variable (hf : p.Forest) (hm : m < p.size) (hmn : m < n)
include hf hm hmn

/-- A reference of the store is checked within the bound. -/
theorem referenceRun_gives {root h : ExprId} (hroot : p.exprs.contains root = true)
    (hh : p.exprs.contains h = true) :
    (p.referenceRun n m context root h).Gives P (p.checkReference m context root h) := by
  obtain ⟨c, hc⟩ := Store.contains_iff.1 hh
  rw [referenceRun, checkReference, hc]
  refine Store.gives_look (hP.outside hh) hc ?_
  obtain ⟨form, type, operandType, owner⟩ := c
  cases form with
  | ref name =>
    dsimp only
    split_ifs
    · exact gives_pure []
    · exact gives_pure _
    · refine (scopeRun_gives hf hm hmn name).bind ?_
      cases p.findInScope? m name with
      | none => exact gives_pure _
      | some v =>
        refine (indexedRun_gives hP hs hh).bind ?_
        dsimp only
        split_ifs with hindexed
        · rw [Variable.indexMisuse_eq_nil_iff.2 hindexed, List.append_nil]
          exact gives_pure _
        · exact (textRun_gives hP hs hn hroot).bind (gives_pure _)
  | _ => exact gives_pure []

/-- The check of references and lookups begins at the expression that they stand in. -/
theorem leavesRun_covers {root : ExprId} (hroot : p.exprs.contains root = true) :
    (p.leavesRun n m context root).Covers P [⟨none, root⟩]
      (p.checkReferences m context root ++ p.checkLookups m context root) := by
  have hfound : ∀ e, ∀ h ∈ p.exprs.find root e, p.exprs.contains h = true := fun e h hh =>
    ((Store.mem_find_iff hs).1 hh).1.contains hs hroot
  have hrefs : (collect (p.exprs.find root (.leaf .ref)) (p.referenceRun n m context root)).Gives P
      (p.checkReferences m context root) :=
    gives_collect fun h hh => referenceRun_gives hP hs hn hf hm hmn hroot (hfound _ h hh)
  have hlookups : (collect (p.exprs.find root (.leaf .lookup)) (p.lookupRun n m context)).Gives P
      (p.checkLookups m context root) :=
    gives_collect fun h hh => lookupRun_gives hP hs hn (hfound _ h hh)
  exact (searchRun_covers hP hs hn hroot _).bind_gives (hrefs.bind
    ((searchRun_covers hP hs hn hroot _).gives.bind (hlookups.bind (gives_pure _))))

/-! ### Conditions and assignments -/

/-- The check of a condition begins at its expression. -/
theorem conditionRun_covers {c : Condition} (hc : p.exprs.contains c.expr = true) :
    (p.conditionRun n m node c).Covers P [⟨none, c.expr⟩] (p.checkCondition m node c) :=
  (leavesRun_covers hP hs hn hf hm hmn hc).bind_gives
    ((typingRun_gives hP hs hn hc .bool).bind (gives_pure _))

/-- The target of an assignment is named within the bound. -/
theorem targetRun_gives {target : ExprId} (htarget : p.exprs.contains target = true) :
    (p.targetRun n m target).Gives P (p.targetText m target) := by
  have htext := textRun_gives hP hs hn htarget
  rw [targetRun, targetText]
  refine (searchRun_covers hP hs hn htarget _).gives.bind ?_
  cases hhead : (p.exprs.find target (.leaf .ref)).head? with
  | none => exact htext
  | some h =>
    -- what the search found is there, so the run does not fail at it
    obtain ⟨_, c, hc, _⟩ := (Store.mem_find_iff hs).1 (List.mem_of_mem_head? hhead)
    refine Store.gives_look (hP.outside (Store.contains_iff.2 ⟨c, hc⟩)) hc ?_
    rw [Option.bind_some, hc, Option.bind_some]
    dsimp only
    cases c.form.label? with
    | none => exact htext
    | some name =>
      refine (scopeRun_gives hf hm hmn name).bind ?_
      rw [Option.bind_some]
      cases p.findInScope? m name with
      | none => exact htext
      | some v => exact gives_pure _

/-- The target is named only where the two types of an assignment disagree. -/
theorem assignmentTypesRun_gives {target value : ExprId}
    (htarget : p.exprs.contains target = true) (hvalue : p.exprs.contains value = true) :
    (p.assignmentTypesRun n m node target value).Gives P
      (p.assignmentTypes m node target value) := by
  refine (typingRun_gives hP hs hn htarget .any).bind
    ((typingRun_gives hP hs hn hvalue .any).bind ?_)
  rw [assignmentTypes]
  dsimp only
  split_ifs
  · rw [List.append_nil]
    exact gives_pure _
  · exact (targetRun_gives hP hs hn hf hm hmn htarget).bind (gives_pure _)

/-- The check of an assignment looks at both of its sides. -/
theorem assignmentRun_covers {target value : ExprId} (htarget : p.exprs.contains target = true)
    (hvalue : p.exprs.contains value = true) :
    (p.assignmentRun n m node target value).Covers P [⟨none, target⟩, ⟨none, value⟩]
      (p.checkAssignment m node target value) := by
  refine (leavesRun_covers hP hs hn hf hm hmn htarget).bind
    ((leavesRun_covers hP hs hn hf hm hmn hvalue).bind_gives ?_)
  rw [checkAssignment, assignmentReferences, List.append_assoc (_ ++ _)]
  split_ifs
  · exact assignmentTypesRun_gives hP hs hn hf hm hmn htarget hvalue
  · exact gives_pure _

end

/-! ### The verdict -/

/-- The checks of all nodes take the looks of each. -/
theorem onNodesRun_covers {f : NodeId → Node → Run (List Finding)}
    {g : NodeId → Node → List Finding} {looksAt : Node → List Look}
    (hfg : ∀ m node, p.node? m = some node → (f m node).Covers P (looksAt node) (g m node)) :
    (p.onNodesRun f).Covers P (p.nodes.toList.flatMap looksAt) (p.onNodes g) := by
  have hnodes : p.nodes.toList = p.nodes.toList.zipIdx.map Prod.fst :=
    (List.zipIdx_map_fst 0 p.nodes.toList).symm
  rw [hnodes, List.flatMap_map]
  exact covers_collect fun ⟨node, m⟩ hmem => hfg m node (mem_zipIdx_nodes_iff.1 hmem)

section

variable (hP : p.exprs.Allows P) (hs : p.exprs.WellOwned) (hp : p.Grounded)
  (hn : p.exprs.size ≤ n)
include hP hs hp hn

/-- The check of the call that a node makes begins at the name of the call. -/
theorem nodeCallRun_covers (hnode : p.node? m = some node) :
    (p.nodeCallRun n node).Covers P (node.checkedCall?.toList.map fun a => ⟨none, a.callee⟩)
      (p.checkNodeCall node) := by
  rw [nodeCallRun, checkNodeCall, Node.checkedCall?]
  cases haction : node.action with
  | none => exact (gives_pure []).covers
  | some a =>
    have hin : ∀ k ∈ a.exprs, p.exprs.contains k = true := fun k hk =>
      hp m node hnode k (List.mem_append_right _ (by simpa [haction] using hk))
    have ha : ∀ k ∈ a.exprs, k < n ∧ P ⟨none, k⟩ := fun k hk =>
      ⟨Nat.lt_of_lt_of_le (Store.lt_size_of_contains (hin k hk)) hn, hP.outside (hin k hk)⟩
    by_cases hkind : a.kind = .command ∨ a.kind = .lookup
    · simp only [hkind, if_true, Option.filter_some, decide_true]
      exact callRun_covers hP hs ha _ _
    · simp only [hkind, if_false, Option.filter_some, decide_false]
      exact (gives_pure []).covers

variable (hf : p.Forest) (hpn : p.size ≤ n)
include hf hpn

/-- The check of what a node speaks of begins at each of its conditions and at both sides of its
assignment. -/
theorem nodeExprsRun_covers (hnode : p.node? m = some node) :
    (p.nodeExprsRun n m node).Covers P (node.checked.map fun h => ⟨none, h⟩)
      (p.checkNodeExprs m node) := by
  have hm := lt_size_of_node? hnode
  have hmn := Nat.lt_of_lt_of_le hm hpn
  have hconditions : (collect node.conditions (p.conditionRun n m node)).Covers P
      (node.conditions.map fun c => ⟨none, c.expr⟩)
      (node.conditions.flatMap (p.checkCondition m node)) := by
    rw [List.map_eq_flatMap]
    exact covers_collect fun c hc => conditionRun_covers hP hs hn hf hm hmn
      (hp.contains_checked hnode (Node.expr_mem_checked hc))
  rw [nodeExprsRun, checkNodeExprs, Node.checked, List.map_append, List.map_map]
  refine hconditions.bind ?_
  cases hassign : node.assignment? with
  | none =>
    rw [checkNodeAssignment_of_eq_none hassign, List.append_nil]
    exact (gives_pure _).covers
  | some sides =>
    obtain ⟨target, value⟩ := sides
    obtain ⟨htarget, hvalue⟩ := Node.sides_mem_checked hassign
    rw [checkNodeAssignment_of_eq_some hassign]
    exact (assignmentRun_covers hP hs hn hf hm hmn (hp.contains_checked hnode htarget)
      (hp.contains_checked hnode hvalue)).bind_gives (gives_pure _)

/-- **The run of the whole check ends with the verdict,** and it looks at all that is to be
checked of the nodes. -/
theorem checkRun_covers : (p.checkRun n).Covers P p.entries p.check :=
  (onNodesRun_covers fun _ _ hnode => nodeCallRun_covers hP hs hp hn hnode).bind
    ((onNodesRun_covers fun _ _ hnode => nodeExprsRun_covers hP hs hp hn hf hpn hnode).bind_gives
      (gives_pure _))

end

end Plan
end Preflight
