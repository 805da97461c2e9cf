import Mathlib.Data.List.Basic
import Preflight.Proofs.Plan.Checked
import Preflight.Proofs.Plan.Scope

/-!
# One more declaration

A name stands for the first declaration that bears it, so a declaration that is added last
is found only under a name that nothing was declared under (`findDeclaration?_declare`).

If its name was taken, it is never looked at, and all findings but the conflicts of names stay
as they are. If its name is new, the calls that bear it had the one finding that nothing is
declared for them. Now they are compared with the new declaration, and there is nothing to
say or that they do not match. This is the same for the calls of nodes and for the lookups
in an expression, which are one family here: a call that may be absent and the finding on it
if it is not declared (`elim_checkCall_declare`).

References and types do not look at the declarations.
-/

namespace Preflight

/-- The call of a lookup, unless it is said to give a property of a node. -/
def Cell.checkedCall? (c : Cell) : Option Action :=
  if c.nodeProperty?.isSome then none else c.form.call?

namespace Plan

variable {p : Plan} {d : Declaration}

/-- The checked call of the lookup at a handle. -/
def lookupCall? (p : Plan) (h : ExprId) : Option Action :=
  (p.exprs.get? h).bind Cell.checkedCall?

/-- The call, if its name is known to be `name` before the plan runs. -/
def callTo? (p : Plan) (name : String) (call : Option Action) : Option Action :=
  call.filter fun a => p.exprs.staticText? a.callee = some name

/-- The findings on a call in `node` when it is compared with `d` if it bears the name of `d`,
and those given if not. -/
def comparedWith (p : Plan) (d : Declaration) (node : String) (call : Option Action)
    (otherwise : List Finding) : List Finding :=
  match p.callTo? d.name call with
  | some a => (p.mismatch? node a d).toList
  | none => otherwise

/-- A call bears a name exactly if that is its static name. -/
theorem callTo?_eq_some_iff {name : String} {call : Option Action} {a : Action} :
    p.callTo? name call = some a ↔
      call = some a ∧ p.exprs.staticText? a.callee = some name := by
  rw [callTo?, Option.filter_eq_some_iff, decide_eq_true_iff]

/-! ### Calls -/

/-- A name is new exactly if no declaration bears it. -/
theorem findDeclaration?_eq_none_iff {name : String} :
    p.findDeclaration? name = none ↔ ∀ e ∈ p.declarations, e.name ≠ name := by
  simp [findDeclaration?, Declaration.find?]

/-- A declaration that is added last is found only under a name that was new. -/
theorem findDeclaration?_declare (p : Plan) (d : Declaration) (name : String) :
    (p.declare d).findDeclaration? name =
      (p.findDeclaration? name).or (if d.name = name then some d else none) := by
  simp only [findDeclaration?, declare, Declaration.find?, List.find?_append]
  by_cases h : d.name = name <;> simp [h]

/-- A declaration of a taken name makes no difference to the check of any call. -/
theorem checkCall_declare_of_taken (htaken : p.findDeclaration? d.name ≠ none) (node : String)
    (undeclared : Finding) (a : Action) :
    (p.declare d).checkCall node undeclared a = p.checkCall node undeclared a := by
  have hfound : ∀ name, (p.declare d).findDeclaration? name = p.findDeclaration? name := by
    intro name
    rw [findDeclaration?_declare]
    by_cases hname : d.name = name
    · subst hname
      obtain ⟨e, he⟩ := Option.ne_none_iff_exists'.1 htaken
      rw [he, Option.some_or]
    · rw [if_neg hname, Option.or_none]
  simp only [checkCall, hfound]
  rfl

/-- A call by a name that is new has the one finding that it is not declared. -/
theorem checkCall_of_new (hnew : p.findDeclaration? d.name = none) {node : String}
    {undeclared : Finding} {a : Action} (ha : p.exprs.staticText? a.callee = some d.name) :
    p.checkCall node undeclared a = [undeclared] := by
  simp only [checkCall, ha, hnew]

/-- Once its name is declared, a call is compared with the declaration. -/
theorem checkCall_declare_of_new (hnew : p.findDeclaration? d.name = none) {node : String}
    {undeclared : Finding} {a : Action} (ha : p.exprs.staticText? a.callee = some d.name) :
    (p.declare d).checkCall node undeclared a = (p.mismatch? node a d).toList := by
  have hfound : (p.declare d).findDeclaration? d.name = some d := by
    rw [findDeclaration?_declare, hnew, if_pos rfl, Option.none_or]
  have hstatic : (p.declare d).exprs.staticText? a.callee = some d.name := ha
  simp only [checkCall, hstatic, hfound]
  rfl

/-- A declaration makes no difference to calls by other names. -/
theorem checkCall_declare_of_ne {node : String} {undeclared : Finding} {a : Action}
    (ha : p.exprs.staticText? a.callee ≠ some d.name) :
    (p.declare d).checkCall node undeclared a = p.checkCall node undeclared a := by
  have hstatic : (p.declare d).exprs.staticText? a.callee = p.exprs.staticText? a.callee := rfl
  rw [checkCall, checkCall, hstatic]
  cases hname : p.exprs.staticText? a.callee with
  | none => rfl
  | some name =>
    have hne : d.name ≠ name := fun h => ha (h ▸ hname)
    simp only [findDeclaration?_declare, if_neg hne, Option.or_none]
    rfl

/-- A call that may be absent, before and after a declaration of a new name. -/
theorem elim_checkCall_declare (hnew : p.findDeclaration? d.name = none) (node : String)
    (undeclared : Action → Finding) (call : Option Action) :
    call.elim [] (fun a => (p.declare d).checkCall node (undeclared a) a) =
      p.comparedWith d node call (call.elim [] fun a => p.checkCall node (undeclared a) a) := by
  cases call with
  | none => rfl
  | some a =>
    rw [comparedWith]
    by_cases ha : p.exprs.staticText? a.callee = some d.name
    · rw [callTo?_eq_some_iff.2 ⟨rfl, ha⟩]
      exact checkCall_declare_of_new hnew ha
    · have hnone : p.callTo? d.name (some a) = none := by
        rw [callTo?, Option.filter_some, if_neg (by simpa using ha)]
      rw [hnone]
      exact checkCall_declare_of_ne ha

/-- The check of a node's call is that of the call, if there is one. -/
theorem checkNodeCall_eq (p : Plan) (node : Node) :
    p.checkNodeCall node = node.checkedCall?.elim [] fun a =>
      p.checkCall node.name (.noDeclarationMatch (p.exprs.actionText a) node.name) a := by
  rw [checkNodeCall, Node.checkedCall?]
  cases node.action with
  | none => rfl
  | some a =>
    by_cases hkind : a.kind = .command ∨ a.kind = .lookup
    · rw [Option.filter_some, if_pos (decide_eq_true hkind)]
      simp only [hkind, if_true, Option.elim_some]
    · rw [Option.filter_some, if_neg (by simpa using hkind)]
      simp only [hkind, if_false, Option.elim_none]

/-- The check of a lookup is that of its call, if there is one. -/
theorem checkLookup_eq (p : Plan) (n : NodeId) (context : String) (h : ExprId) :
    p.checkLookup n context h = (p.lookupCall? h).elim [] fun a =>
      p.checkCall (p.nodeName n) (.noLookupDeclaration (p.exprs.actionText a) context) a := by
  rw [checkLookup, lookupCall?]
  cases p.exprs.get? h with
  | none => rfl
  | some c =>
    rw [Option.bind_some, Cell.checkedCall?]
    by_cases hprop : c.nodeProperty?.isSome
    · simp only [hprop, if_true, Option.elim_none]
      cases c.form <;> rfl
    · simp only [hprop, Bool.false_eq_true, if_false]
      cases c.form <;> rfl

/-! ### References, types and assignments -/

/-- References do not look at the declarations. -/
theorem checkReferences_declare (p : Plan) (d : Declaration) (n : NodeId) (context : String)
    (root : ExprId) :
    (p.declare d).checkReferences n context root = p.checkReferences n context root := by
  have hscope : ∀ name, (p.declare d).findInScope? n name = p.findInScope? n name :=
    findInScope?_congr (p := p) (q := p.declare d) rfl n
  unfold checkReferences
  refine List.flatMap_congr fun h _ => ?_
  unfold checkReference
  simp only [hscope]
  rfl

/-- Types do not look at the declarations. -/
theorem typing_declare (p : Plan) (d : Declaration) (h : ExprId) (expected : Ty) :
    (p.declare d).typing h expected = p.typing h expected := rfl

/-- How a target is named does not depend on the declarations. -/
theorem targetText_declare (p : Plan) (d : Declaration) (n : NodeId) (target : ExprId) :
    (p.declare d).targetText n target = p.targetText n target := by
  have hscope : (p.declare d).findInScope? n = p.findInScope? n :=
    funext (findInScope?_congr (p := p) (q := p.declare d) rfl n)
  simp only [targetText, hscope]
  rfl

/-- On what a node speaks of, a declaration matters for lookups only. -/
theorem checkNodeExprs_declare
    (hlookups : ∀ n context root,
      (p.declare d).checkLookups n context root = p.checkLookups n context root) (n : NodeId)
    (node : Node) : (p.declare d).checkNodeExprs n node = p.checkNodeExprs n node :=
  checkNodeExprs_congr (fun root _ context => checkReferences_declare p d n context root)
    (fun root _ context => hlookups n context root) (fun root _ t => typing_declare p d root t)
    fun root _ => targetText_declare p d n root

/-! ### A name that is taken, and a new one -/

/-- Under a taken name the findings on lookups stay as they are. -/
theorem checkLookups_declare_of_taken (htaken : p.findDeclaration? d.name ≠ none) (n : NodeId)
    (context : String) (root : ExprId) :
    (p.declare d).checkLookups n context root = p.checkLookups n context root := by
  refine List.flatMap_congr fun h _ => ?_
  rw [checkLookup_eq, checkLookup_eq]
  simp only [checkCall_declare_of_taken htaken]
  rfl

/-- Under a taken name the findings on calls stay as they are. -/
theorem checkCalls_declare_of_taken (htaken : p.findDeclaration? d.name ≠ none) :
    (p.declare d).checkCalls = p.checkCalls := by
  refine List.flatMap_congr fun ⟨node, n⟩ _ => ?_
  simp only [checkNodeCall_eq, checkCall_declare_of_taken htaken]
  rfl

/-- Under a taken name the findings on conditions and assignments stay as they are. -/
theorem checkExprs_declare_of_taken (htaken : p.findDeclaration? d.name ≠ none) :
    (p.declare d).checkExprs = p.checkExprs :=
  List.flatMap_congr fun ⟨node, n⟩ _ =>
    checkNodeExprs_declare (checkLookups_declare_of_taken htaken) n node

/-- Under a new name the calls of nodes that bear it are compared with the declaration. -/
theorem checkCalls_declare_of_new (hnew : p.findDeclaration? d.name = none) :
    (p.declare d).checkCalls = p.onNodes fun _ node =>
      p.comparedWith d node.name node.checkedCall? (p.checkNodeCall node) := by
  refine List.flatMap_congr fun ⟨node, n⟩ _ => ?_
  simp only [checkNodeCall_eq]
  exact elim_checkCall_declare hnew node.name _ node.checkedCall?

/-- Under a new name the lookups that bear it are compared with the declaration. -/
theorem checkLookups_declare_of_new (hnew : p.findDeclaration? d.name = none) (n : NodeId)
    (context : String) (root : ExprId) :
    (p.declare d).checkLookups n context root =
      (p.exprs.find root (.leaf .lookup)).flatMap fun h =>
        p.comparedWith d (p.nodeName n) (p.lookupCall? h) (p.checkLookup n context h) := by
  refine List.flatMap_congr fun h _ => ?_
  simp only [checkLookup_eq]
  exact elim_checkCall_declare hnew (p.nodeName n) _ (p.lookupCall? h)

/-- Before it was declared, a node's call by the new name was reported as undeclared. -/
theorem checkNodeCall_of_new (hnew : p.findDeclaration? d.name = none) {node : Node} {a : Action}
    (ha : p.callTo? d.name node.checkedCall? = some a) :
    p.checkNodeCall node = [.noDeclarationMatch (p.exprs.actionText a) node.name] := by
  obtain ⟨hcall, hname⟩ := callTo?_eq_some_iff.1 ha
  rw [checkNodeCall_eq, hcall]
  exact checkCall_of_new hnew hname

/-- Before it was declared, a lookup by the new name was reported as undeclared. -/
theorem checkLookup_of_new (hnew : p.findDeclaration? d.name = none) (n : NodeId)
    (context : String) {h : ExprId} {a : Action}
    (ha : p.callTo? d.name (p.lookupCall? h) = some a) :
    p.checkLookup n context h = [.noLookupDeclaration (p.exprs.actionText a) context] := by
  obtain ⟨hcall, hname⟩ := callTo?_eq_some_iff.1 ha
  rw [checkLookup_eq, hcall]
  exact checkCall_of_new hnew hname

/-- **What one more declaration changes.** Under a name that is taken, nothing but the
conflicts. Under a new name, each call of a node or an expression that bears it had one
finding, that nothing is declared for it, and is now compared with the declaration. References
and types are not touched. -/
theorem check_declare (p : Plan) (d : Declaration) :
    ((∃ e ∈ p.declarations, e.name = d.name) →
      (p.declare d).checkCalls = p.checkCalls ∧ (p.declare d).checkExprs = p.checkExprs) ∧
    ((∀ e ∈ p.declarations, e.name ≠ d.name) →
      ((p.declare d).checkCalls = p.onNodes fun _ node =>
        p.comparedWith d node.name node.checkedCall? (p.checkNodeCall node)) ∧
      (∀ node a, p.callTo? d.name node.checkedCall? = some a →
        p.checkNodeCall node = [.noDeclarationMatch (p.exprs.actionText a) node.name]) ∧
      ∀ n context,
        (∀ root, (p.declare d).checkLookups n context root =
          (p.exprs.find root (.leaf .lookup)).flatMap fun h =>
            p.comparedWith d (p.nodeName n) (p.lookupCall? h) (p.checkLookup n context h)) ∧
        ∀ h a, p.callTo? d.name (p.lookupCall? h) = some a →
          p.checkLookup n context h = [.noLookupDeclaration (p.exprs.actionText a) context]) ∧
    (∀ n context root,
      (p.declare d).checkReferences n context root = p.checkReferences n context root) ∧
    ∀ h expected, (p.declare d).typing h expected = p.typing h expected := by
  refine ⟨?_, ?_, checkReferences_declare p d, typing_declare p d⟩
  · rintro ⟨e, he, hname⟩
    have htaken : p.findDeclaration? d.name ≠ none := fun h =>
      findDeclaration?_eq_none_iff.1 h e he hname
    exact ⟨checkCalls_declare_of_taken htaken, checkExprs_declare_of_taken htaken⟩
  · intro hfresh
    have hnew := findDeclaration?_eq_none_iff.2 hfresh
    exact ⟨checkCalls_declare_of_new hnew, fun _ _ => checkNodeCall_of_new hnew,
      fun n context => ⟨checkLookups_declare_of_new hnew n context,
        fun _ _ => checkLookup_of_new hnew n context⟩⟩

/-- A node that gives the command `log` and starts on a lookup of the same name, where only
`speed` is declared. -/
def undeclaredLog : List Edit :=
  [.declare ⟨.lookup, "speed", [], [⟨"", .real, .unstated, none⟩]⟩, .addNode "A" none,
    .constant "log" .str, .setAction 0 ⟨.command, 0, [], none⟩, .constant "log" .str,
    .lookup ⟨.lookup, 1, [], none⟩ (some .bool), .addCondition 0 .start 2]

/-- A second `speed` changes neither. With the command `log` declared, there is nothing more to
say about the command, and the lookup does not match. -/
theorem check_declare_log :
    (let p := build undeclaredLog
    let q := p.declare ⟨.command, "speed", [], []⟩
    (∃ e ∈ p.declarations, e.name = "speed") ∧ q.checkCalls = p.checkCalls ∧
      q.checkExprs = p.checkExprs) ∧
    (let p := build undeclaredLog
    let q := p.declare ⟨.command, "log", [], []⟩
    (∀ e ∈ p.declarations, e.name ≠ "log") ∧
      p.checkCalls = [.noDeclarationMatch "Command log()" "A"] ∧ q.checkCalls = [] ∧
      p.checkLookup 0 "here" 2 = [.noLookupDeclaration "Lookup log()" "here"] ∧
      q.checkLookups 0 "here" 2 =
        [.declarationMismatch "Lookup log()" "A" "Command log()"]) := by
  have htaken : ∃ e ∈ (build undeclaredLog).declarations, e.name = "speed" := by decide +kernel
  have hnew : ∀ e ∈ (build undeclaredLog).declarations, e.name ≠ "log" := by decide +kernel
  have hspeed := (check_declare (build undeclaredLog) ⟨.command, "speed", [], []⟩).1 htaken
  obtain ⟨hcalls, -, hlookups⟩ :=
    (check_declare (build undeclaredLog) ⟨.command, "log", [], []⟩).2.1 hnew
  refine ⟨⟨htaken, hspeed⟩, hnew, by decide +kernel, ?_, ?_, ?_⟩
  · rw [hcalls]
    decide +kernel
  · rw [(hlookups 0 "here").2 2 ⟨.lookup, 1, [], none⟩ (by decide +kernel)]
    decide +kernel
  · rw [(hlookups 0 "here").1 2]
    decide +kernel

end Plan
end Preflight
