import Preflight.Proofs.NearestVariable
import Preflight.Proofs.NewDeclaration
import Preflight.Proofs.Resolution
import Preflight.Proofs.Visibility

/-!
# One more node

A new node has a name and a parent and nothing else, and the others stay as they are but for the
list of children of its parent (`Grows`). It declares no variable, so names stand for what they
stood for (`Grows.findVariable?_eq`, `Grows.findInScope?_eq`), and calls, lookups and types have the
findings they had.

It can be seen from its parent and from the other children of its parent, and its name with it
(`Grows.canSee_iff`). From there a reference to that name is in order now, and the finding that it
was not is gone (`Grows.checkReferences_of_beside`); from everywhere else nothing has changed. So
the verdict changes only if it had such a finding.
-/

namespace Preflight

/-- The finding is that a node of that name cannot be seen. -/
def Finding.isUnseen (name : String) : Finding → Bool
  | .inaccessibleNode target _ => target == name
  | _ => false

namespace Plan

variable {p q : Plan} {m n : NodeId} {name : String} {parent : Option NodeId}

/-- `q` is `p` with one more node, of that name and below `parent` if there is one. -/
structure Grows (p q : Plan) (name : String) (parent : Option NodeId) : Prop
    extends p.Extends q parent where
  declarations : q.declarations = p.declarations
  exprs : q.exprs = p.exprs
  old : ∀ {n node}, p.node? n = some node → ∃ children, q.node? n = some { node with children }
  new : q.node? p.size = some ⟨name, parent, [], [], none, []⟩

/-- The node at `n` is `parent`, or a child of it. -/
def Beside (p : Plan) (n : NodeId) (parent : Option NodeId) : Prop :=
  ∃ m, parent = some m ∧ (n = m ∨ p.HasParent n m)

/-- A new root is such a growth. -/
theorem grows_addRoot (p : Plan) (name : String) :
    p.Grows { p with
      nodes := p.nodes.push ⟨name, none, [], [], none, []⟩, roots := p.roots ++ [p.size] }
      name none where
  toExtends := p.extends_addRoot name
  declarations := rfl
  exprs := rfl
  old := fun {n node} hnode => by
    have hne : n ≠ p.nodes.size := Nat.ne_of_lt (lt_size_of_node? hnode)
    refine ⟨node.children, ?_⟩
    rw [node?, Array.getElem?_push, if_neg hne]
    exact hnode
  new := Array.getElem?_push_size

/-- A new child of a node that is there is such a growth. -/
theorem grows_addChild (name : String) (hm : m < p.size) :
    p.Grows { p with
      nodes := (p.nodes.modify m fun above =>
        { above with children := above.children ++ [p.size] }).push
          ⟨name, some m, [], [], none, []⟩ } name (some m) where
  toExtends := extends_addChild name hm
  declarations := rfl
  exprs := rfl
  old := fun {n node} hnode => by
    have hne : n ≠ p.nodes.size := Nat.ne_of_lt (lt_size_of_node? hnode)
    rw [node?] at hnode
    rw [node?, Array.getElem?_push, Array.size_modify, if_neg hne, Array.getElem?_modify, hnode]
    split_ifs
    · exact ⟨_, rfl⟩
    · exact ⟨node.children, rfl⟩
  new := by rw [node?, size, Array.getElem?_push, Array.size_modify, if_pos rfl]

/-- **A node can be added below any node, or as a root.** -/
theorem exists_addNode (p : Plan) (name : String) (hparent : ∀ m, parent = some m → m < p.size) :
    ∃ q, p.addNode name parent = .ok (p.size, q) ∧ p.Grows q name parent := by
  cases parent with
  | none => exact ⟨_, rfl, p.grows_addRoot name⟩
  | some m =>
    have hm := hparent m rfl
    exact ⟨_, map_eq_ok_iff.2 ⟨_, updateNode_eq_ok_iff.2 ⟨hm, rfl⟩, rfl⟩, grows_addChild name hm⟩

/-! ### Names of variables -/

/-- What a name stands for by itself depends on the variables of each node. -/
theorem findVariable?_congr (hlocal : ∀ n, q.findLocal? n name = p.findLocal? n name) :
    q.findVariable? name = p.findVariable? name := by
  refine Option.ext fun v => ?_
  simp only [findVariable?_eq_some_iff, FirstInPlan, ← findLocal?_eq_some_iff,
    ← findLocal?_eq_none_iff, hlocal]

namespace Grows

variable (H : p.Grows q name parent)

include H

/-- The new node declares no variable, and the others keep theirs. -/
theorem findLocal?_eq (n : NodeId) (x : String) : q.findLocal? n x = p.findLocal? n x := by
  cases hnode : p.node? n with
  | some node =>
    obtain ⟨children, hq⟩ := H.old hnode
    rw [findLocal?, findLocal?, hq, hnode]
    rfl
  | none =>
    have hle : p.size ≤ n := Array.getElem?_eq_none_iff.1 hnode
    rw [findLocal?, findLocal?, hnode]
    -- the new node declares nothing, and after it there is none
    rcases Nat.eq_or_lt_of_le hle with rfl | hlt
    · rw [H.new]
      rfl
    · have hsize : q.nodes.size ≤ n := Nat.le_trans (Nat.le_of_eq H.size) hlt
      rw [node?, Array.getElem?_eq_none hsize]

/-- In the whole plan a name stands for the same variable. -/
theorem findVariable?_eq : q.findVariable? = p.findVariable? :=
  funext fun x => findVariable?_congr fun n => H.findLocal?_eq n x

/-- An old node has changed in its children at most. -/
theorem exists_old (hn : n < p.size) :
    ∃ node children, p.node? n = some node ∧ q.node? n = some { node with children } := by
  have hnode : p.node? n = some p.nodes[n] := Array.getElem?_eq_getElem hn
  obtain ⟨children, hq⟩ := H.old hnode
  exact ⟨_, children, hnode, hq⟩

/-- The way up from an old node is the same. -/
theorem ancestry_eq (hn : n < p.size) : q.ancestry n = p.ancestry n := by
  refine ancestry_congr fun m hm => ?_
  obtain ⟨node, children, hnode, hq⟩ := H.exists_old (Nat.lt_of_le_of_lt hm hn)
  rw [hq, hnode]
  rfl

/-- Inside an old node a name stands for the same variable. -/
theorem findInScope?_eq (hn : n < p.size) (x : String) :
    q.findInScope? n x = p.findInScope? n x := by
  simp only [findInScope?, H.ancestry_eq hn, H.findLocal?_eq]

/-! ### Names of nodes -/

/-- A node has the name it had, or it is the new one. -/
theorem named_iff {x : String} : q.Named m x ↔ p.Named m x ∨ m = p.size ∧ x = name := by
  constructor
  · rintro ⟨node, hnode, rfl⟩
    rcases H.children m node hnode with ⟨rfl, _⟩ | ⟨old, hold, _⟩
    · obtain rfl := Option.some.inj (H.new.symm.trans hnode)
      exact .inr ⟨rfl, rfl⟩
    · obtain ⟨children, hq⟩ := H.old hold
      obtain rfl := Option.some.inj (hq.symm.trans hnode)
      exact .inl ⟨old, hold, rfl⟩
  · rintro (⟨node, hnode, hname⟩ | ⟨rfl, rfl⟩)
    · obtain ⟨children, hq⟩ := H.old hnode
      exact ⟨_, hq, hname⟩
    · exact ⟨_, H.new, rfl⟩

/-- An old node keeps its name. -/
theorem nodeName_eq (hn : n < p.size) : q.nodeName n = p.nodeName n := by
  obtain ⟨node, children, hnode, hq⟩ := H.exists_old hn
  rw [nodeName, nodeName, hq, hnode]
  rfl

/-- The new node is near its parent and the other children of its parent. -/
theorem near_iff (hn : n < p.size) :
    q.Near n m ↔ p.Near n m ∨ m = p.size ∧ p.Beside n parent := by
  have hkept : ∀ {k}, q.HasParent n k ↔ p.HasParent n k := fun {k} =>
    H.hasParent_iff.trans (or_iff_left fun h => Nat.ne_of_lt hn h.1)
  constructor
  · intro hnear
    cases hnear with
    | self => exact .inl .self
    | child hm =>
      rcases H.hasParent_iff.1 hm with hm | ⟨hm, hparent⟩
      · exact .inl (.child hm)
      · exact .inr ⟨hm, n, hparent, .inl rfl⟩
    | parent hm => exact .inl (.parent (hkept.1 hm))
    | sibling hk hm =>
      rcases H.hasParent_iff.1 hm with hm | ⟨hm, hparent⟩
      · exact .inl (.sibling (hkept.1 hk) hm)
      · exact .inr ⟨hm, _, hparent, .inr (hkept.1 hk)⟩
  · rintro (hnear | ⟨rfl, k, hk, rfl | hnk⟩)
    · cases hnear with
      | self => exact .self
      | child hm => exact .child (H.hasParent_iff.2 (.inl hm))
      | parent hm => exact .parent (hkept.2 hm)
      | sibling hk hm => exact .sibling (hkept.2 hk) (H.hasParent_iff.2 (.inl hm))
    · exact .child (H.hasParent_iff.2 (.inr ⟨rfl, hk⟩))
    · exact .sibling (hkept.2 hnk) (H.hasParent_iff.2 (.inr ⟨rfl, hk⟩))

/-- **A new node can be seen, by its name, from its parent and from its siblings.** -/
theorem canSee_iff (hp : p.Forest) (hn : n < p.size) {x : String} :
    q.canSee n x = true ↔ p.canSee n x = true ∨ x = name ∧ p.Beside n parent := by
  rw [Plan.canSee_iff (hp.extend H.toExtends), Plan.canSee_iff hp]
  simp only [H.named_iff, H.near_iff hn]
  constructor
  -- no node of the old plan stands at the new handle, so name and place are both old or both new
  · rintro ⟨m, hname | ⟨hm, rfl⟩, hnear | ⟨hm', hbeside⟩⟩
    · exact .inl ⟨m, hname, hnear⟩
    · obtain ⟨node, hnode, _⟩ := hname
      exact absurd hm' (Nat.ne_of_lt (lt_size_of_node? hnode))
    · exact absurd hm (Nat.ne_of_lt (hnear.lt_size hp hn))
    · exact .inr ⟨rfl, hbeside⟩
  · rintro (⟨m, hname, hnear⟩ | ⟨rfl, hbeside⟩)
    · exact ⟨m, .inl hname, .inl hnear⟩
    · exact ⟨p.size, .inr ⟨rfl, rfl⟩, .inr ⟨rfl, hbeside⟩⟩

/-! ### Calls, lookups and types -/

/-- Types do not look at nodes without variables. -/
theorem typing_eq (root : ExprId) (t : Ty) : q.typing root t = p.typing root t := by
  rw [typing, typing, H.exprs, H.findVariable?_eq]

/-- Calls do not look at nodes without variables. -/
theorem checkCall_eq (node : String) (undeclared : Finding) (a : Action) :
    q.checkCall node undeclared a = p.checkCall node undeclared a := by
  have hconforms : ∀ d, q.conforms a d = p.conforms a d := fun d => by
    simp only [conforms, haveTypesOf, resultType, H.exprs, H.findVariable?_eq]
  simp only [checkCall, findDeclaration?, mismatch?, hconforms, H.exprs, H.declarations]

/-- The findings on lookups in an old node stay as they are. -/
theorem checkLookups_eq (hn : n < p.size) (context : String) (root : ExprId) :
    q.checkLookups n context root = p.checkLookups n context root := by
  rw [checkLookups, checkLookups, H.exprs]
  refine List.flatMap_congr fun h _ => ?_
  simp only [checkLookup_eq, lookupCall?, H.exprs, H.nodeName_eq hn, H.checkCall_eq]

/-- The target of an assignment of an old node is named as before. -/
theorem targetText_eq (hn : n < p.size) (target : ExprId) :
    q.targetText n target = p.targetText n target := by
  have hscope : q.findInScope? n = p.findInScope? n := funext (H.findInScope?_eq hn)
  rw [targetText, targetText, H.exprs, hscope]

/-- The findings on a node's call stay as they are. -/
theorem checkNodeCall_eq (node : Node) : q.checkNodeCall node = p.checkNodeCall node := by
  simp only [Plan.checkNodeCall_eq, H.checkCall_eq, H.exprs]

/-- A check that has nothing to say on the new node, and does not look at children, has the findings
that it had. -/
theorem onNodes_eq {check check' : NodeId → Node → List Finding}
    (hnew : check' p.size ⟨name, parent, [], [], none, []⟩ = [])
    (hold : ∀ n node, p.node? n = some node → ∀ children,
      check' n { node with children } = check n node) :
    q.onNodes check' = p.onNodes check := by
  rw [onNodes_eq_flatMap_range, onNodes_eq_flatMap_range, H.size, List.range_succ,
    List.flatMap_append, List.flatMap_singleton, H.new, Option.elim_some, hnew, List.append_nil]
  refine List.flatMap_congr fun n hn => ?_
  obtain ⟨node, children, hnode, hq⟩ := H.exists_old (List.mem_range.1 hn)
  rw [hq, hnode]
  exact hold n node hnode children

/-- There is nothing to say about calls of a node without an action. -/
theorem checkCalls_eq : q.checkCalls = p.checkCalls :=
  H.onNodes_eq rfl fun _ node _ _ => H.checkNodeCall_eq node

end Grows

/-! ### References -/

/-- To check a reference is to look up what it names. -/
theorem checkReference_congr {h : ExprId} (hexprs : q.exprs = p.exprs)
    (hscope : ∀ x, q.findInScope? n x = p.findInScope? n x) (hname : q.nodeName n = p.nodeName n)
    (hsee : ∀ target, p.nodeTarget? h = some target → q.canSee n target = p.canSee n target)
    (context : String) (root : ExprId) :
    q.checkReference n context root h = p.checkReference n context root h := by
  cases htarget : p.nodeTarget? h with
  | some target =>
    have htarget' : q.nodeTarget? h = some target := by rwa [nodeTarget?, hexprs]
    rw [checkReference_of_nodeTarget? htarget, checkReference_of_nodeTarget? htarget',
      hsee target htarget, hname]
  | none =>
    rw [checkReference, checkReference, hexprs]
    split
    · rename_i c hc
      split
      · rename_i hform
        have hprop := not_nodeProperty_of_nodeTarget? htarget hc hform
        rw [if_neg hprop, if_neg hprop, hscope]
      · rfl
    · rfl

/-- What is said of a variable is not said of a node. -/
theorem VariableReport.isUnseen {f : Finding} (hf : VariableReport f) : f.isUnseen name = false := by
  cases hf <;> rfl

/-- That a node cannot be seen is said in the same words wherever the expression stands. -/
theorem mem_checkReferences_of_isUnseen {root : ExprId} {context : String} {f : Finding}
    (hf : f ∈ p.checkReferences n context root) (hunseen : f.isUnseen name = true)
    (context' : String) : f ∈ p.checkReferences n context' root := by
  obtain ⟨h, hh, hf⟩ := List.mem_flatMap.1 hf
  refine List.mem_flatMap.2 ⟨h, hh, ?_⟩
  cases htarget : p.nodeTarget? h with
  | none =>
    rw [(variableReport_of_mem_checkReference htarget hf).isUnseen] at hunseen
    cases hunseen
  | some target =>
    rw [checkReference_of_nodeTarget? htarget] at hf ⊢
    exact hf

/-- That a node cannot be seen is reported for everything that is checked. It also keeps the types
of an assignment from being looked at, and is then reported in their place. -/
theorem mem_checkNodeExprs_of_isUnseen {node : Node} {root : ExprId} {context : String}
    {f : Finding} (hroot : root ∈ node.checked) (hf : f ∈ p.checkReferences n context root)
    (hunseen : f.isUnseen name = true) : f ∈ p.checkNodeExprs n node := by
  have hmem := mem_checkReferences_of_isUnseen hf hunseen
  rw [checkNodeExprs, List.mem_append]
  rcases List.mem_append.1 hroot with hroot | hroot
  · obtain ⟨c, hc, rfl⟩ := List.mem_map.1 hroot
    refine .inl (List.mem_flatMap.2 ⟨c, hc, ?_⟩)
    exact List.mem_append_left _ (List.mem_append_left _ (hmem _))
  · obtain ⟨⟨target, value⟩, hsides, hroot⟩ := List.mem_flatMap.1 hroot
    have hrefs : f ∈ p.assignmentReferences n node target value := by
      rcases List.mem_pair.1 hroot with rfl | rfl <;> simp [assignmentReferences, hmem]
    have hne : ¬ (p.assignmentReferences n node target value).isEmpty = true := fun hnil =>
      List.ne_nil_of_mem hrefs (List.isEmpty_iff.1 hnil)
    right
    rw [checkNodeAssignment_of_eq_some (Option.mem_toList.1 hsides), checkAssignment, if_neg hne]
    exact hrefs

namespace Grows

variable (H : p.Grows q name parent)

include H

/-- Beside the new node a reference loses its finding that no node of that name is in sight, and
nothing else. -/
theorem checkReference_of_beside (hp : p.Forest) (hn : n < p.size) (hbeside : p.Beside n parent)
    (context : String) (root h : ExprId) :
    q.checkReference n context root h =
      (p.checkReference n context root h).filter fun f => !f.isUnseen name := by
  cases htarget : p.nodeTarget? h with
  | none =>
    rw [checkReference_congr H.exprs (H.findInScope?_eq hn) (H.nodeName_eq hn) (by simp [htarget]),
      List.filter_eq_self.2]
    intro f hf
    rw [(variableReport_of_mem_checkReference htarget hf).isUnseen, Bool.not_false]
  | some target =>
    have htarget' : q.nodeTarget? h = some target := by rwa [nodeTarget?, H.exprs]
    have hsee : q.canSee n target = true ↔ p.canSee n target = true ∨ target = name :=
      (H.canSee_iff hp hn).trans (or_congr_right (and_iff_left hbeside))
    rw [checkReference_of_nodeTarget? htarget, checkReference_of_nodeTarget? htarget',
      H.nodeName_eq hn]
    by_cases hseen : p.canSee n target = true
    · rw [if_pos hseen, if_pos (hsee.2 (.inl hseen)), List.filter_nil]
    · by_cases hname : target = name
      · rw [if_pos (hsee.2 (.inr hname)), if_neg hseen]
        simp [Finding.isUnseen, hname]
      · rw [if_neg (hsee.not.2 (not_or.2 ⟨hseen, hname⟩)), if_neg hseen]
        simp [Finding.isUnseen, hname]

/-- **Beside the new node, what was said of its name is said no longer.** -/
theorem checkReferences_of_beside (hp : p.Forest) (hn : n < p.size) (hbeside : p.Beside n parent)
    (context : String) (root : ExprId) :
    q.checkReferences n context root =
      (p.checkReferences n context root).filter fun f => !f.isUnseen name := by
  rw [checkReferences, checkReferences, H.exprs, List.filter_flatMap]
  exact List.flatMap_congr fun h _ => H.checkReference_of_beside hp hn hbeside context root h

/-- Away from the new node references are checked as before. -/
theorem checkReferences_of_not_beside (hp : p.Forest) (hn : n < p.size)
    (hfar : ¬ p.Beside n parent) (context : String) (root : ExprId) :
    q.checkReferences n context root = p.checkReferences n context root := by
  have hsee : ∀ target, q.canSee n target = p.canSee n target := fun target =>
    Bool.eq_iff_iff.2 ((H.canSee_iff hp hn).trans (or_iff_left fun h => hfar h.2))
  rw [checkReferences, checkReferences, H.exprs]
  exact List.flatMap_congr fun h _ => checkReference_congr H.exprs (H.findInScope?_eq hn)
    (H.nodeName_eq hn) (fun target _ => hsee target) context root

/-- References that have no such finding are checked as before. -/
theorem checkReferences_eq (hp : p.Forest) (hn : n < p.size) {context : String} {root : ExprId}
    (hnone : ∀ f ∈ p.checkReferences n context root, f.isUnseen name = false) :
    q.checkReferences n context root = p.checkReferences n context root := by
  by_cases hbeside : p.Beside n parent
  · rw [H.checkReferences_of_beside hp hn hbeside, List.filter_eq_self.2]
    intro f hf
    rw [hnone f hf, Bool.not_false]
  · exact H.checkReferences_of_not_beside hp hn hbeside context root

/-! ### The verdict -/

/-- So are the conditions and the assignment of a node that has no such finding. -/
theorem checkNodeExprs_eq (hp : p.Forest) {node : Node} (hnode : p.node? n = some node)
    (hnone : ∀ f ∈ p.checkNodeExprs n node, f.isUnseen name = false) :
    q.checkNodeExprs n node = p.checkNodeExprs n node := by
  have hn := lt_size_of_node? hnode
  refine checkNodeExprs_congr (fun root hroot context => H.checkReferences_eq hp hn fun f hf => ?_)
    (fun root _ context => H.checkLookups_eq hn context root) (fun root _ => H.typing_eq root)
    fun root _ => H.targetText_eq hn root
  rw [Bool.eq_false_iff]
  intro hunseen
  have hreported := hnone f (mem_checkNodeExprs_of_isUnseen hroot hf hunseen)
  rw [hunseen] at hreported
  cases hreported

/-- **A verdict that says nothing of the name of a new node stays as it is.** -/
theorem check_eq (hp : p.Forest) (hnone : ∀ f ∈ p.check, f.isUnseen name = false) :
    q.check = p.check := by
  have hconflicts : q.checkConflicts = p.checkConflicts := by
    rw [checkConflicts, checkConflicts, H.declarations]
  have hexprs : q.checkExprs = p.checkExprs := by
    refine H.onNodes_eq rfl fun n node hnode children => ?_
    have hkept : q.checkNodeExprs n node = p.checkNodeExprs n node :=
      H.checkNodeExprs_eq hp hnode fun f hf =>
        hnone f (List.mem_append_right _ (mem_onNodes_iff.2 ⟨n, node, hnode, hf⟩))
    exact hkept
  rw [check, check, hconflicts, H.checkCalls_eq, hexprs]

end Grows

/-- **What one more node changes.** It can be added as a root or below any node. From its parent and
from the children of its parent its name can then be seen, and otherwise what could be seen before.
Calls, lookups and types have the findings they had. References have them too, less those that said
of its name that it cannot be seen from beside it. So a verdict without such a finding stays as it
is. -/
theorem check_addNode (edits : List Edit) (name : String) (parent : Option NodeId) :
    let p := build edits
    (∀ m, parent = some m → m < p.size) →
      ∃ q, p.addNode name parent = .ok (p.size, q) ∧
        q.checkCalls = p.checkCalls ∧
        (∀ root expected, q.typing root expected = p.typing root expected) ∧
        (∀ n < p.size,
          (∀ x, q.canSee n x = true ↔ p.canSee n x = true ∨ x = name ∧ p.Beside n parent) ∧
          ∀ context root,
            q.checkLookups n context root = p.checkLookups n context root ∧
            (p.Beside n parent → q.checkReferences n context root =
              (p.checkReferences n context root).filter fun f => !f.isUnseen name) ∧
            (¬ p.Beside n parent →
              q.checkReferences n context root = p.checkReferences n context root)) ∧
        ((∀ f ∈ p.check, f.isUnseen name = false) → q.check = p.check) := by
  intro p hparent
  have hp : p.Forest := forest_build edits
  obtain ⟨q, hq, H⟩ := p.exists_addNode name hparent
  refine ⟨q, hq, H.checkCalls_eq, H.typing_eq, fun n hn => ⟨fun x => H.canSee_iff hp hn, ?_⟩,
    H.check_eq hp⟩
  intro context root
  exact ⟨H.checkLookups_eq hn context root,
    fun hbeside => H.checkReferences_of_beside hp hn hbeside context root,
    fun hfar => H.checkReferences_of_not_beside hp hn hfar context root⟩

/-- Two nodes that start when a node `C` has finished. One has a parent, the other has none. -/
def awaitedNode : List Edit :=
  [.addNode "A" none, .addNode "B" (some 0), .addNode "D" none,
    .reference "C" (some .nodeState), .constant "FINISHED" .nodeState,
    .binary (.binary .eq) 0 1, .addCondition 1 .start 2,
    .reference "C" (some .nodeState), .constant "FINISHED" .nodeState,
    .binary (.binary .eq) 3 4, .addCondition 2 .start 5]

/-- With a `C` beside it, the node that has a parent has it in sight. The other one still has not. A
node of another name changes nothing. -/
theorem check_addNode_awaitedNode :
    let p := build awaitedNode
    p.Beside 1 (some 0) ∧ ¬ p.Beside 2 (some 0) ∧
      p.check = [.inaccessibleNode "C" "B", .inaccessibleNode "C" "D"] ∧
      (∃ q, p.addNode "C" (some 0) = .ok (3, q) ∧ q.canSee 1 "C" = true ∧
        q.checkReferences 1 "here" 2 = [] ∧
        q.checkReferences 2 "here" 5 = [.inaccessibleNode "C" "D"]) ∧
      ∃ q, p.addNode "E" (some 0) = .ok (3, q) ∧ q.check = p.check := by
  intro p
  have hparent : ∀ m, some 0 = some m → m < p.size := by
    rintro m ⟨⟩
    decide +kernel
  have hbeside : p.Beside 1 (some 0) := ⟨0, rfl, .inr (by unfold HasParent; decide +kernel)⟩
  have hfar : ¬ p.Beside 2 (some 0) := by
    rintro ⟨m, ⟨⟩, hm | hm⟩
    · cases hm
    · have hroot : p.parent? 2 = none := by decide +kernel
      cases hroot.symm.trans hm
  have hcheck : p.check = [.inaccessibleNode "C" "B", .inaccessibleNode "C" "D"] := by
    decide +kernel
  obtain ⟨q, hq, _, _, hnodes, _⟩ := check_addNode awaitedNode "C" (some 0) hparent
  obtain ⟨q', hq', _, _, _, hverdict⟩ := check_addNode awaitedNode "E" (some 0) hparent
  obtain ⟨hsee, hfindings⟩ := hnodes 1 (by decide +kernel)
  refine ⟨hbeside, hfar, hcheck,
    ⟨q, hq, (hsee "C").2 (.inr ⟨rfl, hbeside⟩), ?_, ?_⟩, q', hq', hverdict ?_⟩
  · rw [(hfindings "here" 2).2.1 hbeside]
    decide +kernel
  · rw [((hnodes 2 (by decide +kernel)).2 "here" 5).2.2 hfar]
    decide +kernel
  · rw [hcheck]
    decide +kernel

end Plan
end Preflight
