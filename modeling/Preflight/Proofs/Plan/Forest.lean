import Preflight.Proofs.Plan.Building

/-!
# The nodes of a plan are a forest

A plan writes its tree down three times: each node has its parent, each node has the list of
its children, and the plan has the list of its roots. `Forest` says that the three agree: a
parent comes before its children, the children of a node are the handles whose parent it is,
and the roots are those that have none, both in the order of the handles.

Only the addition of a node touches any of the three. It adds the last handle to one list,
that of the roots or that of the children of one node (`extends_addRoot`, `extends_addChild`),
and this keeps the forest (`Forest.extend`). Every other step leaves parents and children as
they are (`Forest.modify`). So the nodes of every plan that can be built are a forest, and
each of them is below exactly one root (`forest_of_edits`).
-/

namespace Preflight
namespace Plan

variable {p q : Plan} {m n : NodeId}

/-- The parent of the node at a handle, if there is a node and it has one. -/
def parent? (p : Plan) (n : NodeId) : Option NodeId :=
  (p.node? n).bind Node.parent

/-- The node at `m` is the parent of the one at `n`. -/
def HasParent (p : Plan) (n m : NodeId) : Prop :=
  p.parent? n = some m

/-- A node has one parent at most. -/
theorem HasParent.unique {k : NodeId} (hm : p.HasParent n m) (hk : p.HasParent n k) : m = k :=
  Option.some.inj (hm.symm.trans hk)

/-- Parents, children and roots tell of the same forest. -/
structure Forest (p : Plan) : Prop where
  above : ∀ {n m}, p.parent? n = some m → m < n
  children : ∀ {m node}, p.node? m = some node →
    node.children = (List.range p.size).filter fun n => p.parent? n = some m
  roots : p.roots = (List.range p.size).filter fun n => p.parent? n = none

/-! ### Handles -/

/-- A handle with a node is below the size. -/
theorem lt_size_of_node? {node : Node} (hnode : p.node? n = some node) : n < p.size :=
  (Array.getElem?_eq_some_iff.1 hnode).1

/-- A handle with a parent is below the size. -/
theorem lt_size_of_parent? (hm : p.parent? n = some m) : n < p.size := by
  obtain ⟨node, hnode, _⟩ := Option.bind_eq_some_iff.1 hm
  exact lt_size_of_node? hnode

/-! ### What a step does to the forest -/

/-- The parent of every node stays what it was when a node is changed in another respect. -/
theorem parent?_modify {f : Node → Node} (hparent : ∀ node, (f node).parent = node.parent)
    (k n : NodeId) :
    ({ p with nodes := p.nodes.modify k f } : Plan).parent? n = p.parent? n := by
  simp only [parent?, node?, Array.getElem?_modify]
  split_ifs
  · cases p.nodes[n]? <;> simp [hparent]
  · rfl

/-- `q` is `p` with one more node: the last handle, below `parent` if there is one. -/
structure Extends (p q : Plan) (parent : Option NodeId) : Prop where
  size : q.size = p.size + 1
  below : ∀ m, parent = some m → m < p.size
  parents : ∀ n, q.parent? n = if n = p.size then parent else p.parent? n
  children : ∀ k node, q.node? k = some node → k = p.size ∧ node.children = [] ∨
    ∃ old, p.node? k = some old ∧
      node.children = old.children ++ if parent = some k then [p.size] else []
  roots : q.roots = p.roots ++ if parent = none then [p.size] else []

/-- After an addition there is one more child of one more parent, and nothing else is new. -/
theorem Extends.hasParent_iff {parent : Option NodeId} (H : p.Extends q parent) :
    q.HasParent n m ↔ p.HasParent n m ∨ n = p.size ∧ parent = some m := by
  rw [HasParent, HasParent, H.parents]
  by_cases hn : n = p.size
  · have hnot : ¬ p.parent? n = some m := fun h => Nat.ne_of_lt (lt_size_of_parent? h) hn
    simp [hn, hn ▸ hnot]
  · simp [hn]

/-- The new handle is the last among those with its parent, and the others are as before. -/
theorem Extends.filter_range {parent : Option NodeId} (H : p.Extends q parent)
    (o : Option NodeId) :
    ((List.range q.size).filter fun n => q.parent? n = o) =
      ((List.range p.size).filter fun n => p.parent? n = o) ++
        if parent = o then [p.size] else [] := by
  rw [H.size, List.range_succ, List.filter_append]
  congr 1
  · refine List.filter_congr fun n hn => ?_
    have hne : n ≠ p.size := Nat.ne_of_lt (List.mem_range.1 hn)
    rw [H.parents, if_neg hne]
  · simp [List.filter_singleton, H.parents]

/-- A new root adds the last handle to the roots. -/
theorem extends_addRoot (p : Plan) (name : String) :
    p.Extends { p with
      nodes := p.nodes.push ⟨name, none, [], [], none, []⟩, roots := p.roots ++ [p.size] }
      none where
  size := Array.size_push _
  below := nofun
  parents := fun n => by
    rw [parent?, node?, Array.getElem?_push]
    by_cases hn : n = p.size
    · rw [if_pos hn, if_pos (show n = p.nodes.size from hn)]
      rfl
    · rw [if_neg hn, if_neg (show ¬ n = p.nodes.size from hn)]
      rfl
  children := fun k node hnode => by
    rw [node?, Array.getElem?_push] at hnode
    split_ifs at hnode with hk
    · obtain rfl := Option.some.inj hnode
      exact .inl ⟨hk, rfl⟩
    · exact .inr ⟨node, hnode, by simp⟩
  roots := rfl

/-- A new child adds the last handle to the children of its parent. -/
theorem extends_addChild (name : String) (hm : m < p.size) :
    p.Extends { p with
      nodes := (p.nodes.modify m fun above =>
        { above with children := above.children ++ [p.size] }).push
          ⟨name, some m, [], [], none, []⟩ } (some m) where
  size := by simp [Plan.size]
  below := fun _ heq => Option.some.inj heq ▸ hm
  parents := fun n => by
    rw [parent?, node?, Array.getElem?_push, Array.size_modify]
    by_cases hn : n = p.size
    · rw [if_pos hn, if_pos (show n = p.nodes.size from hn)]
      rfl
    · rw [if_neg hn, if_neg (show ¬ n = p.nodes.size from hn)]
      exact parent?_modify (p := p) (by intro; rfl) m n
  children := fun k node hnode => by
    rw [node?, Array.getElem?_push, Array.size_modify] at hnode
    split_ifs at hnode with hk
    · obtain rfl := Option.some.inj hnode
      exact .inl ⟨hk, rfl⟩
    · rw [Array.getElem?_modify] at hnode
      refine .inr ?_
      by_cases hmk : m = k
      · rw [if_pos hmk] at hnode
        obtain ⟨old, hold, rfl⟩ := Option.map_eq_some_iff.1 hnode
        exact ⟨old, hold, by simp [hmk]⟩
      · rw [if_neg hmk] at hnode
        exact ⟨node, hnode, by simp [hmk]⟩
  roots := by simp

namespace Forest

/-- A change that keeps parents and children keeps the forest. -/
theorem modify (hp : p.Forest) {f : Node → Node} (hparent : ∀ node, (f node).parent = node.parent)
    (hchildren : ∀ node, (f node).children = node.children) (k : NodeId) :
    ({ p with nodes := p.nodes.modify k f } : Plan).Forest where
  above := fun {n m} hm => hp.above (by rwa [parent?_modify hparent] at hm)
  children := fun {m node} hnode => by
    obtain ⟨old, hold, hcase⟩ := node_of_modify hnode
    have hkept : node.children = old.children := by
      rcases hcase with rfl | rfl
      · rfl
      · exact hchildren old
    simpa only [parent?_modify hparent, size, Array.size_modify, hkept] using hp.children hold
  roots := by
    simpa only [parent?_modify hparent, size, Array.size_modify] using hp.roots

/-- A new node keeps the forest: it is the last child of its parent or the last root, and has
no children, since all parents come before it. -/
theorem extend {parent : Option NodeId} (hp : p.Forest) (H : p.Extends q parent) : q.Forest where
  above := fun {n m} hm => by
    rw [H.parents] at hm
    split_ifs at hm with hn
    · exact hn ▸ H.below m hm
    · exact hp.above hm
  children := fun {k node} hnode => by
    rw [H.filter_range]
    rcases H.children k node hnode with ⟨rfl, hnil⟩ | ⟨old, hold, hkept⟩
    · have hnone : parent ≠ some p.size := fun heq => Nat.lt_irrefl _ (H.below _ heq)
      rw [hnil, if_neg hnone, List.append_nil, eq_comm, List.filter_eq_nil_iff]
      intro n hn hparent
      exact Nat.lt_asymm (hp.above (of_decide_eq_true hparent)) (List.mem_range.1 hn)
    · rw [hkept, hp.children hold]
  roots := by rw [H.filter_range, H.roots, hp.roots]

/-- **Every step keeps the forest.** -/
theorem step (hp : p.Forest) (hstep : p.Step q) : q.Forest := by
  cases hstep with
  | declare d => exact ⟨hp.above, hp.children, hp.roots⟩
  | exprs hs => exact ⟨hp.above, hp.children, hp.roots⟩
  | addRoot name => exact hp.extend (p.extends_addRoot name)
  | addChild name m hm => exact hp.extend (extends_addChild name hm)
  | declareVariable n v hn => exact hp.modify (by intro; rfl) (by intro; rfl) n
  | addCondition n kind h hn hh => exact hp.modify (by intro; rfl) (by intro; rfl) n
  | setAction n a hn ha => exact hp.modify (by intro; rfl) (by intro; rfl) n

/-- Children come in increasing order, and are the nodes that have the node for a parent. -/
theorem children_spec (hp : p.Forest) {node : Node} (hnode : p.node? m = some node) :
    node.children.Pairwise (· < ·) ∧ ∀ n, n ∈ node.children ↔ p.HasParent n m := by
  rw [hp.children hnode]
  refine ⟨List.pairwise_lt_range.filter _, fun n => ?_⟩
  simpa [HasParent] using lt_size_of_parent?

/-- Roots come in increasing order, and are the nodes without a parent. -/
theorem roots_spec (hp : p.Forest) :
    p.roots.Pairwise (· < ·) ∧ ∀ n, n ∈ p.roots ↔ n < p.size ∧ p.parent? n = none := by
  rw [hp.roots]
  exact ⟨List.pairwise_lt_range.filter _, fun n => by simp⟩

/-- The way up from a node ends in a root, since parents have smaller handles. -/
theorem exists_root (hp : p.Forest) (hn : n < p.size) :
    ∃ r ∈ p.roots, Relation.ReflTransGen p.HasParent n r := by
  induction n using Nat.strongRecOn with
  | _ n ih =>
    cases hparent : p.parent? n with
    | none => exact ⟨n, (hp.roots_spec.2 n).2 ⟨hn, hparent⟩, .refl⟩
    | some m =>
      have hlt := hp.above hparent
      obtain ⟨r, hr, hway⟩ := ih m hlt (Nat.lt_trans hlt hn)
      exact ⟨r, hr, hway.head hparent⟩

/-- **Every node is below exactly one root.** -/
theorem existsUnique_root (hp : p.Forest) (hn : n < p.size) :
    ∃! r, r ∈ p.roots ∧ Relation.ReflTransGen p.HasParent n r := by
  have hend : ∀ {r}, r ∈ p.roots → ∀ m, ¬ p.HasParent r m := by
    intro r hr m hm
    have hnone := ((hp.roots_spec.2 r).1 hr).2
    rw [HasParent, hnone] at hm
    cases hm
  have hunique : Relator.RightUnique p.HasParent := fun _ _ _ => HasParent.unique
  obtain ⟨r, hr, hway⟩ := hp.exists_root hn
  refine ⟨r, ⟨hr, hway⟩, fun r' ⟨hr', hway'⟩ => ?_⟩
  exact end_unique hunique (hend hr') (hend hr) hway' hway

end Forest

/-- No nodes are a forest. -/
theorem forest_empty : empty.Forest where
  above := fun {n m} hm => by simp [parent?, node?, empty] at hm
  children := fun {m node} hnode => by simp [node?, empty] at hnode
  roots := rfl

/-- The nodes of every plan that was built are a forest. -/
theorem forest_build (edits : List Edit) : (build edits).Forest :=
  build_induction forest_empty (fun hp hstep => hp.step hstep) edits

/-- To start from declarations is to start from nothing and declare. -/
theorem foldl_after_withDeclarations (declarations : List Declaration) (edits : List Edit) :
    edits.foldl after (withDeclarations declarations) =
      build (declarations.map .declare ++ edits) := by
  have hdeclare : ∀ (ds : List Declaration) (p : Plan),
      (ds.map Edit.declare).foldl after p = { p with declarations := p.declarations ++ ds } := by
    intro ds
    induction ds with
    | nil => intro p; simp
    | cons d ds ih =>
      intro p
      rw [List.map_cons, List.foldl_cons, ih]
      simp [after, apply, declare]
  rw [build, List.foldl_append, hdeclare]
  rfl

/-- **The nodes of every plan are a forest over its expressions.**  A parent comes before its
children. The children of a node are the nodes that have it for a parent, in increasing
order; the roots are the nodes without a parent, in increasing order. Every node is below
exactly one root. What conditions and actions speak of is in the store. -/
theorem forest_of_edits (declarations : List Declaration) (edits : List Edit) :
    let p := edits.foldl after (withDeclarations declarations)
    (∀ n m, p.HasParent n m → m < n) ∧
      (∀ m node, p.node? m = some node →
        node.children.Pairwise (· < ·) ∧ ∀ n, n ∈ node.children ↔ p.HasParent n m) ∧
      (p.roots.Pairwise (· < ·) ∧ ∀ n, n ∈ p.roots ↔ n < p.size ∧ p.parent? n = none) ∧
      (∀ n < p.size, ∃! r, r ∈ p.roots ∧ Relation.ReflTransGen p.HasParent n r) ∧
      ∀ n node, p.node? n = some node →
        (∀ c ∈ node.conditions, p.exprs.contains c.expr = true) ∧
          ∀ a, node.action = some a → ∀ h ∈ a.exprs, p.exprs.contains h = true := by
  intro p
  have hbuild : p = build (declarations.map .declare ++ edits) :=
    foldl_after_withDeclarations declarations edits
  have hp : p.Forest := hbuild ▸ forest_build _
  have hground : p.Grounded := hbuild ▸ grounded_build _
  refine ⟨fun _ _ => hp.above, fun _ _ => hp.children_spec, hp.roots_spec,
    fun _ => hp.existsUnique_root, fun n node hnode => ⟨fun c hc => ?_, fun a ha h hh => ?_⟩⟩
  · exact hground n node hnode _ (List.mem_append_left _ (List.mem_map_of_mem hc))
  · exact hground n node hnode h (List.mem_append_right _ (by simpa [ha] using hh))

end Plan
end Preflight
