import Preflight.Plan.Scope

/-!
# The two ways to find a variable

By scope a name stands for the nearest variable on the way up from a node, and by itself for
the first one in the whole plan. Either way it is a variable of that name that some node
declares, and whatever is found by scope there is also something to find for by name. Both
look at the nodes of a plan alone.
-/

namespace Preflight
namespace Plan

variable {p q : Plan} {n : NodeId} {name : String} {v : Variable}

/-- Where the parents are the same, a node stands at the same handles. -/
theorem exists_node_of_parent_eq {m : NodeId} {node : Node}
    (hparent : (q.node? m).map Node.parent = (p.node? m).map Node.parent)
    (hnode : p.node? m = some node) : ∃ other, q.node? m = some other ∧ other.parent = node.parent :=
  Option.map_eq_some_iff.1 (hparent.trans (by rw [hnode, Option.map_some]))

/-- The way up from a node is the same in plans where it and the nodes before it have the same
parents. -/
theorem ancestry_congr
    (hparents : ∀ m ≤ n, (q.node? m).map Node.parent = (p.node? m).map Node.parent) :
    q.ancestry n = p.ancestry n := by
  fun_induction ancestry p n with
  | case1 n hnode =>
    have hnone : q.node? n = none :=
      Option.map_eq_none_iff.1 ((hparents n (Nat.le_refl n)).trans (by rw [hnode, Option.map_none]))
    rw [ancestry, hnone]
  | case2 n node hnode hparent =>
    obtain ⟨other, hother, heq⟩ := exists_node_of_parent_eq (hparents n (Nat.le_refl n)) hnode
    simp only [ancestry, hother, heq, hparent]
  | case3 n node hnode m hparent hlt ih =>
    obtain ⟨other, hother, heq⟩ := exists_node_of_parent_eq (hparents n (Nat.le_refl n)) hnode
    have habove := ih fun k hk => hparents k (Nat.le_trans hk (Nat.le_of_lt hlt))
    rw [ancestry]
    simp only [hother, heq, hparent, hlt, dite_true, habove]
  | case4 n node hnode m hparent hlt =>
    obtain ⟨other, hother, heq⟩ := exists_node_of_parent_eq (hparents n (Nat.le_refl n)) hnode
    rw [ancestry]
    simp only [hother, heq, hparent, hlt, dite_false]

/-- No handle on the way up is larger than the first. -/
theorem le_of_mem_ancestry {m : NodeId} (hm : m ∈ p.ancestry n) : m ≤ n := by
  fun_induction ancestry p n with
  | case1 n hnode => cases hm
  | case2 n node hnode hparent => exact Nat.le_of_eq (List.mem_singleton.1 hm)
  | case3 n node hnode k hparent hlt ih =>
    rcases List.mem_cons.1 hm with rfl | hm
    · exact Nat.le_refl m
    · exact Nat.le_trans (ih hm) (Nat.le_of_lt hlt)
  | case4 n node hnode k hparent hlt => exact Nat.le_of_eq (List.mem_singleton.1 hm)

/-- The way up goes to ever smaller handles. -/
theorem pairwise_ancestry (p : Plan) (n : NodeId) : (p.ancestry n).Pairwise (· > ·) := by
  fun_induction ancestry p n with
  | case1 n hnode => exact List.Pairwise.nil
  | case2 n node hnode hparent => exact List.pairwise_singleton _ n
  | case3 n node hnode k hparent hlt ih =>
    refine List.pairwise_cons.2 ⟨fun m hm => ?_, ih⟩
    exact Nat.lt_of_le_of_lt (le_of_mem_ancestry hm) hlt
  | case4 n node hnode k hparent hlt => exact List.pairwise_singleton _ n

/-- What a name stands for in a node depends on the nodes only. -/
theorem findInScope?_congr (hnodes : q.nodes = p.nodes) (n : NodeId) (name : String) :
    q.findInScope? n name = p.findInScope? n name := by
  have hnode? : ∀ m, q.node? m = p.node? m := fun m => by rw [node?, node?, hnodes]
  simp only [findInScope?, ancestry_congr fun m _ => congrArg _ (hnode? m), findLocal?, hnode?]

/-- A variable in scope is declared by some node. -/
theorem exists_findLocal?_of_findInScope? (hv : p.findInScope? n name = some v) :
    ∃ m, p.findLocal? m name = some v := by
  obtain ⟨m, _, hm⟩ := List.exists_of_findSome?_eq_some hv
  exact ⟨m, hm⟩

/-- A variable found by name is one of the first node that declares the name. -/
theorem exists_findLocal?_of_findVariable? (hv : p.findVariable? name = some v) :
    ∃ m, p.findLocal? m name = some v ∧ ∀ k < m, p.findLocal? k name = none := by
  rw [findVariable?, allVariables, List.find?_flatMap, List.findSome?_eq_some_iff] at hv
  obtain ⟨before, node, after, hnodes, hnode, hbefore⟩ := hv
  have hget : ∀ k, p.node? k = (before ++ node :: after)[k]? := fun k => by
    rw [node?, ← Array.getElem?_toList, hnodes]
  refine ⟨before.length, ?_, fun k hk => ?_⟩
  · have hlast : (before ++ node :: after)[before.length]? = some node := by simp
    rw [findLocal?, hget, hlast, Option.bind_some, Node.findVariable?, hnode]
  · rw [findLocal?, hget, List.getElem?_append_left hk, List.getElem?_eq_getElem hk,
      Option.bind_some]
    exact hbefore _ (List.getElem_mem hk)

/-- A variable that is found in a node is among all variables. -/
theorem mem_allVariables_of_findLocal? {m : NodeId} (hv : p.findLocal? m name = some v) :
    v ∈ p.allVariables ∧ v.name = name := by
  obtain ⟨node, hnode, hlocal⟩ := Option.bind_eq_some_iff.1 hv
  refine ⟨List.mem_flatMap.2 ⟨node, ?_, List.mem_of_find?_eq_some hlocal⟩, ?_⟩
  · exact List.mem_of_getElem? (by rwa [Array.getElem?_toList])
  · exact eq_of_beq (List.find?_some (p := fun u : Variable => u.name == name) hlocal)

/-- A name that some node declares is found. -/
theorem isSome_findVariable? {m : NodeId} (hv : p.findLocal? m name = some v) :
    (p.findVariable? name).isSome := by
  obtain ⟨hmem, rfl⟩ := mem_allVariables_of_findLocal? hv
  exact List.find?_isSome.2 ⟨v, hmem, beq_self_eq_true _⟩

/-- What a name stands for has that name. -/
theorem name_of_findInScope? (hv : p.findInScope? n name = some v) : v.name = name := by
  obtain ⟨m, hm⟩ := exists_findLocal?_of_findInScope? hv
  exact (mem_allVariables_of_findLocal? hm).2

end Plan
end Preflight
