import Preflight.Plan.Scope
import Preflight.Proofs.Plan.Forest

/-!
# Which nodes can be seen

From inside a node one sees the nodes near it: the node itself, its children, its parent and its
parent's children. The search for a name goes through lists of children, while `Near` speaks of
parents alone; the two agree because the nodes are a forest (`canSee_iff`).

Nearness is symmetric, and so is sight, once a name belongs to one node (`canSee_iff_of_nodup`).
What is two steps away is not near, on the same line or across it, and of the roots a node is near
to itself and to its parent only (`Distant.not_near`). A distant node can still have the name of a
near one, and then its name is seen for the other's sake.
-/

namespace Preflight
namespace Plan

variable {p : Plan} {m n : NodeId} {name : String}

/-- There is a node at `n`, and it has that name. -/
def Named (p : Plan) (n : NodeId) (name : String) : Prop :=
  ∃ node, p.node? n = some node ∧ node.name = name

/-- The node at the second handle is near the one at `n`. -/
inductive Near (p : Plan) (n : NodeId) : NodeId → Prop where
  | self : Near p n n
  | child {m : NodeId} (hm : p.HasParent m n) : Near p n m
  | parent {m : NodeId} (hn : p.HasParent n m) : Near p n m
  | sibling {m k : NodeId} (hn : p.HasParent n k) (hm : p.HasParent m k) : Near p n m

/-- The node at the second handle is one of those around `n` that are too far off to be near. -/
inductive Distant (p : Plan) (n : NodeId) : NodeId → Prop where
  | grandparent {m k : NodeId} (hn : p.HasParent n k) (hk : p.HasParent k m) : Distant p n m
  | grandchild {m k : NodeId} (hm : p.HasParent m k) (hk : p.HasParent k n) : Distant p n m
  | cousin {m j k l : NodeId} (hn : p.HasParent n j) (hm : p.HasParent m k) (hjk : j ≠ k)
      (hj : p.HasParent j l) (hk : p.HasParent k l) : Distant p n m
  | otherRoot {m : NodeId} (hm : m ∈ p.roots) (hne : m ≠ n) (hn : ¬ p.HasParent n m) :
      Distant p n m

/-- Nearness goes both ways. -/
theorem Near.symm (hnear : p.Near n m) : p.Near m n := by
  cases hnear with
  | self => exact .self
  | child hm => exact .parent hm
  | parent hn => exact .child hn
  | sibling hn hm => exact .sibling hm hn

/-- What is near to a node is a node. -/
theorem Near.lt_size (hp : p.Forest) (hn : n < p.size) (hnear : p.Near n m) : m < p.size := by
  cases hnear with
  | self => exact hn
  | child hm => exact lt_size_of_parent? hm
  | parent hm => exact Nat.lt_trans (hp.above hm) hn
  | sibling _ hm => exact lt_size_of_parent? hm

/-! ### Sight -/

/-- The test for a name says whether the node has it. -/
theorem isNamed_iff : p.isNamed n name = true ↔ p.Named n name := by
  simp only [isNamed, Option.any_eq_true, beq_iff_eq, Named]

/-- The children of a node are those that have it for a parent. -/
theorem hasChildNamed_iff (hp : p.Forest) :
    p.hasChildNamed n name = true ↔ ∃ m, p.HasParent m n ∧ p.Named m name := by
  simp only [hasChildNamed, Option.any_eq_true, List.any_eq_true, isNamed_iff]
  constructor
  · rintro ⟨node, hnode, m, hm, hname⟩
    exact ⟨m, ((hp.children_spec hnode).2 m).1 hm, hname⟩
  · rintro ⟨m, hm, hname⟩
    have hn : n < p.size := Nat.lt_trans (hp.above hm) (lt_size_of_parent? hm)
    have hnode : p.node? n = some p.nodes[n] := Array.getElem?_eq_getElem hn
    exact ⟨_, hnode, m, ((hp.children_spec hnode).2 m).2 hm, hname⟩

/-- **A name can be seen exactly if a near node has it.** -/
theorem canSee_iff (hp : p.Forest) :
    p.canSee n name = true ↔ ∃ m, p.Named m name ∧ p.Near n m := by
  simp only [canSee, Bool.or_eq_true, Option.any_eq_true, isNamed_iff, hasChildNamed_iff hp]
  constructor
  · rintro ((hname | ⟨m, hm, hname⟩) | ⟨k, hk, hname | ⟨m, hm, hname⟩⟩)
    · exact ⟨n, hname, .self⟩
    · exact ⟨m, hname, .child hm⟩
    · exact ⟨k, hname, .parent hk⟩
    · exact ⟨m, hname, .sibling hk hm⟩
  · rintro ⟨m, hname, hnear⟩
    cases hnear with
    | self => exact .inl (.inl hname)
    | child hm => exact .inl (.inr ⟨m, hm, hname⟩)
    | parent hn => exact .inr ⟨m, hn, .inl hname⟩
    | sibling hn hm => exact .inr ⟨_, hn, .inr ⟨m, hm, hname⟩⟩

/-- Where no two nodes share a name, a name belongs to one node. -/
theorem Named.unique (hnames : (p.nodes.toList.map Node.name).Nodup) (hn : p.Named n name)
    (hm : p.Named m name) : n = m := by
  have hget : ∀ {k}, p.Named k name → (p.nodes.toList.map Node.name)[k]? = some name := by
    rintro k ⟨node, hnode, rfl⟩
    rw [List.getElem?_map, Array.getElem?_toList, ← node?, hnode, Option.map_some]
  obtain ⟨hlt, _⟩ := List.getElem?_eq_some_iff.1 (hget hn)
  exact (List.getElem?_inj hlt hnames).1 ((hget hn).trans (hget hm).symm)

/-- Where no two nodes share a name, a node can be seen exactly if it is near. -/
theorem canSee_iff_of_nodup (hp : p.Forest) (hnames : (p.nodes.toList.map Node.name).Nodup)
    (hm : p.Named m name) : p.canSee n name = true ↔ p.Near n m := by
  rw [canSee_iff hp]
  constructor
  · rintro ⟨k, hk, hnear⟩
    exact hm.unique hnames hk ▸ hnear
  · intro hnear
    exact ⟨m, hm, hnear⟩

/-! ### What is out of sight -/

/-- The parent of the parent is not near. Handles go down from a node to its parent, so it is none
of the nodes around. -/
theorem not_near_of_grandparent (hp : p.Forest) {k : NodeId} (hn : p.HasParent n k)
    (hk : p.HasParent k m) : ¬ p.Near n m := by
  have hkn := hp.above hn
  have hmk := hp.above hk
  intro hnear
  cases hnear with
  | self => exact Nat.lt_asymm hkn hmk
  | child hm => exact Nat.lt_asymm (hp.above hm) (Nat.lt_trans hmk hkn)
  | parent hn' =>
    obtain rfl := hn.unique hn'
    exact Nat.lt_irrefl _ hmk
  | sibling hn' hm =>
    obtain rfl := hn.unique hn'
    exact Nat.lt_asymm hmk (hp.above hm)

/-- Children of siblings are not near each other. If one were the parent of the other, its own
parent would be its grandparent too. -/
theorem not_near_of_cousin (hp : p.Forest) {j k l : NodeId} (hn : p.HasParent n j)
    (hm : p.HasParent m k) (hjk : j ≠ k) (hj : p.HasParent j l) (hk : p.HasParent k l) :
    ¬ p.Near n m := by
  intro hnear
  cases hnear with
  | self => exact hjk (hn.unique hm)
  | child hm' =>
    obtain rfl := hm.unique hm'
    obtain rfl := hn.unique hk
    exact Nat.lt_irrefl _ (hp.above hj)
  | parent hn' =>
    obtain rfl := hn.unique hn'
    obtain rfl := hm.unique hj
    exact Nat.lt_irrefl _ (hp.above hk)
  | sibling hn' hm' => exact hjk ((hn.unique hn').trans (hm'.unique hm))

/-- Of the roots a node is near to itself and to its parent only. -/
theorem not_near_of_otherRoot (hp : p.Forest) (hm : m ∈ p.roots) (hne : m ≠ n)
    (hn : ¬ p.HasParent n m) : ¬ p.Near n m := by
  have hnone : ∀ {k}, ¬ p.HasParent m k := fun {k} hk => by
    rw [HasParent, ((hp.roots_spec.2 m).1 hm).2] at hk
    cases hk
  intro hnear
  cases hnear with
  | self => exact hne rfl
  | child hm' => exact hnone hm'
  | parent hn' => exact hn hn'
  | sibling _ hm' => exact hnone hm'

/-- What is two steps away is not near. -/
theorem Distant.not_near (hp : p.Forest) (hdistant : p.Distant n m) : ¬ p.Near n m := by
  cases hdistant with
  | grandparent hn hk => exact not_near_of_grandparent hp hn hk
  | grandchild hm hk => exact fun hnear => not_near_of_grandparent hp hm hk hnear.symm
  | cousin hn hm hjk hj hk => exact not_near_of_cousin hp hn hm hjk hj hk
  | otherRoot hm hne hn => exact not_near_of_otherRoot hp hm hne hn

/-- **From inside a node the near nodes can be seen, and no others.**  A name can be seen exactly
if a near node has it. Nearness is symmetric, and where no two nodes share a name so is sight.
Grandparents, grandchildren and cousins are not near, nor are roots other than the node and its
parent. -/
theorem canSee_iff_near (edits : List Edit) :
    let p := build edits
    (∀ n name, p.canSee n name = true ↔ ∃ m, p.Named m name ∧ p.Near n m) ∧
      (∀ n m, p.Near n m ↔ p.Near m n) ∧
      ((p.nodes.toList.map Node.name).Nodup → ∀ n m x y, p.Named n x → p.Named m y →
        (p.canSee n y = true ↔ p.Near n m) ∧ (p.canSee n y = true ↔ p.canSee m x = true)) ∧
      ∀ n m, p.Distant n m → ¬ p.Near n m := by
  intro p
  have hp : p.Forest := forest_build edits
  have hsymm : ∀ n m, p.Near n m ↔ p.Near m n := fun _ _ => ⟨Near.symm, Near.symm⟩
  refine ⟨fun _ _ => canSee_iff hp, hsymm, fun hnames n m x y hx hy => ?_,
    fun _ _ => Distant.not_near hp⟩
  have hsee : p.canSee n y = true ↔ p.Near n m := canSee_iff_of_nodup hp hnames hy
  have hsee' : p.canSee m x = true ↔ p.Near m n := canSee_iff_of_nodup hp hnames hx
  exact ⟨hsee, hsee.trans ((hsymm n m).trans hsee'.symm)⟩

/-- Two trees. In the first, the children of the root have a child each. -/
def familyAndStranger : List Edit :=
  [.addNode "A" none, .addNode "Z" none, .addNode "B" (some 0), .addNode "C" (some 0),
    .addNode "D" (some 2), .addNode "E" (some 3)]

/-- Siblings see each other. Cousins do not, nor does a node see its grandparent, nor the root of
another tree. -/
theorem canSee_iff_near_familyAndStranger :
    let p := build familyAndStranger
    (p.nodes.toList.map Node.name).Nodup ∧ p.Named 2 "B" ∧ p.Named 3 "C" ∧
      p.canSee 2 "C" = true ∧ p.canSee 3 "B" = true ∧
      p.Distant 4 5 ∧ p.canSee 4 "E" = false ∧ p.Distant 4 0 ∧ p.canSee 4 "A" = false ∧
      p.Distant 2 1 ∧ p.canSee 2 "Z" = false := by
  intro p
  have hnames : (p.nodes.toList.map Node.name).Nodup := by decide +kernel
  have hnamed : ∀ {n name}, p.isNamed n name = true → p.Named n name := isNamed_iff.1
  have hparent : ∀ {n m}, p.parent? n = some m → p.HasParent n m := id
  obtain ⟨_, _, hsight, hfar⟩ := canSee_iff_near familyAndStranger
  have hunseen : ∀ {n m x y}, p.Named n x → p.Named m y → p.Distant n m → p.canSee n y = false :=
    fun hx hy hdistant => Bool.eq_false_iff.2 fun hsee =>
      hfar _ _ hdistant ((hsight hnames _ _ _ _ hx hy).1.1 hsee)
  have hA : p.Named 0 "A" := hnamed (by decide +kernel)
  have hB : p.Named 2 "B" := hnamed (by decide +kernel)
  have hC : p.Named 3 "C" := hnamed (by decide +kernel)
  have hD : p.Named 4 "D" := hnamed (by decide +kernel)
  have hBA : p.HasParent 2 0 := hparent (by decide +kernel)
  have hCA : p.HasParent 3 0 := hparent (by decide +kernel)
  have hDB : p.HasParent 4 2 := hparent (by decide +kernel)
  have hcousin : p.Distant 4 5 := .cousin hDB (hparent (by decide +kernel)) (by decide) hBA hCA
  have hgrandparent : p.Distant 4 0 := .grandparent hDB hBA
  have hstranger : p.Distant 2 1 := .otherRoot (by decide +kernel) (by decide) fun h => by
    cases hBA.unique h
  have hsiblings := hsight hnames 2 3 "B" "C" hB hC
  have hsee : p.canSee 2 "C" = true := hsiblings.1.2 (.sibling hBA hCA)
  exact ⟨hnames, hB, hC, hsee, hsiblings.2.1 hsee,
    hcousin, hunseen hD (hnamed (by decide +kernel)) hcousin,
    hgrandparent, hunseen hD hA hgrandparent,
    hstranger, hunseen hB (hnamed (by decide +kernel)) hstranger⟩

end Plan
end Preflight
