import Preflight.Proofs.Plan.Forest
import Preflight.Proofs.Plan.Scope

/-!
# The nearest variable of a name

Inside a node a name stands for the first variable of that name in the nearest node, on the way
up to the root, that declares one. `WayUp` is that way, from a node to its parent and on to a
root; `DeclaresFirst` says which variable is the first of its name in one node; and `ClearUpTo`
that the name is declared nowhere on the way before a given node. What is found in scope is said
with these three alone (`findInScope?_eq_some_iff`, `findInScope?_eq_none_iff`).

A new variable is the last one of its node. So it is found from the nodes from which the way up
comes to its node and is clear of its name until then, that node included
(`findInScope?_of_clear`); for every other node, and for every other name, what is found stays
what it was (`findInScope?_of_not_clear`).

By itself a name stands for the first variable of that name in the whole plan, node after node in
the order of the handles (`findVariable?_eq_some_iff`). Since a node finds its own variables first,
the two ways agree on types for all nodes exactly if no node declares a name at another type than
the first one to declare it (`typesAgree_iff`).
-/

namespace Preflight

/-- A search through a list depends on what is found at its members. -/
theorem findSome?_congr {α β : Type} {f g : α → Option β} {l : List α}
    (hfg : ∀ a ∈ l, f a = g a) : l.findSome? f = l.findSome? g := by
  induction l with
  | nil => rfl
  | cons a l ih =>
    obtain ⟨ha, hl⟩ := List.forall_mem_cons.1 hfg
    rw [List.findSome?_cons, List.findSome?_cons, ha, ih hl]

namespace Plan

variable {p q : Plan} {k m n : NodeId} {name : String} {v w : Variable}

/-- The node at `n` declares a variable of that name. -/
def Declares (p : Plan) (n : NodeId) (name : String) : Prop :=
  ∃ node, p.node? n = some node ∧ ∃ v ∈ node.locals, v.name = name

/-- The node at `n` declares variables of that name, the first of which is `v`. -/
def DeclaresFirst (p : Plan) (n : NodeId) (name : String) (v : Variable) : Prop :=
  ∃ node, p.node? n = some node ∧ ∃ before after, node.locals = before ++ v :: after ∧
    v.name = name ∧ ∀ u ∈ before, u.name ≠ name

/-- The nodes from `n` up to a root, each followed by its parent. -/
inductive WayUp (p : Plan) : NodeId → List NodeId → Prop where
  | root {n : NodeId} (hn : n ∈ p.roots) : WayUp p n [n]
  | child {n m : NodeId} {above : List NodeId} (hm : p.HasParent n m) (hway : WayUp p m above) :
      WayUp p n (n :: above)

/-- The way up from `n` comes to `m`, and no node on it before `m` declares the name. -/
def ClearUpTo (p : Plan) (n m : NodeId) (name : String) : Prop :=
  ∃ nearer farther, p.ancestry n = nearer ++ m :: farther ∧ ∀ k ∈ nearer, ¬ p.Declares k name

/-! ### In one node -/

/-- In a node the first variable of a name is found. -/
theorem findLocal?_eq_some_iff : p.findLocal? n name = some v ↔ p.DeclaresFirst n name v := by
  rw [findLocal?, Option.bind_eq_some_iff]
  refine exists_congr fun node => and_congr_right fun _ => ?_
  simp only [Node.findVariable?, List.find?_eq_some_iff_append, beq_iff_eq, Bool.not_eq_true',
    beq_eq_false_iff_ne]
  constructor
  · rintro ⟨hname, before, after, hlocals, hbefore⟩
    exact ⟨before, after, hlocals, hname, hbefore⟩
  · rintro ⟨before, after, hlocals, hname, hbefore⟩
    exact ⟨hname, before, after, hlocals, hbefore⟩

/-- In a node nothing is found exactly if it does not declare the name. -/
theorem findLocal?_eq_none_iff : p.findLocal? n name = none ↔ ¬ p.Declares n name := by
  rw [findLocal?, Option.bind_eq_none_iff]
  simp only [Node.findVariable?, List.find?_eq_none, beq_iff_eq, Declares, not_exists, not_and]

/-- A node that has a first variable of a name declares the name. -/
theorem DeclaresFirst.declares (hv : p.DeclaresFirst n name v) : p.Declares n name := by
  obtain ⟨node, hnode, before, after, hlocals, hname, _⟩ := hv
  exact ⟨node, hnode, v, by simp [hlocals], hname⟩

/-- The first variable of a name is one. -/
theorem DeclaresFirst.unique (hv : p.DeclaresFirst n name v) (hw : p.DeclaresFirst n name w) :
    v = w :=
  Option.some.inj ((findLocal?_eq_some_iff.2 hv).symm.trans (findLocal?_eq_some_iff.2 hw))

/-! ### On the way up -/

/-- **The way up from a node leads from parent to parent and ends in a root.** -/
theorem wayUp_ancestry (hp : p.Forest) (hn : n < p.size) : p.WayUp n (p.ancestry n) := by
  induction n using Nat.strongRecOn with
  | _ n ih =>
    obtain ⟨node, hnode⟩ : ∃ node, p.node? n = some node := ⟨_, Array.getElem?_eq_getElem hn⟩
    have hparent : p.parent? n = node.parent := by rw [parent?, hnode, Option.bind_some]
    rw [ancestry]
    simp only [hnode]
    cases hm : node.parent with
    | none => exact .root ((hp.roots_spec.2 n).2 ⟨hn, hparent.trans hm⟩)
    | some m =>
      have hlt : m < n := hp.above (hparent.trans hm)
      simp only [hlt, dite_true]
      exact .child (hparent.trans hm) (ih m hlt (Nat.lt_trans hlt hn))

/-- The way up begins with the node itself. -/
theorem exists_ancestry_eq_cons {node : Node} (hnode : p.node? n = some node) :
    ∃ above, p.ancestry n = n :: above := by
  rw [ancestry]
  simp only [hnode]
  split
  · exact ⟨[], rfl⟩
  · split
    · exact ⟨_, rfl⟩
    · exact ⟨[], rfl⟩

/-- **A name stands for the first variable of the nearest node that declares it.** -/
theorem findInScope?_eq_some_iff :
    p.findInScope? n name = some v ↔ ∃ m, p.ClearUpTo n m name ∧ p.DeclaresFirst m name v := by
  rw [findInScope?, List.findSome?_eq_some_iff]
  simp only [findLocal?_eq_some_iff, findLocal?_eq_none_iff]
  constructor
  · rintro ⟨nearer, m, farther, hway, hfirst, hnearer⟩
    exact ⟨m, ⟨nearer, farther, hway, hnearer⟩, hfirst⟩
  · rintro ⟨m, ⟨nearer, farther, hway, hnearer⟩, hfirst⟩
    exact ⟨nearer, m, farther, hway, hfirst, hnearer⟩

/-- Nothing is found exactly if no node on the way up declares the name. -/
theorem findInScope?_eq_none_iff :
    p.findInScope? n name = none ↔ ∀ m ∈ p.ancestry n, ¬ p.Declares m name := by
  rw [findInScope?, List.findSome?_eq_none_iff]
  simp only [findLocal?_eq_none_iff]

/-- A node finds its own variables first. -/
theorem findInScope?_of_declaresFirst (hfirst : p.DeclaresFirst n name v) :
    p.findInScope? n name = some v := by
  have ⟨node, hnode, _⟩ := hfirst
  obtain ⟨above, habove⟩ := exists_ancestry_eq_cons hnode
  exact findInScope?_eq_some_iff.2 ⟨n, ⟨[], above, habove, nofun⟩, hfirst⟩

/-! ### A new variable -/

section NewVariable

variable (hq : p.declareVariable m v = .ok q)

include hq

/-- A new variable does not change the way up. -/
theorem ancestry_declareVariable (n : NodeId) : q.ancestry n = p.ancestry n := by
  obtain ⟨_, rfl⟩ := updateNode_eq_ok_iff.1 hq
  refine ancestry_congr fun k _ => ?_
  rw [node?, node?, Array.getElem?_modify]
  split_ifs
  · rw [Option.map_map]
    rfl
  · rfl

/-- The new variable comes after those that its node had. -/
theorem findLocal?_declareVariable (name : String) :
    q.findLocal? m name = (p.findLocal? m name).or (if v.name = name then some v else none) := by
  obtain ⟨hm, rfl⟩ := updateNode_eq_ok_iff.1 hq
  obtain ⟨node, hnode⟩ : ∃ node, p.nodes[m]? = some node := ⟨_, Array.getElem?_eq_getElem hm⟩
  simp only [findLocal?, node?, Array.getElem?_modify, if_true, hnode, Option.map_some,
    Option.bind_some, Node.findVariable?, List.find?_append, List.find?_singleton, beq_iff_eq]

/-- A new variable changes nothing in other nodes. -/
theorem findLocal?_declareVariable_of_ne (hk : k ≠ m) (name : String) :
    q.findLocal? k name = p.findLocal? k name := by
  obtain ⟨_, rfl⟩ := updateNode_eq_ok_iff.1 hq
  rw [findLocal?, findLocal?, node?, node?, Array.getElem?_modify, if_neg hk.symm]

/-- **A new variable is found from where the way up to its node is clear of its name.** -/
theorem findInScope?_of_clear (hname : v.name = name) (hclear : p.ClearUpTo n m name)
    (hnew : ¬ p.Declares m name) : q.findInScope? n name = some v := by
  obtain ⟨nearer, farther, hway, hnearer⟩ := hclear
  have hfound : q.findLocal? m name = some v := by
    rw [findLocal?_declareVariable hq, findLocal?_eq_none_iff.2 hnew, Option.none_or, if_pos hname]
  have hnone : nearer.findSome? (q.findLocal? · name) = none := by
    refine List.findSome?_eq_none_iff.2 fun k hk => ?_
    -- the way up goes down in handles, so it comes to `m` once
    have hlt : m < k := (List.pairwise_append.1 (hway ▸ p.pairwise_ancestry n)).2.2 k hk m (by simp)
    rw [findLocal?_declareVariable_of_ne hq (Nat.ne_of_gt hlt)]
    exact findLocal?_eq_none_iff.2 (hnearer k hk)
  rw [findInScope?, ancestry_declareVariable hq, hway, List.findSome?_append, hnone,
    Option.none_or, List.findSome?_cons, hfound]

/-- **From everywhere else, and for every other name, what is found stays what it was.** -/
theorem findInScope?_of_not_clear
    (hnot : ¬ (v.name = name ∧ p.ClearUpTo n m name ∧ ¬ p.Declares m name)) :
    q.findInScope? n name = p.findInScope? n name := by
  have hkept : ∀ l : List NodeId, m ∉ l →
      l.findSome? (q.findLocal? · name) = l.findSome? (p.findLocal? · name) := fun l hm =>
    findSome?_congr fun k hk => findLocal?_declareVariable_of_ne hq (fun heq => hm (heq ▸ hk)) name
  rw [findInScope?, findInScope?, ancestry_declareVariable hq]
  by_cases hm : m ∈ p.ancestry n
  · obtain ⟨nearer, farther, hway⟩ := List.append_of_mem hm
    have hpairwise := hway ▸ p.pairwise_ancestry n
    obtain ⟨_, hbelow, habove⟩ := List.pairwise_append.1 hpairwise
    have hnearer : m ∉ nearer := fun hmem => Nat.lt_irrefl m (habove m hmem m (by simp))
    have hfarther : m ∉ farther := fun hmem =>
      Nat.lt_irrefl m ((List.pairwise_cons.1 hbelow).1 m hmem)
    rw [hway, List.findSome?_append, List.findSome?_append, hkept nearer hnearer,
      ← List.singleton_append, List.findSome?_append, List.findSome?_append,
      hkept farther hfarther, List.findSome?_singleton, List.findSome?_singleton,
      findLocal?_declareVariable hq]
    -- the new variable counts if nothing is found before it
    cases hbefore : nearer.findSome? (p.findLocal? · name) with
    | some u => rfl
    | none =>
      cases hlocal : p.findLocal? m name with
      | some u => rfl
      | none =>
        have hclear : p.ClearUpTo n m name := ⟨nearer, farther, hway, fun k hk =>
          findLocal?_eq_none_iff.1 (List.findSome?_eq_none_iff.1 hbefore k hk)⟩
        have hname : v.name ≠ name := fun heq =>
          hnot ⟨heq, hclear, findLocal?_eq_none_iff.1 hlocal⟩
        rw [if_neg hname, Option.or_none]
  · exact hkept _ hm

end NewVariable

/-- **A name stands for the nearest variable of that name, and a new variable counts downwards
only.**  The way up from a node goes to ever smaller handles, from parent to parent and to a root. A
name stands for the first variable of the nearest node on this way that declares it, and for none if
no node on it does. A new variable is found from where the way up comes to its node and is clear of
its name until then, that node included, and changes nothing else. -/
theorem findInScope?_nearest (edits : List Edit) :
    let p := build edits
    (∀ n < p.size, p.WayUp n (p.ancestry n) ∧ (p.ancestry n).Pairwise (· > ·)) ∧
      (∀ n name v, p.findInScope? n name = some v ↔
        ∃ m, p.ClearUpTo n m name ∧ p.DeclaresFirst m name v) ∧
      (∀ n name, p.findInScope? n name = none ↔ ∀ m ∈ p.ancestry n, ¬ p.Declares m name) ∧
      ∀ m < p.size, ∀ v, ∃ q, p.declareVariable m v = .ok q ∧ ∀ n name,
        (v.name = name ∧ p.ClearUpTo n m name ∧ ¬ p.Declares m name →
          q.findInScope? n name = some v) ∧
        (¬ (v.name = name ∧ p.ClearUpTo n m name ∧ ¬ p.Declares m name) →
          q.findInScope? n name = p.findInScope? n name) := by
  intro p
  have hp : p.Forest := forest_build edits
  refine ⟨fun n hn => ⟨wayUp_ancestry hp hn, pairwise_ancestry p n⟩,
    fun _ _ _ => findInScope?_eq_some_iff, fun _ _ => findInScope?_eq_none_iff,
    fun m hm v => ?_⟩
  have hq : p.declareVariable m v = .ok _ := updateNode_eq_ok_iff.2 ⟨hm, rfl⟩
  refine ⟨_, hq, fun n name => ⟨?_, findInScope?_of_not_clear hq⟩⟩
  rintro ⟨hname, hclear, hnew⟩
  exact findInScope?_of_clear hq hname hclear hnew

/-- Three nodes, one below the other. The outermost declares a name twice, the innermost once, and
the one between them not at all. -/
def nameAtBothEnds : List Edit :=
  [.addNode "A" none, .addNode "B" (some 0), .addNode "C" (some 1),
    .declareVariable 2 ⟨"x", .string, .unstated, none⟩,
    .declareVariable 0 ⟨"x", .boolean, .unstated, none⟩,
    .declareVariable 0 ⟨"x", .integer, .unstated, none⟩]

/-- Where the node in between declares the name too, it no longer finds the variable of the
outermost node. The innermost one still finds its own. -/
theorem findInScope?_nearest_nameAtBothEnds :
    let p := build nameAtBothEnds
    p.WayUp 2 [2, 1, 0] ∧ p.findInScope? 1 "x" = some ⟨"x", .boolean, .unstated, none⟩ ∧
      p.ClearUpTo 1 1 "x" ∧ ¬ p.Declares 1 "x" ∧ ¬ p.ClearUpTo 2 1 "x" ∧
      ∃ q, p.declareVariable 1 ⟨"x", .real, .unstated, none⟩ = .ok q ∧
        q.findInScope? 1 "x" = some ⟨"x", .real, .unstated, none⟩ ∧
        q.findInScope? 2 "x" = some ⟨"x", .string, .unstated, none⟩ := by
  intro p
  have hup : p.ancestry 1 = [1, 0] := by decide +kernel
  have hup' : p.ancestry 2 = [2, 1, 0] := by decide +kernel
  have hnew : ¬ p.Declares 1 "x" := findLocal?_eq_none_iff.1 (by decide +kernel)
  have hinner : p.DeclaresFirst 2 "x" ⟨"x", .string, .unstated, none⟩ :=
    findLocal?_eq_some_iff.1 (by decide +kernel)
  have hclear : p.ClearUpTo 1 1 "x" := ⟨[], [0], hup, nofun⟩
  have hnot : ¬ p.ClearUpTo 2 1 "x" := by
    rintro ⟨nearer, farther, hway, hnearer⟩
    rw [hup'] at hway
    cases nearer with
    | nil => cases hway
    | cons k nearer =>
      obtain ⟨rfl, _⟩ := List.cons.inj hway
      exact hnearer 2 (by simp) hinner.declares
  obtain ⟨hways, _, _, hdeclare⟩ := findInScope?_nearest nameAtBothEnds
  obtain ⟨q, hq, hfind⟩ := hdeclare 1 (by decide +kernel) ⟨"x", .real, .unstated, none⟩
  refine ⟨hup' ▸ (hways 2 (by decide +kernel)).1, by decide +kernel, hclear, hnew, hnot, q, hq,
    (hfind 1 "x").1 ⟨rfl, hclear, hnew⟩, ?_⟩
  rw [(hfind 2 "x").2 fun h => hnot h.2.1]
  decide +kernel

/-! ### By scope and by name -/

/-- The first variable of that name in the whole plan is `w`, of the first node to declare one. -/
def FirstInPlan (p : Plan) (name : String) (w : Variable) : Prop :=
  ∃ m, p.DeclaresFirst m name w ∧ ∀ k < m, ¬ p.Declares k name

/-- Whatever a name stands for inside a node, by itself it stands for a variable of the same
type. -/
def TypesAgree (p : Plan) : Prop :=
  ∀ n name v, p.findInScope? n name = some v →
    ∃ w, p.findVariable? name = some w ∧ w.type.ty = v.type.ty

/-- What is found by name is a variable of the first node to declare the name. -/
theorem firstInPlan_of_findVariable? (hw : p.findVariable? name = some w) :
    p.FirstInPlan name w := by
  obtain ⟨m, hm, hbefore⟩ := exists_findLocal?_of_findVariable? hw
  exact ⟨m, findLocal?_eq_some_iff.1 hm, fun k hk => findLocal?_eq_none_iff.1 (hbefore k hk)⟩

/-- Only one node is the first to declare a name, and only one of its variables is the first. -/
theorem FirstInPlan.unique (hv : p.FirstInPlan name v) (hw : p.FirstInPlan name w) : v = w := by
  obtain ⟨m, hv, hbefore⟩ := hv
  obtain ⟨m', hw, hbefore'⟩ := hw
  have hle : m ≤ m' := Nat.le_of_not_lt fun hlt => hbefore m' hlt hw.declares
  have hle' : m' ≤ m := Nat.le_of_not_lt fun hlt => hbefore' m hlt hv.declares
  obtain rfl := Nat.le_antisymm hle hle'
  exact hv.unique hw

/-- **By itself a name stands for the first variable of the first node that declares it.** -/
theorem findVariable?_eq_some_iff : p.findVariable? name = some w ↔ p.FirstInPlan name w := by
  refine ⟨firstInPlan_of_findVariable?, fun hw => ?_⟩
  have ⟨m, hm, _⟩ := hw
  obtain ⟨u, hu⟩ := Option.isSome_iff_exists.1 (isSome_findVariable? (findLocal?_eq_some_iff.2 hm))
  rw [hu, (firstInPlan_of_findVariable? hu).unique hw]

/-- The type of a reference to a variable is that of the variable found by name. -/
theorem resultType_of_ref {h : ExprId} {c : Cell} (hc : p.exprs.get? h = some c)
    (hform : c.form = .ref name) (hprop : c.nodeProperty? = none)
    (hw : p.findVariable? name = some w) : p.resultType h = some w.type.ty := by
  simp only [resultType, Store.resultType, hc, Option.bind_some, Cell.resultType, hform, hprop, hw,
    Option.map_some, Option.getD_some]

/-- **Types by scope and by name agree exactly if no node declares a name at another type than the
first node to declare it,** where the first variable of the name in each of the two counts. Then a
reference has the type of the variable in scope, from wherever it is resolved. -/
theorem typesAgree_iff (edits : List Edit) :
    let p := build edits
    (p.TypesAgree ↔ ∀ n name v, p.DeclaresFirst n name v →
      ∃ w, p.FirstInPlan name w ∧ w.type.ty = v.type.ty) ∧
    (p.TypesAgree → ∀ n h c name v, p.exprs.get? h = some c → c.form = .ref name →
      c.nodeProperty? = none → p.findInScope? n name = some v →
        p.resultType h = some v.type.ty) := by
  intro p
  refine ⟨⟨fun hagree n name v hv => ?_, fun hfirst n name v hv => ?_⟩,
    fun hagree n h c name v hc hform hprop hv => ?_⟩
  · obtain ⟨w, hw, hty⟩ := hagree n name v (findInScope?_of_declaresFirst hv)
    exact ⟨w, findVariable?_eq_some_iff.1 hw, hty⟩
  · obtain ⟨m, _, hm⟩ := findInScope?_eq_some_iff.1 hv
    obtain ⟨w, hw, hty⟩ := hfirst m name v hm
    exact ⟨w, findVariable?_eq_some_iff.2 hw, hty⟩
  · obtain ⟨w, hw, hty⟩ := hagree n name v hv
    rw [resultType_of_ref hc hform hprop hw, hty]

/-- A node with an integer, and a node below it with a real and then a Boolean of the same name. -/
def numberBelowNumber : List Edit :=
  [.addNode "A" none, .addNode "B" (some 0), .declareVariable 0 ⟨"x", .integer, .unstated, none⟩,
    .declareVariable 1 ⟨"x", .real, .unstated, none⟩,
    .declareVariable 1 ⟨"x", .boolean, .unstated, none⟩, .reference "x" none]

/-- An integer and a real are both numbers, and the Boolean is never found. Among the nodes of
`nameAtBothEnds` the innermost one has a text of a name that is a Boolean first. -/
theorem typesAgree_iff_numberBelowNumber :
    let p := build numberBelowNumber
    p.TypesAgree ∧ p.findInScope? 1 "x" = some ⟨"x", .real, .unstated, none⟩ ∧
      p.resultType 0 = some .num ∧ ¬ (build nameAtBothEnds).TypesAgree := by
  intro p
  have hname : ∀ v ∈ p.allVariables, v.name = "x" := by decide +kernel
  have hnum : ∀ n < p.size, (p.findLocal? n "x").all fun v => v.type.ty = .num := by decide +kernel
  have hvar : p.findVariable? "x" = some ⟨"x", .integer, .unstated, none⟩ := by decide +kernel
  have hscope : p.findInScope? 1 "x" = some ⟨"x", .real, .unstated, none⟩ := by decide +kernel
  have hfirst : ∀ n name v, p.DeclaresFirst n name v →
      ∃ w, p.FirstInPlan name w ∧ w.type.ty = v.type.ty := by
    intro n name v hv
    have ⟨node, hnode, _⟩ := hv
    have hlocal := findLocal?_eq_some_iff.2 hv
    obtain ⟨hmem, rfl⟩ := mem_allVariables_of_findLocal? hlocal
    rw [hname v hmem] at hlocal ⊢
    have hty := hnum n (lt_size_of_node? hnode)
    rw [hlocal] at hty
    exact ⟨_, findVariable?_eq_some_iff.1 hvar, (of_decide_eq_true hty).symm⟩
  obtain ⟨hiff, hrefs⟩ := typesAgree_iff numberBelowNumber
  have hcell : p.exprs.get? 0 = some ⟨.ref "x", none, none, none⟩ := by decide +kernel
  refine ⟨hiff.2 hfirst, hscope, hrefs (hiff.2 hfirst) 1 0 _ "x" _ hcell rfl rfl hscope,
    fun hagree => ?_⟩
  have hinner : (build nameAtBothEnds).DeclaresFirst 2 "x" ⟨"x", .string, .unstated, none⟩ :=
    findLocal?_eq_some_iff.1 (by decide +kernel)
  have houter : (build nameAtBothEnds).FirstInPlan "x" ⟨"x", .boolean, .unstated, none⟩ :=
    findVariable?_eq_some_iff.1 (by decide +kernel)
  obtain ⟨w, hw, hty⟩ := (typesAgree_iff nameAtBothEnds).1.1 hagree 2 "x" _ hinner
  rw [hw.unique houter] at hty
  cases hty

end Plan
end Preflight
