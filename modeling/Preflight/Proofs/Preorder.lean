import Preflight.Proofs.OwnedReferences

/-!
# The walk is the walk in pre-order

`Store.visits` works off an agenda. `Store.preorder` says by recursion over the expression what
it does: the expression comes first, then all of its left operand, then all of its right one.

The two meet in an invariant of the agenda (`visits_eq_flatMap_preorder`): what is still to be
visited is the walk of each entry, one after the other. A visit takes the first entry away and
puts its operands in its place, and these are what is left of its walk. So a search is the walk
in pre-order, less what is not of the wanted kind (`find_eq_filter_preorder`), and the search of
an operator is made of the searches of its operands (`find_of_get?`).

That nothing is found twice is due to ownership and not to the walk, and so is that a search
never comes upon what the call of a lookup owns (`Owns.not_reaches_of_call`): the one way up from
there leads through the lookup, which has no operands.
-/

namespace Preflight

namespace Store

variable {s : Store} {root h k : ExprId} {c : Cell}

/-- One step of `preorder`: the expression, then the walk of its left operand, then that of its
right one. -/
def preorderStep (h : ExprId) (c : Cell) (walk : ExprId → List ExprId) : List ExprId :=
  match c.form with
  | .const _ | .ref _ | .lookup .. => [h]
  | .unary _ operand => h :: walk operand
  | .binary _ left right => h :: (walk left ++ walk right)

/-- The handles in and below an expression, an operator before its operands and the left operand
before the right one. -/
def preorder (s : Store) : ExprId → List ExprId :=
  s.fold (fun _ => []) preorderStep

/-- One step puts the expression before what comes from its operands, left to right. -/
theorem preorderStep_eq (h : ExprId) (c : Cell) (walk : ExprId → List ExprId) :
    preorderStep h c walk = h :: c.form.operands.flatMap walk := by
  unfold preorderStep
  cases c.form <;> simp [Form.operands]

/-- In a well owned store the walk of an expression is made of those of its operands. -/
theorem preorder_eq (hs : s.WellOwned) (hc : s.get? h = some c) :
    s.preorder h = preorderStep h c s.preorder := by
  refine fold_eq_step hs hc fun f g hfg => ?_
  rw [preorderStep_eq, preorderStep_eq]
  exact congrArg (h :: ·) (List.flatMap_congr fun k hk => hfg k (mem_uses_of_mem_operands hk))

/-! ### The agenda -/

/-- **What is visited from an agenda are the walks of its entries, one after the other.** -/
theorem visits_eq_flatMap_preorder (hs : s.WellOwned) {agenda : List ExprId}
    (hagenda : ∀ k ∈ agenda, s.contains k = true) :
    s.visits agenda = agenda.flatMap s.preorder := by
  fun_induction visits s agenda with
  | case1 => rfl
  | case2 h agenda ih =>
    obtain ⟨hh, hrest⟩ := List.forall_mem_cons.1 hagenda
    obtain ⟨c, hc⟩ := contains_iff.1 hh
    have hoperands : ∀ k ∈ c.form.operands, s.contains k = true := fun k hk =>
      hs.contains_of_uses ⟨c, hc, mem_uses_of_mem_operands hk⟩
    rw [operandsBelow_of_get? hs hc] at ih ⊢
    rw [ih (List.forall_mem_append.2 ⟨hoperands, hrest⟩), List.flatMap_append, List.flatMap_cons,
      preorder_eq hs hc, preorderStep_eq, List.cons_append]

/-- The search finds what it should among the expressions in preorder. -/
theorem find_eq_filter (hs : s.WellOwned) (hh : s.contains h = true) (e : Element) :
    s.find h e = (s.preorder h).filter fun k => (s.get? k).any fun c => c.element == e := by
  rw [find, visits_eq_flatMap_preorder hs (by simpa using hh), List.flatMap_singleton]

/-- **The search of an expression is made of those of its operands,** and begins with the
expression if that is of the wanted kind. -/
theorem find_of_get? (hs : s.WellOwned) (hc : s.get? h = some c) (e : Element) :
    s.find h e = (if c.element = e then [h] else []) ++ c.form.operands.flatMap (s.find · e) := by
  have hoperands : c.form.operands.flatMap (s.find · e) = c.form.operands.flatMap fun k =>
      (s.preorder k).filter fun i => (s.get? i).any fun d => d.element == e :=
    List.flatMap_congr fun k hk =>
      find_eq_filter hs (hs.contains_of_uses ⟨c, hc, mem_uses_of_mem_operands hk⟩) e
  rw [find_eq_filter hs (contains_iff.2 ⟨c, hc⟩), preorder_eq hs hc, preorderStep_eq,
    ← List.singleton_append, List.filter_append, List.filter_flatMap, hoperands]
  congr 1
  by_cases he : c.element = e <;> simp [hc, he]

/-- In a leaf the search finds the leaf or nothing. -/
theorem find_leaf (hs : s.WellOwned) (hc : s.get? h = some c) (hleaf : c.form.operands = [])
    (e : Element) : s.find h e = if c.element = e then [h] else [] := by
  rw [find_of_get? hs hc, hleaf, List.flatMap_nil, List.append_nil]

/-- Under an operator on one expression the search goes on in the operand. -/
theorem find_unary (hs : s.WellOwned) (hc : s.get? h = some c) {op : UnaryOp} {operand : ExprId}
    (hform : c.form = .unary op operand) (e : Element) :
    s.find h e = (if .unary op = e then [h] else []) ++ s.find operand e := by
  rw [find_of_get? hs hc, Cell.element, hform, Form.operands, List.flatMap_singleton]
  rfl

/-- Under an operator on two expressions the search goes on in the left and then in the right one.
-/
theorem find_binary (hs : s.WellOwned) (hc : s.get? h = some c) {op : BinaryOp}
    {left right : ExprId} (hform : c.form = .binary op left right) (e : Element) :
    s.find h e = (if .binary op = e then [h] else []) ++ (s.find left e ++ s.find right e) := by
  rw [find_of_get? hs hc, Cell.element, hform, Form.operands, List.flatMap_cons,
    List.flatMap_singleton]
  rfl

/-- Where there is no expression, nothing is found. -/
theorem find_of_get?_eq_none (hnone : s.get? h = none) (e : Element) : s.find h e = [] := by
  simp [find, visits, operandsBelow, hnone]

/-- Nothing is found twice. -/
theorem nodup_find (hs : s.WellOwned) (h : ExprId) (e : Element) : (s.find h e).Nodup :=
  (nodup_visits hs (List.pairwise_singleton _ h)).filter _

/-! ### What the calls of lookups own -/

/-- **A search does not come upon what the call of a lookup owns.**  The one way up from there
leads through the call to the lookup, and not along operands. -/
theorem Owns.not_reaches_of_call (hs : s.WellOwned) {l : ExprId} (hl : s.Reaches root l)
    (hc : s.get? l = some c) {name : String} {call : Action} (hform : c.form = .lookup name call)
    (hk : k ∈ call.exprs) (hown : s.Owns k h) : ¬ s.Reaches root h := by
  have huse : s.Uses l k := ⟨c, hc, by rwa [hform]⟩
  -- what is owned there is below `root`, so that a way from `root` to it has a last step
  suffices h < root ∧ ¬ s.Reaches root h from this.2
  induction hown with
  | refl =>
    have hlt : k < root := Nat.lt_of_lt_of_le (hs.descends huse) (Reaches.le hs hl)
    refine ⟨hlt, fun hreach => ?_⟩
    rcases hreach.cases_tail with heq | ⟨u, _, d, hd, hu⟩
    · exact absurd heq (Nat.ne_of_lt hlt)
    · obtain rfl := hs.user_unique (HasOperand.uses ⟨d, hd, hu⟩) huse
      obtain rfl := Option.some.inj (hc.symm.trans hd)
      rw [hform] at hu
      cases hu
  | @tail j i _ hji ih =>
    obtain ⟨hj, hnot⟩ := ih
    have hlt : i < root := Nat.lt_trans (hs.descends hji) hj
    refine ⟨hlt, fun hreach => ?_⟩
    rcases hreach.cases_tail with heq | ⟨u, hu, hui⟩
    · exact absurd heq (Nat.ne_of_lt hlt)
    · obtain rfl := hs.user_unique hui.uses hji
      exact hnot hu

end Store

namespace Plan

/-- **A search is the walk in pre-order, less what is not of the wanted kind.**  It finds each
expression of this kind that operands lead to, once, and none that was added after its root. It
finds nothing that the call of a lookup owns, and nothing at all where there is no root. -/
theorem find_eq_filter_preorder (edits : List Edit) :
    let s := (build edits).exprs
    (∀ h c, s.get? h = some c → s.preorder h = Store.preorderStep h c s.preorder) ∧
    (∀ root e, s.contains root = true →
      s.find root e = (s.preorder root).filter (fun h => (s.get? h).any fun c => c.element == e) ∧
      (∀ h, h ∈ s.find root e ↔ s.Reaches root h ∧ ∃ c, s.get? h = some c ∧ c.element = e) ∧
      (s.find root e).Nodup ∧
      (∀ h ∈ s.find root e, h ≤ root) ∧
      ∀ l c name call k h, s.Reaches root l → s.get? l = some c → c.form = .lookup name call →
        k ∈ call.exprs → s.Owns k h → h ∉ s.find root e) ∧
    ∀ root e, s.contains root = false → s.find root e = [] := by
  intro s
  have hs : s.WellOwned := wellOwned_build edits
  refine ⟨fun h c hc => Store.preorder_eq hs hc, fun root e hroot => ?_, fun root e hroot => ?_⟩
  · refine ⟨Store.find_eq_filter hs hroot e, fun h => Store.mem_find_iff hs,
      Store.nodup_find hs root e, fun h hh => ?_, fun l c name call k h hl hc hform hk hown => ?_⟩
    · exact ((Store.mem_find_iff hs).1 hh).1.le hs
    · intro hh
      exact hown.not_reaches_of_call hs hl hc hform hk ((Store.mem_find_iff hs).1 hh).1
  · have hnone : s.get? root = none := by simpa [Store.contains] using hroot
    exact Store.find_of_get?_eq_none hnone e

/-- The product of a lookup with one argument and of a sum whose right operand was added first. -/
def lookupTimesSum : List Edit :=
  [.reference "x" none, .reference "z" none, .binary (.binary .plus) 1 0, .constant "f" .str,
    .reference "y" none, .lookup ⟨.lookup, 3, [4], none⟩ (some .num),
    .binary (.binary .mult) 5 2]

/-- The references are found from left to right, without the one in the call. -/
theorem find_eq_filter_preorder_lookupTimesSum :
    let s := (build lookupTimesSum).exprs
    s.contains 6 = true ∧ s.preorder 6 = [6, 5, 2, 1, 0] ∧ s.find 6 (.leaf .ref) = [1, 0] ∧
      s.Owns 6 4 ∧ 4 ∉ s.find 6 (.leaf .ref) := by
  intro s
  have hroot : s.contains 6 = true := by decide +kernel
  have hwalk : s.preorder 6 = [6, 5, 2, 1, 0] := by decide +kernel
  have hproduct : s.get? 6 = some ⟨.binary .mult 5 2, none, none, none⟩ := by decide +kernel
  have hlookup : s.get? 5 =
      some ⟨.lookup "f" ⟨.lookup, 3, [4], none⟩, some .num, none, some 6⟩ := by decide +kernel
  have hreach : s.Reaches 6 5 := .single ⟨_, hproduct, by decide⟩
  obtain ⟨_, hfind, _⟩ := find_eq_filter_preorder lookupTimesSum
  obtain ⟨heq, _, _, _, hcall⟩ := hfind 6 (.leaf .ref) hroot
  refine ⟨hroot, hwalk, heq.trans ?_, hreach.owns.tail ⟨_, hlookup, by decide⟩,
    hcall 5 _ "f" _ 4 4 hreach hlookup rfl (by decide) .refl⟩
  rw [hwalk]
  decide +kernel

end Plan

end Preflight
