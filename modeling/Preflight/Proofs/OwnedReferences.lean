import Preflight.Proofs.Acceptance
import Preflight.Proofs.Store.Locality

/-!
# References inside the calls of lookups

An expression owns more than its operands lead to: a lookup is a leaf of the walk, but it
owns the callee, the arguments and the target of its call. The walk does not go there, so a
plan on which there is nothing to report can hold a condition whose lookup has an argument
with a reference to nothing (`not_allValid_unknownArgument`).

What the walk leaves out is all that is missing. A lookup that passed its check has a callee
of constants and their joins only, in which there is nothing to resolve
(`allValid_of_staticText?`). So in what was checked every leaf is valid that the walk
reaches, and every leaf that the expression owns is valid exactly if those inside the
`unchecked` expressions of its lookups are (`allValid_iff_unchecked`).
-/

namespace Preflight

/-- The expressions of a lookup's call that its own check says nothing of: arguments and
target, and the callee too if the lookup is passed over. -/
def Cell.unchecked (c : Cell) : List ExprId :=
  match c.form with
  | .lookup _ call =>
    if c.nodeProperty?.isSome then call.exprs else call.args ++ call.target.toList
  | _ => []

namespace Store

variable {s : Store} {root h : ExprId} {c : Cell}

/-- The expression at `h` owns the one at `k`, directly or through others, or is the same. -/
def Owns (s : Store) : ExprId → ExprId → Prop :=
  Relation.ReflTransGen s.Uses

/-- What is below an expression along operands is owned by it. -/
theorem Reaches.owns {k : ExprId} (hk : s.Reaches h k) : s.Owns h k :=
  Relation.ReflTransGen.mono (fun _ _ => HasOperand.uses) _ _ hk

/-- **What an expression owns is below it along operands, or owned by the call of a lookup
that is.** -/
theorem Owns.reaches_or (hown : s.Owns root h) :
    s.Reaches root h ∨ ∃ l c name call k, s.Reaches root l ∧ s.get? l = some c ∧
      c.form = .lookup name call ∧ k ∈ call.exprs ∧ s.Owns k h := by
  induction hown with
  | refl => exact .inl .refl
  | @tail i j _ huse ih =>
    rcases ih with hreach | ⟨l, c, name, call, k, hl, hc, hform, hk, hki⟩
    · obtain ⟨c, hc, hj⟩ := huse
      rcases mem_uses_iff.1 hj with hj | ⟨call, hcall, hj⟩
      · exact .inl (hreach.tail ⟨c, hc, hj⟩)
      · obtain ⟨name, hform⟩ : ∃ name, c.form = .lookup name call := by
          cases hform : c.form <;> simp_all [Form.call?]
        exact .inr ⟨i, c, name, call, j, hreach, hc, hform, hj, .refl⟩
    · exact .inr ⟨l, c, name, call, k, hl, hc, hform, hk, hki.tail huse⟩

/-- A lookup owns what its own check says nothing of. -/
theorem owns_of_mem_unchecked {k : ExprId} (hc : s.get? h = some c) (hk : k ∈ c.unchecked) :
    s.Owns h k := by
  refine .single ⟨c, hc, ?_⟩
  unfold Cell.unchecked at hk
  split at hk
  · rename_i name call hform
    rw [hform]
    split at hk
    · exact hk
    · exact List.mem_cons_of_mem _ hk
  · cases hk

/-- An expression with a static text is a constant, or joins two that have one. -/
theorem form_of_staticText? (hs : s.WellOwned) (hc : s.get? h = some c)
    (htext : (s.staticText? h).isSome) :
    (∃ text, c.form = .const text) ∨ ∃ left right, c.form = .binary .concat left right ∧
      (s.staticText? left).isSome ∧ (s.staticText? right).isSome := by
  rw [staticText?_eq hs hc] at htext
  unfold staticStep at htext
  split at htext
  · exact .inl ⟨_, ‹_›⟩
  · refine .inr ⟨_, _, ‹_›, ?_⟩
    split at htext
    · simpa [Option.isSome_bind, Option.any_eq_true, Option.isSome_iff_exists] using htext
    · cases htext
  · cases htext

/-- All that an expression with a static text owns has one. -/
theorem Owns.isSome_staticText? (hs : s.WellOwned) (hown : s.Owns root h)
    (htext : (s.staticText? root).isSome) : (s.staticText? h).isSome := by
  induction hown with
  | refl => exact htext
  | tail _ huse ih =>
    obtain ⟨c, hc, hk⟩ := huse
    rcases form_of_staticText? hs hc ih with ⟨text, hform⟩ | ⟨left, right, hform, hl, hr⟩
    · simp [hform, Form.uses, Form.operands] at hk
    · rw [hform] at hk
      rcases List.mem_pair.1 hk with rfl | rfl
      · exact hl
      · exact hr

end Store

namespace Plan

variable {p : Plan} {n : NodeId} {root h : ExprId} {c : Cell}

/-- The cell, if it is a reference or a lookup, is valid from inside the node `n`: it names a
node that can be seen or a variable in scope, or calls what is declared. -/
structure ValidFrom (p : Plan) (n : NodeId) (c : Cell) : Prop where
  node : ∀ name, c.form = .ref name → c.nodeProperty?.isSome → p.canSee n name = true
  var : ∀ name, c.form = .ref name → c.nodeProperty? = none →
    ∃ v, p.findInScope? n name = some v
  lookup : ∀ name call, c.form = .lookup name call → c.nodeProperty? = none → p.Declared call

/-- All that the expression owns is valid from inside the node `n`. -/
def AllValid (p : Plan) (n : NodeId) (root : ExprId) : Prop :=
  ∀ h c, p.exprs.Owns root h → p.exprs.get? h = some c → p.ValidFrom n c

/-- Where all leaves are valid, those of a part are. -/
theorem AllValid.of_owns (hall : p.AllValid n root) (hown : p.exprs.Owns root h) :
    p.AllValid n h :=
  fun k c hk => hall k c (hown.trans hk)

/-- All leaves are valid exactly if the expression is, and all leaves of what it uses. -/
theorem allValid_iff (hc : p.exprs.get? h = some c) :
    p.AllValid n h ↔ p.ValidFrom n c ∧ ∀ k ∈ c.form.uses, p.AllValid n k := by
  constructor
  · intro hall
    exact ⟨hall h c .refl hc, fun k hk => hall.of_owns (.single ⟨c, hc, hk⟩)⟩
  · rintro ⟨hvalid, hall⟩ k d hown hd
    rcases hown.cases_head with rfl | ⟨j, ⟨c', hc', hj⟩, hown⟩
    · obtain rfl := Option.some.inj (hc.symm.trans hd)
      exact hvalid
    · obtain rfl := Option.some.inj (hc.symm.trans hc')
      exact hall j hj k d hown hd

/-- A static text holds neither references nor lookups. -/
theorem allValid_of_staticText? (hs : p.exprs.WellOwned)
    (htext : (p.exprs.staticText? root).isSome) : p.AllValid n root := by
  intro h c hown hc
  rcases Store.form_of_staticText? hs hc (hown.isSome_staticText? hs htext) with
    ⟨text, hform⟩ | ⟨left, right, hform, _⟩ <;>
  constructor <;> simp [hform]

/-- Where the references and lookups of an expression have no finding, what the walk reaches
is valid. -/
theorem validFrom_of_reaches (hs : p.exprs.WellOwned) {context : String}
    (hrefs : p.checkReferences n context root = [])
    (hlookups : p.checkLookups n context root = []) (hreach : p.exprs.Reaches root h)
    (hc : p.exprs.get? h = some c) : p.ValidFrom n c where
  node name hform :=
    ((checkReferences_eq_nil_iff hs).1 hrefs h c name hreach hc hform).canSee
  var name hform :=
    ((checkReferences_eq_nil_iff hs).1 hrefs h c name hreach hc hform).inScope
  lookup _ _ hform hprop :=
    declared_of_checkLookups_eq_nil hs hlookups hreach hc hform hprop

/-- An expression of the call of a valid lookup is unchecked, or all that it owns is valid. -/
theorem ValidFrom.mem_unchecked_or (hs : p.exprs.WellOwned) (hvalid : p.ValidFrom n c)
    {name : String} {call : Action} (hform : c.form = .lookup name call) {k : ExprId}
    (hk : k ∈ call.exprs) : k ∈ c.unchecked ∨ p.AllValid n k := by
  simp only [Cell.unchecked, hform]
  cases hprop : c.nodeProperty? with
  | some t => exact .inl hk
  | none =>
    rcases List.mem_cons.1 hk with rfl | hk
    · obtain ⟨text, htext, _⟩ := hvalid.lookup name call hform hprop
      exact .inr (allValid_of_staticText? hs (by simp [htext]))
    · exact .inl hk

/-- **Where there is nothing to report, every reference and lookup is valid that operands lead
to from a checked expression, and all that the expression owns is valid exactly if all is that
the unchecked expressions of its lookups own.** -/
theorem allValid_iff_unchecked (edits : List Edit) (hclean : (build edits).checkExprs = []) :
    let p := build edits
    ∀ n node root, p.node? n = some node → root ∈ node.checked →
      (∀ h c, p.exprs.Reaches root h → p.exprs.get? h = some c → p.ValidFrom n c) ∧
      (p.AllValid n root ↔ ∀ l c, p.exprs.Reaches root l → p.exprs.get? l = some c →
        ∀ k ∈ c.unchecked, p.AllValid n k) := by
  intro p n node root hnode hroot
  have hs : p.exprs.WellOwned := wellOwned_build edits
  obtain ⟨context, hrefs, hlookups⟩ :=
    clean_of_mem_checked hs (grounded_build edits) hclean hnode hroot
  have hvalid : ∀ h c, p.exprs.Reaches root h → p.exprs.get? h = some c → p.ValidFrom n c :=
    fun h c => validFrom_of_reaches hs hrefs hlookups
  refine ⟨hvalid, fun hall l c hl hc k hk => ?_, fun hall h c hown hc => ?_⟩
  · exact hall.of_owns (hl.owns.trans (Store.owns_of_mem_unchecked hc hk))
  · rcases hown.reaches_or with hreach | ⟨l, d, name, call, k, hl, hd, hform, hk, hown⟩
    · exact hvalid h c hreach hc
    · rcases (hvalid l d hl hd).mem_unchecked_or hs hform hk with hk | hk
      · exact hall l d hl hd k hk h c hown hc
      · exact hk h c hown hc

/-- A lookup of one integer, and a node with the variable `x`, whose start condition looks up
with the absolute value of the variable of the given name. -/
def lookupWith (name : String) : List Edit :=
  [.declare ⟨.lookup, "f", [⟨"", .integer, .unstated, none⟩], [⟨"", .boolean, .unstated, none⟩]⟩,
    .addNode "A" none, .declareVariable 0 ⟨"x", .integer, .unstated, none⟩,
    .reference name none, .unary (.unary .abs) 0, .constant "f" .str,
    .lookup ⟨.lookup, 2, [1], none⟩ (some .bool), .addCondition 0 .start 3]

/-- All that the lookup owns is valid, as its one argument is. -/
theorem allValid_iff_unchecked_x :
    let p := build (lookupWith "x")
    p.checkExprs = [] ∧ p.AllValid 0 3 := by
  intro p
  have hclean : p.checkExprs = [] := by decide +kernel
  have hnode : p.node? 0 =
      some ⟨"A", none, [], [⟨.start, 3⟩], none, [⟨"x", .integer, .unstated, none⟩]⟩ := by
    decide +kernel
  have href : p.exprs.get? 0 = some ⟨.ref "x", none, none, some 1⟩ := by decide +kernel
  have habs : p.exprs.get? 1 = some ⟨.unary .abs 0, none, none, some 3⟩ := by decide +kernel
  have hlookup : p.exprs.get? 3 =
      some ⟨.lookup "f" ⟨.lookup, 2, [1], none⟩, some .bool, none, none⟩ := by decide +kernel
  have hx : p.findInScope? 0 "x" = some ⟨"x", .integer, .unstated, none⟩ := by decide +kernel
  have hargument : p.AllValid 0 1 := by
    refine (allValid_iff habs).2 ⟨by constructor <;> simp, fun k hk => ?_⟩
    obtain rfl := List.mem_singleton.1 hk
    refine (allValid_iff href).2 ⟨⟨?_, ?_, ?_⟩, by simp [Form.uses, Form.operands]⟩
    · simp [Cell.nodeProperty?]
    · rintro name ⟨⟩ _
      exact ⟨_, hx⟩
    · simp
  refine ⟨hclean, ((allValid_iff_unchecked _ hclean 0 _ 3 hnode (by decide)).2).2 ?_⟩
  intro l c hl hc k hk
  rcases hl.cases_head with rfl | ⟨j, ⟨d, hd, hj⟩, _⟩
  · obtain rfl := Option.some.inj (hlookup.symm.trans hc)
    obtain rfl := List.mem_singleton.1 hk
    exact hargument
  · obtain rfl := Option.some.inj (hlookup.symm.trans hd)
    cases hj

/-- **A plan with nothing to report can have a lookup with a reference to nothing among what
it owns.**  The variable `y` is not declared anywhere. -/
theorem not_allValid_unknownArgument :
    let p := build (lookupWith "y")
    p.check = [] ∧ ¬ ∀ n node root, p.node? n = some node → root ∈ node.checked →
      p.AllValid n root := by
  intro p
  refine ⟨by decide +kernel, fun hall => ?_⟩
  have hnode : p.node? 0 =
      some ⟨"A", none, [], [⟨.start, 3⟩], none, [⟨"x", .integer, .unstated, none⟩]⟩ := by
    decide +kernel
  have href : p.exprs.get? 0 = some ⟨.ref "y", none, none, some 1⟩ := by decide +kernel
  have hcall : p.exprs.Uses 3 1 :=
    ⟨⟨.lookup "f" ⟨.lookup, 2, [1], none⟩, some .bool, none, none⟩, by decide +kernel, by decide⟩
  have habs : p.exprs.Uses 1 0 :=
    ⟨⟨.unary .abs 0, none, none, some 3⟩, by decide +kernel, by decide⟩
  have hown : p.exprs.Owns 3 0 := .tail (.single hcall) habs
  obtain ⟨v, hv⟩ := (hall 0 _ 3 hnode (by decide) 0 _ hown href).var "y" rfl rfl
  have hnone : p.findInScope? 0 "y" = none := by decide +kernel
  cases hnone.symm.trans hv

end Plan

end Preflight
