import Preflight.Proofs.Plan.Building
import Preflight.Proofs.Typing
import Preflight.Verdict

/-!
# Forgetting types

`Ty.Vaguer s t` says that `s` is `t` or the wildcard. The meet of two types is monotone in
this order: what meets still meets after some of it is forgotten, and in a vaguer type
(`Ty.Vaguer.meet?`).

`Plan.Forgets p q` says that `p` has the expressions of `q`, where the type of a leaf and the
type that an operator requires of its operands may be forgotten. A judgement in `q` is then
one in `p` (`Forgets.hasType`). The induction has to let go of the expected type as well, since
the operands of an operator that forgets its operand type are checked against a vaguer one.
So nothing is reported in `p` on an expression on which nothing is reported in `q`
(`typing_of_forgets`).
-/

namespace Preflight

namespace Ty

/-- The type is the other one, or says nothing. -/
def Vaguer (s t : Ty) : Prop :=
  s = t ∨ s = any

variable {r s s' t t' : Ty}

/-- Every type is as vague as itself. -/
theorem Vaguer.refl (t : Ty) : t.Vaguer t :=
  .inl rfl

/-- A type that has a meet with another is vaguer than this meet. -/
theorem vaguer_of_meet? (hr : s.meet? t = some r) : s.Vaguer r := by
  have hsome : (s.meet? t).isSome := by rw [hr]; rfl
  rcases isSome_meet?_iff.1 hsome with rfl | rfl | rfl
  · exact .inr rfl
  · rw [meet?_any_right] at hr
    exact .inl (Option.some.inj hr)
  · rw [meet?_self] at hr
    exact .inl (Option.some.inj hr)

/-- **What meets still meets when some of it is forgotten.** -/
theorem Vaguer.meet? (hs : s'.Vaguer s) (ht : t'.Vaguer t) (hr : s.meet? t = some r) :
    ∃ r', s'.meet? t' = some r' ∧ r'.Vaguer r := by
  rcases hs with rfl | rfl
  · rcases ht with rfl | rfl
    · exact ⟨r, hr, .refl r⟩
    · exact ⟨s', meet?_any_right s', vaguer_of_meet? hr⟩
  · refine ⟨t', meet?_any_left t', ?_⟩
    rcases ht with rfl | rfl
    · exact vaguer_of_meet? ((meet?_comm t' s).trans hr)
    · exact .inr rfl

end Ty

/-- What a cell is made of, apart from its types: its element and its operands. -/
def Cell.shape (c : Cell) : Element × List ExprId :=
  (c.element, c.form.operands)

/-- An operator with its operands is the whole form. -/
theorem Form.eq_of_operands_ne_nil {f g : Form} (he : f.element = g.element)
    (ho : f.operands = g.operands) (hne : g.operands ≠ []) : f = g := by
  cases f <;> cases g <;> simp_all [element, operands]

namespace Plan

variable {p q : Plan} {h : ExprId}

/-- `p` has the expressions of `q`, and each leaf and each operator has there the type, or
operand type, that it has in `q`, or the wildcard. -/
structure Forgets (p q : Plan) : Prop where
  shapes : p.exprs.cells.map Cell.shape = q.exprs.cells.map Cell.shape
  leaves : ∀ h c, q.exprs.get? h = some c → c.form.operands = [] →
    p.resultType h = q.resultType h ∨ p.resultType h = some .any
  operands : ∀ h c, q.exprs.get? h = some c → c.form.operands ≠ [] →
    (p.exprs.requiredOperandType h).Vaguer (q.exprs.requiredOperandType h)

namespace Forgets

/-- An expression is still there, with the same head and the same operands. -/
theorem get? (H : p.Forgets q) {c : Cell} (hc : q.exprs.get? h = some c) :
    ∃ d, p.exprs.get? h = some d ∧ d.element = c.element ∧ d.form.operands = c.form.operands := by
  have hshape := congrArg (fun shapes => shapes[h]?) H.shapes
  simp only [Array.getElem?_map] at hshape
  rw [show q.exprs.cells[h]? = some c from hc] at hshape
  obtain ⟨d, hd, heq⟩ := Option.map_eq_some_iff.1 hshape
  exact ⟨d, hd, congrArg Prod.fst heq, congrArg Prod.snd heq⟩

/-- Whether an expression can stand for an array does not depend on its type. -/
theorem canBeArray (H : p.Forgets q) (hh : q.exprs.canBeArray h = true) :
    p.exprs.canBeArray h = true := by
  obtain ⟨c, hc, harray⟩ := Option.any_eq_true _ _ |>.1 hh
  obtain ⟨d, hd, helement, _⟩ := H.get? hc
  rw [Store.canBeArray, hd, Option.any_some, helement]
  exact harray

/-- A leaf is a leaf, of a vaguer type. -/
theorem leaf (H : p.Forgets q) {c : Cell} {own : Ty} (hc : q.exprs.get? h = some c)
    (hleaf : c.form.operands = []) (hown : c.resultType q.findVariable? = some own) :
    ∃ d own', p.exprs.get? h = some d ∧ d.form.operands = [] ∧
      d.resultType p.findVariable? = some own' ∧ own'.Vaguer own := by
  obtain ⟨d, hd, _, hoperands⟩ := H.get? hc
  have hq : q.resultType h = some own := by
    rw [resultType, Store.resultType, hc, Option.bind_some, hown]
  have hp : p.resultType h = d.resultType p.findVariable? := by
    rw [resultType, Store.resultType, hd, Option.bind_some]
  rcases H.leaves h c hc hleaf with heq | heq
  · exact ⟨d, own, hd, hoperands.trans hleaf, by rw [← hp, heq, hq], .refl own⟩
  · exact ⟨d, .any, hd, hoperands.trans hleaf, by rw [← hp, heq], .inr rfl⟩

/-- An operator is the same operator on the same operands, of which it requires a vaguer
type. -/
theorem operator (H : p.Forgets q) {c : Cell} (hc : q.exprs.get? h = some c)
    (hne : c.form.operands ≠ []) :
    ∃ d, p.exprs.get? h = some d ∧ d.form = c.form ∧
      d.requiredOperandType.Vaguer c.requiredOperandType := by
  obtain ⟨d, hd, helement, hoperands⟩ := H.get? hc
  have hv := H.operands h c hc hne
  rw [Store.requiredOperandType, Store.requiredOperandType, hc, hd] at hv
  exact ⟨d, hd, Form.eq_of_operands_ne_nil helement hoperands hne, hv⟩

/-- **A judgement stays one, in a vaguer type, when types are forgotten,** among them the one
that is expected. -/
theorem hasType (H : p.Forgets q) {t r t' : Ty} (hq : q.exprs.HasType q.findVariable? h t r)
    (ht : t'.Vaguer t) : ∃ r', p.exprs.HasType p.findVariable? h t' r' ∧ r'.Vaguer r := by
  induction hq generalizing t' with
  | leaf hc hleaf hown hr =>
    obtain ⟨d, own', hd, hleaf', hown', hv⟩ := H.leaf hc hleaf hown
    obtain ⟨r', hr', hvr⟩ := ht.meet? hv hr
    exact ⟨r', .leaf hd hleaf' hown' hr', hvr⟩
  | unary hc hform hr _ ih =>
    obtain ⟨d, hd, hsame, hrequired⟩ := H.operator hc (by simp [hform, Form.operands])
    obtain ⟨r', hr', hvr⟩ := ht.meet? (.refl _) hr
    obtain ⟨a', ha', _⟩ := ih hrequired
    exact ⟨r', .unary hd (hsame.trans hform) hr' ha', hvr⟩
  | binary hc hform hop hr _ _ hab iha ihb =>
    obtain ⟨d, hd, hsame, hrequired⟩ := H.operator hc (by simp [hform, Form.operands])
    obtain ⟨r', hr', hvr⟩ := ht.meet? (.refl _) hr
    obtain ⟨a', ha', hva⟩ := iha hrequired
    obtain ⟨b', hb', hvb⟩ := ihb hrequired
    obtain ⟨m, hm⟩ := Option.isSome_iff_exists.1 hab
    obtain ⟨m', hm', _⟩ := hva.meet? hvb hm
    exact ⟨r', .binary hd (hsame.trans hform) hop hr' ha' hb' (by rw [hm']; rfl), hvr⟩
  | element hc hform harray hu _ _ hr iha ihi =>
    obtain ⟨d, hd, hsame, hrequired⟩ := H.operator hc (by simp [hform, Form.operands])
    obtain ⟨u', hu', hvu⟩ := ht.meet? (.refl _) hu
    obtain ⟨a', ha', hva⟩ := iha hrequired
    -- The index is checked against `num`, which is nothing that can be forgotten.
    obtain ⟨i', hi', _⟩ := ihi (.refl .num)
    obtain ⟨r', hr', hvr⟩ := hvu.meet? hva hr
    exact ⟨r', .element hd (hsame.trans hform) (H.canBeArray harray) hu' ha' hi' hr', hvr⟩

end Forgets

/-- **Forgetting types introduces no finding on types.**  Where the check of an expression
finds nothing, it finds nothing after types are forgotten, and the type that it gives is the
same or the wildcard. -/
theorem typing_of_forgets (edits edits' : List Edit)
    (H : (build edits').Forgets (build edits)) :
    ∀ h t, (build edits).exprs.contains h = true → ((build edits).typing h t).findings = [] →
      ((build edits').typing h t).findings = [] ∧
        (((build edits').typing h t).type = ((build edits).typing h t).type ∨
          ((build edits').typing h t).type = some .any) := by
  intro h t hh hclean
  have hs := wellOwned_build edits
  have hs' := wellOwned_build edits'
  obtain ⟨r, hr⟩ := Store.exists_hasType_of_findings_eq_nil hs hh hclean
  obtain ⟨r', hr', hv⟩ := H.hasType hr (.refl t)
  rw [typing, typing, hr.typing_eq hs, hr'.typing_eq hs']
  refine ⟨rfl, ?_⟩
  rcases hv with rfl | rfl
  · exact .inl rfl
  · exact .inr rfl

/-- An integer variable is compared to a lookup of a number, by a comparison of numbers. -/
def numbersCompared : List Edit :=
  [.addNode "A" none, .declareVariable 0 ⟨"x", .integer, .unstated, none⟩, .reference "x" none,
    .constant "speed" .str, .lookup ⟨.lookup, 1, [], none⟩ (some .num),
    .binary (.binary .eq) 0 2, .setOperandType 3 .num]

/-- The same comparison without the declaration of the variable, the type of the lookup and
that of the operands. -/
def compared : List Edit :=
  [.addNode "A" none, .reference "x" none, .constant "speed" .str,
    .lookup ⟨.lookup, 1, [], none⟩ none, .binary (.binary .eq) 0 2]

/-- Nothing is left of the types of the comparison, and it is still a truth value: where a number
is expected it is reported as before. Of the variable it is not known any more that it is no
text. -/
theorem typing_of_forgets_compared :
    (build compared).Forgets (build numbersCompared) ∧
      ((build numbersCompared).typing 3 .bool).findings = [] ∧
      ((build compared).typing 3 .bool).findings = [] ∧
      ((build numbersCompared).typing 3 .num).findings =
        [.expressionType "(x == Lookup speed())" "type Bool" "type Num"] ∧
      ((build compared).typing 3 .num).findings =
        [.expressionType "(x == Lookup speed())" "type Bool" "type Num"] ∧
      ((build numbersCompared).typing 0 .str).findings =
        [.expressionType "x" "type Num" "type Str"] ∧
      ((build compared).typing 0 .str).findings = [] := by
  have hall : ∀ h < 4,
      ((build compared).resultType h = (build numbersCompared).resultType h ∨
        (build compared).resultType h = some .any) ∧
      (build compared).exprs.requiredOperandType h = .any := by decide +kernel
  have H : (build compared).Forgets (build numbersCompared) :=
    ⟨by decide +kernel, fun h c hc _ => (hall h (Store.lt_size_of_get? hc)).1,
      fun h c hc _ => .inr (hall h (Store.lt_size_of_get? hc)).2⟩
  have hclean : ((build numbersCompared).typing 3 .bool).findings = [] := by decide +kernel
  exact ⟨H, hclean, (typing_of_forgets _ _ H 3 .bool (by decide +kernel) hclean).1,
    by decide +kernel⟩

end Plan

end Preflight
