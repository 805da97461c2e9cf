import Preflight.Proofs.Store.Locality

/-!
# The typing judgement

`HasType s vars h t r` says that the expression at `h`, of which type `t` is expected, is
well typed and has type `r`. Its own type must meet the expected one. The operands of an
operator must be well typed at the type it requires of them, and those of a binary one must
agree with each other. An array element is of the type of its array, which must be a
reference or a lookup, and its index is a number.

What the check can do with an expression is said once, as an induction principle
(`typing_induction`): report that its own type does not fit, and leave it at that; pass a leaf;
or go on to the operands, in one of three ways.

The check has nothing to report on an expression exactly if there is a judgement on it
(`findings_eq_nil_iff`), and the type it gives is that of the judgement
(`HasType.typing_eq`). The induction for the first needs the second: that operands agree is
reported only if both have a type, and they have one if there is nothing to report on them.

Whatever the check reports is of two kinds (`typeReport_of_mem_typing`), and it speaks of known
types only, since every expression has a type (`isSome_resultType`).

The judgement depends on the variables through the types of those that the expression reads
only (`HasType.congr_vars`).
-/

namespace Preflight
namespace Store

/-- The judgement that the expression at a handle is well typed where the first type is expected,
and that the second one remains. There is one rule for each of leaves, operators on one and on two
expressions, and array elements. -/
inductive HasType (s : Store) (vars : String → Option Variable) : ExprId → Ty → Ty → Prop where
  | leaf {h : ExprId} {c : Cell} {t own r : Ty} (hc : s.get? h = some c)
      (hleaf : c.form.operands = []) (hown : c.resultType vars = some own)
      (hr : t.meet? own = some r) : HasType s vars h t r
  | unary {h operand : ExprId} {c : Cell} {op : UnaryOp} {t r a : Ty} (hc : s.get? h = some c)
      (hform : c.form = .unary op operand) (hr : t.meet? op.resultType = some r)
      (ha : HasType s vars operand c.requiredOperandType a) : HasType s vars h t r
  | binary {h left right : ExprId} {c : Cell} {op : BinaryOp} {t r a b : Ty}
      (hc : s.get? h = some c) (hform : c.form = .binary op left right) (hop : op ≠ .arrayElem)
      (hr : t.meet? op.resultType = some r) (ha : HasType s vars left c.requiredOperandType a)
      (hb : HasType s vars right c.requiredOperandType b) (hab : (a.meet? b).isSome) :
      HasType s vars h t r
  | element {h array index : ExprId} {c : Cell} {t u r a i : Ty} (hc : s.get? h = some c)
      (hform : c.form = .binary .arrayElem array index) (harray : s.canBeArray array = true)
      (hu : t.meet? BinaryOp.arrayElem.resultType = some u)
      (ha : HasType s vars array c.requiredOperandType a) (hi : HasType s vars index .num i)
      (hr : u.meet? a = some r) : HasType s vars h t r

/-- Two expressions are well typed, each by itself, and their types agree. -/
def SidesAgree (s : Store) (vars : String → Option Variable) (target value : ExprId) : Prop :=
  ∃ l r, HasType s vars target .any l ∧ HasType s vars value .any r ∧ (l.meet? r).isSome

/-- The expression at `root` reads the variable `name`: it reaches a reference to it that is
not one to a node. -/
def Reads (s : Store) (root : ExprId) (name : String) : Prop :=
  ∃ h c, s.Reaches root h ∧ s.get? h = some c ∧ c.form = .ref name ∧ c.nodeProperty? = none

variable {s : Store} {vars vars' : String → Option Variable} {h : ExprId} {c : Cell} {t r : Ty}

/-! ### The check, form by form -/

/-- Where the own type meets the expected one, the operands decide. -/
theorem typing_of_meet (hs : s.WellOwned) (hc : s.get? h = some c) {own : Ty}
    (hown : c.resultType vars = some own) (hr : t.meet? own = some r) :
    s.typing vars h t = s.operandTyping h c r (s.typing vars) := by
  simp only [typing_eq hs hc, typingStep, hown, Ty.meetKnown?_some, hr]

/-- Where the own type does not meet the expected one, that is all there is to report. -/
theorem typing_of_not_meet (hs : s.WellOwned) (hc : s.get? h = some c) {own : Ty}
    (hown : c.resultType vars = some own) (hr : t.meet? own = none) :
    s.typing vars h t = ⟨none, [s.typeFinding h (some own) (some t)]⟩ := by
  simp only [typing_eq hs hc, typingStep, hown, Ty.meetKnown?_some, hr]

/-- An operator on one expression has the type of its results. -/
theorem resultType_unary {op : UnaryOp} {operand : ExprId} (hform : c.form = .unary op operand) :
    c.resultType vars = some op.resultType := by
  rw [Cell.resultType, hform]

/-- An operator on two expressions has the type of its results. -/
theorem resultType_binary {op : BinaryOp} {left right : ExprId}
    (hform : c.form = .binary op left right) : c.resultType vars = some op.resultType := by
  rw [Cell.resultType, hform]

/-- There is nothing below a leaf to be reported. -/
theorem operandTyping_leaf {f : ExprId → Ty → Typing} (hleaf : c.form.operands = []) :
    s.operandTyping h c t f = ⟨some t, []⟩ := by
  unfold operandTyping
  cases hform : c.form <;> simp_all [Form.operands]

/-- Two operands are compared with each other, and both are checked against the same type. -/
theorem operandTyping_binary {f : ExprId → Ty → Typing} {op : BinaryOp} {left right : ExprId}
    (hform : c.form = .binary op left right) (hop : op ≠ .arrayElem) :
    s.operandTyping h c t f =
      ⟨some t,
        s.operandClash right (f left c.requiredOperandType) (f right c.requiredOperandType) ++
          (f left c.requiredOperandType).findings ++ (f right c.requiredOperandType).findings⟩ := by
  unfold operandTyping
  cases op <;> simp_all

/-- Two operands clash if both have a type and these do not meet, and then the right one is
reported. -/
theorem operandClash_cases (s : Store) (right : ExprId) (l r : Typing) :
    s.operandClash right l r = [] ∨ ∃ a b, l.type = some a ∧ r.type = some b ∧ a.meet? b = none ∧
      s.operandClash right l r = [s.typeFinding right (some b) (some a)] := by
  unfold operandClash
  cases l.type with
  | none => exact .inl rfl
  | some a =>
    cases r.type with
    | none => exact .inl rfl
    | some b =>
      cases hm : a.meet? b with
      | none => exact .inr ⟨a, b, rfl, rfl, hm, by simp [hm]⟩
      | some m => exact .inl (by simp [hm])

/-- Operands do not clash exactly if their types agree as far as they are known. -/
theorem operandClash_eq_nil_iff {right : ExprId} {l r : Typing} :
    s.operandClash right l r = [] ↔
      ∀ a b, l.type = some a → r.type = some b → (a.meet? b).isSome := by
  unfold operandClash
  cases l.type with
  | none => simp
  | some a =>
    cases r.type with
    | none => simp
    | some b => cases hm : a.meet? b <;> simp [hm]

/-- An array element has the type that it shares with its array, if that is known. -/
theorem type_elementTyping (s : Store) (h : ExprId) (t : Ty) (array : ExprId) (a i : Typing) :
    (s.elementTyping h t array a i).type = a.type.elim (some t) t.meet? := by
  unfold elementTyping
  cases a.type with
  | none => rfl
  | some u => cases hm : t.meet? u <;> simp [hm]

/-- An array element is reported if its array cannot be one, and if the type of its array clashes
with the one that is expected. -/
theorem findings_elementTyping (s : Store) (h : ExprId) (t : Ty) (array : ExprId) (a i : Typing) :
    (s.elementTyping h t array a i).findings =
      (if s.canBeArray array then [] else [.notAnArray (s.text array) (s.text h)]) ++
        s.operandClash h ⟨some t, []⟩ a ++ a.findings ++ i.findings := by
  unfold elementTyping operandClash
  cases a.type with
  | none => simp
  | some u => cases hm : t.meet? u <;> simp [hm]

/-! ### Induction over the check -/

/-- In a well owned store every expression has a type: a constant had one stated when it was
added, and the other forms give theirs. -/
theorem isSome_resultType (hs : s.WellOwned) (vars : String → Option Variable)
    (hc : s.get? h = some c) : (c.resultType vars).isSome := by
  unfold Cell.resultType
  cases hform : c.form with
  | const text =>
    have hconst : c.element = .leaf .const := by rw [Cell.element, hform]; rfl
    exact hs.typed hc hconst
  | ref name => cases c.nodeProperty? <;> rfl
  | _ => rfl

/-- **Induction over the check.**  What holds of the check of an expression whose own type does
not fit, of that of a leaf, and of that of an operator if it holds of the checks of its operands,
holds of the check of every expression. -/
theorem typing_induction (hs : s.WellOwned) {C : ExprId → Ty → Typing → Prop}
    (mismatch : ∀ {h c t own}, s.get? h = some c → c.resultType vars = some own →
      t.meet? own = none → C h t ⟨none, [s.typeFinding h (some own) (some t)]⟩)
    (leaf : ∀ {h c t own r}, s.get? h = some c → c.form.operands = [] →
      c.resultType vars = some own → t.meet? own = some r → C h t ⟨some r, []⟩)
    (unary : ∀ {h c t r op operand}, s.get? h = some c → c.form = .unary op operand →
      t.meet? op.resultType = some r →
      C operand c.requiredOperandType (s.typing vars operand c.requiredOperandType) →
      C h t ⟨some r, (s.typing vars operand c.requiredOperandType).findings⟩)
    (binary : ∀ {h c t r op left right}, s.get? h = some c → c.form = .binary op left right →
      op ≠ .arrayElem → t.meet? op.resultType = some r →
      C left c.requiredOperandType (s.typing vars left c.requiredOperandType) →
      C right c.requiredOperandType (s.typing vars right c.requiredOperandType) →
      C h t ⟨some r,
        s.operandClash right (s.typing vars left c.requiredOperandType)
            (s.typing vars right c.requiredOperandType) ++
          (s.typing vars left c.requiredOperandType).findings ++
          (s.typing vars right c.requiredOperandType).findings⟩)
    (element : ∀ {h c t array index}, s.get? h = some c →
      c.form = .binary .arrayElem array index →
      C array c.requiredOperandType (s.typing vars array c.requiredOperandType) →
      C index .num (s.typing vars index .num) →
      C h t (s.elementTyping h t array (s.typing vars array c.requiredOperandType)
        (s.typing vars index .num)))
    (hh : s.contains h = true) (t : Ty) : C h t (s.typing vars h t) := by
  induction h using Nat.strongRecOn generalizing t with
  | _ h ih =>
    obtain ⟨c, hc⟩ := contains_iff.1 hh
    have below : ∀ k ∈ c.form.uses, ∀ u, C k u (s.typing vars k u) := fun k hk =>
      ih k (hs.descends ⟨c, hc, hk⟩) (hs.contains_of_uses ⟨c, hc, hk⟩)
    obtain ⟨own, hown⟩ := Option.isSome_iff_exists.1 (isSome_resultType hs vars hc)
    cases hr : t.meet? own with
    | none =>
      rw [typing_of_not_meet hs hc hown hr]
      exact mismatch hc hown hr
    | some r =>
      rw [typing_of_meet hs hc hown hr]
      cases hform : c.form with
      | unary op operand =>
        obtain rfl := Option.some.inj (hown.symm.trans (resultType_unary hform))
        rw [operandTyping, hform]
        exact unary hc hform hr (below operand (by simp [hform, Form.uses, Form.operands]) _)
      | binary op left right =>
        obtain rfl := Option.some.inj (hown.symm.trans (resultType_binary hform))
        have hleft := below left (by simp [hform, Form.uses, Form.operands])
        have hright := below right (by simp [hform, Form.uses, Form.operands])
        by_cases hop : op = .arrayElem
        · subst hop
          -- The own type of an array element is open, so the expected one remains.
          obtain rfl := Option.some.inj ((Ty.meet?_any_right t).symm.trans hr)
          rw [operandTyping, hform]
          exact element hc hform (hleft _) (hright _)
        · rw [operandTyping_binary hform hop]
          exact binary hc hform hop hr (hleft _) (hright _)
      | _ =>
        have hleaf : c.form.operands = [] := by rw [hform]; rfl
        rw [operandTyping_leaf hleaf]
        exact leaf hc hleaf hown hr

/-! ### The judgement and the check -/

/-- **A judgement is what the check finds.** -/
theorem HasType.typing_eq (hs : s.WellOwned) (H : HasType s vars h t r) :
    s.typing vars h t = ⟨some r, []⟩ := by
  induction H with
  | leaf hc hleaf hown hr => rw [typing_of_meet hs hc hown hr, operandTyping_leaf hleaf]
  | unary hc hform hr _ ih =>
    rw [typing_of_meet hs hc (resultType_unary hform) hr, operandTyping, hform]
    simp only [ih]
  | @binary _ _ right _ _ _ _ a b hc hform hop hr _ _ hab iha ihb =>
    have hclash : s.operandClash right ⟨some a, []⟩ ⟨some b, []⟩ = [] := by
      simp [operandClash_eq_nil_iff, hab]
    rw [typing_of_meet hs hc (resultType_binary hform) hr, operandTyping_binary hform hop, iha, ihb,
      hclash]
    rfl
  | element hc hform harray hu _ _ hr iha ihi =>
    rw [typing_of_meet hs hc (resultType_binary hform) hu, operandTyping, hform]
    simp only [iha, ihi, elementTyping, harray, hr, if_true, List.append_nil]

/-- **Where the check finds nothing there is a judgement.** -/
theorem exists_hasType_of_findings_eq_nil (hs : s.WellOwned) (hh : s.contains h = true)
    (hclean : (s.typing vars h t).findings = []) : ∃ r, HasType s vars h t r := by
  refine typing_induction (C := fun h t y => y.findings = [] → ∃ r, HasType s vars h t r) hs
    ?mismatch ?leaf ?unary ?binary ?element hh t hclean
  case mismatch =>
    intro h c t own _ _ _ hclean
    cases hclean
  case leaf =>
    intro h c t own r hc hleaf hown hr _
    exact ⟨r, .leaf hc hleaf hown hr⟩
  case unary =>
    intro h c t r op operand hc hform hr ih hclean
    obtain ⟨a, ha⟩ := ih hclean
    exact ⟨r, .unary hc hform hr ha⟩
  case binary =>
    intro h c t r op left right hc hform hop hr ihl ihr hclean
    simp only [List.append_eq_nil_iff] at hclean
    obtain ⟨⟨hclash, hl⟩, hr'⟩ := hclean
    obtain ⟨a, ha⟩ := ihl hl
    obtain ⟨b, hb⟩ := ihr hr'
    rw [ha.typing_eq hs, hb.typing_eq hs] at hclash
    exact ⟨r, .binary hc hform hop hr ha hb (operandClash_eq_nil_iff.1 hclash a b rfl rfl)⟩
  case element =>
    intro h c t array index hc hform iha ihi hclean
    simp only [findings_elementTyping, List.append_eq_nil_iff, ite_eq_left_iff, reduceCtorEq,
      imp_false, Bool.not_eq_true, Bool.not_eq_false] at hclean
    obtain ⟨⟨⟨harray, hclash⟩, ha⟩, hi⟩ := hclean
    obtain ⟨a, ha⟩ := iha ha
    obtain ⟨i, hi⟩ := ihi hi
    rw [ha.typing_eq hs] at hclash
    obtain ⟨r, hr⟩ := Option.isSome_iff_exists.1 (operandClash_eq_nil_iff.1 hclash t a rfl rfl)
    exact ⟨r, .element hc hform harray (Ty.meet?_any_right t) ha hi hr⟩

/-- **The check of an expression finds nothing exactly if the expression is well typed.** -/
theorem findings_eq_nil_iff (hs : s.WellOwned) (hh : s.contains h = true) :
    (s.typing vars h t).findings = [] ↔ ∃ r, HasType s vars h t r :=
  ⟨exists_hasType_of_findings_eq_nil hs hh, fun ⟨_, H⟩ => by rw [H.typing_eq hs]⟩

/-! ### What the check gives and reports -/

/-- Where anything is expected, some type remains. The type of an array element is open, so it
meets that of its array. -/
theorem isSome_type_typing_any (hs : s.WellOwned) (vars : String → Option Variable)
    (hh : s.contains h = true) : (s.typing vars h .any).type.isSome := by
  refine typing_induction (C := fun _ t y => t = .any → y.type.isSome) hs
    ?mismatch ?leaf ?unary ?binary ?element hh .any rfl
  case mismatch =>
    rintro h c t own _ _ hr rfl
    rw [Ty.meet?_any_left] at hr
    cases hr
  case element =>
    rintro h c t array index _ _ _ _ rfl
    rw [type_elementTyping]
    cases (s.typing vars array c.requiredOperandType).type with
    | none => rfl
    | some u => simp
  all_goals
    intros
    rfl

/-- What the check of types has to report: two known types that do not meet, or an array element
of what cannot be an array. -/
inductive TypeReport (s : Store) : Finding → Prop where
  | mismatch (h : ExprId) (found expected : Ty) :
      TypeReport s (s.typeFinding h (some found) (some expected))
  | shape {h array index : ExprId} {c : Cell} (hc : s.get? h = some c)
      (hform : c.form = .binary .arrayElem array index) :
      TypeReport s (.notAnArray (s.text array) (s.text h))

/-- A clash of operands is a finding on types. -/
theorem typeReport_of_mem_operandClash {right : ExprId} {l r : Typing} {f : Finding}
    (hf : f ∈ s.operandClash right l r) : s.TypeReport f := by
  rcases s.operandClash_cases right l r with hnil | ⟨a, b, _, _, _, heq⟩
  · rw [hnil] at hf
    cases hf
  · rw [heq] at hf
    obtain rfl := List.mem_singleton.1 hf
    exact .mismatch right b a

/-- The typing makes findings of these kinds only. -/
theorem typeReport_of_mem_typing (hs : s.WellOwned) {f : Finding}
    (hf : f ∈ (s.typing vars h t).findings) : s.TypeReport f := by
  have hh : s.contains h = true := by
    by_contra hnone
    rw [typing, fold_of_get?_eq_none (Option.not_isSome_iff_eq_none.1 hnone)] at hf
    cases hf
  refine typing_induction (C := fun _ _ y => f ∈ y.findings → s.TypeReport f) hs
    ?mismatch ?leaf ?unary ?binary ?element hh t hf
  case mismatch =>
    intro h c t own _ _ _ hf
    obtain rfl := List.mem_singleton.1 hf
    exact .mismatch h own t
  case leaf =>
    intro h c t own r _ _ _ _ hf
    cases hf
  case unary =>
    intro h c t r op operand _ _ _ ih hf
    exact ih hf
  case binary =>
    intro h c t r op left right _ _ _ _ ihl ihr hf
    simp only [List.mem_append] at hf
    rcases hf with (hf | hf) | hf
    · exact typeReport_of_mem_operandClash hf
    · exact ihl hf
    · exact ihr hf
  case element =>
    intro h c t array index hc hform iha ihi hf
    simp only [findings_elementTyping, List.mem_append] at hf
    rcases hf with ((hf | hf) | hf) | hf
    · split_ifs at hf
      · cases hf
      · obtain rfl := List.mem_singleton.1 hf
        exact .shape hc hform
    · exact typeReport_of_mem_operandClash hf
    · exact iha hf
    · exact ihi hf

/-! ### Dependence on the variables -/

/-- A reference to a variable is the only cell whose type comes from the variables. -/
theorem resultType_congr_vars
    (hagree : ∀ name, c.form = .ref name → c.nodeProperty? = none →
      (vars name).map (fun v => v.type.ty) = (vars' name).map fun v => v.type.ty) :
    c.resultType vars = c.resultType vars' := by
  unfold Cell.resultType
  cases hform : c.form with
  | ref name =>
    cases hprop : c.nodeProperty? with
    | none => simp only [hagree name hform hprop]
    | some u => rfl
  | _ => rfl

/-- What an operand reads is read. -/
theorem Reads.of_operand {k : ExprId} (hk : s.HasOperand h k) {name : String}
    (hname : s.Reads k name) : s.Reads h name := by
  obtain ⟨i, c, hi, hc, hform, hprop⟩ := hname
  exact ⟨i, c, hi.head hk, hc, hform, hprop⟩

/-- **The judgement depends on the types of the variables that the expression reads only.** -/
theorem HasType.congr_vars (H : HasType s vars h t r)
    (hagree : ∀ name, s.Reads h name →
      (vars name).map (fun v => v.type.ty) = (vars' name).map fun v => v.type.ty) :
    HasType s vars' h t r := by
  induction H with
  | @leaf h c _ _ _ hc hleaf hown hr =>
    refine .leaf hc hleaf (Eq.trans ?_ hown) hr
    refine (resultType_congr_vars fun name hform hprop => ?_).symm
    exact hagree name ⟨h, c, .refl, hc, hform, hprop⟩
  | unary hc hform hr _ ih =>
    refine .unary hc hform hr (ih fun name hname => hagree name (hname.of_operand ?_))
    exact ⟨_, hc, by simp [hform, Form.operands]⟩
  | binary hc hform hop hr _ _ hab iha ihb =>
    refine .binary hc hform hop hr (iha fun name hname => hagree name (hname.of_operand ?_))
      (ihb fun name hname => hagree name (hname.of_operand ?_)) hab
    · exact ⟨_, hc, by simp [hform, Form.operands]⟩
    · exact ⟨_, hc, by simp [hform, Form.operands]⟩
  | element hc hform harray hu _ _ hr iha ihi =>
    refine .element hc hform harray hu (iha fun name hname => hagree name (hname.of_operand ?_))
      (ihi fun name hname => hagree name (hname.of_operand ?_)) hr
    · exact ⟨_, hc, by simp [hform, Form.operands]⟩
    · exact ⟨_, hc, by simp [hform, Form.operands]⟩

end Store
end Preflight
