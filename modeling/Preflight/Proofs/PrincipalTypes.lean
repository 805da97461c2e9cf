import Preflight.Proofs.Forgetting

/-!
# Types are principal

The check of an expression decides the typing judgement (`typing_iff_hasType`).

What is expected of an expression has little part in it. By itself an expression has the type
that remains against the wildcard. Against any other type there remains the meet of the two, and
the expected type brings about a finding only if there is no such meet (`typing_principal`). The
reason is that operands are checked against what the operator requires, and this does not depend
on what is expected of the operator. An array element is the case to look at, since it meets the
expected type a second time, with the type of its array (`elementTyping_narrows`).

Where an operator requires a definite type, of an operand this type remains or none. So operands
can disagree with each other only where any type will do (`requiredOperandType_of_clash`), and
there are few operators of that kind (`Cell.operator_of_requires_any`).
-/

namespace Preflight

/-- What remains of a definite type is this type or nothing. -/
theorem Ty.meetKnown?_of_ne_any {t : Ty} (ht : t ≠ any) (u : Option Ty) :
    meetKnown? (some t) u = some t ∨ meetKnown? (some t) u = none := by
  cases u with
  | none => exact .inr rfl
  | some u =>
    rw [meetKnown?_some]
    cases hr : t.meet? u with
    | none => exact .inr rfl
    | some r =>
      rcases vaguer_of_meet? hr with rfl | rfl
      · exact .inl rfl
      · exact absurd rfl ht

/-- The typing `y` against `t` follows from the typing `free` against the wildcard: its type is
the meet, and it is without finding if the other is and there is a meet. -/
structure Typing.Narrows (t : Ty) (free y : Typing) : Prop where
  type : y.type = Ty.meetKnown? (some t) free.type
  clean : y.findings = [] ↔ free.findings = [] ∧ (Ty.meetKnown? (some t) free.type).isSome

/-- What has the element of array elements is one. -/
theorem Form.element_eq_arrayElem_iff {f : Form} :
    f.element = .binary .arrayElem ↔ ∃ array index, f = .binary .arrayElem array index := by
  cases f <;> simp [Form.element]

/-- The operators that can leave open what type their operands have, array elements apart. -/
theorem Cell.operator_of_requires_any {c : Cell} {op : BinaryOp} {left right : ExprId}
    (hform : c.form = .binary op left right) (hop : op ≠ .arrayElem)
    (hany : c.requiredOperandType = .any) : op = .eq ∨ op = .ne ∨ op = .aliasOf := by
  rw [requiredOperandType, element, hform] at hany
  cases op <;> simp_all [Form.element, Element.operandType?, BinaryOp.operandType?]

namespace Store

variable {s : Store} {vars : String → Option Variable} {h : ExprId} {c : Cell} {t own : Ty}

/-! ### Narrowing -/

/-- The type of the array decides. If it has none, the expected type remains and nothing is
added to what is reported. -/
theorem elementTyping_narrows (s : Store) (h : ExprId) (t : Ty) (array : ExprId) (a i : Typing) :
    (s.elementTyping h .any array a i).Narrows t (s.elementTyping h t array a i) := by
  constructor
  · rw [type_elementTyping, type_elementTyping]
    cases a.type <;> simp
  · rw [type_elementTyping, findings_elementTyping, findings_elementTyping]
    simp only [List.append_eq_nil_iff, operandClash_eq_nil_iff]
    cases a.type with
    | none => simp
    | some u => simp [and_assoc, and_left_comm, and_comm]

/-- Apart from array elements, what is expected of an expression has no part in what is reported
on its operands. -/
theorem operandTyping_of_ne_element {f : ExprId → Ty → Typing}
    (hne : c.element ≠ .binary .arrayElem) (t u : Ty) :
    s.operandTyping h c t f = ⟨some t, (s.operandTyping h c u f).findings⟩ := by
  cases hform : c.form with
  | unary op operand => simp only [operandTyping, hform]
  | binary op left right =>
    have hop : op ≠ .arrayElem := by
      rintro rfl
      exact hne (by rw [Cell.element, hform]; rfl)
    rw [operandTyping_binary hform hop, operandTyping_binary hform hop]
  | _ =>
    have hleaf : c.form.operands = [] := by rw [hform]; rfl
    rw [operandTyping_leaf hleaf, operandTyping_leaf hleaf]

/-- **What is expected of an expression narrows its type and nothing else.** -/
theorem typing_narrows (hs : s.WellOwned) (vars : String → Option Variable)
    (hh : s.contains h = true) (t : Ty) :
    (s.typing vars h .any).Narrows t (s.typing vars h t) := by
  obtain ⟨c, hc⟩ := contains_iff.1 hh
  obtain ⟨own, hown⟩ := Option.isSome_iff_exists.1 (isSome_resultType hs vars hc)
  rw [typing_of_meet hs hc hown (Ty.meet?_any_left own)]
  by_cases helement : c.element = .binary .arrayElem
  · obtain ⟨array, index, hform⟩ := Form.element_eq_arrayElem_iff.1 helement
    obtain rfl := Option.some.inj (hown.symm.trans (resultType_binary hform))
    rw [typing_of_meet hs hc hown (Ty.meet?_any_right t), operandTyping, operandTyping, hform]
    exact elementTyping_narrows s h t array _ _
  · cases hr : t.meet? own with
    | none =>
      rw [typing_of_not_meet hs hc hown hr, operandTyping_of_ne_element helement own own]
      exact ⟨by simp [hr], by simp [hr]⟩
    | some r =>
      rw [typing_of_meet hs hc hown hr, operandTyping_of_ne_element helement r own,
        operandTyping_of_ne_element helement own own]
      exact ⟨by simp [hr], by simp [hr]⟩

/-- Against a definite type this type remains, or none. -/
theorem type_typing_of_ne_any (hs : s.WellOwned) (vars : String → Option Variable)
    (hh : s.contains h = true) (ht : t ≠ .any) :
    (s.typing vars h t).type = some t ∨ (s.typing vars h t).type = none := by
  rw [(typing_narrows hs vars hh t).type]
  exact Ty.meetKnown?_of_ne_any ht _

/-! ### Operands that disagree -/

/-- **Operands disagree only where any type is required of them.** -/
theorem requiredOperandType_of_clash (hs : s.WellOwned) (hc : s.get? h = some c)
    {op : BinaryOp} {left right : ExprId} (hform : c.form = .binary op left right)
    (hclash : s.operandClash right (s.typing vars left c.requiredOperandType)
      (s.typing vars right c.requiredOperandType) ≠ []) : c.requiredOperandType = .any := by
  by_contra hne
  have hoperand : ∀ k ∈ c.form.uses, ∀ u,
      (s.typing vars k c.requiredOperandType).type = some u → u = c.requiredOperandType := by
    intro k hk u hu
    rcases type_typing_of_ne_any hs vars (hs.contains_of_uses ⟨c, hc, hk⟩) hne with htype | htype
    · exact Option.some.inj (hu.symm.trans htype)
    · rw [hu] at htype
      cases htype
  rcases s.operandClash_cases right _ _ with hnil | ⟨a, b, ha, hb, hmeet, _⟩
  · exact hclash hnil
  · obtain rfl := hoperand left (by simp [hform, Form.uses, Form.operands]) a ha
    obtain rfl := hoperand right (by simp [hform, Form.uses, Form.operands]) b hb
    rw [Ty.meet?_self] at hmeet
    cases hmeet

end Store

namespace Plan

/-- **The check of an expression decides the typing judgement.**  There is nothing to report
exactly if the expression is well typed, and then its type is the one that the check gives. -/
theorem typing_iff_hasType (edits : List Edit) :
    let p := build edits
    ∀ h t, p.exprs.contains h = true →
      ((p.typing h t).findings = [] ↔ ∃ r, p.exprs.HasType p.findVariable? h t r) ∧
        ∀ r, p.exprs.HasType p.findVariable? h t r ↔ p.typing h t = ⟨some r, []⟩ := by
  intro p h t hh
  have hs : p.exprs.WellOwned := wellOwned_build edits
  have hclean : (p.typing h t).findings = [] ↔ ∃ r, p.exprs.HasType p.findVariable? h t r :=
    Store.findings_eq_nil_iff hs hh
  refine ⟨hclean, fun r => ⟨fun H => H.typing_eq hs, fun heq => ?_⟩⟩
  obtain ⟨r', H⟩ := hclean.1 (by rw [heq])
  have heq' : p.typing h t = ⟨some r', []⟩ := H.typing_eq hs
  obtain rfl : r' = r := Option.some.inj (congrArg Typing.type (heq'.symm.trans heq))
  exact H

/-- A sample, which is an element of an array, is compared to a limit. -/
def sampleBelowLimit : List Edit :=
  [.addNode "A" none, .declareVariable 0 ⟨"samples", .real, .unstated, some 8⟩,
    .declareVariable 0 ⟨"i", .integer, .unstated, none⟩, .reference "samples" none,
    .reference "i" none, .binary (.binary .arrayElem) 0 1, .constant "1.5" .num,
    .binary (.binary .lt) 2 3]

/-- The comparison is a truth value. -/
theorem typing_iff_hasType_sampleBelowLimit :
    let p := build sampleBelowLimit
    p.exprs.contains 4 = true ∧ p.typing 4 .any = ⟨some .bool, []⟩ ∧
      p.exprs.HasType p.findVariable? 4 .any .bool := by
  intro p
  have hin : p.exprs.contains 4 = true := by decide +kernel
  have htyping : p.typing 4 .any = ⟨some .bool, []⟩ := by decide +kernel
  exact ⟨hin, htyping, ((typing_iff_hasType sampleBelowLimit 4 .any hin).2 .bool).2 htyping⟩

/-- **Every expression has a principal type,** the one that remains against the wildcard. Against
any other type there remains the meet of the two, and if there is one, the expected type adds
nothing to what is reported. So a definite type remains as it is or not at all, and two operands
can disagree with each other only under a comparison or an alias that requires no type of them. -/
theorem typing_principal (edits : List Edit) :
    let p := build edits
    (∀ h t, p.exprs.contains h = true →
      (p.typing h t).type = Ty.meetKnown? (some t) (p.typing h .any).type ∧
        ((p.typing h t).findings = [] ↔ (p.typing h .any).findings = [] ∧
          (Ty.meetKnown? (some t) (p.typing h .any).type).isSome) ∧
        (t ≠ .any → (p.typing h t).type = some t ∨ (p.typing h t).type = none)) ∧
      ∀ h c op left right, p.exprs.get? h = some c → c.form = .binary op left right →
        op ≠ .arrayElem →
        p.exprs.operandClash right (p.typing left c.requiredOperandType)
          (p.typing right c.requiredOperandType) ≠ [] →
        (op = .eq ∨ op = .ne ∨ op = .aliasOf) ∧ c.requiredOperandType = .any := by
  intro p
  have hs : p.exprs.WellOwned := wellOwned_build edits
  refine ⟨fun h t hh => ?_, fun h c op left right hc hform hop hclash => ?_⟩
  · obtain ⟨htype, hclean⟩ := Store.typing_narrows hs p.findVariable? hh t
    exact ⟨htype, hclean, Store.type_typing_of_ne_any hs p.findVariable? hh⟩
  · have hany := Store.requiredOperandType_of_clash hs hc hform hclash
    exact ⟨Cell.operator_of_requires_any hform hop hany, hany⟩

/-- A sample is compared to a text for equality. -/
def sampleIsText : List Edit :=
  [.addNode "A" none, .declareVariable 0 ⟨"samples", .real, .unstated, some 8⟩,
    .reference "samples" none, .constant "0" .num, .binary (.binary .arrayElem) 0 1,
    .constant "high" .str, .binary (.binary .eq) 2 3]

/-- The sample is a number by itself, so nothing remains of it where a truth value is expected.
It disagrees with the text, as it can under an equality. -/
theorem typing_principal_sampleIsText :
    let p := build sampleIsText
    (p.exprs.contains 2 = true ∧ (p.typing 2 .any).type = some .num ∧
      (p.typing 2 .bool).type = none ∧ (p.typing 2 .bool).findings ≠ []) ∧
      p.exprs.get? 4 = some ⟨.binary .eq 2 3, none, none, none⟩ ∧
      p.exprs.operandClash 3 (p.typing 2 .any) (p.typing 3 .any) ≠ [] ∧
      (⟨.binary .eq 2 3, none, none, none⟩ : Cell).requiredOperandType = .any := by
  intro p
  obtain ⟨hprincipal, hoperands⟩ := typing_principal sampleIsText
  have hin : p.exprs.contains 2 = true := by decide +kernel
  have hfree : (p.typing 2 .any).type = some .num := by decide +kernel
  have hmeet : Ty.meetKnown? (some .bool) (p.typing 2 .any).type = none := by
    rw [hfree]
    rfl
  have hcell : p.exprs.get? 4 = some ⟨.binary .eq 2 3, none, none, none⟩ := by decide +kernel
  have hclash : p.exprs.operandClash 3 (p.typing 2 .any) (p.typing 3 .any) ≠ [] := by
    decide +kernel
  obtain ⟨htype, hclean, _⟩ := hprincipal 2 .bool hin
  refine ⟨⟨hin, hfree, htype.trans hmeet, fun hnil => ?_⟩, hcell, hclash,
    (hoperands 4 _ .eq 2 3 hcell rfl (by decide) hclash).2⟩
  have hsome := (hclean.1 hnil).2
  rw [hmeet] at hsome
  cases hsome

end Plan

end Preflight
