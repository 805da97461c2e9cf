import Preflight.Proofs.Termination
import Preflight.Proofs.Typing

/-!
# No expression is blamed twice

A finding on types blames an expression: it says of this expression, as it is written, that it
has one type where another is expected. There are three places where the check blames. It blames
an expression whose own type does not fit, the right one of two operands that disagree, and an
array element whose array does not fit.

An expression could be blamed both by its own check and as a right operand. It is not: operands
are compared only if both have a type, and an expression that was blamed by its own check has
none. This is the invariant that carries the induction (`Blamed.spared`). What is blamed below
one operand has nothing in common with what is blamed below the other, as two operands reach
nothing in common (`apart_of_operands`). So the findings on types are on different expressions
(`exists_blamed`), and there are no more of them than expressions (`one_finding_each`).
-/

namespace Preflight

open Run

/-- The finding is that an expression has one type where another is expected. -/
def Finding.isTypeMismatch : Finding → Bool
  | .expressionType .. => true
  | _ => false

namespace Store

variable {s : Store} {vars : String → Option Variable} {h : ExprId} {c : Cell} {t : Ty}
  {fs gs : List Finding} {ks ls rs : List ExprId}

/-- The findings on types among `fs` blame the expressions at `ks`, each finding the one at its
own position. -/
def Blames (s : Store) (fs : List Finding) (ks : List ExprId) : Prop :=
  List.Forall₂ (fun f k => ∃ found expected, f = s.typeFinding k (some found) (some expected))
    (fs.filter Finding.isTypeMismatch) ks

/-- No findings blame nothing. -/
theorem blames_nil (s : Store) : s.Blames [] [] :=
  .nil

/-- A finding on types blames the expression it is on. -/
theorem blames_typeFinding (s : Store) (k : ExprId) (found expected : Ty) :
    s.Blames [s.typeFinding k (some found) (some expected)] [k] :=
  .cons ⟨found, expected, rfl⟩ .nil

/-- Two lists of findings blame what each of them blames, in that order. -/
theorem Blames.append (hf : s.Blames fs ks) (hg : s.Blames gs ls) :
    s.Blames (fs ++ gs) (ks ++ ls) := by
  rw [Blames, List.filter_append]
  exact List.rel_append hf hg

/-- That an array cannot be one is no finding on types. -/
theorem blames_shape (s : Store) (h array : ExprId) :
    s.Blames (if s.canBeArray array then [] else [.notAnArray (s.text array) (s.text h)]) [] := by
  split_ifs <;> exact .nil

/-- The typing `y` of the expression at `h` blames the expressions at `ks`. These are different
ones in or below `h`, and `h` is among them only if no type remained of it. -/
structure Blamed (s : Store) (h : ExprId) (y : Typing) (ks : List ExprId) : Prop where
  blames : s.Blames y.findings ks
  nodup : ks.Nodup
  reached : ∀ k ∈ ks, s.Reaches h k
  spared : y.type.isSome → h ∉ ks

/-- An expression all of whose findings are further down is spared itself. -/
theorem Blamed.of_below {y : Typing} (hblames : s.Blames y.findings ks) (hnodup : ks.Nodup)
    (hbelow : ∀ k ∈ ks, s.Reaches h k ∧ k ≠ h) : s.Blamed h y ks :=
  ⟨hblames, hnodup, fun k hk => (hbelow k hk).1, fun _ hmem => (hbelow h hmem).2 rfl⟩

/-- What is blamed below an operand is below the operator, and not the operator. -/
theorem Blamed.below (hs : s.WellOwned) {k : ExprId} {y : Typing} (hk : s.HasOperand h k)
    (H : s.Blamed k y ks) : ∀ j ∈ ks, s.Reaches h j ∧ j ≠ h := by
  intro j hj
  have hle : j ≤ k := Reaches.le hs (H.reached j hj)
  exact ⟨(H.reached j hj).head hk, Nat.ne_of_lt (Nat.lt_of_le_of_lt hle (hs.descends hk.uses))⟩

/-- What is blamed below two operands are different expressions below the operator, and not the
operator. -/
theorem Blamed.operands (hs : s.WellOwned) (hc : s.get? h = some c) {op : BinaryOp}
    {left right : ExprId} {l r : Typing} (hform : c.form = .binary op left right)
    (hl : s.Blamed left l ls) (hr : s.Blamed right r rs) :
    (ls ++ rs).Nodup ∧ (∀ k ∈ ls ++ rs, s.Reaches h k ∧ k ≠ h) ∧ right ∉ ls := by
  have hleft : s.HasOperand h left := ⟨c, hc, by simp [hform, Form.operands]⟩
  have hright : s.HasOperand h right := ⟨c, hc, by simp [hform, Form.operands]⟩
  have hne : left ≠ right := by
    have hdistinct := hs.distinct hc
    simpa [hform, Form.uses, Form.operands] using hdistinct
  have hapart : s.Apart left right := apart_of_operands hs hleft hright hne
  refine ⟨List.nodup_append'.2 ⟨hl.nodup, hr.nodup, fun k hkl hkr => ?_⟩, ?_, fun hmem => ?_⟩
  · exact hapart k (hl.reached k hkl) (hr.reached k hkr)
  · exact List.forall_mem_append.2 ⟨hl.below hs hleft, hr.below hs hright⟩
  · exact hapart right (hl.reached right hmem) .refl

/-- An operator is not blamed by its own check once its own type fits. If its operands disagree,
the right one has a type, and so was not blamed before. -/
theorem Blamed.binary (hs : s.WellOwned) (hc : s.get? h = some c) {op : BinaryOp}
    {left right : ExprId} {l r : Typing} (hform : c.form = .binary op left right)
    (hl : s.Blamed left l ls) (hr : s.Blamed right r rs) (t : Ty) :
    ∃ ks, s.Blamed h ⟨some t, s.operandClash right l r ++ l.findings ++ r.findings⟩ ks := by
  obtain ⟨hnodup, hbelow, hfresh⟩ := Blamed.operands hs hc hform hl hr
  rcases s.operandClash_cases right l r with hnil | ⟨a, b, _, hb, _, heq⟩
  · rw [hnil, List.nil_append]
    exact ⟨ls ++ rs, .of_below (hl.blames.append hr.blames) hnodup hbelow⟩
  · have hspared : right ∉ rs := hr.spared (by rw [hb]; rfl)
    have hright : s.HasOperand h right := ⟨c, hc, by simp [hform, Form.operands]⟩
    have hne : right ≠ h := Nat.ne_of_lt (hs.descends hright.uses)
    rw [heq, List.append_assoc]
    refine ⟨right :: (ls ++ rs), .of_below
      ((s.blames_typeFinding right b a).append (hl.blames.append hr.blames)) ?_ ?_⟩
    · refine List.nodup_cons.2 ⟨fun hmem => ?_, hnodup⟩
      rcases List.mem_append.1 hmem with hmem | hmem
      · exact hfresh hmem
      · exact hspared hmem
    · exact List.forall_mem_cons.2 ⟨⟨.single hright, hne⟩, hbelow⟩

/-- An array element is blamed by its own check if its array does not fit, and then no type remains
of it. -/
theorem Blamed.element (hs : s.WellOwned) (hc : s.get? h = some c) {array index : ExprId}
    {a i : Typing} (hform : c.form = .binary .arrayElem array index) (ha : s.Blamed array a ls)
    (hi : s.Blamed index i rs) (t : Ty) : ∃ ks, s.Blamed h (s.elementTyping h t array a i) ks := by
  obtain ⟨hnodup, hbelow, _⟩ := Blamed.operands hs hc hform ha hi
  have hshape := s.blames_shape h array
  rcases s.operandClash_cases h ⟨some t, []⟩ a with hnil | ⟨v, u, hv, hu, hmeet, heq⟩
  · refine ⟨ls ++ rs, .of_below ?_ hnodup hbelow⟩
    rw [findings_elementTyping, hnil, List.append_nil, List.append_assoc]
    exact hshape.append (ha.blames.append hi.blames)
  · obtain rfl := Option.some.inj hv
    refine ⟨h :: (ls ++ rs), ?_, ?_, ?_, fun hsome => ?_⟩
    · rw [findings_elementTyping, heq, List.append_assoc, List.append_assoc]
      exact hshape.append ((s.blames_typeFinding h u _).append (ha.blames.append hi.blames))
    · exact List.nodup_cons.2 ⟨fun hmem => (hbelow h hmem).2 rfl, hnodup⟩
    · exact List.forall_mem_cons.2 ⟨.refl, fun k hk => (hbelow k hk).1⟩
    · rw [type_elementTyping, hu] at hsome
      simp [hmeet] at hsome

/-- **The findings on types blame different expressions.** -/
theorem exists_blamed (hs : s.WellOwned) (vars : String → Option Variable)
    (hh : s.contains h = true) (t : Ty) : ∃ ks, s.Blamed h (s.typing vars h t) ks := by
  refine typing_induction (C := fun h _ y => ∃ ks, s.Blamed h y ks) hs
    ?mismatch ?leaf ?unary ?binary ?element hh t
  case mismatch =>
    intro h c t own _ _ _
    have hself : ∀ k ∈ [h], s.Reaches h k := by
      intro k hk
      obtain rfl := List.mem_singleton.1 hk
      exact .refl
    exact ⟨[h], s.blames_typeFinding h own t, List.nodup_singleton h, hself, nofun⟩
  case leaf =>
    intro h c t own r _ _ _ _
    exact ⟨[], s.blames_nil, List.nodup_nil, by simp, by simp⟩
  case unary =>
    rintro h c t r op operand hc hform _ ⟨ks, H⟩
    have hoperand : s.HasOperand h operand := ⟨c, hc, by simp [hform, Form.operands]⟩
    exact ⟨ks, .of_below H.blames H.nodup (H.below hs hoperand)⟩
  case binary =>
    rintro h c t r op left right hc hform _ _ ⟨ls, hl⟩ ⟨rs, hr⟩
    exact Blamed.binary hs hc hform hl hr r
  case element =>
    rintro h c t array index hc hform ⟨ls, ha⟩ ⟨rs, hi⟩
    exact Blamed.element hs hc hform ha hi t

/-- No more expressions are blamed than there are. -/
theorem Blamed.length_le (hs : s.WellOwned) (hh : s.contains h = true) {y : Typing}
    (H : s.Blamed h y ks) : ks.length ≤ (s.subexpressions h).ncard := by
  have hvisited : ks ⊆ s.visits [h] := fun k hk =>
    (mem_visits_iff hs).2 ⟨h, List.mem_singleton_self h, H.reached k hk⟩
  have hle := (H.nodup.subperm hvisited).length_le
  rwa [length_visits hs h, if_pos hh] at hle

/-- The typing makes findings of two names only. -/
theorem name_of_typeReport {f : Finding} (hf : s.TypeReport f) :
    f.name = "ExpressionType" ∨ f.name = "NotAnArray" := by
  cases hf with
  | mismatch h found expected => exact .inl rfl
  | shape hc hform => exact .inr rfl

/-! ### Where the own type does not fit -/

/-- A finding takes the looks that the text it carries takes. -/
theorem findingRun_records {n : Nat} {looks : List Look}
    (htext : (s.textRun n ⟨none, h⟩).Records (s.text h) looks) (found expected : Option Ty) :
    (s.findingRun n h found expected).Records (s.typeFinding h found expected) looks := by
  rw [← List.append_nil looks]
  exact htext.bind (records_pure _)

/-- The check of an expression whose own type does not fit looks at this expression, and else at
no more than it takes to write it down. -/
theorem typingRun_of_not_meet (hs : s.WellOwned) (hc : s.get? h = some c) {own : Ty}
    (hown : c.resultType vars = some own) (hr : t.meet? own = none) {n : Nat} (hn : h < n) :
    ∃ looks, (s.textRun n ⟨none, h⟩).Records (s.text h) looks ∧
      (s.typingRun vars n ⟨none, h⟩ t).Records ⟨none, [s.typeFinding h (some own) (some t)]⟩
        (⟨none, h⟩ :: looks) := by
  obtain ⟨looks, htext, _⟩ := textRun_covers (allows_descends hs) hs n ⟨none, h⟩ hn nofun
  refine ⟨looks, htext, ?_⟩
  obtain ⟨m, rfl⟩ := Nat.exists_eq_add_one_of_ne_zero (Nat.ne_zero_of_lt hn)
  refine records_look hc ?_
  simp only [hown, Ty.meetKnown?_some, hr]
  rw [← List.append_nil looks]
  exact (findingRun_records htext _ _).bind (records_pure _)

end Store

namespace Plan

/-- **One finding on types for each expression that fails.**  What the check of an expression
reports is of two kinds. Its findings on types are on different expressions in and below it, and
so not more than there are of these. If its own type does not fit, there is one finding, on the
expression itself, and no operand is checked: besides the expression, the check looks at no more
than it takes to write it down. -/
theorem one_finding_each (edits : List Edit) :
    let p := build edits
    let s := p.exprs
    ∀ h t, s.contains h = true →
      (∀ f ∈ (p.typing h t).findings, f.name = "ExpressionType" ∨ f.name = "NotAnArray") ∧
      (∃ blamed : List ExprId, s.Blames (p.typing h t).findings blamed ∧ blamed.Nodup ∧
        ∀ k ∈ blamed, s.Reaches h k) ∧
      ((p.typing h t).findings.filter Finding.isTypeMismatch).length ≤
        (s.subexpressions h).ncard ∧
      (Ty.meetKnown? (some t) (p.resultType h) = none →
        p.typing h t = ⟨none, [s.typeFinding h (p.resultType h) (some t)]⟩ ∧
        ∀ n, h < n → ∃ looks, (s.textRun n ⟨none, h⟩).Records (s.text h) looks ∧
          (s.typingRun p.findVariable? n ⟨none, h⟩ t).Records (p.typing h t)
            (⟨none, h⟩ :: looks)) := by
  intro p s h t hh
  have hs : s.WellOwned := wellOwned_build edits
  obtain ⟨blamed, H⟩ := Store.exists_blamed hs p.findVariable? hh t
  refine ⟨fun f hf => Store.name_of_typeReport (Store.typeReport_of_mem_typing hs hf),
    ⟨blamed, H.blames, H.nodup, H.reached⟩, ?_, fun hmeet => ?_⟩
  · exact (List.Forall₂.length_eq H.blames).trans_le (H.length_le hs hh)
  · obtain ⟨c, hc⟩ := Store.contains_iff.1 hh
    obtain ⟨own, hown⟩ := Option.isSome_iff_exists.1
      (Store.isSome_resultType hs p.findVariable? hc)
    have hresult : p.resultType h = some own := by
      rw [resultType, Store.resultType, hc, Option.bind_some, hown]
    rw [hresult, Ty.meetKnown?_some] at hmeet
    have htyping : p.typing h t = ⟨none, [s.typeFinding h (some own) (some t)]⟩ :=
      Store.typing_of_not_meet hs hc hown hmeet
    rw [hresult, htyping]
    exact ⟨rfl, fun n hn => Store.typingRun_of_not_meet hs hc hown hmeet hn⟩

/-- A sum of a number and a text, and a comparison of a number with a text. -/
def sumAndComparison : List Edit :=
  [.constant "1" .num, .constant "a" .str, .binary (.binary .plus) 0 1, .constant "2" .num,
    .constant "b" .str, .binary (.binary .eq) 3 4, .binary (.binary .and) 2 5]

/-- Where both are to be truth values, the sum is blamed and not also the text in it. The
comparison is a truth value, and the text in it is blamed. -/
theorem one_finding_each_sumAndComparison :
    let p := build sumAndComparison
    p.exprs.contains 6 = true ∧
      (p.typing 6 .bool).findings =
        [.expressionType "(1 + \"a\")" "type Num" "type Bool",
          .expressionType "\"b\"" "type Str" "type Num"] ∧
      (∃ blamed : List ExprId, p.exprs.Blames (p.typing 6 .bool).findings blamed ∧
        blamed.Nodup ∧ ∀ k ∈ blamed, p.exprs.Reaches 6 k) ∧
      p.exprs.contains 2 = true ∧ Ty.meetKnown? (some .bool) (p.resultType 2) = none ∧
      p.typing 2 .bool = ⟨none, [.expressionType "(1 + \"a\")" "type Num" "type Bool"]⟩ := by
  intro p
  have hroot : p.exprs.contains 6 = true := by decide +kernel
  have hsum : p.exprs.contains 2 = true := by decide +kernel
  have hmeet : Ty.meetKnown? (some .bool) (p.resultType 2) = none := by decide +kernel
  have hfindings : (p.typing 6 .bool).findings =
      [.expressionType "(1 + \"a\")" "type Num" "type Bool",
        .expressionType "\"b\"" "type Str" "type Num"] := by decide +kernel
  have hfinding : p.exprs.typeFinding 2 (p.resultType 2) (some .bool) =
      .expressionType "(1 + \"a\")" "type Num" "type Bool" := by decide +kernel
  obtain ⟨_, hblamed, _, _⟩ := one_finding_each sumAndComparison 6 .bool hroot
  obtain ⟨_, _, _, hown⟩ := one_finding_each sumAndComparison 2 .bool hsum
  exact ⟨hroot, hfindings, hblamed, hsum, hmeet, hfinding ▸ (hown hmeet).1⟩

end Plan

end Preflight
