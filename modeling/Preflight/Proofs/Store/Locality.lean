import Preflight.Proofs.Store.Walk
import Preflight.Typing

/-!
# What is said of an expression depends on what it is made of

Static text, written form and typing are folds over a store. Each of their steps looks at
the cell, though not at its owner, and at the values of what the cell uses. In a well owned
store all of that is at smaller handles, so a fold is the step on its own values
(`staticText?_eq`, `text_eq`, `typing_eq`).

`SameOn S s t` says that two stores agree, owners apart, on a set `S` of handles that uses
do not lead out of. On such a set the stores give the same texts, types, walks and typings.
An addition keeps all that was there: it agrees with the store before it on every handle
that has an expression (`sameOn_add`).
-/

namespace Preflight

/-- The written form of an action depends on the texts of its expressions only. -/
theorem Action.textWith_congr {a : Action} {static static' : ExprId → Option String}
    {text text' : ExprId → String} (hstatic : ∀ k ∈ a.exprs, static k = static' k)
    (htext : ∀ k ∈ a.exprs, text k = text' k) :
    a.textWith static text = a.textWith static' text' := by
  obtain ⟨kind, callee, args, target⟩ := a
  simp only [exprs, List.cons_append, List.forall_mem_cons, List.forall_mem_append] at hstatic htext
  obtain ⟨hcallee, hargs, htarget⟩ := htext
  have hmap : args.map text = args.map text' := List.map_congr_left hargs
  have hhead : args.head?.map text = args.head?.map text' := by
    rw [← List.head?_map, hmap, List.head?_map]
  unfold textWith value?
  simp only [hmap, hhead, hstatic.1, hcallee]
  cases target with
  | none => rfl
  | some t =>
    have ht : text t = text' t := htarget t (by simp)
    simp only [Option.map_some, ht]

namespace Store

variable {s t : Store} {vars : String → Option Variable} {h : ExprId} {c : Cell}
  {owner : Option ExprId}

/-! ### The steps -/

/-- A step towards the static text looks at what the expression uses and not at its owner. -/
theorem staticStep_congr {f g : ExprId → Option String} (hfg : ∀ k ∈ c.form.uses, f k = g k) :
    staticStep h c f = staticStep h { c with owner := owner } g := by
  obtain ⟨form, type, operandType, own⟩ := c
  cases form with
  | binary op left right =>
    have hl : f left = g left := hfg left (by simp [Form.uses, Form.operands])
    have hr : f right = g right := hfg right (by simp [Form.uses, Form.operands])
    cases op <;> simp only [staticStep, hl, hr]
  | _ => rfl

/-- A step towards the text looks at what the expression uses and not at its owner. -/
theorem textStep_congr {static static' : ExprId → Option String} {f g : ExprId → String}
    (hstatic : ∀ k ∈ c.form.uses, static k = static' k) (hfg : ∀ k ∈ c.form.uses, f k = g k) :
    textStep static h c f = textStep static' h { c with owner := owner } g := by
  obtain ⟨form, type, operandType, own⟩ := c
  cases form with
  | lookup name call => exact Action.textWith_congr hstatic hfg
  | unary op operand =>
    have ho : f operand = g operand := hfg operand (by simp [Form.uses, Form.operands])
    simp only [textStep, ho]
  | binary op left right =>
    have hl : f left = g left := hfg left (by simp [Form.uses, Form.operands])
    have hr : f right = g right := hfg right (by simp [Form.uses, Form.operands])
    cases op <;> simp only [textStep, hl, hr]
  | _ => rfl

/-- A step of the typing looks at what the expression uses and not at its owner. -/
theorem typingStep_congr {f g : ExprId → Ty → Typing} (htext : s.text h = t.text h)
    (huses : ∀ k ∈ c.form.uses, s.text k = t.text k ∧ s.canBeArray k = t.canBeArray k ∧ f k = g k) :
    s.typingStep vars h c f = t.typingStep vars h { c with owner := owner } g := by
  obtain ⟨form, type, operandType, own⟩ := c
  have htype : ∀ found expected, s.typeFinding h found expected = t.typeFinding h found expected :=
    fun _ _ => by rw [typeFinding, typeFinding, htext]
  funext expected
  simp only [typingStep, htype, Cell.resultType, Cell.nodeProperty?]
  split
  · rfl
  · cases form with
    | unary op operand =>
      obtain ⟨_, _, ho⟩ := huses operand (by simp [Form.uses, Form.operands])
      simp only [operandTyping, ho, Cell.requiredOperandType, Cell.element]
    | binary op left right =>
      obtain ⟨hlt, hla, hl⟩ := huses left (by simp [Form.uses, Form.operands])
      obtain ⟨hrt, _, hr⟩ := huses right (by simp [Form.uses, Form.operands])
      have hright : ∀ found wanted,
          s.typeFinding right found wanted = t.typeFinding right found wanted :=
        fun _ _ => by rw [typeFinding, typeFinding, hrt]
      cases op <;> simp only [operandTyping, elementTyping, operandClash, hl, hr, hla, hlt, htext,
        htype, hright, Cell.requiredOperandType, Cell.element]
    | _ => rfl

/-! ### Folds as their own steps -/

/-- In a well owned store a fold never meets a handle that goes up. -/
theorem fold_eq_step {α : Type} {missing : ExprId → α} {step : ExprId → Cell → (ExprId → α) → α}
    (hs : s.WellOwned) (hc : s.get? h = some c)
    (hstep : ∀ f g, (∀ k ∈ c.form.uses, f k = g k) → step h c f = step h c g) :
    s.fold missing step h = step h c (s.fold missing step) := by
  rw [fold_of_get?_eq_some hc]
  exact hstep _ _ fun k hk => if_pos (hs.descends ⟨c, hc, hk⟩)

/-- On a well owned store the guard of the static text never bites. -/
theorem staticText?_eq (hs : s.WellOwned) (hc : s.get? h = some c) :
    s.staticText? h = staticStep h c s.staticText? :=
  fold_eq_step hs hc fun _ _ => staticStep_congr

/-- On a well owned store the guard of the text never bites. -/
theorem text_eq (hs : s.WellOwned) (hc : s.get? h = some c) :
    s.text h = textStep s.staticText? h c s.text :=
  fold_eq_step hs hc fun _ _ => textStep_congr fun _ _ => rfl

/-- On a well owned store the guard of the typing never bites. -/
theorem typing_eq (hs : s.WellOwned) (hc : s.get? h = some c) :
    s.typing vars h = s.typingStep vars h c (s.typing vars) :=
  fold_eq_step hs hc fun _ _ hfg => typingStep_congr rfl fun k hk => ⟨rfl, rfl, hfg k hk⟩

/-! ### Stores that agree on a set of handles -/

/-- Two stores that have the same cells, owners apart, at the handles of a set that uses do
not lead out of. -/
structure SameOn (S : ExprId → Prop) (s t : Store) : Prop where
  closed : ∀ {h k}, S h → s.Uses h k → S k
  same : ∀ {h}, S h → ∃ c o, s.get? h = some c ∧ t.get? h = some { c with owner := o }

/-- An addition changes nothing but owners at the handles there were. -/
theorem sameOn_add (hs : s.WellOwned) (form : Form) (type : Option Ty) :
    SameOn (fun h => s.contains h = true) s (s.add form type).2 where
  closed := fun _ hk => hs.contains_of_uses hk
  same := fun {_} hh => by
    obtain ⟨c, hc⟩ := contains_iff.1 hh
    obtain ⟨o, ho⟩ := get?_add_of_get? hc form type
    exact ⟨c, o, hc, ho⟩

namespace SameOn

variable {S : ExprId → Prop}

/-- Two folds give the same values where the stores agree, if their steps do. -/
theorem fold_eq {α : Type} {missing missing' : ExprId → α}
    {step step' : ExprId → Cell → (ExprId → α) → α} (H : SameOn S s t) (hs : s.WellOwned)
    (hstep : ∀ {h c o f g}, S h → s.get? h = some c → (∀ k ∈ c.form.uses, f k = g k) →
      step h c f = step' h { c with owner := o } g) (hh : S h) :
    s.fold missing step h = t.fold missing' step' h := by
  induction h using Nat.strongRecOn with
  | _ h ih =>
    obtain ⟨c, o, hc, ht⟩ := H.same hh
    rw [fold_of_get?_eq_some hc, fold_of_get?_eq_some ht]
    refine hstep hh hc fun k hk => ?_
    have huse : s.Uses h k := ⟨c, hc, hk⟩
    have hlt := hs.descends huse
    simp only [hlt, if_true]
    exact ih k hlt (H.closed hh huse)

/-- The static text is the same on both stores. -/
theorem staticText?_eq (H : SameOn S s t) (hs : s.WellOwned) (hh : S h) :
    s.staticText? h = t.staticText? h :=
  H.fold_eq hs (fun _ _ => staticStep_congr) hh

/-- The text is the same on both stores. -/
theorem text_eq (H : SameOn S s t) (hs : s.WellOwned) (hh : S h) : s.text h = t.text h :=
  H.fold_eq hs (fun hh hc => textStep_congr fun _ hk =>
    H.staticText?_eq hs (H.closed hh ⟨_, hc, hk⟩)) hh

/-- The text of an action is the same on both stores. -/
theorem actionText_eq (H : SameOn S s t) (hs : s.WellOwned) {a : Action}
    (ha : ∀ k ∈ a.exprs, S k) : s.actionText a = t.actionText a :=
  Action.textWith_congr (fun k hk => H.staticText?_eq hs (ha k hk))
    fun k hk => H.text_eq hs (ha k hk)

/-- What can be an array is the same on both stores. -/
theorem canBeArray_eq (H : SameOn S s t) (hh : S h) : s.canBeArray h = t.canBeArray h := by
  obtain ⟨c, o, hc, ht⟩ := H.same hh
  rw [canBeArray, canBeArray, hc, ht]
  rfl

/-- The type is the same on both stores. -/
theorem resultType_eq (H : SameOn S s t) (hh : S h) :
    s.resultType vars h = t.resultType vars h := by
  obtain ⟨c, o, hc, ht⟩ := H.same hh
  rw [resultType, resultType, hc, ht]
  rfl

/-- The typing is the same on both stores, against every type. -/
theorem typing_eq (H : SameOn S s t) (hs : s.WellOwned) (hh : S h) :
    s.typing vars h = t.typing vars h := by
  refine H.fold_eq hs (fun {i d o f g} hi hd hfg => ?_) hh
  refine typingStep_congr (H.text_eq hs hi) fun k hk => ?_
  have hSk := H.closed hi ⟨d, hd, hk⟩
  exact ⟨H.text_eq hs hSk, H.canBeArray_eq hSk, hfg k hk⟩

/-- The operands are the same on both stores. -/
theorem operandsBelow_eq (H : SameOn S s t) (hh : S h) : s.operandsBelow h = t.operandsBelow h := by
  obtain ⟨c, o, hc, ht⟩ := H.same hh
  rw [operandsBelow, operandsBelow, hc, ht]

/-- The walk takes the same way through both stores. -/
theorem visits_eq (H : SameOn S s t) (hs : s.WellOwned) {agenda : List ExprId}
    (hagenda : ∀ k ∈ agenda, S k) : s.visits agenda = t.visits agenda := by
  fun_induction visits s agenda with
  | case1 => rw [visits]
  | case2 i agenda ih =>
    have hi := hagenda i List.mem_cons_self
    rw [visits, ← H.operandsBelow_eq hi, ← ih]
    intro k hk
    rcases List.mem_append.1 hk with hk | hk
    · exact H.closed hi ((mem_operandsBelow_iff hs).1 hk).uses
    · exact hagenda k (List.mem_cons_of_mem _ hk)

/-- Whatever is below such an expression is such an expression. -/
theorem closed_reaches (H : SameOn S s t) {k : ExprId} (hh : S h) (hk : s.Reaches h k) : S k := by
  induction hk with
  | refl => exact hh
  | tail _ hk ih => exact H.closed ih hk.uses

/-- The search finds the same on both stores. -/
theorem find_eq (H : SameOn S s t) (hs : s.WellOwned) (hh : S h) (e : Element) :
    s.find h e = t.find h e := by
  rw [find, find, ← H.visits_eq hs (by simpa using hh)]
  refine List.filter_congr fun k hk => ?_
  obtain ⟨j, hj, hjk⟩ := (mem_visits_iff hs).1 hk
  obtain rfl := List.mem_singleton.1 hj
  obtain ⟨c, o, hc, ht⟩ := H.same (H.closed_reaches hh hjk)
  rw [hc, ht]
  rfl

end SameOn

end Store

end Preflight
