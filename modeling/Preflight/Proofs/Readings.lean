import Preflight.Proofs.OwnedReferences
import Preflight.Proofs.Unattached

/-!
# What building cannot change of an expression

Once an expression is there, an edit of the store reaches it in two ways only: another
expression becomes the owner of it or of a part of it, or it or a part of it has another type
stated.

Owners are not looked at by anything that is read off an expression by itself: its cell but
for the owner, its static text, what is found in it, the types of itself and its operands,
its written form and its typing (`Plan.SameReadings`). So building another expression changes
none of these, whether it succeeds or is refused. A stated type is looked at, but only from
the expressions that own it: what is not owned is not read (`Store.sameOn_modify`).
-/

namespace Preflight

namespace Store

variable {s t : Store} {h i : ExprId}

/-- What an expression owns is there if the expression is. -/
theorem Owns.contains (hs : s.WellOwned) {k : ExprId} (hh : s.contains h = true)
    (hk : s.Owns h k) : s.contains k = true := by
  rcases hk.cases_tail with rfl | ⟨_, _, huse⟩
  · exact hh
  · exact hs.contains_of_uses huse

/-- An expression owns no larger handle than its own. -/
theorem Owns.le (hs : s.WellOwned) {k : ExprId} (hk : s.Owns h k) : k ≤ h := by
  induction hk with
  | refl => exact Nat.le_refl h
  | tail _ huse ih => exact Nat.le_trans (Nat.le_of_lt (hs.descends huse)) ih

/-- A cell that an expression does not own can change without a trace in what it owns. -/
theorem sameOn_modify (hs : s.WellOwned) (hh : s.contains h = true) (hi : ¬ s.Owns h i)
    (f : Cell → Cell) : SameOn (s.Owns h) s ⟨s.cells.modify i f⟩ where
  closed := fun hk huse => hk.tail huse
  same := fun {k} hk => by
    obtain ⟨c, hc⟩ := contains_iff.1 (hk.contains hs hh)
    have hne : i ≠ k := fun heq => hi (heq ▸ hk)
    refine ⟨c, c.owner, hc, ?_⟩
    rw [get?_modify, hc, Option.map_some, if_neg hne]

/-- The required type of operands is the same on both stores. -/
theorem SameOn.requiredOperandType_eq {S : ExprId → Prop} (H : SameOn S s t) (hh : S h) :
    s.requiredOperandType h = t.requiredOperandType h := by
  obtain ⟨c, o, hc, ht⟩ := H.same hh
  rw [requiredOperandType, requiredOperandType, hc, ht]
  rfl

end Store

namespace Plan

variable {p q : Plan} {h : ExprId}

/-- There is an expression at `h` in both plans, and all that can be read off it by itself is
the same. -/
structure SameReadings (p q : Plan) (h : ExprId) : Prop where
  cell : ∃ c o, p.exprs.get? h = some c ∧ q.exprs.get? h = some { c with owner := o }
  staticText : q.exprs.staticText? h = p.exprs.staticText? h
  find : ∀ e, q.exprs.find h e = p.exprs.find h e
  operandType : q.exprs.requiredOperandType h = p.exprs.requiredOperandType h
  resultType : ∀ vars, q.exprs.resultType vars h = p.exprs.resultType vars h
  text : q.exprs.text h = p.exprs.text h
  typing : ∀ vars expected, q.exprs.typing vars h expected = p.exprs.typing vars h expected
  typingInPlan : ∀ expected, q.typing h expected = p.typing h expected

/-- A plan that stays as it is gives the same readings. -/
theorem sameReadings_refl (hh : p.exprs.contains h = true) : p.SameReadings p h := by
  obtain ⟨c, hc⟩ := Store.contains_iff.1 hh
  exact ⟨⟨c, c.owner, hc, hc⟩, rfl, fun _ => rfl, rfl, fun _ => rfl, rfl, fun _ _ => rfl,
    fun _ => rfl⟩

/-- Stores that agree on an expression and all it is made of give the same readings. -/
theorem sameReadings_of_sameOn {S : ExprId → Prop} {t : Store} (hs : p.exprs.WellOwned)
    (H : p.exprs.SameOn S t) (hh : S h) : p.SameReadings { p with exprs := t } h where
  cell := H.same hh
  staticText := (H.staticText?_eq hs hh).symm
  find := fun e => (H.find_eq hs hh e).symm
  operandType := (H.requiredOperandType_eq hh).symm
  resultType := fun _ => (H.resultType_eq hh).symm
  text := (H.text_eq hs hh).symm
  typing := fun _ expected => congrFun (H.typing_eq hs hh).symm expected
  typingInPlan := typing_frame H hs hh

/-- Building another expression changes no reading. -/
theorem sameReadings_of_buildsExpr (hs : p.exprs.WellOwned) {e : Edit} (he : e.buildsExpr = true)
    (hh : p.exprs.contains h = true) : p.SameReadings (p.after e) h := by
  rcases after_of_buildsExpr hs he with ⟨hafter, _⟩ | ⟨form, type, _, _, hafter, _⟩
  · rw [hafter]
    exact sameReadings_refl hh
  · rw [hafter]
    exact sameReadings_of_sameOn hs (Store.sameOn_add hs form type) hh

/-- An edit that changes one cell of the store is refused, or puts the changed cell in place. -/
theorem after_of_apply_eq_update {e : Edit} {i : ExprId} {f : Cell → Cell}
    (h : p.apply e = (p.exprs.update i f).map p.withStore) :
    p.after e = p ∨ p.after e = { p with exprs := ⟨p.exprs.cells.modify i f⟩ } := by
  unfold after
  rw [h, Store.update]
  split_ifs
  · exact .inr rfl
  · exact .inl rfl

/-- A type that is stated elsewhere changes no reading. -/
theorem sameReadings_of_update (hs : p.exprs.WellOwned) {e : Edit} {i : ExprId}
    {f : Cell → Cell} (he : p.apply e = (p.exprs.update i f).map p.withStore)
    (hh : p.exprs.contains h = true) (hi : ¬ p.exprs.Owns h i) :
    p.SameReadings (p.after e) h := by
  rcases after_of_apply_eq_update he with hafter | hafter
  · rw [hafter]
    exact sameReadings_refl hh
  · rw [hafter]
    exact sameReadings_of_sameOn hs (Store.sameOn_modify hs hh hi f) .refl

/-- **What is read off an expression changes only with the types stated inside it.**  Building
another expression leaves it as it is, and so does stating a type of one that it does not own. -/
theorem sameReadings_after (edits : List Edit) (h : ExprId)
    (hh : (build edits).exprs.contains h = true) :
    (∀ e : Edit, e.buildsExpr = true → (build edits).SameReadings ((build edits).after e) h) ∧
    ∀ i, ¬ (build edits).exprs.Owns h i → ∀ type,
      (build edits).SameReadings ((build edits).after (.setType i type)) h ∧
      (build edits).SameReadings ((build edits).after (.setOperandType i type)) h := by
  have hs := wellOwned_build edits
  refine ⟨fun e he => sameReadings_of_buildsExpr hs he hh, fun i hi type => ⟨?_, ?_⟩⟩
  · exact sameReadings_of_update hs (e := .setType i type) rfl hh hi
  · exact sameReadings_of_update hs (e := .setOperandType i type) rfl hh hi

/-- Two constants joined to a name, and a variable. -/
def joinedName : List Edit :=
  [.constant "wind" .str, .constant "Speed" .str, .binary (.binary .concat) 0 1,
    .reference "x" none]

/-- The name stays what it is when a lookup takes hold of it and when the variable has its
type stated. -/
theorem sameReadings_after_joinedName :
    (build joinedName).exprs.staticText? 2 = some "windSpeed" ∧
      (build joinedName).SameReadings
        ((build joinedName).after (.lookup ⟨.lookup, 2, [], none⟩ (some .num))) 2 ∧
      ¬ (build joinedName).exprs.Owns 2 3 ∧
      (build joinedName).SameReadings ((build joinedName).after (.setType 3 .num)) 2 := by
  have hs := wellOwned_build joinedName
  have hnot : ¬ (build joinedName).exprs.Owns 2 3 := fun hown =>
    absurd (hown.le hs) (by decide)
  obtain ⟨hbuilds, hstates⟩ := sameReadings_after joinedName 2 (by decide +kernel)
  exact ⟨by decide +kernel, hbuilds _ rfl, hnot, (hstates 3 hnot .num).1⟩

end Plan

end Preflight
