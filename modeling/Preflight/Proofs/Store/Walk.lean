import Mathlib.Data.List.Perm.Subperm
import Preflight.Proofs.Store.Ownership
import Preflight.Store.Search

/-!
# The walk visits what operands lead to

`Reaches` is the relation "below, along operands". The walk works off an agenda and follows
only handles that go down; in a well owned store all of them do, so from `root` it visits
exactly what `root` reaches (`mem_visits_iff`), and `find` gives what it reaches of one kind
(`mem_find_iff`).

An expression has one user, so two expressions that reach a third one are on the same way up
from it. Operands of one expression reach nothing in common therefore (`apart_of_operands`),
and no visit is made twice (`nodup_visits`).
-/

namespace Preflight

/-- What has the element of a reference is one. -/
theorem Form.element_eq_ref_iff {f : Form} : f.element = .leaf .ref ↔ ∃ name, f = .ref name := by
  cases f <;> simp [Form.element]

/-- What has the element of a lookup is one. -/
theorem Form.element_eq_lookup_iff {f : Form} :
    f.element = .leaf .lookup ↔ ∃ name call, f = .lookup name call := by
  cases f <;> simp [Form.element]

namespace Store

variable {s : Store}

/-- The expression at `k` is an operand of the one at `h`. -/
def HasOperand (s : Store) (h k : ExprId) : Prop :=
  ∃ c, s.get? h = some c ∧ k ∈ c.form.operands

/-- The expression at `k` is the one at `h`, or below it along operands. -/
def Reaches (s : Store) : ExprId → ExprId → Prop :=
  Relation.ReflTransGen s.HasOperand

/-- An operand is used. -/
theorem HasOperand.uses {h k : ExprId} (hk : s.HasOperand h k) : s.Uses h k := by
  obtain ⟨c, hc, hk⟩ := hk
  exact ⟨c, hc, mem_uses_of_mem_operands hk⟩

/-- In a well owned store no operand is left out for going up. -/
theorem mem_operandsBelow_iff (hs : s.WellOwned) {h k : ExprId} :
    k ∈ s.operandsBelow h ↔ s.HasOperand h k := by
  unfold operandsBelow HasOperand
  cases hc : s.get? h with
  | none => simp
  | some c =>
    have hlt : k ∈ c.form.operands → k < h := fun hk => hs.descends (HasOperand.uses ⟨c, hc, hk⟩)
    simpa [List.mem_filter] using hlt

/-- In a well owned store the operands go down, one and all. -/
theorem operandsBelow_of_get? (hs : s.WellOwned) {h : ExprId} {c : Cell}
    (hc : s.get? h = some c) : s.operandsBelow h = c.form.operands := by
  rw [operandsBelow, hc]
  refine List.filter_eq_self.2 fun k hk => decide_eq_true ?_
  exact hs.descends (HasOperand.uses ⟨c, hc, hk⟩)

/-- **The walk visits what the handles of its agenda reach.** -/
theorem mem_visits_iff (hs : s.WellOwned) {agenda : List ExprId} {k : ExprId} :
    k ∈ s.visits agenda ↔ ∃ h ∈ agenda, s.Reaches h k := by
  fun_induction visits s agenda with
  | case1 => simp
  | case2 h agenda ih =>
    rw [List.mem_cons, ih, List.exists_mem_cons_iff]
    constructor
    · rintro (rfl | ⟨j, hj, hjk⟩)
      · exact .inl .refl
      · rcases List.mem_append.1 hj with hj | hj
        · exact .inl (hjk.head ((mem_operandsBelow_iff hs).1 hj))
        · exact .inr ⟨j, hj, hjk⟩
    · rintro (hhk | ⟨j, hj, hjk⟩)
      · rcases hhk.cases_head with rfl | ⟨j, hj, hjk⟩
        · exact .inl rfl
        · exact .inr ⟨j, List.mem_append_left _ ((mem_operandsBelow_iff hs).2 hj), hjk⟩
      · exact .inr ⟨j, List.mem_append_right _ hj, hjk⟩

/-- **The search finds what its root reaches of the wanted kind.** -/
theorem mem_find_iff (hs : s.WellOwned) {root k : ExprId} {e : Element} :
    k ∈ s.find root e ↔ s.Reaches root k ∧ ∃ c, s.get? k = some c ∧ c.element = e := by
  rw [find, List.mem_filter, mem_visits_iff hs]
  simp [Option.any_eq_true]

/-- What an expression of the store reaches is in the store. -/
theorem Reaches.contains (hs : s.WellOwned) {h k : ExprId} (hhk : s.Reaches h k)
    (hh : s.contains h = true) : s.contains k = true := by
  induction hhk with
  | refl => exact hh
  | tail _ hk _ => exact hs.contains_of_uses hk.uses

/-! ### Nothing is visited twice -/

/-- What an expression reaches has no larger handle. -/
theorem Reaches.le (hs : s.WellOwned) {h k : ExprId} (hhk : s.Reaches h k) : k ≤ h := by
  induction hhk with
  | refl => exact Nat.le_refl h
  | tail _ hk ih => exact Nat.le_trans (Nat.le_of_lt (hs.descends hk.uses)) ih

/-- Of two expressions that reach a third one, one reaches the other: both are on the one way
up from it. -/
theorem Reaches.total (hs : s.WellOwned) {h j k : ExprId} (hh : s.Reaches h k)
    (hj : s.Reaches j k) : s.Reaches h j ∨ s.Reaches j h := by
  have hunique : Relator.RightUnique (Function.swap s.HasOperand) :=
    fun _ _ _ ho ho' => hs.user_unique ho.uses ho'.uses
  rcases Relation.ReflTransGen.total_of_right_unique hunique (Relation.reflTransGen_swap.2 hh)
    (Relation.reflTransGen_swap.2 hj) with hhj | hjh
  · exact .inr (Relation.reflTransGen_swap.1 hhj)
  · exact .inl (Relation.reflTransGen_swap.1 hjh)

/-- There is nothing that both reach. -/
def Apart (s : Store) (h j : ExprId) : Prop :=
  ∀ k, s.Reaches h k → ¬ s.Reaches j k

/-- Two operands of an expression are apart. If one reached the other, it would reach the
expression that they are operands of. -/
theorem apart_of_operands (hs : s.WellOwned) {o h j : ExprId} (hh : s.HasOperand o h)
    (hj : s.HasOperand o j) (hne : h ≠ j) : s.Apart h j := by
  have hnot : ∀ {a b}, s.HasOperand o a → s.HasOperand o b → a ≠ b → ¬ s.Reaches a b := by
    intro a b ha hb hab hreach
    rcases hreach.cases_tail with rfl | ⟨u, hau, hub⟩
    · exact hab rfl
    · obtain rfl := hs.user_unique hub.uses hb.uses
      exact absurd (hs.descends ha.uses) (Nat.not_lt.2 (Reaches.le hs hau))
  intro k hhk hjk
  rcases Reaches.total hs hhk hjk with hhj | hjh
  · exact hnot hh hj hne hhj
  · exact hnot hj hh hne.symm hjh

/-- The operands that are followed have nothing in common. -/
theorem pairwise_operandsBelow (hs : s.WellOwned) (h : ExprId) :
    (s.operandsBelow h).Pairwise s.Apart := by
  cases hc : s.get? h with
  | none =>
    rw [operandsBelow, hc]
    exact List.Pairwise.nil
  | some c =>
    rw [operandsBelow_of_get? hs hc]
    have hdistinct : c.form.operands.Nodup := by
      have huses := hs.distinct hc
      cases hform : c.form with
      | lookup name call => exact List.nodup_nil
      | _ => rwa [hform] at huses
    exact hdistinct.pairwise_of_forall_ne fun j hj i hi hne =>
      apart_of_operands hs ⟨c, hc, hj⟩ ⟨c, hc, hi⟩ hne

/-- **The walk visits nothing twice,** if the handles of its agenda are apart. -/
theorem nodup_visits (hs : s.WellOwned) {agenda : List ExprId} (hagenda : agenda.Pairwise s.Apart) :
    (s.visits agenda).Nodup := by
  fun_induction visits s agenda with
  | case1 => exact List.nodup_nil
  | case2 h agenda ih =>
    obtain ⟨hapart, hrest⟩ := List.pairwise_cons.1 hagenda
    rw [List.nodup_cons, mem_visits_iff hs]
    constructor
    · rintro ⟨j, hj, hjh⟩
      rcases List.mem_append.1 hj with hj | hj
      · exact absurd (mem_operandsBelow hj) (Nat.not_lt.2 (Reaches.le hs hjh))
      · exact hapart j hj h .refl hjh
    · refine ih (List.pairwise_append.2 ⟨pairwise_operandsBelow hs h, hrest, ?_⟩)
      intro j hj i hi k hjk
      exact hapart i hi k (hjk.head ((mem_operandsBelow_iff hs).1 hj))

/-- So there are no more visits than expressions. -/
theorem length_visits_le (hs : s.WellOwned) {h : ExprId} (hh : s.contains h = true) :
    (s.visits [h]).length ≤ s.size := by
  have hnodup : (s.visits [h]).Nodup := nodup_visits hs (List.pairwise_singleton _ h)
  have hrange : s.visits [h] ⊆ List.range s.size := fun k hk => by
    obtain ⟨j, hj, hjk⟩ := (mem_visits_iff hs).1 hk
    obtain rfl := List.mem_singleton.1 hj
    exact List.mem_range.2 (lt_size_of_contains (hjk.contains hs hh))
  have hle := (hnodup.subperm hrange).length_le
  rwa [List.length_range] at hle

end Store

end Preflight
