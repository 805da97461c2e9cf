import Mathlib.Data.List.Nodup
import Mathlib.Logic.Relation
import Preflight.Store.Build

/-!
# Ownership in a store

An expression uses others: its operands, or the expressions of its call. Building writes
this down twice, downwards in the form of the user and upwards as the owner of what is
used, and at different moments: the new cell is appended, then what it uses is adopted.
`WellOwned` says that the two agree, that handles go down from user to used, and that
nothing is used twice.

`Step` lists all that a building step can do to a store: add a cell over free and distinct
expressions, or state another type. Every step keeps a store well owned
(`WellOwned.step`), so the stores of all plans are.

In a well owned store no handle occurs twice among all the uses (`WellOwned.nodup_uses`),
and the owners above an expression end in exactly one expression without an owner
(`WellOwned.existsUnique_root`).
-/

namespace Preflight

/-- A mapped answer is one that was mapped. -/
theorem map_eq_ok_iff {ε α β : Type} {x : Except ε α} {f : α → β} {b : β} :
    x.map f = .ok b ↔ ∃ a, x = .ok a ∧ f a = b := by
  cases x <;> simp [Except.map]

/-- Two operations in a row succeed exactly if each of them does. -/
theorem bind_eq_ok_iff {ε α β : Type} {x : Except ε α} {f : α → Except ε β} {b : β} :
    x.bind f = .ok b ↔ ∃ a, x = .ok a ∧ f a = .ok b := by
  cases x <;> simp [Except.bind]

/-- Where each thing has one successor at most, all chains from a thing end in the same end. -/
theorem end_unique {α : Type} {r : α → α → Prop} (hr : Relator.RightUnique r) {a b c : α}
    (hb : ∀ d, ¬ r b d) (hc : ∀ d, ¬ r c d) (hab : Relation.ReflTransGen r a b)
    (hac : Relation.ReflTransGen r a c) : b = c := by
  have hstop : ∀ {x y}, (∀ d, ¬ r x d) → Relation.ReflTransGen r x y → x = y := by
    intro x y hx hxy
    rcases hxy.cases_head with rfl | ⟨d, hd, _⟩
    · rfl
    · exact absurd hd (hx d)
  rcases Relation.ReflTransGen.total_of_right_unique hr hab hac with hbc | hcb
  · exact hstop hb hbc
  · exact (hstop hc hcb).symm

namespace Store

variable {s : Store}

/-- The expression at `h` uses the one at `k`, as an operand or in its call. -/
def Uses (s : Store) (h k : ExprId) : Prop :=
  ∃ c, s.get? h = some c ∧ k ∈ c.form.uses

/-- The expression at `h` has the one at `o` as its owner. -/
def OwnedBy (s : Store) (h o : ExprId) : Prop :=
  ∃ c, s.get? h = some c ∧ c.owner = some o

/-- There is an expression at `h`, and it has no owner. -/
def Free (s : Store) (h : ExprId) : Prop :=
  ∃ c, s.get? h = some c ∧ c.owner = none

/-- The order and the ownership that building keeps in a store. -/
structure WellOwned (s : Store) : Prop where
  descends : ∀ {h k}, s.Uses h k → k < h
  ownedBy_iff : ∀ {h o}, s.OwnedBy h o ↔ s.Uses o h
  distinct : ∀ {h c}, s.get? h = some c → c.form.uses.Nodup
  typed : ∀ {h c}, s.get? h = some c → c.element = .leaf .const → c.type.isSome

/-- What one building step can do to a store. -/
inductive Step (s : Store) : Store → Prop where
  /-- A cell is added over expressions that are free and distinct. -/
  | add (form : Form) (type : Option Ty) (free : ∀ k ∈ form.uses, s.Free k)
      (distinct : form.uses.Nodup) (typed : form.element = .leaf .const → type.isSome) :
      Step s (s.add form type).2
  /-- One cell has another type stated, of itself or of its operands. -/
  | retype (h : ExprId) (f : Cell → Cell) (form : ∀ c, (f c).form = c.form)
      (owner : ∀ c, (f c).owner = c.owner) (typed : ∀ c, c.type.isSome → (f c).type.isSome) :
      Step s ⟨s.cells.modify h f⟩

/-! ### Handles -/

/-- A handle with a cell is below the size. -/
theorem lt_size_of_get? {h : ExprId} {c : Cell} (hc : s.get? h = some c) : h < s.size :=
  (Array.getElem?_eq_some_iff.1 hc).1

/-- The next handle has no cell yet. -/
theorem get?_size (s : Store) : s.get? s.size = none :=
  Array.getElem?_eq_none (Nat.le_refl _)

/-- There is an expression at a handle exactly if there is a cell. -/
theorem contains_iff {h : ExprId} : s.contains h = true ↔ ∃ c, s.get? h = some c := by
  rw [contains, Option.isSome_iff_exists]

/-- A handle with an expression is below the size. -/
theorem lt_size_of_contains {h : ExprId} (hh : s.contains h = true) : h < s.size := by
  obtain ⟨c, hc⟩ := contains_iff.1 hh
  exact lt_size_of_get? hc

/-- A change of one cell leaves the others as they are. -/
theorem get?_modify (s : Store) (h k : ExprId) (f : Cell → Cell) :
    (⟨s.cells.modify h f⟩ : Store).get? k =
      (s.get? k).map fun c => if h = k then f c else c := by
  simp only [get?, Array.getElem?_modify]
  split_ifs <;> simp

/-- The operands of a form are among what it uses. -/
theorem mem_uses_of_mem_operands {f : Form} {k : ExprId} (hk : k ∈ f.operands) : k ∈ f.uses := by
  cases f <;> simp_all [Form.operands, Form.uses]

/-- What a form uses are its operands and the expressions of its call. -/
theorem mem_uses_iff {f : Form} {k : ExprId} :
    k ∈ f.uses ↔ k ∈ f.operands ∨ ∃ a, f.call? = some a ∧ k ∈ a.exprs := by
  cases f <;> simp [Form.operands, Form.uses, Form.call?]

/-! ### Effect of a step on uses and owners -/

/-- A cell after an addition is the new one, or one from before with perhaps another owner. -/
theorem cell_of_get?_add {form : Form} {type : Option Ty} {h : ExprId} {c : Cell}
    (hc : (s.add form type).2.get? h = some c) :
    (h = s.size ∧ c = ⟨form, type, none, none⟩) ∨ ∃ o, s.get? h = some { c with owner := o } := by
  rw [get?_add] at hc
  by_cases hh : h = s.size
  · rw [if_pos hh] at hc
    exact .inl ⟨hh, (Option.some.inj hc).symm⟩
  · rw [if_neg hh] at hc
    obtain ⟨d, hd, rfl⟩ := Option.map_eq_some_iff.1 hc
    refine .inr ⟨d.owner, hd.trans (congrArg some ?_)⟩
    split_ifs <;> rfl

/-- A cell from before an addition is still there, with perhaps another owner. -/
theorem get?_add_of_get? {h : ExprId} {c : Cell} (hc : s.get? h = some c) (form : Form)
    (type : Option Ty) : ∃ o, (s.add form type).2.get? h = some { c with owner := o } := by
  rw [get?_add, if_neg (Nat.ne_of_lt (lt_size_of_get? hc)), hc]
  by_cases hu : h ∈ form.uses
  · exact ⟨some s.size, by simp [hu]⟩
  · exact ⟨c.owner, by simp [hu]⟩

/-- After an addition the new expression uses what its form says, and the others what they
used. -/
theorem uses_add (form : Form) (type : Option Ty) (h k : ExprId) :
    (s.add form type).2.Uses h k ↔ h = s.size ∧ k ∈ form.uses ∨ s.Uses h k := by
  unfold Uses
  rw [get?_add]
  by_cases hh : h = s.size
  · subst hh
    simp [get?_size]
  · simp only [hh, if_false, false_and, false_or, Option.map_eq_some_iff]
    constructor
    · rintro ⟨_, ⟨c, hc, rfl⟩, hk⟩
      refine ⟨c, hc, ?_⟩
      split_ifs at hk <;> exact hk
    · rintro ⟨c, hc, hk⟩
      refine ⟨_, ⟨c, hc, rfl⟩, ?_⟩
      split_ifs <;> exact hk

/-- After an addition over free expressions these are owned by the new one, and the others by
the owner they had. -/
theorem ownedBy_add {form : Form} (free : ∀ k ∈ form.uses, s.Free k) (type : Option Ty)
    (h o : ExprId) :
    (s.add form type).2.OwnedBy h o ↔ h ∈ form.uses ∧ o = s.size ∨ s.OwnedBy h o := by
  unfold OwnedBy
  rw [get?_add]
  by_cases hu : h ∈ form.uses
  · obtain ⟨c, hc, ho⟩ := free h hu
    have hh : h ≠ s.size := Nat.ne_of_lt (lt_size_of_get? hc)
    simp [hh, hc, hu, ho, eq_comm]
  · by_cases hh : h = s.size
    · subst hh
      simp [get?_size, hu]
    · simp [hh, hu]

/-- A change that keeps the form of a cell keeps all uses. -/
theorem uses_modify {h : ExprId} {f : Cell → Cell} (form : ∀ c, (f c).form = c.form)
    (i k : ExprId) : (⟨s.cells.modify h f⟩ : Store).Uses i k ↔ s.Uses i k := by
  unfold Uses
  rw [get?_modify]
  cases s.get? i <;> simp [apply_ite Cell.form, form]

/-- A change that keeps the owner of a cell keeps all owners. -/
theorem ownedBy_modify {h : ExprId} {f : Cell → Cell} (owner : ∀ c, (f c).owner = c.owner)
    (i o : ExprId) : (⟨s.cells.modify h f⟩ : Store).OwnedBy i o ↔ s.OwnedBy i o := by
  unfold OwnedBy
  rw [get?_modify]
  cases s.get? i <;> simp [apply_ite Cell.owner, owner]

/-! ### Well owned stores -/

/-- The empty store is well owned. -/
theorem wellOwned_empty : WellOwned empty where
  descends := fun ⟨_, hc, _⟩ => by simp [get?, empty] at hc
  ownedBy_iff := ⟨fun ⟨_, hc, _⟩ => by simp [get?, empty] at hc,
    fun ⟨_, hc, _⟩ => by simp [get?, empty] at hc⟩
  distinct := fun hc => by simp [get?, empty] at hc
  typed := fun hc => by simp [get?, empty] at hc

namespace WellOwned

/-- An addition over free and distinct expressions keeps a store well owned. -/
theorem add (hs : s.WellOwned) {form : Form} {type : Option Ty}
    (free : ∀ k ∈ form.uses, s.Free k) (distinct : form.uses.Nodup)
    (typed : form.element = .leaf .const → type.isSome) : (s.add form type).2.WellOwned where
  descends := fun {h k} hk => by
    rcases (uses_add form type h k).1 hk with ⟨rfl, hnew⟩ | hold
    · obtain ⟨c, hc, _⟩ := free k hnew
      exact lt_size_of_get? hc
    · exact hs.descends hold
  ownedBy_iff := fun {h o} => by
    rw [ownedBy_add free, uses_add, hs.ownedBy_iff, and_comm]
  distinct := fun {h c} hc => by
    rcases cell_of_get?_add hc with ⟨_, rfl⟩ | ⟨o, hold⟩
    · exact distinct
    · exact hs.distinct (c := { c with owner := o }) hold
  typed := fun {h c} hc hconst => by
    rcases cell_of_get?_add hc with ⟨_, rfl⟩ | ⟨o, hold⟩
    · exact typed hconst
    · exact hs.typed (c := { c with owner := o }) hold hconst

/-- A change of types keeps a store well owned, if no constant loses its type. -/
theorem retype (hs : s.WellOwned) {h : ExprId} {f : Cell → Cell}
    (form : ∀ c, (f c).form = c.form) (owner : ∀ c, (f c).owner = c.owner)
    (typed : ∀ c, c.type.isSome → (f c).type.isSome) :
    (⟨s.cells.modify h f⟩ : Store).WellOwned where
  descends := fun hk => hs.descends ((uses_modify form _ _).1 hk)
  ownedBy_iff := by
    intro i o
    rw [ownedBy_modify owner, uses_modify form, hs.ownedBy_iff]
  distinct := fun {i c} hc => by
    rw [get?_modify] at hc
    obtain ⟨d, hd, rfl⟩ := Option.map_eq_some_iff.1 hc
    rw [apply_ite Cell.form, form, ite_self]
    exact hs.distinct hd
  typed := fun {i c} hc hconst => by
    rw [get?_modify] at hc
    obtain ⟨d, hd, rfl⟩ := Option.map_eq_some_iff.1 hc
    rw [Cell.element, apply_ite Cell.form, form, ite_self] at hconst
    have hold := hs.typed hd hconst
    split_ifs
    · exact typed d hold
    · exact hold

/-- **Every building step keeps a store well owned.** -/
theorem step {t : Store} (hs : s.WellOwned) (hst : s.Step t) : t.WellOwned := by
  cases hst with
  | add form type free distinct typed => exact hs.add free distinct typed
  | retype h f form owner typed => exact hs.retype form owner typed

/-- What is used is there. -/
theorem contains_of_uses (hs : s.WellOwned) {h k : ExprId} (hk : s.Uses h k) :
    s.contains k = true := by
  obtain ⟨c, hc, _⟩ := hs.ownedBy_iff.2 hk
  exact contains_iff.2 ⟨c, hc⟩

/-- An expression has one user. -/
theorem user_unique (hs : s.WellOwned) {h o o' : ExprId} (ho : s.Uses o h) (ho' : s.Uses o' h) :
    o = o' := by
  obtain ⟨c, hc, hco⟩ := hs.ownedBy_iff.2 ho
  obtain ⟨c', hc', hco'⟩ := hs.ownedBy_iff.2 ho'
  obtain rfl := Option.some.inj (hc.symm.trans hc')
  exact Option.some.inj (hco.symm.trans hco')

/-- **Nothing is used twice in the whole store.**  Within one form the uses are distinct, and
two forms that share one would both be its owner. -/
theorem nodup_uses (hs : s.WellOwned) : (s.cells.toList.flatMap fun c => c.form.uses).Nodup := by
  rw [List.nodup_flatMap]
  constructor
  · intro c hc
    obtain ⟨h, hh⟩ := List.mem_iff_getElem?.1 hc
    exact hs.distinct (h := h) (by rwa [get?, ← Array.getElem?_toList])
  · rw [List.pairwise_iff_getElem]
    intro i j hi hj hij k hki hkj
    have hget : ∀ m (hm : m < s.cells.toList.length), s.get? m = some s.cells.toList[m] := by
      intro m hm
      rw [get?, ← Array.getElem?_toList, List.getElem?_eq_getElem hm]
    exact Nat.ne_of_lt hij (hs.user_unique ⟨_, hget i hi, hki⟩ ⟨_, hget j hj, hkj⟩)

/-- An expression has one owner. -/
theorem rightUnique_ownedBy (s : Store) : Relator.RightUnique s.OwnedBy := by
  rintro h o o' ⟨c, hc, ho⟩ ⟨c', hc', ho'⟩
  obtain rfl := Option.some.inj (hc.symm.trans hc')
  exact Option.some.inj (ho.symm.trans ho')

/-- The owners above an expression lead to one without an owner: owners have larger handles,
and there are only `s.size` of them. -/
theorem exists_root (hs : s.WellOwned) {h : ExprId} (hh : s.contains h = true) :
    ∃ r, Relation.ReflTransGen s.OwnedBy h r ∧ s.Free r := by
  obtain ⟨c, hc⟩ := contains_iff.1 hh
  cases ho : c.owner with
  | none => exact ⟨h, .refl, c, hc, ho⟩
  | some o =>
    have hown : s.OwnedBy h o := ⟨c, hc, ho⟩
    have hlt := hs.descends (hs.ownedBy_iff.1 hown)
    obtain ⟨d, hd, _⟩ := hs.ownedBy_iff.1 hown
    have hsize := lt_size_of_get? hd
    obtain ⟨r, hr, hfree⟩ := exists_root hs (contains_iff.2 ⟨d, hd⟩)
    exact ⟨r, hr.head hown, hfree⟩
termination_by s.size - h
decreasing_by exact Nat.sub_lt_sub_left (Nat.lt_trans hlt hsize) hlt

/-- **The way up ends in exactly one place.** -/
theorem existsUnique_root (hs : s.WellOwned) {h : ExprId} (hh : s.contains h = true) :
    ∃! r, Relation.ReflTransGen s.OwnedBy h r ∧ s.Free r := by
  have hend : ∀ {r}, s.Free r → ∀ o, ¬ s.OwnedBy r o := by
    rintro r ⟨c, hc, hfree⟩ o ⟨c', hc', ho⟩
    obtain rfl := Option.some.inj (hc.symm.trans hc')
    rw [hfree] at ho
    cases ho
  obtain ⟨r, hr, hfree⟩ := hs.exists_root hh
  refine ⟨r, ⟨hr, hfree⟩, fun q ⟨hq, hqfree⟩ => ?_⟩
  exact end_unique (rightUnique_ownedBy s) (hend hqfree) (hend hfree) hq hr

end WellOwned

end Store

end Preflight
