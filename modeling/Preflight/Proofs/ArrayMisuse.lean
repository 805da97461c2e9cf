import Preflight.Proofs.Blame
import Preflight.Proofs.Frame
import Preflight.Proofs.IndexedArrays
import Preflight.Proofs.Preorder

/-!
# Each misuse of an array is reported once

Two checks report on indices. The check of references compares the index of a reference to the
variable that it finds in scope, and reports an array without an index or an index without an
array. The check of types reports an element of what is neither a reference nor a lookup.

The reports of each check are put side by side with the expressions they are on. Those of the
first one are on the misused references that the search finds, in its order
(`exists_indexMisused`), and the search finds nothing twice. Those of the second one are on array
elements in the order of the search, too (`exists_shapes`): a report on an element comes before
those on its array and its index. It is left out only below an expression whose own type does not
fit, and such an expression is reported itself. So where no type is reported, no element is left
out.

What the first check reports is a reference, and the array that the second one reports is not.
So no reference is reported by both.
-/

namespace Preflight

/-- The finding is on an index: there is none on an array, or one on something else. -/
def Finding.isIndexMisuse : Finding → Bool
  | .arrayNeedsIndex .. | .notAnArray .. => true
  | _ => false

namespace Store

variable {s : Store} {h : ExprId} {c : Cell}

/-! ### Elements of what cannot be an array -/

/-- The expression at `h` takes an element of what is neither a reference nor a lookup. -/
def Misplaced (s : Store) (h : ExprId) : Prop :=
  ∃ c array index d, s.get? h = some c ∧ c.form = .binary .arrayElem array index ∧
    s.get? array = some d ∧ d.element ≠ .leaf .ref ∧ d.element ≠ .leaf .lookup

/-- The finding is that the array of the array element at `h` is none. -/
def ReportsShape (s : Store) (f : Finding) (h : ExprId) : Prop :=
  ∃ c array index, s.get? h = some c ∧ c.form = .binary .arrayElem array index ∧
    f = .notAnArray (s.text array) (s.text h)

/-- An array element is misplaced exactly if its array cannot be one. -/
theorem misplaced_iff (hs : s.WellOwned) (hc : s.get? h = some c) {array index : ExprId}
    (hform : c.form = .binary .arrayElem array index) :
    s.Misplaced h ↔ s.canBeArray array = false := by
  rw [← Bool.not_eq_true, canBeArray_iff]
  constructor
  · rintro ⟨c', array', index', d, hc', hform', hd, href, hlookup⟩ ⟨d', hd', hel⟩
    obtain rfl := Option.some.inj (hc.symm.trans hc')
    cases hform.symm.trans hform'
    obtain rfl := Option.some.inj (hd.symm.trans hd')
    exact hel.elim href hlookup
  · intro hnot
    obtain ⟨d, hd⟩ := contains_iff.1 (hs.contains_of_uses
      (HasOperand.uses ⟨c, hc, by simp [hform, Form.operands]⟩) : s.contains array = true)
    exact ⟨c, array, index, d, hc, hform, hd, fun href => hnot ⟨d, hd, .inl href⟩,
      fun hlookup => hnot ⟨d, hd, .inr hlookup⟩⟩

/-- A misplaced array element is found by the search for array elements. -/
theorem Misplaced.mem_find_iff (hs : s.WellOwned) {root : ExprId} (H : s.Misplaced h) :
    h ∈ s.find root (.binary .arrayElem) ↔ s.Reaches root h := by
  obtain ⟨c, array, index, _, hc, hform, _⟩ := H
  have hel : c.element = .binary .arrayElem := by
    rw [Cell.element, hform]
    rfl
  rw [Store.mem_find_iff hs]
  exact ⟨fun hh => hh.1, fun hh => ⟨hh, c, hc, hel⟩⟩

/-- The findings on indices among `fs` are on the array elements at `ks`, each on the one at its own
position. These are misplaced ones among those at `es`, in the same order, and all of them if there
is no finding on types among `fs`. -/
structure Shapes (s : Store) (fs : List Finding) (es ks : List ExprId) : Prop where
  reports : List.Forall₂ s.ReportsShape (fs.filter Finding.isIndexMisuse) ks
  sublist : ks.Sublist es
  misplaced : ∀ k ∈ ks, s.Misplaced k
  complete : (∀ f ∈ fs, f.isTypeMismatch = false) → ∀ k ∈ es, s.Misplaced k → k ∈ ks

/-- Two lists of findings are on the elements of both. -/
theorem Shapes.append {fs gs : List Finding} {ds es js ks : List ExprId} (hf : s.Shapes fs ds js)
    (hg : s.Shapes gs es ks) : s.Shapes (fs ++ gs) (ds ++ es) (js ++ ks) where
  reports := by
    rw [List.filter_append]
    exact List.rel_append hf.reports hg.reports
  sublist := hf.sublist.append hg.sublist
  misplaced := List.forall_mem_append.2 ⟨hf.misplaced, hg.misplaced⟩
  complete := fun hclean k hk hmis => by
    obtain ⟨hcleanf, hcleang⟩ := List.forall_mem_append.1 hclean
    rcases List.mem_append.1 hk with hk | hk
    · exact List.mem_append_left _ (hf.complete hcleanf k hk hmis)
    · exact List.mem_append_right _ (hg.complete hcleang k hk hmis)

/-- There is nothing to report where no element is misplaced. -/
theorem shapes_nil {es : List ExprId} (hes : ∀ k ∈ es, ¬ s.Misplaced k) : s.Shapes [] es [] :=
  ⟨.nil, List.nil_sublist _, List.forall_mem_nil _, fun _ k hk hmis => absurd hmis (hes k hk)⟩

/-- Below a finding on types no element needs to be reported. -/
theorem shapes_typeFinding (s : Store) (h : ExprId) (found expected : Option Ty)
    (es : List ExprId) : s.Shapes [s.typeFinding h found expected] es [] where
  reports := .nil
  sublist := List.nil_sublist _
  misplaced := List.forall_mem_nil _
  complete := fun hclean => by cases hclean _ (List.mem_singleton_self _)

/-- A clash of operands is not on indices. -/
theorem shapes_operandClash (s : Store) (right : ExprId) (l r : Typing) :
    s.Shapes (s.operandClash right l r) [] [] := by
  rcases s.operandClash_cases right l r with hnil | ⟨a, b, _, _, _, heq⟩
  · rw [hnil]
    exact shapes_nil (List.forall_mem_nil _)
  · rw [heq]
    exact s.shapes_typeFinding right (some b) (some a) []

/-- An array element is reported itself if its array cannot be one. -/
theorem shapes_element (hs : s.WellOwned) (hc : s.get? h = some c) {array index : ExprId}
    (hform : c.form = .binary .arrayElem array index) :
    s.Shapes (if s.canBeArray array then [] else [.notAnArray (s.text array) (s.text h)]) [h]
      (if s.canBeArray array then [] else [h]) := by
  have hiff := misplaced_iff hs hc hform
  split_ifs with harray
  · refine shapes_nil fun k hk hmis => ?_
    obtain rfl := List.mem_singleton.1 hk
    rw [hiff.1 hmis] at harray
    cases harray
  · have hmis : ∀ k ∈ [h], s.Misplaced k := fun k hk => by
      obtain rfl := List.mem_singleton.1 hk
      exact hiff.2 (Bool.eq_false_iff.2 harray)
    exact ⟨.cons ⟨c, array, index, hc, hform, rfl⟩ .nil, List.Sublist.refl _, hmis,
      fun _ k hk _ => hk⟩

/-- **The check of types reports misplaced array elements, each of them once.** -/
theorem exists_shapes (hs : s.WellOwned) (vars : String → Option Variable)
    (hh : s.contains h = true) (t : Ty) :
    ∃ ks, s.Shapes (s.typing vars h t).findings (s.find h (.binary .arrayElem)) ks := by
  refine typing_induction
    (C := fun h _ y => ∃ ks, s.Shapes y.findings (s.find h (.binary .arrayElem)) ks) hs
    ?mismatch ?leaf ?unary ?binary ?element hh t
  case mismatch =>
    intro h c t own _ _ _
    exact ⟨[], s.shapes_typeFinding h _ _ _⟩
  case leaf =>
    intro h c t own r hc hleaf _ _
    refine ⟨[], shapes_nil fun k hk ⟨d, _, _, _, hd, hform, _⟩ => ?_⟩
    rw [find_leaf hs hc hleaf] at hk
    split_ifs at hk
    · obtain rfl := List.mem_singleton.1 hk
      obtain rfl := Option.some.inj (hc.symm.trans hd)
      rw [hform] at hleaf
      cases hleaf
    · cases hk
  case unary =>
    rintro h c t r op operand hc hform _ ⟨ks, H⟩
    rw [find_unary hs hc hform]
    exact ⟨ks, H⟩
  case binary =>
    rintro h c t r op left right hc hform hop _ ⟨ls, hl⟩ ⟨rs, hr⟩
    rw [find_binary hs hc hform, if_neg (by simpa using hop), ← List.append_assoc]
    exact ⟨_, ((s.shapes_operandClash right _ _).append hl).append hr⟩
  case element =>
    rintro h c t array index hc hform ⟨ls, ha⟩ ⟨rs, hi⟩
    -- the element comes first, and a clash with the expected type adds no element
    rw [findings_elementTyping, find_binary hs hc hform, if_pos rfl, ← List.append_assoc,
      ← List.append_nil [h]]
    exact ⟨_, (((shapes_element hs hc hform).append (s.shapes_operandClash h _ _)).append ha).append
      hi⟩

end Store

namespace Plan

variable {p : Plan} {n : NodeId} {context : String} {root h : ExprId} {v w : Variable}

/-! ### References to arrays -/

/-- The expression at `h` is a reference to the variable `v` in the scope of `n`. -/
def RefersToVariable (p : Plan) (n : NodeId) (h : ExprId) (v : Variable) : Prop :=
  ∃ c name, p.exprs.get? h = some c ∧ c.form = .ref name ∧ c.nodeProperty? = none ∧
    p.findInScope? n name = some v

/-- The expression at `h` is a reference to an array of which no element is taken, or to another
variable of which one is. -/
def IndexMisused (p : Plan) (n : NodeId) (h : ExprId) : Prop :=
  ∃ v, p.RefersToVariable n h v ∧ ¬ (v.isArray = true ↔ p.exprs.Indexed h)

/-- The finding is that on the index of the reference at `h` in the expression `root`. -/
def ReportsIndex (p : Plan) (n : NodeId) (root : ExprId) (f : Finding) (h : ExprId) : Prop :=
  ∃ v, p.RefersToVariable n h v ∧
    (v.isArray = true ∧ ¬ p.exprs.Indexed h ∧ f = .arrayNeedsIndex v.name (p.exprs.text root) ∨
      v.isArray = false ∧ p.exprs.Indexed h ∧ f = .notAnArray v.name (p.exprs.text root))

/-- A reference stands for one variable. -/
theorem RefersToVariable.unique (hv : p.RefersToVariable n h v) (hw : p.RefersToVariable n h w) :
    v = w := by
  obtain ⟨c, name, hc, hform, _, hv⟩ := hv
  obtain ⟨c', name', hc', hform', _, hw⟩ := hw
  obtain rfl := Option.some.inj (hc.symm.trans hc')
  obtain rfl := Form.ref.inj (hform.symm.trans hform')
  exact Option.some.inj (hv.symm.trans hw)

/-- What stands for a variable is a reference. -/
theorem RefersToVariable.isRef (hv : p.RefersToVariable n h v) :
    ∃ c, p.exprs.get? h = some c ∧ c.element = .leaf .ref := by
  obtain ⟨c, name, hc, hform, _⟩ := hv
  exact ⟨c, hc, Form.element_eq_ref_iff.2 ⟨name, hform⟩⟩

/-- The findings on the index of a reference to a variable come from the comparison with the
variable. -/
theorem RefersToVariable.filter_checkReference (hv : p.RefersToVariable n h v) :
    (p.checkReference n context root h).filter Finding.isIndexMisuse =
      v.indexMisuse (p.exprs.isIndexed h) (p.exprs.text root) := by
  obtain ⟨c, name, hc, hform, hprop, hv⟩ := hv
  have htype : (v.typeMisuse c.type context).filter Finding.isIndexMisuse = [] := by
    unfold Variable.typeMisuse
    split
    · split_ifs <;> rfl
    · rfl
  have hindex : ∀ indexed text,
      (v.indexMisuse indexed text).filter Finding.isIndexMisuse = v.indexMisuse indexed text := by
    intro indexed text
    unfold Variable.indexMisuse
    split <;> rfl
  rw [checkReference_var hc hform hprop hv, List.filter_append, htype, hindex, List.nil_append]

/-- What is no reference to a variable in scope has no finding on an index. -/
theorem filter_checkReference_eq_nil (hnot : ∀ v, ¬ p.RefersToVariable n h v) :
    (p.checkReference n context root h).filter Finding.isIndexMisuse = [] := by
  unfold checkReference
  split
  · rename_i c hc
    split
    · rename_i name hform
      split_ifs with hprop hsee
      · rfl
      · rfl
      · split
        · rfl
        · rename_i v hv
          exact absurd ⟨c, name, hc, hform, Option.not_isSome_iff_eq_none.1 hprop, hv⟩ (hnot v)
    · rfl
  · rfl

/-- **A reference has one finding on its index if it is misused, and none otherwise.** -/
theorem checkReference_index (hs : p.exprs.WellOwned) (n : NodeId) (context : String)
    (root h : ExprId) :
    (p.IndexMisused n h ∧ ∃ f, p.ReportsIndex n root f h ∧
        (p.checkReference n context root h).filter Finding.isIndexMisuse = [f]) ∨
      (¬ p.IndexMisused n h ∧
        (p.checkReference n context root h).filter Finding.isIndexMisuse = []) := by
  by_cases hvar : ∃ v, p.RefersToVariable n h v
  · obtain ⟨v, hv⟩ := hvar
    have hmisused : p.IndexMisused n h ↔ ¬ (v.isArray = true ↔ p.exprs.Indexed h) :=
      ⟨fun ⟨w, hw, hmis⟩ => hw.unique hv ▸ hmis, fun hmis => ⟨v, hv, hmis⟩⟩
    have hindexed : p.exprs.isIndexed h = true ↔ p.exprs.Indexed h := Store.isIndexed_iff hs
    rw [hmisused, hv.filter_checkReference]
    unfold Variable.indexMisuse
    split
    · rename_i harray hfalse
      have hnot : ¬ p.exprs.Indexed h := by simp [← hindexed, hfalse]
      exact .inl ⟨by simp [harray, hnot], _, ⟨v, hv, .inl ⟨harray, hnot, rfl⟩⟩, rfl⟩
    · rename_i harray htrue
      have hin : p.exprs.Indexed h := hindexed.1 htrue
      exact .inl ⟨by simp [harray, hin], _, ⟨v, hv, .inr ⟨harray, hin, rfl⟩⟩, rfl⟩
    · rename_i harray htrue
      exact .inr ⟨by simp [harray, hindexed.1 htrue], rfl⟩
    · rename_i harray hfalse
      exact .inr ⟨by simp [harray, ← hindexed, hfalse], rfl⟩
  · have hnot : ∀ v, ¬ p.RefersToVariable n h v := not_exists.1 hvar
    exact .inr ⟨fun ⟨v, hv, _⟩ => hnot v hv, filter_checkReference_eq_nil hnot⟩

/-- **The findings on indices among those on references are on the misused ones,** one on each and
in the same order. -/
theorem exists_indexMisused (hs : p.exprs.WellOwned) (n : NodeId) (context : String)
    (root : ExprId) (leaves : List ExprId) :
    ∃ ks, List.Forall₂ (p.ReportsIndex n root)
        ((leaves.flatMap (p.checkReference n context root)).filter Finding.isIndexMisuse) ks ∧
      ks.Sublist leaves ∧ ∀ h, h ∈ ks ↔ h ∈ leaves ∧ p.IndexMisused n h := by
  induction leaves with
  | nil => exact ⟨[], .nil, List.nil_sublist _, by simp⟩
  | cons k rest ih =>
    obtain ⟨ks, hreports, hsublist, hmem⟩ := ih
    rw [List.flatMap_cons, List.filter_append]
    rcases checkReference_index hs n context root k with ⟨hmis, f, hf, heq⟩ | ⟨hnot, heq⟩
    · refine ⟨k :: ks, heq ▸ .cons hf hreports, hsublist.cons_cons k, fun h => ?_⟩
      rw [List.mem_cons, List.mem_cons, hmem]
      constructor
      · rintro (rfl | ⟨hrest, hmish⟩)
        · exact ⟨.inl rfl, hmis⟩
        · exact ⟨.inr hrest, hmish⟩
      · rintro ⟨rfl | hrest, hmish⟩
        · exact .inl rfl
        · exact .inr ⟨hrest, hmish⟩
    · refine ⟨ks, heq ▸ hreports, hsublist.cons k, fun h => ?_⟩
      rw [List.mem_cons, hmem]
      constructor
      · rintro ⟨hrest, hmish⟩
        exact ⟨.inr hrest, hmish⟩
      · rintro ⟨rfl | hrest, hmish⟩
        · exact absurd hmish hnot
        · exact ⟨hrest, hmish⟩

/-- A misused reference is found by the search for references. -/
theorem IndexMisused.mem_find_iff (hs : p.exprs.WellOwned) (H : p.IndexMisused n h) :
    h ∈ p.exprs.find root (.leaf .ref) ↔ p.exprs.Reaches root h := by
  obtain ⟨v, hv, _⟩ := H
  rw [Store.mem_find_iff hs]
  exact ⟨fun hh => hh.1, fun hh => ⟨hh, hv.isRef⟩⟩

/-- **Each misuse of an array is reported once.**  Whether an element is taken of an expression is
whether some array element in the store has it as its array. The check of references has one finding
on an index for each misused reference that the expression reaches, and no others. The check of
types has one for each of some misplaced array elements that it reaches, and for each of all of
them if it has no finding on types. No misused reference is the array of one of these. -/
theorem misuse_reported_once (edits : List Edit) :
    let p := build edits
    let s := p.exprs
    (∀ h, s.isIndexed h = true ↔ s.Indexed h) ∧
    (∀ n root context t, s.contains root = true →
      (∃ leaves : List ExprId,
        List.Forall₂ (p.ReportsIndex n root)
          ((p.checkReferences n context root).filter Finding.isIndexMisuse) leaves ∧
        leaves.Nodup ∧ ∀ h, h ∈ leaves ↔ s.Reaches root h ∧ p.IndexMisused n h) ∧
      ∃ elements : List ExprId,
        List.Forall₂ s.ReportsShape
          ((p.typing root t).findings.filter Finding.isIndexMisuse) elements ∧
        elements.Nodup ∧ (∀ h ∈ elements, s.Reaches root h ∧ s.Misplaced h) ∧
        ((∀ f ∈ (p.typing root t).findings, f.isTypeMismatch = false) →
          ∀ h, s.Reaches root h → s.Misplaced h → h ∈ elements)) ∧
    ∀ n h, p.IndexMisused n h → ¬ ∃ k c index, s.Misplaced k ∧ s.get? k = some c ∧
      c.form = .binary .arrayElem h index := by
  intro p s
  have hs : s.WellOwned := wellOwned_build edits
  refine ⟨fun h => Store.isIndexed_iff hs, fun n root context t hroot => ⟨?_, ?_⟩, ?_⟩
  · obtain ⟨leaves, hreports, hsublist, hmem⟩ :=
      exists_indexMisused hs n context root (s.find root (.leaf .ref))
    refine ⟨leaves, hreports, hsublist.nodup (Store.nodup_find hs root _), fun h => ?_⟩
    rw [hmem]
    exact and_congr_left fun hmis => hmis.mem_find_iff hs
  · obtain ⟨elements, H⟩ := Store.exists_shapes hs p.findVariable? hroot t
    refine ⟨elements, H.reports, H.sublist.nodup (Store.nodup_find hs root _), fun h hh => ?_,
      fun hclean h hreach hmis => ?_⟩
    · exact ⟨((Store.mem_find_iff hs).1 (H.sublist.subset hh)).1, H.misplaced h hh⟩
    · exact H.complete hclean h ((hmis.mem_find_iff hs).2 hreach) hmis
  · rintro n h ⟨v, hv, _⟩ ⟨k, d, index, hmis, hd, hform⟩
    obtain ⟨c, hc, hel⟩ := hv.isRef
    have harray : s.canBeArray h = true := Store.canBeArray_iff.2 ⟨c, hc, .inl hel⟩
    rw [(Store.misplaced_iff hs hd hform).1 hmis] at harray
    cases harray

/-- A node with an array of numbers and a number, and the sum of the array, of an element of the
number and of an element of a literal. -/
def sumOfMisuses : List Edit :=
  [.addNode "A" none, .declareVariable 0 ⟨"xs", .integer, .unstated, some 3⟩,
    .declareVariable 0 ⟨"x", .integer, .unstated, none⟩, .reference "xs" none,
    .reference "x" none, .constant "0" .num, .binary (.binary .arrayElem) 1 2,
    .binary (.binary .plus) 0 3, .constant "5" .num, .constant "1" .num,
    .binary (.binary .arrayElem) 5 6, .binary (.binary .plus) 4 7]

/-- The array and the number are reported by the check of references, the literal by that of
types. -/
theorem misuse_reported_once_sumOfMisuses :
    let p := build sumOfMisuses
    let s := p.exprs
    s.contains 8 = true ∧
      p.checkReferences 0 "" 8 =
        [.arrayNeedsIndex "xs" "((xs + x[0]) + 5[1])", .notAnArray "x" "((xs + x[0]) + 5[1])"] ∧
      (∃ leaves : List ExprId, List.Forall₂ (p.ReportsIndex 0 8)
          [.arrayNeedsIndex "xs" "((xs + x[0]) + 5[1])", .notAnArray "x" "((xs + x[0]) + 5[1])"]
          leaves ∧ leaves.Nodup) ∧
      (p.typing 8 .num).findings = [.notAnArray "5" "5[1]"] ∧
      ∃ elements : List ExprId, List.Forall₂ s.ReportsShape [.notAnArray "5" "5[1]"] elements ∧
        ∀ h, s.Reaches 8 h → s.Misplaced h → h ∈ elements := by
  intro p s
  have hroot : s.contains 8 = true := by decide +kernel
  have hrefs : p.checkReferences 0 "" 8 = [.arrayNeedsIndex "xs" "((xs + x[0]) + 5[1])",
      .notAnArray "x" "((xs + x[0]) + 5[1])"] := by decide +kernel
  have htyping : (p.typing 8 .num).findings = [.notAnArray "5" "5[1]"] := by decide +kernel
  obtain ⟨_, hboth, _⟩ := misuse_reported_once sumOfMisuses
  obtain ⟨⟨leaves, hleaves, hnodup, _⟩, elements, helements, _, _, hall⟩ :=
    hboth 0 8 "" .num hroot
  have hclean : ∀ f ∈ (p.typing 8 .num).findings, f.isTypeMismatch = false := by
    rw [htyping]
    decide
  rw [hrefs] at hleaves
  rw [htyping] at helements
  exact ⟨hroot, hrefs, ⟨leaves, hleaves, hnodup⟩, htyping, elements, helements, hall hclean⟩

end Plan

end Preflight
