import Preflight.Proofs.Preorder

/-!
# What has a static text

An expression has a static text if it is built from literal texts by joining, and from nothing
else. `Spells s h text` says so of one expression and its text, along the expression; the text
that is computed is the one that is spelled (`staticText?_eq_some_iff`).

Two things are read off `Spells`. All that an expression with a static text reaches is a literal
text or a join (`Spells.isTextual_of_reaches`), and where all of it is, there is a static text
(`exists_spells`). And the text is that of the constants, in the order in which a search finds
them (`Spells.join_literals`): the search goes to the left operand before the right one, as the
join does.

No check has anything against it (`clean_of_staticText?`). The check of types requires a text of
what is joined and each part is one, or a constant that may be anything (`Spells.hasType`); and
there is neither a reference nor a lookup to be found in it (`Spells.find_eq_nil`).
-/

namespace Preflight

/-- The cell can be part of a static text: it is a constant that is a text or anything, or a join
of which no other type is stated. -/
def Cell.IsTextual (c : Cell) : Prop :=
  (∃ text, c.form = .const text ∧ (c.type = some .str ∨ c.type = some .any)) ∨
    ∃ left right, c.form = .binary .concat left right ∧
      (c.type = none ∨ c.type = some .str ∨ c.type = some .any)

namespace Store

/-- The expression at `h` is a literal text, or joined from such, and `text` is what it spells. -/
inductive Spells (s : Store) : ExprId → String → Prop where
  | literal {h : ExprId} {c : Cell} {text : String} (hc : s.get? h = some c)
      (hform : c.form = .const text) (htype : c.type = some .str ∨ c.type = some .any) :
      Spells s h text
  | joined {h left right : ExprId} {c : Cell} {l r : String} (hc : s.get? h = some c)
      (hform : c.form = .binary .concat left right)
      (htype : c.type = none ∨ c.type = some .str ∨ c.type = some .any)
      (hl : Spells s left l) (hr : Spells s right r) : Spells s h (l ++ r)

/-- The expression at `h` is the constant with the given text. -/
def HasLiteral (s : Store) (h : ExprId) (text : String) : Prop :=
  ∃ c, s.get? h = some c ∧ c.form = .const text

variable {s : Store} {h k : ExprId} {text : String}

/-! ### What is computed is what is spelled -/

/-- A text that is spelt out is the static text. -/
theorem Spells.staticText?_eq (hs : s.WellOwned) (H : s.Spells h text) :
    s.staticText? h = some text := by
  induction H with
  | literal hc hform htype =>
    rw [Store.staticText?_eq hs hc, staticStep, hform]
    exact if_pos htype
  | joined hc hform htype _ _ ihl ihr =>
    rw [Store.staticText?_eq hs hc, staticStep, hform]
    simp only [htype, if_true, ihl, ihr, Option.bind_some, Option.map_some]

/-- The static text is spelt out. -/
theorem spells_of_staticText? (hs : s.WellOwned) (htext : s.staticText? h = some text) :
    s.Spells h text := by
  induction h using Nat.strongRecOn generalizing text with
  | _ h ih =>
    cases hc : s.get? h with
    | none =>
      rw [staticText?, fold_of_get?_eq_none hc] at htext
      cases htext
    | some c =>
      rw [Store.staticText?_eq hs hc, staticStep] at htext
      split at htext
      · rename_i literal hform
        split_ifs at htext with htype
        obtain rfl := Option.some.inj htext
        exact .literal hc hform htype
      · rename_i left right hform
        split_ifs at htext with htype
        obtain ⟨l, hl, hjoin⟩ := Option.bind_eq_some_iff.1 htext
        obtain ⟨r, hr, rfl⟩ := Option.map_eq_some_iff.1 hjoin
        have hbelow : ∀ k ∈ [left, right], k < h := fun k hk =>
          hs.descends ⟨c, hc, by rwa [hform]⟩
        exact .joined hc hform htype (ih left (hbelow left (by simp)) hl)
          (ih right (hbelow right (by simp)) hr)
      · cases htext

/-- **The static text of an expression is what it spells.** -/
theorem staticText?_eq_some_iff (hs : s.WellOwned) :
    s.staticText? h = some text ↔ s.Spells h text :=
  ⟨spells_of_staticText? hs, fun H => H.staticText?_eq hs⟩

/-! ### What it is made of -/

/-- All parts of an expression that spells a text are textual. -/
theorem Spells.isTextual_of_reaches (H : s.Spells h text) (hk : s.Reaches h k) :
    ∃ c, s.get? k = some c ∧ c.IsTextual := by
  induction H with
  | literal hc hform htype =>
    rcases hk.cases_head with rfl | ⟨j, ⟨d, hd, hj⟩, _⟩
    · exact ⟨_, hc, .inl ⟨_, hform, htype⟩⟩
    · obtain rfl := Option.some.inj (hc.symm.trans hd)
      rw [hform] at hj
      cases hj
  | joined hc hform htype _ _ ihl ihr =>
    rcases hk.cases_head with rfl | ⟨j, ⟨d, hd, hj⟩, hjk⟩
    · exact ⟨_, hc, .inr ⟨_, _, hform, htype⟩⟩
    · obtain rfl := Option.some.inj (hc.symm.trans hd)
      rw [hform] at hj
      rcases List.mem_pair.1 hj with rfl | rfl
      · exact ihl hjk
      · exact ihr hjk

/-- Where all that an expression reaches is a literal text or a join, it spells a text. -/
theorem exists_spells (hs : s.WellOwned)
    (hall : ∀ k, s.Reaches h k → ∃ c, s.get? k = some c ∧ c.IsTextual) :
    ∃ text, s.Spells h text := by
  induction h using Nat.strongRecOn with
  | _ h ih =>
    obtain ⟨c, hc, ⟨text, hform, htype⟩ | ⟨left, right, hform, htype⟩⟩ := hall h .refl
    · exact ⟨text, .literal hc hform htype⟩
    · have hoperand : ∀ j ∈ [left, right], ∃ text, s.Spells j text := fun j hj => by
        have hhj : s.HasOperand h j := ⟨c, hc, by rwa [hform]⟩
        exact ih j (hs.descends hhj.uses) fun k hk => hall k (hk.head hhj)
      obtain ⟨l, hl⟩ := hoperand left (by simp)
      obtain ⟨r, hr⟩ := hoperand right (by simp)
      exact ⟨l ++ r, .joined hc hform htype hl hr⟩

/-- **What an expression spells is joined from the constants that a search finds in it,** in their
order. -/
theorem Spells.join_literals (hs : s.WellOwned) (H : s.Spells h text) :
    ∃ texts, List.Forall₂ s.HasLiteral (s.find h (.leaf .const)) texts ∧
      text = String.join texts := by
  induction H with
  | @literal h c text hc hform _ =>
    have hfind : s.find h (.leaf .const) = [h] := by
      rw [find_leaf hs hc (by rw [hform]; rfl), Cell.element, hform]
      rfl
    exact ⟨[text], hfind ▸ .cons ⟨c, hc, hform⟩ .nil, by simp⟩
  | @joined h left right c l r hc hform _ _ _ ihl ihr =>
    obtain ⟨ls, hls, rfl⟩ := ihl
    obtain ⟨rs, hrs, rfl⟩ := ihr
    have hfind : s.find h (.leaf .const) =
        s.find left (.leaf .const) ++ s.find right (.leaf .const) := by
      rw [find_binary hs hc hform]
      rfl
    exact ⟨ls ++ rs, hfind ▸ List.rel_append hls hrs, String.join_append.symm⟩

/-- A static text holds neither references nor lookups. -/
theorem Spells.find_eq_nil (hs : s.WellOwned) (H : s.Spells h text) {e : Element}
    (he : e = .leaf .ref ∨ e = .leaf .lookup) : s.find h e = [] := by
  refine List.eq_nil_iff_forall_not_mem.2 fun k hk => ?_
  obtain ⟨hreach, c, hc, hel⟩ := (mem_find_iff hs).1 hk
  obtain ⟨d, hd, htextual⟩ := H.isTextual_of_reaches hreach
  obtain rfl := Option.some.inj (hc.symm.trans hd)
  rw [Cell.element] at hel
  rcases htextual with ⟨_, hform, _⟩ | ⟨_, _, hform, _⟩ <;> rcases he with rfl | rfl <;>
    simp [hform, Form.element] at hel

/-! ### What the checks make of it -/

/-- By itself a static text is a text, or a constant that may be anything. -/
theorem Spells.resultType (H : s.Spells h text) (vars : String → Option Variable) :
    s.resultType vars h = some .str ∨ s.resultType vars h = some .any := by
  cases H with
  | literal hc hform htype =>
    rw [Store.resultType, hc, Option.bind_some, Cell.resultType, hform]
    exact htype
  | joined hc hform _ _ _ =>
    rw [Store.resultType, hc, Option.bind_some, resultType_binary hform]
    exact .inl rfl

/-- **A static text is well typed as a text,** whatever the variables are. -/
theorem Spells.hasType (H : s.Spells h text) (vars : String → Option Variable) :
    s.HasType vars h .str .str := by
  induction H with
  | @literal _ c _ hc hform htype =>
    have hleaf : c.form.operands = [] := by rw [hform]; rfl
    have hown : c.resultType vars = c.type := by rw [Cell.resultType, hform]
    rcases htype with htype | htype <;> exact .leaf hc hleaf (hown.trans htype) rfl
  | @joined _ _ _ c _ _ hc hform _ _ _ ihl ihr =>
    have hrequired : c.requiredOperandType = .str := by
      rw [Cell.requiredOperandType, Cell.element, hform]
      rfl
    rw [← hrequired] at ihl ihr
    exact .binary hc hform (by decide) rfl ihl ihr (by rw [hrequired]; rfl)

end Store

namespace Plan

/-- **An expression has a static text exactly if it is joined from literal texts alone.**  The text
is that of the constants which a search finds, in their order, and there is none if a search finds
a reference or a lookup. -/
theorem isSome_staticText?_iff_textual (edits : List Edit) :
    let s := (build edits).exprs
    ∀ h, s.contains h = true →
      ((s.staticText? h).isSome ↔ ∀ k, s.Reaches h k → ∃ c, s.get? k = some c ∧ c.IsTextual) ∧
      (∀ text, s.staticText? h = some text → ∃ texts,
        List.Forall₂ s.HasLiteral (s.find h (.leaf .const)) texts ∧ text = String.join texts) ∧
      (s.find h (.leaf .ref) ≠ [] ∨ s.find h (.leaf .lookup) ≠ [] → s.staticText? h = none) := by
  intro s h _
  have hs : s.WellOwned := wellOwned_build edits
  refine ⟨⟨fun hsome k hk => ?_, fun hall => ?_⟩, fun text htext => ?_, fun hfound => ?_⟩
  · obtain ⟨text, htext⟩ := Option.isSome_iff_exists.1 hsome
    exact ((Store.staticText?_eq_some_iff hs).1 htext).isTextual_of_reaches hk
  · obtain ⟨text, H⟩ := Store.exists_spells hs hall
    exact Option.isSome_iff_exists.2 ⟨text, (Store.staticText?_eq_some_iff hs).2 H⟩
  · exact ((Store.staticText?_eq_some_iff hs).1 htext).join_literals hs
  · refine Option.eq_none_iff_forall_ne_some.2 fun text htext => ?_
    have H := (Store.staticText?_eq_some_iff hs).1 htext
    rcases hfound with hfound | hfound
    · exact hfound (H.find_eq_nil hs (.inl rfl))
    · exact hfound (H.find_eq_nil hs (.inr rfl))

/-- A name joined from three texts, of which the second one was added first, and the same name with
the value of a variable after it. One text and one join are stated to be anything. -/
def numberedName : List Edit :=
  [.constant "Speed" .str, .constant "wind" .any, .binary (.binary .concat) 1 0, .setType 2 .any,
    .constant "2" .str, .binary (.binary .concat) 2 3, .reference "x" none,
    .binary (.binary .concat) 4 5]

/-- The name is known up to where the variable comes in. -/
theorem isSome_staticText?_iff_textual_numberedName :
    let s := (build numberedName).exprs
    s.contains 4 = true ∧ s.staticText? 4 = some "windSpeed2" ∧
      s.find 4 (.leaf .const) = [1, 0, 3] ∧
      (∀ k, s.Reaches 4 k → ∃ c, s.get? k = some c ∧ c.IsTextual) ∧
      (∃ texts, List.Forall₂ s.HasLiteral [1, 0, 3] texts ∧ "windSpeed2" = String.join texts) ∧
      s.contains 6 = true ∧ s.find 6 (.leaf .ref) = [5] ∧ s.staticText? 6 = none := by
  intro s
  have hname : s.contains 4 = true := by decide +kernel
  have htext : s.staticText? 4 = some "windSpeed2" := by decide +kernel
  have hconstants : s.find 4 (.leaf .const) = [1, 0, 3] := by decide +kernel
  have hroot : s.contains 6 = true := by decide +kernel
  have hrefs : s.find 6 (.leaf .ref) = [5] := by decide +kernel
  obtain ⟨hiff, hjoin, _⟩ := isSome_staticText?_iff_textual numberedName 4 hname
  obtain ⟨_, _, hdynamic⟩ := isSome_staticText?_iff_textual numberedName 6 hroot
  exact ⟨hname, htext, hconstants, hiff.1 (by rw [htext]; rfl), hconstants ▸ hjoin _ htext, hroot,
    hrefs, hdynamic (.inl (by rw [hrefs]; simp))⟩

/-- **No check has anything against a static text.**  By itself it is a text, or a constant that may
be anything; where a text is expected it is one; and from no node is there a reference or a lookup
in it to be reported. -/
theorem clean_of_staticText? (edits : List Edit) :
    let p := build edits
    ∀ h text, p.exprs.staticText? h = some text →
      (p.resultType h = some .str ∨ p.resultType h = some .any) ∧
        p.typing h .str = ⟨some .str, []⟩ ∧
        ∀ n context, p.checkReferences n context h = [] ∧ p.checkLookups n context h = [] := by
  intro p h text htext
  have hs : p.exprs.WellOwned := wellOwned_build edits
  have H : p.exprs.Spells h text := (Store.staticText?_eq_some_iff hs).1 htext
  refine ⟨H.resultType p.findVariable?, (H.hasType p.findVariable?).typing_eq hs,
    fun n context => ⟨?_, ?_⟩⟩
  · rw [checkReferences, H.find_eq_nil hs (.inl rfl), List.flatMap_nil]
  · rw [checkLookups, H.find_eq_nil hs (.inr rfl), List.flatMap_nil]

/-- A name is joined from a text and a constant that may be anything, and so is a text itself. As
a number it is reported, while the constant by itself may be one. -/
theorem clean_of_staticText?_numberedName :
    let p := build (.addNode "A" none :: numberedName)
    p.exprs.staticText? 1 = some "wind" ∧ p.resultType 1 = some .any ∧
      p.typing 1 .str = ⟨some .str, []⟩ ∧
      p.exprs.staticText? 4 = some "windSpeed2" ∧ p.typing 4 .str = ⟨some .str, []⟩ ∧
      p.checkReferences 0 "in A" 4 = [] ∧ p.checkLookups 0 "in A" 4 = [] ∧
      p.typing 4 .num =
        ⟨none, [.expressionType "((wind + \"Speed\") + \"2\")" "type Str" "type Num"]⟩ ∧
      p.typing 1 .num = ⟨some .num, []⟩ := by
  intro p
  have hpart : p.exprs.staticText? 1 = some "wind" := by decide +kernel
  have hname : p.exprs.staticText? 4 = some "windSpeed2" := by decide +kernel
  obtain ⟨_, htyping, _⟩ := clean_of_staticText? _ 1 "wind" hpart
  obtain ⟨_, htyping', hclean⟩ := clean_of_staticText? _ 4 "windSpeed2" hname
  obtain ⟨hrefs, hlookups⟩ := hclean 0 "in A"
  exact ⟨hpart, by decide +kernel, htyping, hname, htyping', hrefs, hlookups, by decide +kernel⟩

end Plan

end Preflight
