import Mathlib.Data.List.Induction
import Preflight.Proofs.Readings
import Preflight.Proofs.StaticText

/-!
# The name that a lookup keeps

A lookup has its name twice: as a text in its own cell, written down when it was added, and as
the static text of its callee, which every reading computes anew. The first never changes. The
second hangs on the types stated inside the callee, and these can be stated again after the
lookup has taken hold of it. So the two can come apart (`not_named_by_callee`).

`StoreEdit` says what one edit can do to a store, and from it come both sides. Where a lookup
comes from: at some point of the edits it was added, under the static text that its callee had
then (`exists_lookup_edit`). And what the edits after that point leave of the callee: every form,
and every type but those that they state themselves (`restated_foldl_after`).

The text of an expression is in the forms, its types only say whether it has one. So the callee
has the same text now as then, or it has one only now, or only then
(`Restated.text_eq`, `Restated.getD_ne_iff`). Whether it has one can change only where a type
is stated that makes a part of it textual, or no longer so (`Restated.staticText?_eq`).
-/

namespace Preflight

namespace Cell

variable {c d : Cell}

/-- A constant is textual as a text or as anything. -/
theorem isTextual_const_iff {text : String} (hform : c.form = .const text) :
    c.IsTextual ↔ c.type = some .str ∨ c.type = some .any := by
  simp [IsTextual, hform]

/-- A join is textual unless another type was stated of it. -/
theorem isTextual_concat_iff {left right : ExprId} (hform : c.form = .binary .concat left right) :
    c.IsTextual ↔ c.type = none ∨ c.type = some .str ∨ c.type = some .any := by
  simp [IsTextual, hform]

/-- Whether a cell is textual can be told from its form and its type. -/
theorem isTextual_congr (hform : d.form = c.form) (htype : d.type = c.type) :
    d.IsTextual ↔ c.IsTextual := by
  rw [IsTextual, IsTextual, hform, htype]

end Cell

namespace Store

variable {s t u : Store} {stated stated' : ExprId → Ty → Prop} {h : ExprId}

/-- Every expression of `s` is in `t` with the form it had, and with the type it had or one that
was stated of it. -/
def Restated (stated : ExprId → Ty → Prop) (s t : Store) : Prop :=
  ∀ k c, s.get? k = some c → ∃ d, t.get? k = some d ∧ d.form = c.form ∧
    (d.type = c.type ∨ ∃ type, stated k type ∧ d.type = some type)

/-- To state `type` of the expression at `k` makes it textual, or makes it so no longer. -/
def TurnsText (s : Store) (k : ExprId) (type : Ty) : Prop :=
  ∃ c, s.get? k = some c ∧ ¬ ({ c with type := some type }.IsTextual ↔ c.IsTextual)

/-! ### Forms and types over two stores -/

/-- A store that stays as it is has nothing restated. -/
theorem restated_refl (stated : ExprId → Ty → Prop) (s : Store) : Restated stated s s :=
  fun _ c hc => ⟨c, hc, rfl, .inl rfl⟩

/-- What two changes in a row state is what either of them states. -/
theorem Restated.trans (H : Restated stated s t) (H' : Restated stated' t u) :
    Restated (fun k type => stated k type ∨ stated' k type) s u := by
  intro k c hc
  obtain ⟨d, hd, hform, htype⟩ := H k c hc
  obtain ⟨e, he, hform', htype'⟩ := H' k d hd
  refine ⟨e, he, hform'.trans hform, ?_⟩
  rcases htype' with heq | ⟨type, hstated, heq⟩
  · rw [heq]
    rcases htype with hold | ⟨type, hstated, hnew⟩
    · exact .inl hold
    · exact .inr ⟨type, .inl hstated, hnew⟩
  · exact .inr ⟨type, .inr hstated, heq⟩

/-- More may be said to have been stated. -/
theorem Restated.mono (H : Restated stated s t) (hle : ∀ k type, stated k type → stated' k type) :
    Restated stated' s t := by
  intro k c hc
  obtain ⟨d, hd, hform, htype⟩ := H k c hc
  refine ⟨d, hd, hform, htype.imp_right ?_⟩
  rintro ⟨type, hstated, heq⟩
  exact ⟨type, hle k type hstated, heq⟩

/-- An expression keeps its form. -/
theorem Restated.form_eq (H : Restated stated s t) {c d : Cell} (hc : s.get? h = some c)
    (hd : t.get? h = some d) : d.form = c.form := by
  obtain ⟨d', hd', hform, _⟩ := H h c hc
  obtain rfl := Option.some.inj (hd.symm.trans hd')
  exact hform

/-- **An expression that spells a text in both stores spells the same,** since the text is in the
forms. -/
theorem Restated.text_eq (H : Restated stated s t) {l r : String} (hl : s.Spells h l)
    (hr : t.Spells h r) : r = l := by
  induction hl generalizing r with
  | literal hc hform _ =>
    cases hr with
    | literal hd hform' _ =>
      exact Form.const.inj ((hform'.symm.trans (H.form_eq hc hd)).trans hform)
    | joined hd hform' _ _ _ => cases (hform'.symm.trans (H.form_eq hc hd)).trans hform
  | joined hc hform _ _ _ ihl ihr =>
    cases hr with
    | literal hd hform' _ => cases (hform'.symm.trans (H.form_eq hc hd)).trans hform
    | joined hd hform' _ hl' hr' =>
      obtain ⟨_, rfl, rfl⟩ := Form.binary.inj ((hform'.symm.trans (H.form_eq hc hd)).trans hform)
      rw [ihl hl', ihr hr']

/-- **A name from one store is not the one in the other exactly if a text that is not empty is
static in only one of them.** -/
theorem Restated.getD_ne_iff (H : Restated stated s t) (hs : s.WellOwned) (ht : t.WellOwned) :
    (s.staticText? h).getD "" ≠ (t.staticText? h).getD "" ↔ ∃ text, text ≠ "" ∧
      (s.staticText? h = some text ∧ t.staticText? h = none ∨
        s.staticText? h = none ∧ t.staticText? h = some text) := by
  cases hl : s.staticText? h with
  | none =>
    cases hr : t.staticText? h with
    | none => simp
    | some r => simp [eq_comm]
  | some l =>
    cases hr : t.staticText? h with
    | none => simp
    | some r =>
      have heq : r = l :=
        H.text_eq ((staticText?_eq_some_iff hs).1 hl) ((staticText?_eq_some_iff ht).1 hr)
      simp [heq]

/-! ### Whether there is a static text -/

/-- One step of the static text looks at the form, at whether the cell is textual, and at the texts
of the operands. -/
theorem staticStep_eq_of_isTextual_iff {c d : Cell} {f g : ExprId → Option String}
    (hform : d.form = c.form) (htextual : d.IsTextual ↔ c.IsTextual)
    (hfg : ∀ k ∈ c.form.operands, g k = f k) : staticStep h d g = staticStep h c f := by
  unfold staticStep
  rw [hform]
  cases hc : c.form with
  | const text =>
    rw [Cell.isTextual_const_iff (hform.trans hc), Cell.isTextual_const_iff hc] at htextual
    simp only [htextual]
  | binary op left right =>
    rw [hc] at hfg
    have hl : g left = f left := hfg left (by simp [Form.operands])
    have hr : g right = f right := hfg right (by simp [Form.operands])
    cases op with
    | concat =>
      rw [Cell.isTextual_concat_iff (hform.trans hc), Cell.isTextual_concat_iff hc] at htextual
      simp only [htextual, hl, hr]
    | _ => rfl
  | _ => rfl

/-- **The static text stays what it is where no type that was stated turns a part of it.** -/
theorem Restated.staticText?_eq (H : Restated stated s t) (hs : s.WellOwned) (ht : t.WellOwned)
    (hh : s.contains h = true)
    (hquiet : ∀ k type, stated k type → s.Reaches h k → ¬ s.TurnsText k type) :
    t.staticText? h = s.staticText? h := by
  induction h using Nat.strongRecOn with
  | _ h ih =>
    obtain ⟨c, hc⟩ := contains_iff.1 hh
    obtain ⟨d, hd, hform, htype⟩ := H h c hc
    -- Only the last type stated is in `d`, and it is compared with the one at the start.
    have htextual : d.IsTextual ↔ c.IsTextual := by
      rcases htype with heq | ⟨type, hstated, heq⟩
      · exact Cell.isTextual_congr hform heq
      · have hturn : { c with type := some type }.IsTextual ↔ c.IsTextual :=
          not_not.1 fun hnot => hquiet h type hstated .refl ⟨c, hc, hnot⟩
        exact (Cell.isTextual_congr (c := { c with type := some type }) hform heq).trans hturn
    rw [Store.staticText?_eq ht hd, Store.staticText?_eq hs hc]
    refine staticStep_eq_of_isTextual_iff hform htextual fun k hk => ?_
    have hoperand : s.HasOperand h k := ⟨c, hc, hk⟩
    refine ih k (hs.descends hoperand.uses) (hs.contains_of_uses hoperand.uses) ?_
    exact fun j type hstated hreach => hquiet j type hstated (hreach.head hoperand)

end Store

namespace Plan

variable {p : Plan} {e : Edit} {h : ExprId} {name : String} {call : Action}

/-! ### One edit -/

/-- The edit adds a lookup at `h`, under the static text that its callee has. -/
structure AddsLookup (p : Plan) (e : Edit) (h : ExprId) (name : String) (call : Action) : Prop where
  edit : ∃ type, e = .lookup call type
  done : ∃ q, p.apply e = .ok (.expr h, q)
  name_eq : name = (p.exprs.staticText? call.callee).getD ""

/-- What an edit can do to the store of a plan. -/
inductive StoreEdit (p : Plan) (e : Edit) : Store → Prop where
  | kept : StoreEdit p e p.exprs
  | added (form : Form) (type : Option Ty)
      (lookup : ∀ name call, form = .lookup name call → p.AddsLookup e p.exprs.size name call) :
      StoreEdit p e (p.exprs.add form type).2
  | stated (k : ExprId) (f : Cell → Cell) (form : ∀ c, (f c).form = c.form)
      (type : ∀ c, (f c).type = c.type ∨ ∃ type, e = .setType k type ∧ (f c).type = some type) :
      StoreEdit p e ⟨p.exprs.cells.modify k f⟩

/-- An edit that adds an expression does to the store what its building step does, or nothing if it
is refused. -/
theorem storeEdit_of_map {built : Except Fault (ExprId × Store)}
    (happly : p.apply e = built.map p.withExpr) (hbuilt : ∀ r, built = .ok r → p.StoreEdit e r.2) :
    p.StoreEdit e (p.after e).exprs := by
  rcases after_of_apply_eq_map happly with ⟨_, _, hafter⟩ | ⟨r, hr, hafter⟩
  · rw [hafter]
    exact .kept
  · rw [hafter]
    exact hbuilt r hr

/-- An edit that states a type does so, or nothing if it is refused. -/
theorem storeEdit_of_update {k : ExprId} {f : Cell → Cell}
    (happly : p.apply e = (p.exprs.update k f).map p.withStore)
    (hstated : p.StoreEdit e ⟨p.exprs.cells.modify k f⟩) : p.StoreEdit e (p.after e).exprs := by
  rcases after_of_apply_eq_update happly with hafter | hafter
  · rw [hafter]
    exact .kept
  · rw [hafter]
    exact hstated

/-- An edit of nodes or declarations does nothing to the store. -/
theorem storeEdit_of_kept (hkept : ∀ r, p.apply e = .ok r → r.2.exprs = p.exprs) :
    p.StoreEdit e (p.after e).exprs := by
  unfold after
  cases hr : p.apply e with
  | error f => exact .kept
  | ok r =>
    show p.StoreEdit e r.2.exprs
    rw [hkept r hr]
    exact .kept

/-- A change of a node leaves the store as it is. -/
theorem exprs_of_updateNode {n : NodeId} {f : Node → Node} {q : Plan}
    (hq : p.updateNode n f = .ok q) : q.exprs = p.exprs := by
  obtain ⟨_, rfl⟩ := updateNode_eq_ok_iff.1 hq
  rfl

/-- **Every edit does to the store what `StoreEdit` lists.** -/
theorem storeEdit_after (p : Plan) (e : Edit) : p.StoreEdit e (p.after e).exprs := by
  cases e with
  | constant text type => exact .added (.const text) (some type) fun _ _ hform => by cases hform
  | reference name type => exact .added (.ref name) type fun _ _ hform => by cases hform
  | lookup call type =>
    refine storeEdit_of_map rfl fun r hr => ?_
    have hdone : p.apply (.lookup call type) = .ok (p.withExpr r) := map_eq_ok_iff.2 ⟨r, hr, rfl⟩
    obtain ⟨_, rfl⟩ := Store.lookup_eq_ok_iff.1 hr
    refine .added _ type fun name call' hform => ?_
    obtain ⟨rfl, rfl⟩ := Form.lookup.inj hform
    exact ⟨⟨type, rfl⟩, ⟨_, hdone⟩, rfl⟩
  | unary element operand =>
    refine storeEdit_of_map rfl fun r hr => ?_
    obtain ⟨op, _, _, rfl⟩ := Store.unary_eq_ok_iff.1 hr
    exact .added (.unary op operand) none fun _ _ hform => by cases hform
  | binary element left right =>
    refine storeEdit_of_map rfl fun r hr => ?_
    obtain ⟨op, _, _, _, _, rfl⟩ := Store.binary_eq_ok_iff.1 hr
    exact .added (.binary op left right) none fun _ _ hform => by cases hform
  | setType k type =>
    exact storeEdit_of_update rfl (.stated k _ (fun _ => rfl) fun _ => .inr ⟨type, rfl, rfl⟩)
  | setOperandType k type =>
    exact storeEdit_of_update rfl (.stated k _ (fun _ => rfl) fun _ => .inl rfl)
  | declare d => exact .kept
  | addNode name parent =>
    refine storeEdit_of_kept fun r hr => ?_
    obtain ⟨added, hadded, rfl⟩ := map_eq_ok_iff.1 hr
    cases parent with
    | none =>
      obtain rfl := Except.ok.inj hadded
      rfl
    | some m =>
      obtain ⟨q, hq, rfl⟩ := map_eq_ok_iff.1 hadded
      have hsame : q.exprs = p.exprs := exprs_of_updateNode hq
      exact hsame
  | declareVariable n v =>
    refine storeEdit_of_kept fun r hr => ?_
    obtain ⟨q, hq, rfl⟩ := map_eq_ok_iff.1 hr
    exact exprs_of_updateNode hq
  | addCondition n kind k =>
    refine storeEdit_of_kept fun r hr => ?_
    obtain ⟨q, hq, rfl⟩ := map_eq_ok_iff.1 hr
    obtain ⟨_, _, hq⟩ := bind_eq_ok_iff.1 hq
    exact exprs_of_updateNode hq
  | setAction n a =>
    refine storeEdit_of_kept fun r hr => ?_
    obtain ⟨q, hq, rfl⟩ := map_eq_ok_iff.1 hr
    obtain ⟨_, _, hq⟩ := bind_eq_ok_iff.1 hq
    exact exprs_of_updateNode hq

namespace StoreEdit

variable {t : Store} {c : Cell}

/-- An edit keeps every form, and every type but the one that it states. -/
theorem restated (H : p.StoreEdit e t) :
    Store.Restated (fun k type => e = .setType k type) p.exprs t := by
  intro k c hc
  cases H with
  | kept => exact ⟨c, hc, rfl, .inl rfl⟩
  | added form type lookup =>
    obtain ⟨o, ho⟩ := Store.get?_add_of_get? hc form type
    exact ⟨_, ho, rfl, .inl rfl⟩
  | stated i f form type =>
    rw [Store.get?_modify, hc, Option.map_some]
    by_cases hi : i = k
    · subst hi
      exact ⟨f c, by rw [if_pos rfl], form c, type c⟩
    · exact ⟨c, by rw [if_neg hi], rfl, .inl rfl⟩

/-- A lookup that is there after an edit was there before it, or the edit added it. -/
theorem addsLookup_or (H : p.StoreEdit e t) (hc : t.get? h = some c)
    (hform : c.form = .lookup name call) :
    p.AddsLookup e h name call ∨ ∃ d, p.exprs.get? h = some d ∧ d.form = .lookup name call := by
  cases H with
  | kept => exact .inr ⟨c, hc, hform⟩
  | added form type lookup =>
    rcases Store.cell_of_get?_add hc with ⟨rfl, rfl⟩ | ⟨o, hold⟩
    · exact .inl (lookup name call hform)
    · exact .inr ⟨_, hold, hform⟩
  | stated i f form type =>
    rw [Store.get?_modify] at hc
    obtain ⟨d, hd, rfl⟩ := Option.map_eq_some_iff.1 hc
    rw [apply_ite Cell.form, form, ite_self] at hform
    exact .inr ⟨d, hd, hform⟩

end StoreEdit

/-! ### Runs of edits -/

/-- **A run of edits keeps every form, and every type but those that it states.** -/
theorem restated_foldl_after (p : Plan) (edits : List Edit) :
    Store.Restated (fun k type => .setType k type ∈ edits) p.exprs (edits.foldl after p).exprs := by
  induction edits generalizing p with
  | nil => exact Store.restated_refl _ _
  | cons e edits ih =>
    refine ((p.storeEdit_after e).restated.trans (ih (p.after e))).mono fun k type hstated => ?_
    rcases hstated with rfl | hlater
    · exact List.mem_cons_self
    · exact List.mem_cons_of_mem e hlater

/-- **Every lookup was added by one of the edits.** -/
theorem exists_lookup_edit {edits : List Edit} {c : Cell}
    (hc : (build edits).exprs.get? h = some c) (hform : c.form = .lookup name call) :
    ∃ before e later, edits = before ++ e :: later ∧ (build before).AddsLookup e h name call := by
  -- From the end: the last edit added the lookup, or it was there already before it.
  induction edits using List.reverseRecOn generalizing c with
  | nil => simp [build, empty, Store.get?, Store.empty] at hc
  | append_singleton edits e ih =>
    rw [build, List.foldl_append] at hc
    rcases ((build edits).storeEdit_after e).addsLookup_or hc hform with hadds | ⟨d, hd, hsame⟩
    · exact ⟨edits, e, [], rfl, hadds⟩
    · obtain ⟨before, e', later, rfl, hadds⟩ := ih hd hsame
      exact ⟨before, e', later ++ [e], by rw [List.append_assoc, List.cons_append], hadds⟩

/-- The callee of a lookup that is added is there. -/
theorem AddsLookup.contains_callee (H : p.AddsLookup e h name call) :
    p.exprs.contains call.callee = true := by
  obtain ⟨type, rfl⟩ := H.edit
  obtain ⟨q, hq⟩ := H.done
  obtain ⟨r, hr, _⟩ := map_eq_ok_iff.1 hq
  obtain ⟨⟨_, hfree⟩, _⟩ := Store.lookup_eq_ok_iff.1 hr
  obtain ⟨c, hc, _⟩ := hfree call.callee (by simp [Action.exprs])
  exact Store.contains_iff.2 ⟨c, hc⟩

/-- **A lookup keeps the name that it was added under.**  That is the static text its callee had at
the time, or the empty text. It differs from what the callee gives now exactly if a text that is not
empty was static then and is not now, or is now and was not then. As long as no later edit states a
type that turns a part of the callee, they are the same, whatever else is built or stated. -/
theorem lookup_keeps_name (edits : List Edit) :
    let s := (build edits).exprs
    ∀ h c name call, s.get? h = some c → c.form = .lookup name call →
      ∃ before type later, edits = before ++ .lookup call type :: later ∧
        let s₀ := (build before).exprs
        (∃ q, (build before).apply (.lookup call type) = .ok (.expr h, q)) ∧
        name = (s₀.staticText? call.callee).getD "" ∧
        (name ≠ (s.staticText? call.callee).getD "" ↔ ∃ text, text ≠ "" ∧
          (s₀.staticText? call.callee = some text ∧ s.staticText? call.callee = none ∨
            s₀.staticText? call.callee = none ∧ s.staticText? call.callee = some text)) ∧
        ((∀ k type, .setType k type ∈ later → s₀.Reaches call.callee k → ¬ s₀.TurnsText k type) →
          name = (s.staticText? call.callee).getD "") := by
  intro s h c name call hc hform
  obtain ⟨before, e, later, rfl, hadds⟩ := exists_lookup_edit hc hform
  have hcallee := hadds.contains_callee
  obtain ⟨⟨type, rfl⟩, hdone, hname⟩ := hadds
  have hs₀ : (build before).exprs.WellOwned := wellOwned_build before
  have hs : s.WellOwned := wellOwned_build _
  have H : Store.Restated (fun k t => .setType k t ∈ later) (build before).exprs s := by
    have hrun := (build before).restated_foldl_after (.lookup call type :: later)
    rw [build, ← List.foldl_append] at hrun
    exact hrun.mono fun k t hmem => by simpa using hmem
  refine ⟨before, type, later, rfl, hdone, hname, ?_, fun hquiet => ?_⟩
  · rw [hname]
    exact H.getD_ne_iff hs₀ hs
  · rw [H.staticText?_eq hs₀ hs hcallee hquiet]
    exact hname

/-- A lookup under a name joined from two texts, of which one may be anything, and a lookup under a
literal name. Afterwards the part that may be anything is stated to be a text, and the first lookup,
the operands of the join and the literal name are stated to be numbers. -/
def restatedNames : List Edit :=
  [.constant "wind" .str, .constant "Speed" .any, .binary (.binary .concat) 0 1,
    .lookup ⟨.lookup, 2, [], none⟩ none, .constant "f" .str, .lookup ⟨.lookup, 4, [], none⟩ none,
    .setType 1 .str, .setType 3 .num, .setOperandType 2 .num, .setType 4 .num]

/-- The joined name is not turned by any of this and the first lookup still has it. The literal name
is no static text any more, and the second lookup goes by it all the same. -/
theorem lookup_keeps_name_restatedNames :
    let s := (build restatedNames).exprs
    s.get? 3 = some ⟨.lookup "windSpeed" ⟨.lookup, 2, [], none⟩, some .num, none, none⟩ ∧
      "windSpeed" = (s.staticText? 2).getD "" ∧
      s.get? 5 = some ⟨.lookup "f" ⟨.lookup, 4, [], none⟩, none, none, none⟩ ∧
      "f" ≠ (s.staticText? 4).getD "" := by
  intro s
  have hjoined : s.get? 3 =
      some ⟨.lookup "windSpeed" ⟨.lookup, 2, [], none⟩, some .num, none, none⟩ := by decide +kernel
  have hliteral : s.get? 5 =
      some ⟨.lookup "f" ⟨.lookup, 4, [], none⟩, none, none, none⟩ := by decide +kernel
  refine ⟨hjoined, ?_, hliteral, ?_⟩
  · obtain ⟨before, type, later, hsplit, _, _, _, hsame⟩ :=
      lookup_keeps_name restatedNames 3 _ "windSpeed" _ hjoined rfl
    obtain ⟨rfl, _, rfl⟩ : before = restatedNames.take 3 ∧ type = none ∧
        later = restatedNames.drop 4 := by
      simpa [restatedNames, List.cons_eq_append_iff] using hsplit
    refine hsame fun k type hstated hreach => ?_
    have hle : k ≤ 2 := hreach.le (wellOwned_build _)
    obtain ⟨rfl, rfl⟩ : k = 1 ∧ type = .str := by
      simp only [restatedNames, List.drop_succ_cons, List.drop_zero, List.mem_cons,
        Edit.setType.injEq, reduceCtorEq, List.not_mem_nil, or_false, false_or] at hstated
      rcases hstated with heq | ⟨rfl, _⟩ | ⟨rfl, _⟩
      · exact heq
      · exact absurd hle (by decide)
      · exact absurd hle (by decide)
    rintro ⟨c, hc, hturn⟩
    have hpart : (build (restatedNames.take 3)).exprs.get? 1 =
        some ⟨.const "Speed", some .any, none, some 2⟩ := by decide +kernel
    obtain rfl := Option.some.inj (hpart.symm.trans hc)
    exact hturn (by simp [Cell.IsTextual])
  · obtain ⟨before, type, later, hsplit, _, _, hstale, _⟩ :=
      lookup_keeps_name restatedNames 5 _ "f" _ hliteral rfl
    obtain ⟨rfl, _, rfl⟩ : before = restatedNames.take 5 ∧ type = none ∧
        later = restatedNames.drop 6 := by
      simpa [restatedNames, List.cons_eq_append_iff] using hsplit
    exact hstale.2 ⟨"f", by decide, .inl ⟨by decide +kernel, by decide +kernel⟩⟩

/-- A lookup under a literal name, which is afterwards stated to be a number. -/
def renumberedName : List Edit :=
  [.constant "f" .str, .lookup ⟨.lookup, 0, [], none⟩ (some .num), .setType 0 .num]

/-- **A lookup can have a name that its callee does not give any more.** -/
theorem not_named_by_callee :
    let s := (build renumberedName).exprs
    s.get? 1 = some ⟨.lookup "f" ⟨.lookup, 0, [], none⟩, some .num, none, none⟩ ∧
      s.staticText? 0 = none ∧
      ¬ ∀ h c name call, s.get? h = some c → c.form = .lookup name call →
        name = (s.staticText? call.callee).getD "" := by
  intro s
  have hlookup : s.get? 1 =
      some ⟨.lookup "f" ⟨.lookup, 0, [], none⟩, some .num, none, none⟩ := by decide +kernel
  have hnone : s.staticText? 0 = none := by decide +kernel
  refine ⟨hlookup, hnone, fun hall => ?_⟩
  have hname := hall 1 _ "f" _ hlookup rfl
  rw [hnone] at hname
  exact absurd hname (by decide)

end Plan

end Preflight
