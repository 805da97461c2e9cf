import Mathlib.Data.List.Forall2
import Mathlib.Data.List.Nodup
import Preflight.Conformance

/-!
# What it takes for a call to be declared

`Plan.Conforms` says of a call and a declaration that the call is of the declared kind,
that its arguments have the types of the parameters one by one, and that the place of its
result, if it has one, has the type of the first declared result. `Plan.Declared` says that
there is such a declaration under the name of the call.

The check of a call looks at the first declaration of a name only. If no name is declared
twice, that is the only one, and the check has nothing to report exactly if the call is
declared (`checkCall_eq_nil_iff`).
-/

namespace Preflight

namespace Declaration

/-- **No conflict is reported exactly if the names are distinct.** -/
theorem conflicts_eq_nil_iff {ds : List Declaration} :
    conflicts ds = [] ↔ (ds.map Declaration.name).Nodup := by
  induction ds with
  | nil => simp [conflicts]
  | cons d ds ih =>
    rw [conflicts, List.append_eq_nil_iff, ih, List.map_cons, List.nodup_cons]
    refine and_congr_left fun _ => ?_
    simp [List.filter_eq_nil_iff]

/-- Under distinct names, the first declaration of a name is the one that bears it. -/
theorem find?_eq_some_iff {ds : List Declaration} (hnames : (ds.map Declaration.name).Nodup)
    {name : String} {d : Declaration} : find? ds name = some d ↔ d ∈ ds ∧ d.name = name := by
  constructor
  · intro hd
    exact ⟨List.mem_of_find?_eq_some hd, by simpa using List.find?_some hd⟩
  · rintro ⟨hmem, rfl⟩
    cases hfirst : find? ds d.name with
    | none => exact absurd (List.find?_eq_none.1 hfirst d hmem) (by simp)
    | some e =>
      have hname : e.name = d.name := by simpa using List.find?_some hfirst
      rw [List.inj_on_of_nodup_map hnames (List.mem_of_find?_eq_some hfirst) hmem hname]

end Declaration

namespace Plan

variable {p : Plan}

/-- The call is one that the declaration allows. -/
structure Conforms (p : Plan) (a : Action) (d : Declaration) : Prop where
  kind : ∀ k, a.kind.declaredAs = some k → d.kind = k
  args : List.Forall₂ (fun h v => p.resultType h = some v.type.ty) a.args d.params
  target : ∀ h, a.target = some h →
    ∃ v, d.returns.head? = some v ∧ p.resultType h = some v.type.ty

/-- The call has a name known before the plan runs, and a declaration of that name allows
it. -/
def Declared (p : Plan) (a : Action) : Prop :=
  ∃ name, p.exprs.staticText? a.callee = some name ∧
    ∃ d ∈ p.declarations, d.name = name ∧ p.Conforms a d

/-- Types are those of variables exactly if they are pair by pair. -/
theorem haveTypesOf_eq_true_iff {exprs : List ExprId} {vars : List Variable} :
    p.haveTypesOf exprs vars = true ↔
      ∀ h v, (h, v) ∈ exprs.zip vars → p.resultType h = some v.type.ty := by
  simp [haveTypesOf]

/-- Arguments conform one by one, as many as there are parameters. -/
theorem args_conform_iff {exprs : List ExprId} {vars : List Variable} :
    (exprs.length == vars.length && p.haveTypesOf exprs vars) = true ↔
      List.Forall₂ (fun h v => p.resultType h = some v.type.ty) exprs vars := by
  rw [Bool.and_eq_true, beq_iff_eq, haveTypesOf_eq_true_iff, List.forall₂_iff_zip]

/-- The place of the result conforms to the first declared result. -/
theorem target_conform_iff {target : Option ExprId} {vars : List Variable} :
    (decide (target.toList.length ≤ vars.length) && p.haveTypesOf target.toList vars) = true ↔
      ∀ h, target = some h → ∃ v, vars.head? = some v ∧ p.resultType h = some v.type.ty := by
  rw [Bool.and_eq_true, haveTypesOf_eq_true_iff]
  cases target with
  | none => simp
  | some h => cases vars <;> simp

/-- The comparison of a call with a declaration decides whether the call conforms. -/
theorem conforms_eq_true_iff {a : Action} {d : Declaration} :
    p.conforms a d = true ↔ p.Conforms a d := by
  have hkind : a.kind.declaredAs.all (· == d.kind) = true ↔
      ∀ k, a.kind.declaredAs = some k → d.kind = k := by
    cases a.kind.declaredAs with
    | none => simp
    | some k => simpa using eq_comm
  rw [conforms, Bool.and_eq_true, Bool.and_eq_true, hkind, args_conform_iff, Action.returns,
    target_conform_iff]
  exact ⟨fun ⟨⟨hk, ha⟩, ht⟩ => ⟨hk, ha, ht⟩, fun ⟨hk, ha, ht⟩ => ⟨⟨hk, ha⟩, ht⟩⟩

/-- There is no finding on a call exactly if it conforms. -/
theorem mismatch?_eq_none_iff {node : String} {a : Action} {d : Declaration} :
    p.mismatch? node a d = none ↔ p.Conforms a d := by
  rw [← conforms_eq_true_iff, mismatch?]
  split <;> simp_all

/-- What is reported on a call is that it is not declared, that its name is not known, or that
it does not conform. -/
theorem mem_checkCall {node : String} {undeclared f : Finding} {a : Action}
    (hf : f ∈ p.checkCall node undeclared a) :
    f = undeclared ∨ (∃ callee, f = .nonStaticName callee node) ∨
      ∃ call d, f = .declarationMismatch call node d := by
  unfold checkCall at hf
  split at hf
  · exact .inr (.inl ⟨_, List.mem_singleton.1 hf⟩)
  · split at hf
    · exact .inl (List.mem_singleton.1 hf)
    · unfold mismatch? at hf
      split at hf
      · cases hf
      · exact .inr (.inr ⟨_, _, List.mem_singleton.1 hf⟩)

/-- A call in which the check finds nothing is declared, also where a name is declared twice. -/
theorem declared_of_checkCall_eq_nil {node : String} {undeclared : Finding} {a : Action}
    (hcall : p.checkCall node undeclared a = []) : p.Declared a := by
  unfold checkCall at hcall
  cases hname : p.exprs.staticText? a.callee with
  | none => simp [hname] at hcall
  | some name =>
    cases hd : p.findDeclaration? name with
    | none => simp [hname, hd] at hcall
    | some d =>
      simp only [hname, hd, Option.toList_eq_nil_iff, mismatch?_eq_none_iff] at hcall
      have hdname : d.name = name := by simpa using List.find?_some hd
      exact ⟨name, hname, d, List.mem_of_find?_eq_some hd, hdname, hcall⟩

/-- **The check of a call finds nothing exactly if the call is declared,** where no name is
declared twice. -/
theorem checkCall_eq_nil_iff (hnames : (p.declarations.map Declaration.name).Nodup)
    {node : String} {undeclared : Finding} {a : Action} :
    p.checkCall node undeclared a = [] ↔ p.Declared a := by
  refine ⟨declared_of_checkCall_eq_nil, ?_⟩
  rintro ⟨name, hname, d, hmem, hdname, hconf⟩
  have hd : p.findDeclaration? name = some d :=
    (Declaration.find?_eq_some_iff hnames).2 ⟨hmem, hdname⟩
  simp only [checkCall, hname, hd]
  rw [mismatch?_eq_none_iff.2 hconf, Option.toList_none]

end Plan

end Preflight
