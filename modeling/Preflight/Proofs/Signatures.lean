import Preflight.Plan.Edit
import Preflight.Proofs.Conformance

/-!
# Calls are matched by signature

Of a declaration a call is compared with the kind, the types of the parameters and the type of the
first result, and with nothing else (`conforms_iff_types`). Names, directions and capacities do not
count, and an integer is as good as a real: declarations of one signature allow the same calls
(`conforms_congr`).

The comparison is strict. There must be as many arguments as parameters, so that one parameter more
or less is too many or too few (`Conforms.not_of_length_ne`). And slots have the types of variables,
among which there is neither the wildcard nor a property of a node: an expression of such a type
fits no slot of any declaration (`Conforms.not_unfit`).

Results may be left over. More of them make no difference where there is a first one, nor to a call
that takes none. A call that takes a result of a declaration without results does not conform, and
it may conform to the declaration that has one (`conforms_returning_iff`).
-/

namespace Preflight

namespace VarType

/-- Whether it is one of the two types of numbers. -/
def isNumber : VarType → Bool
  | integer | real => true
  | boolean | string => false

/-- Two types are the same to an expression if they are equal or both of numbers. -/
theorem ty_eq_iff {s t : VarType} : s.ty = t.ty ↔ s = t ∨ s.isNumber ∧ t.isNumber := by
  cases s <;> cases t <;> decide

/-- No variable is of the wildcard type or of a property of a node. -/
theorem ty_ne_any (t : VarType) : t.ty ≠ .any ∧ t.ty.isNodeProperty = false := by
  cases t <;> decide

end VarType

/-- Two slots of a declaration that differ at most in name, direction, capacity and the type of
number they have. -/
def Variable.Alike (v w : Variable) : Prop :=
  v.type = w.type ∨ v.type.isNumber ∧ w.type.isNumber

/-- Variables that are alike have the same types. -/
theorem Variable.map_ty_eq {vs ws : List Variable} (hvw : List.Forall₂ Variable.Alike vs ws) :
    (vs.map fun v => v.type.ty) = ws.map fun w => w.type.ty := by
  induction hvw with
  | nil => rfl
  | cons halike _ ih => rw [List.map_cons, List.map_cons, VarType.ty_eq_iff.2 halike, ih]

namespace Declaration

variable {d e : Declaration}

/-- Two declarations of one kind whose slots are alike one by one. -/
structure SameSignature (d e : Declaration) : Prop where
  kind : d.kind = e.kind
  params : List.Forall₂ Variable.Alike d.params e.params
  returns : List.Forall₂ Variable.Alike d.returns e.returns

/-- The declaration with more results after those it has. -/
def returning (d : Declaration) (more : List Variable) : Declaration :=
  { d with returns := d.returns ++ more }

/-- The types of the parameters, as expressions have them. -/
def paramTypes (d : Declaration) : List Ty :=
  d.params.map fun v => v.type.ty

/-- The types of the results, as expressions have them. -/
def returnTypes (d : Declaration) : List Ty :=
  d.returns.map fun v => v.type.ty

/-- Declarations of one signature have the same types of parameters and results. -/
theorem SameSignature.types_eq (hde : d.SameSignature e) :
    d.paramTypes = e.paramTypes ∧ d.returnTypes = e.returnTypes :=
  ⟨Variable.map_ty_eq hde.params, Variable.map_ty_eq hde.returns⟩

end Declaration

namespace Plan

variable {p : Plan} {node : String} {a : Action} {d e : Declaration}

/-- The expression is of the wildcard type or of a property of a node. -/
def Unfit (p : Plan) (h : ExprId) : Prop :=
  ∃ t, p.resultType h = some t ∧ (t = .any ∨ t.isNodeProperty)

/-- The cell is a reference to a variable that is declared nowhere, an array element, an alias, or
a lookup without a stated type. -/
inductive Indefinite (p : Plan) (c : Cell) : Prop where
  | unknown {name : String} (hform : c.form = .ref name) (hvar : p.findVariable? name = none)
  | element {array index : ExprId} (hform : c.form = .binary .arrayElem array index)
  | aliased {left right : ExprId} (hform : c.form = .binary .aliasOf left right)
  | untyped {name : String} {call : Action} (hform : c.form = .lookup name call)
      (htype : c.type = none)

/-! ### Kind and types decide -/

/-- **A call is compared with the kind and the types of a declaration.** -/
theorem conforms_iff_types :
    p.Conforms a d ↔ (∀ k, a.kind.declaredAs = some k → d.kind = k) ∧
      List.Forall₂ (fun h t => p.resultType h = some t) a.args d.paramTypes ∧
      ∀ h, a.target = some h → ∃ t, d.returnTypes.head? = some t ∧ p.resultType h = some t := by
  have htarget : ∀ h, (∃ t, d.returnTypes.head? = some t ∧ p.resultType h = some t) ↔
      ∃ v, d.returns.head? = some v ∧ p.resultType h = some v.type.ty := by
    intro h
    simp only [Declaration.returnTypes, List.head?_map, Option.map_eq_some_iff,
      exists_exists_and_eq_and]
  simp only [Declaration.paramTypes, List.forall₂_map_right_iff, htarget]
  exact ⟨fun ⟨hkind, hargs, hreturn⟩ => ⟨hkind, hargs, hreturn⟩,
    fun ⟨hkind, hargs, hreturn⟩ => ⟨hkind, hargs, hreturn⟩⟩

/-- **Declarations of one signature allow the same calls.** -/
theorem conforms_congr (hde : d.SameSignature e) : p.Conforms a d ↔ p.Conforms a e := by
  obtain ⟨hparams, hreturns⟩ := hde.types_eq
  rw [conforms_iff_types, conforms_iff_types, hde.kind, hparams, hreturns]

/-- There is a finding on a call exactly if it does not conform. -/
theorem isSome_mismatch?_iff : (p.mismatch? node a d).isSome ↔ ¬ p.Conforms a d := by
  rw [Option.isSome_iff_ne_none, Ne, mismatch?_eq_none_iff]

/-- A call that does not conform has one finding, which is an error. -/
theorem mismatch?_of_not_conforms (node : String) (hd : ¬ p.Conforms a d) :
    ∃ f, p.mismatch? node a d = some f ∧ f.severity = .error ∧
      f = .declarationMismatch (p.exprs.actionText a) node d.text := by
  rw [← conforms_eq_true_iff] at hd
  exact ⟨_, if_neg hd, rfl, rfl⟩

/-! ### Strictness -/

/-- A call conforms to declarations of one number of parameters. -/
theorem Conforms.not_of_length_ne (hd : p.Conforms a d) (hne : e.params.length ≠ d.params.length) :
    ¬ p.Conforms a e := fun he =>
  hne (he.args.length_eq.symm.trans hd.args.length_eq)

/-- **An argument or result place of a call that conforms to anything fits its slot.** -/
theorem Conforms.not_unfit (hd : p.Conforms a d) {h : ExprId} (hh : h ∈ a.args ++ a.returns) :
    ¬ p.Unfit h := by
  have hslot : ∃ v : Variable, p.resultType h = some v.type.ty := by
    rcases List.mem_append.1 hh with harg | hreturn
    · obtain ⟨i, hi, rfl⟩ := List.getElem_of_mem harg
      exact ⟨_, hd.args.get hi (hd.args.length_eq ▸ hi)⟩
    · obtain ⟨v, _, hv⟩ := hd.target h (Option.mem_toList.1 hreturn)
      exact ⟨v, hv⟩
  rintro ⟨t, ht, hunfit⟩
  obtain ⟨v, hv⟩ := hslot
  obtain rfl : v.type.ty = t := Option.some.inj (hv.symm.trans ht)
  obtain ⟨hany, hprop⟩ := v.type.ty_ne_any
  rcases hunfit with heq | htrue
  · exact hany heq
  · exact Bool.false_ne_true (hprop.symm.trans htrue)

/-- What is not known to have a type of variables has none that a parameter could have. -/
theorem Indefinite.unfit {h : ExprId} {c : Cell} (hc : p.exprs.get? h = some c)
    (hindef : p.Indefinite c) : p.Unfit h := by
  simp only [Unfit, resultType, Store.resultType, hc, Option.bind_some, Cell.resultType]
  cases hindef with
  | unknown hform hvar =>
    cases hprop : c.nodeProperty? with
    | none => exact ⟨.any, by simp [hform, hvar], .inl rfl⟩
    | some t => exact ⟨t, by simp [hform], .inr (Option.filter_eq_some_iff.1 hprop).2⟩
  | element hform => exact ⟨.any, by rw [hform]; rfl, .inl rfl⟩
  | aliased hform => exact ⟨.any, by rw [hform]; rfl, .inl rfl⟩
  | untyped hform htype => exact ⟨.any, by simp [hform, htype], .inl rfl⟩

/-! ### More results -/

/-- More results do not keep a call from conforming. -/
theorem Conforms.returning (hd : p.Conforms a d) (more : List Variable) :
    p.Conforms a (d.returning more) where
  kind := hd.kind
  args := hd.args
  target := fun h hh => by
    obtain ⟨v, hv, hty⟩ := hd.target h hh
    exact ⟨v, by rw [Declaration.returning, List.head?_append, hv, Option.some_or], hty⟩

/-- A call that takes a result conforms only where one is declared. -/
theorem Conforms.returns_ne_nil (hd : p.Conforms a d) (htarget : a.target.isSome) :
    d.returns ≠ [] := by
  obtain ⟨h, hh⟩ := Option.isSome_iff_exists.1 htarget
  obtain ⟨v, hv, _⟩ := hd.target h hh
  exact List.ne_nil_of_mem (List.mem_of_mem_head? hv)

/-- Where there is a first result, or none is taken, those that come after it do not count. -/
theorem Conforms.of_returning {more : List Variable} (hd : p.Conforms a (d.returning more))
    (hfirst : d.returns ≠ [] ∨ a.target = none) : p.Conforms a d where
  kind := hd.kind
  args := hd.args
  target := fun h hh => by
    rcases hfirst with hne | hnone
    · obtain ⟨v, hv, hty⟩ := hd.target h hh
      rw [Declaration.returning, List.head?_append_of_ne_nil _ hne] at hv
      exact ⟨v, hv, hty⟩
    · rw [hnone] at hh
      cases hh

/-- **More results make a difference exactly to a call that takes a result, where none was declared
and it conforms now.** -/
theorem conforms_returning_iff {more : List Variable} :
    (p.Conforms a (d.returning more) ↔ p.Conforms a d) ↔
      ¬ (d.returns = [] ∧ a.target.isSome ∧ p.Conforms a (d.returning more)) := by
  constructor
  · rintro hiff ⟨hnil, htarget, hmore⟩
    exact (hiff.1 hmore).returns_ne_nil htarget hnil
  · intro hnot
    refine ⟨fun hmore => hmore.of_returning ?_, fun hd => hd.returning more⟩
    by_contra hfirst
    rw [not_or, not_not, ← Ne, ← Option.isSome_iff_ne_none] at hfirst
    exact hnot ⟨hfirst.1, hfirst.2, hmore⟩

/-- **Calls are matched by signature, and strictly.**  A call has no finding exactly if it is of the
kind declared, has arguments of the types of the parameters one by one, and takes no result or one of
the type of the first; otherwise it has one finding, an error. Declarations of one signature give the
same outcome, and so does a declaration with more results, unless it had none, the call takes one and
conforms to what is added. A call with an argument or result place that fits no slot, such as a
reference to an unknown variable, an array element, an alias or an untyped lookup, conforms to
nothing. A call that conforms does not conform to the declaration with a parameter more or less. -/
theorem matched_by_signature (p : Plan) (node : String) (a : Action) (d : Declaration) :
    (p.mismatch? node a d = none ↔ p.Conforms a d) ∧
    (¬ p.Conforms a d → ∃ f, p.mismatch? node a d = some f ∧ f.severity = .error ∧
      f = .declarationMismatch (p.exprs.actionText a) node d.text) ∧
    (∀ e, d.SameSignature e →
      ((p.mismatch? node a e).isSome ↔ (p.mismatch? node a d).isSome)) ∧
    (∀ more, ((p.mismatch? node a (d.returning more)).isSome ↔ (p.mismatch? node a d).isSome) ↔
      ¬ (d.returns = [] ∧ a.target.isSome ∧ p.Conforms a (d.returning more))) ∧
    (∀ h ∈ a.args ++ a.returns, p.Unfit h → (p.mismatch? node a d).isSome) ∧
    (∀ h c, p.exprs.get? h = some c → p.Indefinite c → p.Unfit h) ∧
    (p.mismatch? node a d = none →
      (∀ v, (p.mismatch? node a { d with params := d.params ++ [v] }).isSome) ∧
      ∀ i < d.params.length,
        (p.mismatch? node a { d with params := d.params.eraseIdx i }).isSome) := by
  refine ⟨mismatch?_eq_none_iff, mismatch?_of_not_conforms node, ?_⟩
  simp only [isSome_mismatch?_iff, mismatch?_eq_none_iff, not_iff_not]
  refine ⟨fun e hde => (conforms_congr hde).symm, fun more => conforms_returning_iff,
    fun h hh hunfit hd => hd.not_unfit hh hunfit, fun h c => Indefinite.unfit,
    fun hd => ⟨fun v => ?_, fun i hi => ?_⟩⟩
  · exact hd.not_of_length_ne (by simp)
  · refine hd.not_of_length_ne ?_
    rw [List.length_eraseIdx_of_lt hi]
    omega

/-- A node with an integer `x`, an expression that reads it and one that reads an unknown `y`. -/
def integerAndUnknown : List Edit :=
  [.addNode "A" none, .declareVariable 0 ⟨"x", .integer, .unstated, none⟩, .reference "x" none,
    .reference "x" none, .reference "y" none, .constant "f" .str]

/-- An integer is passed as a real, or as an input of another name that is an array of integers, but
not without its parameter or with a second one. The unknown is not passed at all. -/
theorem matched_by_signature_integerForReal :
    let p := build integerAndUnknown
    let a : Action := ⟨.command, 3, [0], some 1⟩
    let d : Declaration :=
      ⟨.command, "f", [⟨"", .real, .unstated, none⟩], [⟨"r", .integer, .unstated, none⟩]⟩
    let e : Declaration :=
      ⟨.command, "f", [⟨"n", .integer, .input, some 3⟩], [⟨"", .real, .unstated, none⟩]⟩
    p.Conforms a d ∧ d.SameSignature e ∧ p.mismatch? "A" a e = none ∧
      (p.mismatch? "A" a { d with params := d.params ++ e.params }).isSome ∧
      (p.mismatch? "A" a { d with params := d.params.eraseIdx 0 }).isSome ∧
      p.Indefinite ⟨.ref "y", none, none, none⟩ ∧
      (p.mismatch? "A" { a with args := [2] } d).isSome ∧
      p.mismatch? "A" a (d.returning e.returns) = none := by
  intro p a d e
  have hd : p.Conforms a d := conforms_eq_true_iff.1 (by decide +kernel)
  have hsame : d.SameSignature e :=
    ⟨rfl, .cons (.inr ⟨rfl, rfl⟩) .nil, .cons (.inr ⟨rfl, rfl⟩) .nil⟩
  have hindef : p.Indefinite ⟨.ref "y", none, none, none⟩ := .unknown rfl (by decide +kernel)
  obtain ⟨hnone, _, hcongr, hmore, _, _, hparams⟩ := matched_by_signature p "A" a d
  obtain ⟨_, _, _, _, hunfit, hunknown, _⟩ := matched_by_signature p "A" { a with args := [2] } d
  have hclean := hnone.2 hd
  have hnot : ¬ (p.mismatch? "A" a d).isSome := by simp [hclean]
  refine ⟨hd, hsame, ?_, (hparams hclean).1 _, (hparams hclean).2 0 (by decide), hindef,
    hunfit 2 (by decide) (hunknown 2 _ (by decide +kernel) hindef), ?_⟩
  · exact Option.not_isSome_iff_eq_none.1 fun h => hnot ((hcongr e hsame).1 h)
  · exact Option.not_isSome_iff_eq_none.1 fun h =>
      hnot (((hmore e.returns).2 fun hex => List.cons_ne_nil _ _ hex.1).1 h)

/-- **A first result makes a difference to a call that takes one.**  The command that puts its result
into `x` does not match a declaration without results, and matches the one with an integer added. -/
theorem not_returning_indifferent :
    let p := build integerAndUnknown
    let a : Action := ⟨.command, 3, [], some 0⟩
    let d : Declaration := ⟨.command, "f", [], []⟩
    p.mismatch? "A" a d = some (.declarationMismatch "Command f() -> x" "A" "Command f()") ∧
      p.mismatch? "A" a (d.returning [⟨"", .integer, .unstated, none⟩]) = none ∧
      ¬ ∀ more, (p.mismatch? "A" a (d.returning more)).isSome ↔ (p.mismatch? "A" a d).isSome := by
  intro p a d
  have hsome : p.mismatch? "A" a d =
      some (.declarationMismatch "Command f() -> x" "A" "Command f()") := by decide +kernel
  have hnone : p.mismatch? "A" a (d.returning [⟨"", .integer, .unstated, none⟩]) = none := by
    decide +kernel
  refine ⟨hsome, hnone, fun hall => ?_⟩
  have hadded := (hall [⟨"", .integer, .unstated, none⟩]).2 (by rw [hsome]; rfl)
  rw [hnone] at hadded
  cases hadded

end Plan
end Preflight
