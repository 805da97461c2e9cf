import Preflight.Proofs.Conformance
import Preflight.Proofs.Store.Walk
import Preflight.Resolution

/-!
# What it takes for references to resolve

`Plan.RefersFrom` says that one reference is right from inside a node: it names a node that
can be seen, or a variable in scope whose type it does not contradict and which is an array
exactly if an element is taken of it. `Plan.Resolves` says this of all references below an
expression, and of all lookups below it that what they call is declared.

Whether an element is taken of a reference is read off its owner; in a well owned store that
is to say that some array element in the store has it as its array (`isIndexed_iff`).
-/

namespace Preflight

namespace Store

variable {s : Store}

/-- Some array element in the store has the expression at `h` as its array. -/
def Indexed (s : Store) (h : ExprId) : Prop :=
  ∃ o c index, s.get? o = some c ∧ c.form = .binary .arrayElem h index

/-- **The owner of an expression tells whether an element is taken of it.** -/
theorem isIndexed_iff (hs : s.WellOwned) {h : ExprId} : s.isIndexed h = true ↔ s.Indexed h := by
  constructor
  · intro hh
    unfold isIndexed at hh
    split at hh
    · rename_i array index _ _ _ hcell
      obtain ⟨o, _, ho⟩ := Option.bind_eq_some_iff.1 hcell
      exact ⟨o, _, index, ho, by rw [eq_of_beq hh]⟩
    · cases hh
  · rintro ⟨o, c, index, ho, hform⟩
    have huse : s.Uses o h := ⟨c, ho, by simp [hform, Form.uses, Form.operands]⟩
    obtain ⟨d, hd, howner⟩ := hs.ownedBy_iff.2 huse
    obtain ⟨form, type, operandType, owner⟩ := c
    obtain rfl : form = _ := hform
    simp [isIndexed, hd, howner, ho]

end Store

namespace Variable

variable {v : Variable}

/-- A variable may be used at its own type, at the wildcard, and where no type is stated. -/
theorem typeMisuse_eq_nil_iff {used : Option Ty} {context : String} :
    v.typeMisuse used context = [] ↔
      used = none ∨ used = some .any ∨ used = some v.type.ty := by
  cases used with
  | none => simp [typeMisuse]
  | some t => simp [typeMisuse, VarType.admits, or_iff_not_imp_left]

/-- A variable must be indexed exactly if it is an array. -/
theorem indexMisuse_eq_nil_iff {indexed : Bool} {root : String} :
    v.indexMisuse indexed root = [] ↔ v.isArray = indexed := by
  unfold indexMisuse
  cases v.isArray <;> cases indexed <;> simp

end Variable

namespace Plan

variable {p : Plan} {n : NodeId} {context : String} {root h : ExprId} {c : Cell}

/-- The reference to `name`, which is the cell `c` at `h`, is right from inside the node
`n`. -/
inductive RefersFrom (p : Plan) (n : NodeId) (h : ExprId) (c : Cell) (name : String) : Prop where
  /-- It names a node that can be seen. -/
  | node (hprop : c.nodeProperty?.isSome) (hsee : p.canSee n name = true)
  /-- It names a variable in scope, states no type or the wildcard or the type of the
  variable, and is indexed exactly if the variable is an array. -/
  | var {v : Variable} (hprop : c.nodeProperty? = none) (hscope : p.findInScope? n name = some v)
      (htype : c.type = none ∨ c.type = some .any ∨ c.type = some v.type.ty)
      (harray : v.isArray = true ↔ p.exprs.Indexed h)

/-- A reference that is right and states a property of nodes names a node in sight. -/
theorem RefersFrom.canSee {name : String} (href : p.RefersFrom n h c name)
    (hprop : c.nodeProperty?.isSome) : p.canSee n name = true := by
  cases href with
  | node _ hsee => exact hsee
  | var hnone => simp [hnone] at hprop

/-- A reference that is right and states no such property names a variable in scope. -/
theorem RefersFrom.inScope {name : String} (href : p.RefersFrom n h c name)
    (hprop : c.nodeProperty? = none) : ∃ v, p.findInScope? n name = some v := by
  cases href with
  | node hsome => simp [hprop] at hsome
  | var _ hv => exact ⟨_, hv⟩

/-- All that an expression refers to and looks up is right from inside the node `n`. -/
structure Resolves (p : Plan) (n : NodeId) (root : ExprId) : Prop where
  references : ∀ h c name, p.exprs.Reaches root h → p.exprs.get? h = some c →
    c.form = .ref name → p.RefersFrom n h c name
  lookups : ∀ h c name call, p.exprs.Reaches root h → p.exprs.get? h = some c →
    c.form = .lookup name call → c.nodeProperty? = none → p.Declared call

/-- There is nothing to say about a reference exactly if it is right. -/
theorem checkReference_eq_nil_iff (hs : p.exprs.WellOwned) {name : String}
    (hc : p.exprs.get? h = some c) (hform : c.form = .ref name) :
    p.checkReference n context root h = [] ↔ p.RefersFrom n h c name := by
  simp only [checkReference, hc, hform]
  cases hprop : c.nodeProperty? with
  | some t =>
    simp only [Option.isSome_some, if_true, ite_eq_left_iff, reduceCtorEq, imp_false,
      Bool.not_eq_true, Bool.not_eq_false]
    refine ⟨fun hsee => .node (by simp [hprop]) hsee, fun href => ?_⟩
    cases href with
    | node _ hsee => exact hsee
    | var hnone => simp [hprop] at hnone
  | none =>
    simp only [Option.isSome_none, Bool.false_eq_true, if_false]
    cases hscope : p.findInScope? n name with
    | none =>
      simp only [reduceCtorEq, false_iff]
      rintro (⟨hsome, _⟩ | ⟨_, hv, _, _⟩)
      · simp [hprop] at hsome
      · simp [hscope] at hv
    | some v =>
      simp only [List.append_eq_nil_iff, Variable.typeMisuse_eq_nil_iff,
        Variable.indexMisuse_eq_nil_iff]
      rw [Bool.eq_iff_iff, Store.isIndexed_iff hs]
      refine ⟨fun ⟨htype, harray⟩ => .var hprop hscope htype harray, fun href => ?_⟩
      cases href with
      | node hsome => simp [hprop] at hsome
      | var _ hv htype harray =>
        obtain rfl := Option.some.inj (hscope.symm.trans hv)
        exact ⟨htype, harray⟩

/-- There is nothing to say about a lookup exactly if it gives a property of a node or its call is
declared. -/
theorem checkLookup_eq_nil_iff (hnames : (p.declarations.map Declaration.name).Nodup)
    {name : String} {call : Action} (hc : p.exprs.get? h = some c)
    (hform : c.form = .lookup name call) :
    p.checkLookup n context h = [] ↔ (c.nodeProperty? = none → p.Declared call) := by
  simp only [checkLookup, hc, hform]
  cases hprop : c.nodeProperty? with
  | some t => simp
  | none => simp [checkCall_eq_nil_iff hnames]

/-- What is reported on the lookups of an expression is reported on their calls. -/
theorem mem_checkLookups {f : Finding} (hf : f ∈ p.checkLookups n context root) :
    ∃ call, f ∈ p.checkCall (p.nodeName n)
      (.noLookupDeclaration (p.exprs.actionText call) context) call := by
  obtain ⟨h, _, hf⟩ := List.mem_flatMap.1 hf
  unfold checkLookup at hf
  split at hf
  · split at hf
    · split at hf
      · cases hf
      · exact ⟨_, hf⟩
    · cases hf
  · cases hf

/-- The name of the node that the reference at a handle is to. -/
def nodeTarget? (p : Plan) (h : ExprId) : Option String :=
  (p.exprs.get? h).bind fun c =>
    match c.form with
    | .ref target => if c.nodeProperty?.isSome then some target else none
    | _ => none

/-- All there is to say about a reference to a node is that none is in sight. -/
theorem checkReference_of_nodeTarget? {target : String}
    (htarget : p.nodeTarget? h = some target) (n : NodeId) (context : String) (root : ExprId) :
    p.checkReference n context root h =
      if p.canSee n target then [] else [.inaccessibleNode target (p.nodeName n)] := by
  obtain ⟨c, hc, hform⟩ := Option.bind_eq_some_iff.1 htarget
  split at hform
  · rename_i href
    split_ifs at hform with hprop
    obtain rfl := Option.some.inj hform
    simp only [checkReference, hc, href, hprop, if_true]
  · cases hform

/-- A reference that does not name a node has no property of a node for its type. -/
theorem not_nodeProperty_of_nodeTarget? {name : String}
    (htarget : p.nodeTarget? h = none) (hc : p.exprs.get? h = some c) (hform : c.form = .ref name) :
    ¬ c.nodeProperty?.isSome = true := by
  simpa [nodeTarget?, hc, hform] using htarget

/-- What there is to report on a reference to a variable. -/
inductive VariableReport : Finding → Prop where
  | unknown (variableName context : String) :
      VariableReport (.variableNotFound variableName context)
  | mistyped (variableName declared used context : String) :
      VariableReport (.variableMismatch variableName declared used context)
  | unindexed (variableName expr : String) : VariableReport (.arrayNeedsIndex variableName expr)
  | indexed (variableName expr : String) : VariableReport (.notAnArray variableName expr)

/-- A use at a wrong type is a finding on a variable. -/
theorem variableReport_of_mem_typeMisuse {v : Variable} {used : Option Ty} {f : Finding}
    (hf : f ∈ v.typeMisuse used context) : VariableReport f := by
  unfold Variable.typeMisuse at hf
  split at hf
  · split_ifs at hf
    · cases hf
    · obtain rfl := List.mem_singleton.1 hf
      exact .mistyped ..
  · cases hf

/-- A wrong use of an index is a finding on a variable. -/
theorem variableReport_of_mem_indexMisuse {v : Variable} {indexed : Bool} {text : String}
    {f : Finding} (hf : f ∈ v.indexMisuse indexed text) : VariableReport f := by
  unfold Variable.indexMisuse at hf
  split at hf
  · obtain rfl := List.mem_singleton.1 hf
    exact .unindexed ..
  · obtain rfl := List.mem_singleton.1 hf
    exact .indexed ..
  · cases hf
  · cases hf

/-- Where no node is named, every finding on a reference is one on a variable. -/
theorem variableReport_of_mem_checkReference {f : Finding} (htarget : p.nodeTarget? h = none)
    (hf : f ∈ p.checkReference n context root h) : VariableReport f := by
  unfold checkReference at hf
  split at hf
  · rename_i c hc
    split at hf
    · rename_i hform
      rw [if_neg (not_nodeProperty_of_nodeTarget? htarget hc hform)] at hf
      split at hf
      · obtain rfl := List.mem_singleton.1 hf
        exact .unknown ..
      · rcases List.mem_append.1 hf with hf | hf
        · exact variableReport_of_mem_typeMisuse hf
        · exact variableReport_of_mem_indexMisuse hf
    · cases hf
  · cases hf

/-- What the checks of references and lookups have to report. -/
inductive ReferenceReport : Finding → Prop where
  | unseen (target node : String) : ReferenceReport (.inaccessibleNode target node)
  | unknown (variableName context : String) :
      ReferenceReport (.variableNotFound variableName context)
  | mistyped (variableName declared used context : String) :
      ReferenceReport (.variableMismatch variableName declared used context)
  | unindexed (variableName expr : String) : ReferenceReport (.arrayNeedsIndex variableName expr)
  | indexed (variableName expr : String) : ReferenceReport (.notAnArray variableName expr)
  | dynamic (callee node : String) : ReferenceReport (.nonStaticName callee node)
  | undeclared (call context : String) : ReferenceReport (.noLookupDeclaration call context)
  | nonconforming (call node declaration : String) :
      ReferenceReport (.declarationMismatch call node declaration)

/-- The findings on variables are among those on references. -/
theorem VariableReport.referenceReport {f : Finding} (hf : VariableReport f) :
    ReferenceReport f := by
  cases hf with
  | unknown => exact .unknown ..
  | mistyped => exact .mistyped ..
  | unindexed => exact .unindexed ..
  | indexed => exact .indexed ..

/-- The check of references makes findings of these kinds only. -/
theorem referenceReport_of_mem_checkReferences {f : Finding}
    (hf : f ∈ p.checkReferences n context root) : ReferenceReport f := by
  obtain ⟨h, _, hf⟩ := List.mem_flatMap.1 hf
  cases htarget : p.nodeTarget? h with
  | none => exact (variableReport_of_mem_checkReference htarget hf).referenceReport
  | some target =>
    rw [checkReference_of_nodeTarget? htarget] at hf
    split_ifs at hf
    · cases hf
    · obtain rfl := List.mem_singleton.1 hf
      exact .unseen ..

/-- The check of lookups makes findings of these kinds only. -/
theorem referenceReport_of_mem_checkLookups {f : Finding}
    (hf : f ∈ p.checkLookups n context root) : ReferenceReport f := by
  obtain ⟨call, hf⟩ := mem_checkLookups hf
  rcases mem_checkCall hf with rfl | ⟨callee, rfl⟩ | ⟨text, d, rfl⟩
  · exact .undeclared ..
  · exact .dynamic ..
  · exact .nonconforming ..

/-- There is nothing to say about the references in an expression exactly if each is right. -/
theorem checkReferences_eq_nil_iff (hs : p.exprs.WellOwned) :
    p.checkReferences n context root = [] ↔ ∀ h c name, p.exprs.Reaches root h →
      p.exprs.get? h = some c → c.form = .ref name → p.RefersFrom n h c name := by
  rw [checkReferences, List.flatMap_eq_nil_iff]
  constructor
  · intro hall h c name hreach hc hform
    have hmem : h ∈ p.exprs.find root (.leaf .ref) :=
      (Store.mem_find_iff hs).2 ⟨hreach, c, hc, Form.element_eq_ref_iff.2 ⟨name, hform⟩⟩
    exact (checkReference_eq_nil_iff hs hc hform).1 (hall h hmem)
  · intro hall h hmem
    obtain ⟨hreach, c, hc, hel⟩ := (Store.mem_find_iff hs).1 hmem
    obtain ⟨name, hform⟩ := Form.element_eq_ref_iff.1 hel
    exact (checkReference_eq_nil_iff hs hc hform).2 (hall h c name hreach hc hform)

/-- Where the lookups of an expression have no finding, what they call is declared. -/
theorem declared_of_checkLookups_eq_nil (hs : p.exprs.WellOwned)
    (hclean : p.checkLookups n context root = []) {name : String} {call : Action}
    (hreach : p.exprs.Reaches root h) (hc : p.exprs.get? h = some c)
    (hform : c.form = .lookup name call) (hprop : c.nodeProperty? = none) : p.Declared call := by
  have hmem : h ∈ p.exprs.find root (.leaf .lookup) :=
    (Store.mem_find_iff hs).2 ⟨hreach, c, hc, Form.element_eq_lookup_iff.2 ⟨name, call, hform⟩⟩
  have hcall := List.flatMap_eq_nil_iff.1 hclean h hmem
  simp only [checkLookup, hc, hform, hprop, Option.isSome_none, Bool.false_eq_true,
    if_false] at hcall
  exact declared_of_checkCall_eq_nil hcall

/-- There is nothing to say about the lookups in an expression exactly if each call is declared. -/
theorem checkLookups_eq_nil_iff (hs : p.exprs.WellOwned)
    (hnames : (p.declarations.map Declaration.name).Nodup) :
    p.checkLookups n context root = [] ↔ ∀ h c name call, p.exprs.Reaches root h →
      p.exprs.get? h = some c → c.form = .lookup name call → c.nodeProperty? = none →
        p.Declared call := by
  constructor
  · intro hclean h c name call
    exact declared_of_checkLookups_eq_nil hs hclean
  · intro hall
    refine List.flatMap_eq_nil_iff.2 fun h hmem => ?_
    obtain ⟨hreach, c, hc, hel⟩ := (Store.mem_find_iff hs).1 hmem
    obtain ⟨name, call, hform⟩ := Form.element_eq_lookup_iff.1 hel
    exact (checkLookup_eq_nil_iff hnames hc hform).2 (hall h c name call hreach hc hform)

/-- **The references and lookups of an expression have no finding exactly if they resolve,**
where no name is declared twice. -/
theorem resolves_iff (hs : p.exprs.WellOwned)
    (hnames : (p.declarations.map Declaration.name).Nodup) :
    p.checkReferences n context root = [] ∧ p.checkLookups n context root = [] ↔
      p.Resolves n root := by
  rw [checkReferences_eq_nil_iff hs, checkLookups_eq_nil_iff hs hnames]
  exact ⟨fun ⟨hrefs, hlookups⟩ => ⟨hrefs, hlookups⟩, fun ⟨hrefs, hlookups⟩ => ⟨hrefs, hlookups⟩⟩

end Plan

end Preflight
