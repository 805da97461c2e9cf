import Preflight.Proofs.Store.Locality

/-!
# Runs that follow every handle

The functions on a store follow a handle only if it goes down. Here they stand once more
without that guard, as runs: a `Run` follows every handle it meets, and it writes down each
`Look` it takes at the store, together with the expression whose cell sent it there. What
bounds a run is only how deep it may go, or for the search how many entries it may take from
its agenda. A run that is stopped by its bound has no answer, so one that has an answer ended
by itself.

`Run.Gives P x a` says that `x` ends with `a` and that each of its looks is as `P` wants, and
`Run.Covers P must x a` that the looks of `must` are among them besides. On a well owned store a
run gives what its guarded counterpart computes, and it goes no deeper than the handle it starts
at is large. This is so whatever is wanted of looks, as long as an expression may be looked at
from outside and what it uses may be looked at from it (`Store.Allows`), and it is all one
induction down the uses (`Allows.induction`). The search is special in that its looks are known
one by one: they are the visits of the walk (`searchRun_records`).
-/

namespace Preflight

/-- A look at a handle, and the expression whose cell led there, if one did. -/
structure Look where
  via : Option ExprId
  handle : ExprId
  deriving DecidableEq, Repr

/-- A computation that writes down its looks, and has no answer if it is stopped. -/
abbrev Run := StateT (List Look) Option

namespace Run

variable {α β : Type} {P : Look → Prop} {must later : List Look}

/-- The run ends with `a` after the given looks. -/
def Records (x : Run α) (a : α) (looks : List Look) : Prop :=
  ∀ log, x.run log = some (a, log ++ looks)

/-- The run ends with `a`, and each of its looks satisfies `P`. -/
def Gives (P : Look → Prop) (x : Run α) (a : α) : Prop :=
  ∃ looks, x.Records a looks ∧ ∀ l ∈ looks, P l

/-- The run ends with `a`, each of its looks satisfies `P`, and it takes all those of `must`. -/
def Covers (P : Look → Prop) (must : List Look) (x : Run α) (a : α) : Prop :=
  ∃ looks, x.Records a looks ∧ (∀ l ∈ looks, P l) ∧ must ⊆ looks

/-- What the runs on the members of a list find, one after the other. -/
def collect (xs : List α) (f : α → Run (List β)) : Run (List β) := do
  let found ← xs.mapM f
  pure found.flatten

/-- A value is given without a look. -/
theorem records_pure (a : α) : Records (pure a) a [] := fun log => by
  rw [List.append_nil]
  rfl

section Bind

variable {x : Run α} {f : α → Run β} {a : α} {b : β}

/-- The looks of one run come before those of the run that goes on from its answer. -/
theorem Records.bind {looks later : List Look} (hx : x.Records a looks)
    (hf : (f a).Records b later) : (x >>= f).Records b (looks ++ later) := fun log => by
  rw [StateT.run_bind, hx log, ← List.append_assoc]
  exact hf (log ++ looks)

/-- A run that takes certain looks gives its answer. -/
theorem Covers.gives (hx : x.Covers P must a) : x.Gives P a := by
  obtain ⟨looks, hlooks, hP, _⟩ := hx
  exact ⟨looks, hlooks, hP⟩

/-- A run that gives its answer takes every look of the empty list. -/
theorem Gives.covers (hx : x.Gives P a) : x.Covers P [] a := by
  obtain ⟨looks, hlooks, hP⟩ := hx
  exact ⟨looks, hlooks, hP, List.nil_subset looks⟩

/-- Two runs one after the other take the looks of both. -/
theorem Covers.bind (hx : x.Covers P must a) (hf : (f a).Covers P later b) :
    (x >>= f).Covers P (must ++ later) b := by
  obtain ⟨looks, hlooks, hP, hmust⟩ := hx
  obtain ⟨more, hmore, hP', hlater⟩ := hf
  refine ⟨looks ++ more, hlooks.bind hmore, List.forall_mem_append.2 ⟨hP, hP'⟩, ?_⟩
  exact List.append_subset.2 ⟨List.subset_append_of_subset_left more hmust,
    List.subset_append_of_subset_right looks hlater⟩

/-- What follows a run takes nothing from its looks. -/
theorem Covers.bind_gives (hx : x.Covers P must a) (hf : (f a).Gives P b) :
    (x >>= f).Covers P must b := by
  have hboth := hx.bind hf.covers
  rwa [List.append_nil] at hboth

/-- Two runs one after the other give the answer of the second. -/
theorem Gives.bind (hx : x.Gives P a) (hf : (f a).Gives P b) : (x >>= f).Gives P b :=
  (hx.covers.bind hf.covers).gives

end Bind

/-- A value is given, whatever is asked of looks. -/
theorem gives_pure (a : α) : Gives P (pure a) a :=
  ⟨[], records_pure a, by simp⟩

/-- A function of the answer is given by the same looks. -/
theorem Gives.map {x : Run α} {a : α} (hx : x.Gives P a) (f : α → β) :
    (x >>= fun a => pure (f a)).Gives P (f a) :=
  hx.bind (gives_pure (f a))

/-- What is there without the store is given without a look. -/
theorem gives_lift {o : Option α} {a : α} (ho : o = some a) :
    Gives P (StateT.lift o) a := by
  refine ⟨[], fun log => ?_, by simp⟩
  rw [ho, List.append_nil]
  rfl

/-- Runs on the members of a list take the looks of all of them. -/
theorem covers_mapM {xs : List α} {f : α → Run β} {g : α → β} {looksAt : α → List Look}
    (hf : ∀ x ∈ xs, (f x).Covers P (looksAt x) (g x)) :
    (xs.mapM f).Covers P (xs.flatMap looksAt) (xs.map g) := by
  induction xs with
  | nil => exact (gives_pure []).covers
  | cons x xs ih =>
    rw [List.mapM_cons, List.flatMap_cons]
    have hxs := ih fun y hy => hf y (List.mem_cons_of_mem x hy)
    exact (hf x List.mem_cons_self).bind (hxs.bind_gives (gives_pure (g x :: xs.map g)))

/-- Runs on the members of a list give the answers in the order of the members. -/
theorem gives_mapM {xs : List α} {f : α → Run β} {g : α → β}
    (hf : ∀ x ∈ xs, (f x).Gives P (g x)) : (xs.mapM f).Gives P (xs.map g) :=
  (covers_mapM fun x hx => (hf x hx).covers).gives

/-- A run on what may be absent gives an answer if it is there. -/
theorem gives_mapM_option {o : Option α} {f : α → Run β} {g : α → β}
    (hf : ∀ x, o = some x → (f x).Gives P (g x)) : (o.mapM f).Gives P (o.map g) := by
  cases o with
  | none => exact gives_pure none
  | some x => exact (hf x rfl).map some

/-- A run that stops at the first member that fails a test says whether all pass it. -/
theorem gives_allM {xs : List α} {f : α → Run Bool} {g : α → Bool}
    (hf : ∀ x ∈ xs, (f x).Gives P (g x)) : (xs.allM f).Gives P (xs.all g) := by
  induction xs with
  | nil => exact gives_pure true
  | cons x xs ih =>
    rw [List.allM, List.all_cons]
    refine (hf x List.mem_cons_self).bind ?_
    cases hx : g x with
    | false => exact gives_pure false
    | true => exact ih fun y hy => hf y (List.mem_cons_of_mem x hy)

/-- What is found at the members of a list is found with the looks of all of them. -/
theorem covers_collect {xs : List α} {f : α → Run (List β)} {g : α → List β}
    {looksAt : α → List Look} (hf : ∀ x ∈ xs, (f x).Covers P (looksAt x) (g x)) :
    (collect xs f).Covers P (xs.flatMap looksAt) (xs.flatMap g) := by
  rw [List.flatMap_def (f := g)]
  exact (covers_mapM hf).bind_gives (gives_pure _)

/-- What is found at the members of a list is given member by member. -/
theorem gives_collect {xs : List α} {f : α → Run (List β)} {g : α → List β}
    (hf : ∀ x ∈ xs, (f x).Gives P (g x)) : (collect xs f).Gives P (xs.flatMap g) :=
  (covers_collect fun x hx => (hf x hx).covers).gives

end Run

open Run

/-- The name of what is called: the static text, or else the text. -/
def nameRun (static : ExprId → Run (Option String)) (text : ExprId → Run String) (k : ExprId) :
    Run String := do
  match ← static k with
  | some name => pure name
  | none => text k

/-- The run of `textWith`, which renders nothing that it does not write. -/
def Action.textRun (static : ExprId → Run (Option String)) (text : ExprId → Run String)
    (a : Action) : Run String :=
  match a.kind with
  | .assignment => do
    let target ← a.target.mapM text
    let value ← a.value?.mapM text
    pure ("Assignment " ++ target.getD "" ++ " = " ++ value.getD "")
  | kind => do
    let callee ← nameRun static text a.callee
    let args ← a.args.mapM text
    let target ← a.target.mapM text
    pure (kind.name ++ " " ++ callee ++ "(" ++ ", ".intercalate args ++ ")" ++
      (target.map (" -> " ++ ·)).getD "")

/-- The text of an action is rendered if its parts are. -/
theorem Action.textRun_gives {P : Look → Prop} {a : Action} {static : ExprId → Run (Option String)}
    {text : ExprId → Run String} {f : ExprId → Option String} {g : ExprId → String}
    (hstatic : (static a.callee).Gives P (f a.callee))
    (htext : ∀ k ∈ a.exprs, (text k).Gives P (g k)) :
    (a.textRun static text).Gives P (a.textWith f g) := by
  have htarget : (a.target.mapM text).Gives P (a.target.map g) :=
    gives_mapM_option fun k hk => htext k (by simp [exprs, hk])
  have hargs : (a.args.mapM text).Gives P (a.args.map g) :=
    gives_mapM fun k hk => htext k (by simp [exprs, hk])
  have hvalue : (a.value?.mapM text).Gives P (a.value?.map g) :=
    gives_mapM_option fun k hk => htext k (by simp [exprs, List.mem_of_mem_head? hk])
  have hname : (nameRun static text a.callee).Gives P ((f a.callee).getD (g a.callee)) := by
    refine hstatic.bind ?_
    cases f a.callee with
    | none => exact htext a.callee (by simp [exprs])
    | some name => exact gives_pure name
  obtain ⟨kind, callee, args, target⟩ := a
  cases kind with
  | assignment => exact htarget.bind (hvalue.bind (gives_pure _))
  | _ =>
    refine hname.bind (hargs.bind (htarget.bind ?_))
    cases target <;> exact gives_pure _

namespace Store

variable {s : Store} {P : Look → Prop} {vars : String → Option Variable}

/-- Looks at the cell of a handle. -/
def look (s : Store) (l : Look) : Run (Option Cell) := do
  modify (· ++ [l])
  pure (s.get? l.handle)

/-- The run of `staticText?`, at most `n` deep. -/
def staticRun (s : Store) : Nat → Look → Run (Option String)
  | 0, _ => failure
  | n + 1, l => do
    match ← s.look l with
    | none => pure none
    | some c =>
      match c.form with
      | .const text => pure (if c.type = some .str ∨ c.type = some .any then some text else none)
      | .binary .concat left right =>
        if c.type = none ∨ c.type = some .str ∨ c.type = some .any then
          match ← s.staticRun n ⟨some l.handle, left⟩ with
          | none => pure none
          | some a =>
            let b ← s.staticRun n ⟨some l.handle, right⟩
            pure (b.map fun r => a ++ r)
        else pure none
      | _ => pure none

/-- The run of `text`, at most `n` deep. -/
def textRun (s : Store) : Nat → Look → Run String
  | 0, _ => failure
  | n + 1, l => do
    match ← s.look l with
    | none => pure (missingText l.handle)
    | some c =>
      match c.form with
      | .const literal => pure (if c.type = some .str then "\"" ++ literal ++ "\"" else literal)
      | .ref name => pure name
      | .lookup _ call =>
        call.textRun (fun k => s.staticRun n ⟨some l.handle, k⟩)
          (fun k => s.textRun n ⟨some l.handle, k⟩)
      | .unary op operand =>
        let o ← s.textRun n ⟨some l.handle, operand⟩
        pure (op.symbol ++ "(" ++ o ++ ")")
      | .binary .arrayElem left right =>
        let a ← s.textRun n ⟨some l.handle, left⟩
        let b ← s.textRun n ⟨some l.handle, right⟩
        pure (a ++ "[" ++ b ++ "]")
      | .binary op left right =>
        let a ← s.textRun n ⟨some l.handle, left⟩
        let b ← s.textRun n ⟨some l.handle, right⟩
        pure ("(" ++ a ++ " " ++ op.symbol ++ " " ++ b ++ ")")

/-- The run of `actionText`, for the action of a node or of the lookup at `via`. -/
def actionRun (s : Store) (n : Nat) (via : Option ExprId) (a : Action) : Run String :=
  a.textRun (fun k => s.staticRun n ⟨via, k⟩) fun k => s.textRun n ⟨via, k⟩

/-- The run of `typeFinding`. -/
def findingRun (s : Store) (n : Nat) (h : ExprId) (found expected : Option Ty) : Run Finding := do
  let text ← s.textRun n ⟨none, h⟩
  pure (.expressionType text (Ty.describe found) (Ty.describe expected))

/-- The run of `operandClash`. -/
def clashRun (s : Store) (n : Nat) (right : ExprId) (l r : Typing) : Run (List Finding) :=
  match l.type, r.type with
  | some a, some b =>
    if (a.meet? b).isNone then do
      let finding ← s.findingRun n right (some b) (some a)
      pure [finding]
    else pure []
  | _, _ => pure []

/-- The finding on the array of the array element `h`, if it cannot be one. -/
def shapeRun (s : Store) (n : Nat) (h array : ExprId) : Run (List Finding) := do
  let cell ← s.look ⟨some h, array⟩
  if cell.any fun c => c.element == .leaf .ref || c.element == .leaf .lookup then pure []
  else
    let arrayText ← s.textRun n ⟨none, array⟩
    let text ← s.textRun n ⟨none, h⟩
    pure [.notAnArray arrayText text]

/-- The run of `elementTyping`. -/
def elementRun (s : Store) (n : Nat) (h : ExprId) (t : Ty) (array : ExprId) (a i : Typing) :
    Run Typing := do
  let shape ← s.shapeRun n h array
  match a.type with
  | none => pure ⟨some t, shape ++ a.findings ++ i.findings⟩
  | some u =>
    match t.meet? u with
    | some v => pure ⟨some v, shape ++ a.findings ++ i.findings⟩
    | none =>
      let finding ← s.findingRun n h (some u) (some t)
      pure ⟨none, shape ++ [finding] ++ a.findings ++ i.findings⟩

/-- The run of `typing`, at most `n` deep. -/
def typingRun (s : Store) (vars : String → Option Variable) : Nat → Look → Ty → Run Typing
  | 0, _, _ => failure
  | n + 1, l, expected => do
    match ← s.look l with
    | none => pure ⟨none, []⟩
    | some c =>
      match Ty.meetKnown? (some expected) (c.resultType vars) with
      | none =>
        let finding ← s.findingRun (n + 1) l.handle (c.resultType vars) (some expected)
        pure ⟨none, [finding]⟩
      | some t =>
        match c.form with
        | .const _ | .ref _ | .lookup .. => pure ⟨some t, []⟩
        | .unary _ operand =>
          let o ← s.typingRun vars n ⟨some l.handle, operand⟩ c.requiredOperandType
          pure ⟨some t, o.findings⟩
        | .binary .arrayElem array index =>
          let a ← s.typingRun vars n ⟨some l.handle, array⟩ c.requiredOperandType
          let i ← s.typingRun vars n ⟨some l.handle, index⟩ .num
          s.elementRun (n + 1) l.handle t array a i
        | .binary _ left right =>
          let a ← s.typingRun vars n ⟨some l.handle, left⟩ c.requiredOperandType
          let b ← s.typingRun vars n ⟨some l.handle, right⟩ c.requiredOperandType
          let clash ← s.clashRun (n + 1) right a b
          pure ⟨some t, clash ++ a.findings ++ b.findings⟩

/-- The run of `find` from an agenda, of which it takes at most `n` entries. -/
def searchRun (s : Store) (e : Element) : Nat → List Look → Run (List ExprId)
  | _, [] => pure []
  | 0, _ :: _ => failure
  | n + 1, l :: agenda => do
    match ← s.look l with
    | none => s.searchRun e n agenda
    | some c =>
      let found ← s.searchRun e n (c.form.operands.map (⟨some l.handle, ·⟩) ++ agenda)
      pure (if c.element == e then l.handle :: found else found)

/-- The looks that `P` asks for include those at an expression from outside, and those from an
expression at what it uses. -/
structure Allows (s : Store) (P : Look → Prop) : Prop where
  outside : ∀ {h}, s.contains h = true → P ⟨none, h⟩
  down : ∀ {h k}, s.Uses h k → P ⟨some h, k⟩

/-- **Induction down the uses.** What holds of a look at a handle without an expression, and of
a look at an expression if it holds one level deeper of the looks from there at all that it uses,
holds of every look that is allowed, for as many levels as its handle is large. -/
theorem Allows.induction (hP : s.Allows P) (hs : s.WellOwned) {C : Nat → Look → Prop}
    (missing : ∀ n l, P l → s.get? l.handle = none → C (n + 1) l)
    (cell : ∀ n l c, l.handle ≤ n → P l → s.get? l.handle = some c →
      (∀ k ∈ c.form.uses, P ⟨some l.handle, k⟩ ∧ C n ⟨some l.handle, k⟩) → C (n + 1) l) :
    ∀ n l, l.handle < n → P l → C n l := by
  intro n
  induction n with
  | zero => exact fun l hn => absurd hn (Nat.not_lt_zero _)
  | succ n ih =>
    intro l hn hl
    cases hc : s.get? l.handle with
    | none => exact missing n l hl hc
    | some c =>
      refine cell n l c (Nat.le_of_lt_succ hn) hl hc fun k hk => ?_
      have huse : s.Uses l.handle k := ⟨c, hc, hk⟩
      have hlt : k < n := Nat.lt_of_lt_of_le (hs.descends huse) (Nat.le_of_lt_succ hn)
      exact ⟨hP.down huse, ih ⟨some l.handle, k⟩ hlt (hP.down huse)⟩

section Look

variable {α : Type} {l : Look} {found : Option Cell} {f : Option Cell → Run α} {a : α}

/-- A look is the first of what follows from it. -/
theorem records_look {looks : List Look} (hfound : s.get? l.handle = found)
    (hf : (f found).Records a looks) : (s.look l >>= f).Records a (l :: looks) := by
  subst hfound
  have hlook : (s.look l).Records (s.get? l.handle) [l] := fun _ => rfl
  exact hlook.bind hf

/-- A run that begins with a look takes it. -/
theorem covers_look (hl : P l) (hfound : s.get? l.handle = found) (hf : (f found).Gives P a) :
    (s.look l >>= f).Covers P [l] a := by
  obtain ⟨looks, hlooks, hall⟩ := hf
  exact ⟨l :: looks, records_look hfound hlooks, List.forall_mem_cons.2 ⟨hl, hall⟩, by simp⟩

/-- A run that begins with a look gives what it gives on the cell that is found. -/
theorem gives_look (hl : P l) (hfound : s.get? l.handle = found) (hf : (f found).Gives P a) :
    (s.look l >>= f).Gives P a :=
  (covers_look hl hfound hf).gives

end Look

section

variable (hP : s.Allows P) (hs : s.WellOwned)
include hP hs

/-! ### Texts -/

/-- The run for the static text ends within as many levels as the handle is large. -/
theorem staticRun_covers :
    ∀ n l, l.handle < n → P l → (s.staticRun n l).Covers P [l] (s.staticText? l.handle) := by
  refine hP.induction hs (fun n l hl hnone => ?_) fun n l c _ hl hc ih => ?_
  · rw [staticText?, fold_of_get?_eq_none hnone]
    exact covers_look hl hnone (gives_pure none)
  · rw [staticText?_eq hs hc]
    refine covers_look hl hc ?_
    obtain ⟨form, type, operandType, owner⟩ := c
    cases form with
    | binary op left right =>
      have hleft := (ih left (by simp [Form.uses, Form.operands])).2.gives
      have hright := (ih right (by simp [Form.uses, Form.operands])).2.gives
      cases op with
      | concat =>
        simp only [staticStep]
        split_ifs
        · refine hleft.bind ?_
          cases s.staticText? left with
          | none => exact gives_pure none
          | some a => exact hright.map fun r => r.map (a ++ ·)
        · exact gives_pure none
      | _ => exact gives_pure none
    | _ => exact gives_pure _

/-- The run for the text ends within as many levels as the handle is large. -/
theorem textRun_covers :
    ∀ n l, l.handle < n → P l → (s.textRun n l).Covers P [l] (s.text l.handle) := by
  refine hP.induction hs (fun n l hl hnone => ?_) fun n l c hn hl hc ih => ?_
  · rw [text, fold_of_get?_eq_none hnone]
    exact covers_look hl hnone (gives_pure _)
  · rw [text_eq hs hc]
    refine covers_look hl hc ?_
    have hbelow : ∀ k ∈ c.form.uses, k < n := fun k hk =>
      Nat.lt_of_lt_of_le (hs.descends ⟨c, hc, hk⟩) hn
    obtain ⟨form, type, operandType, owner⟩ := c
    cases form with
    | const literal => exact gives_pure _
    | ref name => exact gives_pure _
    | lookup name call =>
      have hcallee : call.callee ∈ call.exprs := by simp [Action.exprs]
      exact Action.textRun_gives
        (staticRun_covers hP hs n _ (hbelow call.callee hcallee) (ih call.callee hcallee).1).gives
        fun k hk => (ih k hk).2.gives
    | unary op operand =>
      have hoperand := (ih operand (by simp [Form.uses, Form.operands])).2.gives
      exact hoperand.bind (gives_pure _)
    | binary op left right =>
      have hleft := (ih left (by simp [Form.uses, Form.operands])).2.gives
      have hright := (ih right (by simp [Form.uses, Form.operands])).2.gives
      cases op <;> exact hleft.bind (hright.bind (gives_pure _))

/-- The text of an action is rendered within a bound on the handles of its expressions. -/
theorem actionRun_gives {n : Nat} {via : Option ExprId} {a : Action}
    (hexprs : ∀ k ∈ a.exprs, k < n ∧ P ⟨via, k⟩) :
    (s.actionRun n via a).Gives P (s.actionText a) := by
  obtain ⟨hlt, hcallee⟩ := hexprs a.callee (by simp [Action.exprs])
  exact Action.textRun_gives (staticRun_covers hP hs n _ hlt hcallee).gives fun k hk =>
    (textRun_covers hP hs n _ (hexprs k hk).1 (hexprs k hk).2).gives

/-! ### Typing -/

variable {n : Nat} {h : ExprId}

/-- A finding on types is made with the text of the expression. -/
theorem findingRun_gives (hn : h < n) (hh : s.contains h = true) (found expected : Option Ty) :
    (s.findingRun n h found expected).Gives P (s.typeFinding h found expected) :=
  (textRun_covers hP hs n ⟨none, h⟩ hn (hP.outside hh)).gives.bind (gives_pure _)

/-- Two operands that clash are reported at the right one, if it is there. -/
theorem clashRun_gives (hn : h < n) (hh : s.contains h = true) (l r : Typing) :
    (s.clashRun n h l r).Gives P (s.operandClash h l r) := by
  obtain ⟨ltype, lfindings⟩ := l
  obtain ⟨rtype, rfindings⟩ := r
  cases ltype with
  | none => exact gives_pure []
  | some a =>
    cases rtype with
    | none => exact gives_pure []
    | some b =>
      simp only [clashRun, operandClash]
      split_ifs
      · exact (findingRun_gives hP hs hn hh _ _).bind (gives_pure _)
      · exact gives_pure []

/-- What cannot be an array is reported with its text and that of the array element. -/
theorem shapeRun_gives {array : ExprId} (hn : h < n) (hh : s.contains h = true)
    (huse : s.Uses h array) :
    (s.shapeRun n h array).Gives P
      (if s.canBeArray array then [] else [.notAnArray (s.text array) (s.text h)]) := by
  have harray := textRun_covers hP hs n ⟨none, array⟩ (Nat.lt_trans (hs.descends huse) hn)
    (hP.outside (hs.contains_of_uses huse))
  have htext := textRun_covers hP hs n ⟨none, h⟩ hn (hP.outside hh)
  refine gives_look (hP.down huse) rfl ?_
  rw [canBeArray]
  split_ifs
  · exact gives_pure []
  · exact harray.gives.bind (htext.gives.bind (gives_pure _))

/-- An array element is typed from the typings of its array and its index. -/
theorem elementRun_gives {array : ExprId} (hn : h < n) (hh : s.contains h = true)
    (huse : s.Uses h array) (t : Ty) (a i : Typing) :
    (s.elementRun n h t array a i).Gives P (s.elementTyping h t array a i) := by
  rw [elementRun, elementTyping]
  refine (shapeRun_gives hP hs hn hh huse).bind ?_
  obtain ⟨type, findings⟩ := a
  cases type with
  | none => exact gives_pure _
  | some u =>
    dsimp only
    cases t.meet? u with
    | some v => exact gives_pure _
    | none => exact (findingRun_gives hP hs hn hh (some u) (some t)).bind (gives_pure _)

/-- The run of the typing ends within as many levels as the handle is large, against whatever
type. -/
theorem typingRun_covers :
    ∀ n l, l.handle < n → P l → ∀ expected,
      (s.typingRun vars n l expected).Covers P [l] (s.typing vars l.handle expected) := by
  refine hP.induction hs (fun n l hl hnone expected => ?_) fun n l c hn hl hc ih expected => ?_
  · rw [typing, fold_of_get?_eq_none hnone]
    exact covers_look hl hnone (gives_pure _)
  · have hh : s.contains l.handle = true := contains_iff.2 ⟨c, hc⟩
    have hn : l.handle < n + 1 := Nat.lt_succ_of_le hn
    rw [typing_eq hs hc, typingStep]
    refine covers_look hl hc ?_
    cases hmeet : Ty.meetKnown? (some expected) (c.resultType vars) with
    | none =>
      simp only [hmeet]
      exact (findingRun_gives hP hs hn hh _ _).bind (gives_pure _)
    | some t =>
      simp only [hmeet, operandTyping]
      have huse : ∀ k ∈ c.form.uses, s.Uses l.handle k := fun k hk => ⟨c, hc, hk⟩
      obtain ⟨form, type, operandType, owner⟩ := c
      cases form with
      | unary op operand =>
        have hoperand := (ih operand (by simp [Form.uses, Form.operands])).2
        exact (hoperand _).gives.bind (gives_pure _)
      | binary op left right =>
        have hleft := (ih left (by simp [Form.uses, Form.operands])).2
        have hright := (ih right (by simp [Form.uses, Form.operands])).2
        cases op with
        | arrayElem =>
          refine (hleft _).gives.bind ((hright _).gives.bind ?_)
          exact elementRun_gives hP hs hn hh (huse left (by simp [Form.uses, Form.operands])) t _ _
        | _ =>
          have huse := huse right (by simp [Form.uses, Form.operands])
          have hclash := clashRun_gives hP hs (Nat.lt_trans (hs.descends huse) hn)
            (hs.contains_of_uses huse)
          exact (hleft _).gives.bind ((hright _).gives.bind ((hclash _ _).bind (gives_pure _)))
      | _ => exact gives_pure _

/-! ### Search -/

/-- **The search looks at what the walk visits, in that order,** and finds what it should. It
takes one entry from its agenda for each, and no entry of the agenda is left out. -/
theorem searchRun_records (e : Element) (agenda : List Look) (hagenda : ∀ l ∈ agenda, P l) :
    ∃ looks, looks.map Look.handle = s.visits (agenda.map Look.handle) ∧ (∀ l ∈ looks, P l) ∧
      agenda ⊆ looks ∧
      ∀ n, looks.length ≤ n → (s.searchRun e n agenda).Records
        ((s.visits (agenda.map Look.handle)).filter fun h =>
          (s.get? h).any fun c => c.element == e) looks := by
  generalize hhandles : agenda.map Look.handle = handles
  fun_induction visits s handles generalizing agenda with
  | case1 =>
    obtain rfl := List.map_eq_nil_iff.1 hhandles
    refine ⟨[], rfl, by simp, List.nil_subset [], fun n _ => ?_⟩
    cases n <;> exact records_pure []
  | case2 h handles ih =>
    obtain ⟨l, rest, rfl, rfl, rfl⟩ := List.map_eq_cons_iff.1 hhandles
    obtain ⟨hl, hrest⟩ := List.forall_mem_cons.1 hagenda
    cases hc : s.get? l.handle with
    | none =>
      have hbelow : s.operandsBelow l.handle = [] := by rw [operandsBelow, hc]
      rw [hbelow, List.nil_append] at ih ⊢
      obtain ⟨looks, hvisits, hall, hsub, hlooks⟩ := ih rest hrest rfl
      refine ⟨l :: looks, by rw [List.map_cons, hvisits], List.forall_mem_cons.2 ⟨hl, hall⟩,
        List.cons_subset_cons l hsub, ?_⟩
      rw [List.filter_cons_of_neg (by simp [hc])]
      rintro (_ | n) hn
      · exact absurd hn (Nat.not_succ_le_zero _)
      · exact records_look hc (hlooks n (Nat.le_of_succ_le_succ hn))
    | some c =>
      rw [operandsBelow_of_get? hs hc] at ih ⊢
      have hbelow : ∀ k ∈ c.form.operands, P ⟨some l.handle, k⟩ := fun k hk =>
        hP.down (HasOperand.uses ⟨c, hc, hk⟩)
      -- the operands come before the rest of the agenda, and the looks cover both
      obtain ⟨looks, hvisits, hall, hsub, hlooks⟩ :=
        ih (c.form.operands.map (⟨some l.handle, ·⟩) ++ rest)
          (by simpa [or_imp, forall_and] using ⟨hbelow, hrest⟩) (by simp [Function.comp_def])
      refine ⟨l :: looks, by rw [List.map_cons, hvisits], List.forall_mem_cons.2 ⟨hl, hall⟩,
        List.cons_subset_cons l (List.append_subset.1 hsub).2, ?_⟩
      rintro (_ | n) hn
      · exact absurd hn (Nat.not_succ_le_zero _)
      · refine records_look hc ?_
        rw [List.filter_cons, hc, ← List.append_nil looks]
        exact (hlooks n (Nat.le_of_succ_le_succ hn)).bind (records_pure _)

/-- A search from one expression starts there, and takes as many looks as the walk has visits. -/
theorem searchRun_root (e : Element) {root : ExprId} (hroot : P ⟨none, root⟩) :
    ∃ looks, looks.length = (s.visits [root]).length ∧ (∀ l ∈ looks, P l) ∧
      [⟨none, root⟩] ⊆ looks ∧
      ∀ n, looks.length ≤ n → (s.searchRun e n [⟨none, root⟩]).Records (s.find root e) looks := by
  obtain ⟨looks, hvisits, hall, hsub, hlooks⟩ :=
    searchRun_records hP hs e [⟨none, root⟩] (by simpa using hroot)
  have hlength : looks.length = (s.visits [root]).length := by
    rw [← List.length_map Look.handle, hvisits]
    rfl
  exact ⟨looks, hlength, hall, hsub, hlooks⟩

/-- A search ends within as many entries as the walk has visits. -/
theorem searchRun_covers (e : Element) {root : ExprId} (hroot : P ⟨none, root⟩)
    (hn : (s.visits [root]).length ≤ n) :
    (s.searchRun e n [⟨none, root⟩]).Covers P [⟨none, root⟩] (s.find root e) := by
  obtain ⟨looks, hlength, hall, hsub, hlooks⟩ := searchRun_root hP hs e hroot
  exact ⟨looks, hlooks n (hlength ▸ hn), hall, hsub⟩

end

end Store
end Preflight
