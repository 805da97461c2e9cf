import Mathlib.Data.Set.Card
import Preflight.Proofs.Plan.Run
import Preflight.Proofs.Plan.Scope

/-!
# Everything that is run on a plan ends

The runs of `Preflight.Proofs.Store.Run` and `Preflight.Proofs.Plan.Run` follow every handle
they meet until their bound stops them. On a plan that was built they end by themselves, and
the reason is always the same: the handle that a cell leads to is smaller than that of the cell
(`Look.Descends`), and the parent of a node is a smaller handle than the node. So no run goes
deeper than the handle it starts at is large. The guards of the functions themselves never bite,
and a run gives what its function computes.

The search keeps an agenda, and an agenda could hold the same expression many times over. It
does not, since an expression has one user (`Store.nodup_visits`): the search takes one entry
for each expression that its root reaches, and a single one if there is nothing at the root
(`Store.length_visits`).
-/

namespace Preflight

open Run

/-- The look goes down from the expression that led to it. -/
def Look.Descends (l : Look) : Prop :=
  ∀ h, l.via = some h → l.handle < h

namespace Store

variable {s : Store}

/-- In a well owned store every look from an expression goes down. -/
theorem allows_descends (hs : s.WellOwned) : s.Allows Look.Descends where
  outside := fun _ _ hvia => by cases hvia
  down := fun huse _ hvia => by
    obtain rfl := Option.some.inj hvia
    exact hs.descends huse

/-- The expressions in and below the one at `h`, along operands. -/
def subexpressions (s : Store) (h : ExprId) : Set ExprId :=
  {k | s.Reaches h k ∧ s.contains k = true}

/-- **The walk visits each expression below its start once,** and its start in any case. -/
theorem length_visits (hs : s.WellOwned) (h : ExprId) :
    (s.visits [h]).length =
      (s.subexpressions h).ncard + if s.contains h = true then 0 else 1 := by
  split_ifs with hh
  · have hnodup : (s.visits [h]).Nodup := nodup_visits hs (List.pairwise_singleton _ h)
    have hset : s.subexpressions h = ((s.visits [h]).toFinset : Set ExprId) := by
      ext k
      have hvisit : k ∈ s.visits [h] ↔ s.Reaches h k := by
        rw [mem_visits_iff hs]
        simp
      rw [Finset.mem_coe, List.mem_toFinset, hvisit]
      exact ⟨fun hk => hk.1, fun hk => ⟨hk, hk.contains hs hh⟩⟩
    rw [hset, Set.ncard_coe_finset, List.toFinset_card_of_nodup hnodup, Nat.add_zero]
  · have hnone : s.get? h = none := Option.not_isSome_iff_eq_none.1 hh
    have hset : s.subexpressions h = ∅ := by
      refine Set.eq_empty_of_forall_notMem fun k ⟨hk, hin⟩ => ?_
      rcases hk.cases_head with rfl | ⟨j, ⟨c, hc, _⟩, _⟩
      · exact hh hin
      · rw [hnone] at hc
        cases hc
    have hvisits : s.visits [h] = [h] := by
      simp only [visits, operandsBelow, hnone, List.nil_append]
    rw [hset, Set.ncard_empty, hvisits, List.length_singleton]

end Store

namespace Plan

/-- **Whatever is run on a plan ends,** and every look goes down. What starts at an expression
looks at it and needs no more levels than its handle allows. The search takes as many entries from
its agenda as there are expressions for it to find, and one if there is nothing at its root. The
whole check needs no more levels than there are expressions and nodes, and it looks at the names of
all calls, at all conditions and at both sides of all assignments. -/
theorem runs_end (edits : List Edit) :
    let p := build edits
    let s := p.exprs
    (∀ h n, h < n →
      (s.staticRun n ⟨none, h⟩).Covers Look.Descends [⟨none, h⟩] (s.staticText? h)) ∧
    (∀ h n, h < n → (s.textRun n ⟨none, h⟩).Covers Look.Descends [⟨none, h⟩] (s.text h)) ∧
    (∀ a n, (∀ h ∈ a.exprs, h < n) →
      (s.actionRun n none a).Gives Look.Descends (s.actionText a)) ∧
    (∀ vars h n, h < n → ∀ expected, (s.typingRun vars n ⟨none, h⟩ expected).Covers Look.Descends
      [⟨none, h⟩] (s.typing vars h expected)) ∧
    (∀ h e, ∃ looks, (∀ l ∈ looks, l.Descends) ∧
      looks.length = (s.subexpressions h).ncard + (if s.contains h = true then 0 else 1) ∧
      ∀ n, looks.length ≤ n → (s.searchRun e n [⟨none, h⟩]).Records (s.find h e) looks) ∧
    (∀ m < p.size, (∀ n, m < n → p.climb n m = some (p.ancestry m)) ∧
      (p.ancestry m).Pairwise (· > ·)) ∧
    ∀ n, s.size ≤ n → p.size ≤ n → (p.checkRun n).Covers Look.Descends p.entries p.check := by
  intro p s
  have hs : s.WellOwned := wellOwned_build edits
  have hf : p.Forest := forest_build edits
  have hP := Store.allows_descends hs
  have hstart : ∀ h, Look.Descends ⟨none, h⟩ := fun _ _ hvia => by cases hvia
  refine ⟨fun h n hn => Store.staticRun_covers hP hs n _ hn (hstart h),
    fun h n hn => Store.textRun_covers hP hs n _ hn (hstart h),
    fun a n hn => Store.actionRun_gives hP hs fun h hh => ⟨hn h hh, hstart h⟩,
    fun vars h n hn => Store.typingRun_covers hP hs n _ hn (hstart h), fun h e => ?_,
    fun m hm => ⟨fun n hn => climb_eq hf hm hn, pairwise_ancestry p m⟩,
    fun n hn hpn => checkRun_covers hP hs (grounded_build edits) hn hf hpn⟩
  obtain ⟨looks, hlength, hall, _, hlooks⟩ := Store.searchRun_root hP hs e (hstart h)
  exact ⟨looks, hall, hlength.trans (Store.length_visits hs h), hlooks⟩

/-- A node below another that starts on a lookup, the name of which is joined from two texts. -/
def lookupBelow : List Edit :=
  [.addNode "A" none, .addNode "B" (some 0), .constant "wind" .str, .constant "Speed" .str,
    .binary (.binary .concat) 0 1, .lookup ⟨.lookup, 2, [], none⟩ (some .num),
    .addCondition 1 .start 3]

/-- The way up from the lower node ends at the upper one after two levels. Five levels are enough
for the check of the plan, which looks at the condition and ends with two findings on the
lookup. -/
theorem runs_end_lookupBelow :
    1 < (build lookupBelow).size ∧ (build lookupBelow).climb 2 1 = some [1, 0] ∧
      (build lookupBelow).exprs.size ≤ 5 ∧ (build lookupBelow).size ≤ 5 ∧
      ((build lookupBelow).checkRun 5).Covers Look.Descends [⟨none, 3⟩]
        [.noLookupDeclaration "Lookup windSpeed()" "in Start Condition of node B",
          .expressionType "Lookup windSpeed()" "type Num" "type Bool"] := by
  obtain ⟨_, _, _, _, _, hclimb, hcheck⟩ := runs_end lookupBelow
  have hsize : 1 < (build lookupBelow).size := by decide +kernel
  have hexprs : (build lookupBelow).exprs.size ≤ 5 := by decide +kernel
  have hnodes : (build lookupBelow).size ≤ 5 := by decide +kernel
  have hancestry : (build lookupBelow).ancestry 1 = [1, 0] := by decide +kernel
  have hentries : (build lookupBelow).entries = [⟨none, 3⟩] := by decide +kernel
  have hverdict : (build lookupBelow).check =
      [.noLookupDeclaration "Lookup windSpeed()" "in Start Condition of node B",
        .expressionType "Lookup windSpeed()" "type Num" "type Bool"] := by decide +kernel
  exact ⟨hsize, hancestry ▸ (hclimb 1 hsize).1 2 (by decide), hexprs, hnodes,
    hentries ▸ hverdict ▸ hcheck 5 hexprs hnodes⟩

end Plan

end Preflight
