import Mathlib.Algebra.BigOperators.Group.Finset.Piecewise
import Mathlib.Data.Nat.Choose.Basic
import Preflight.Proofs.Conformance

/-!
# Every pair of declarations of one name is reported once

`conflicts` goes through the declarations and compares each with those after it. `clashes` goes the
same way and notes positions instead of texts, so that its pairs and the findings stand side by side
(`forall₂_reportsPair`). The pairs come in order, and they are all there are of an earlier and a
later declaration of one name (`pairwise_clashes`, `mem_clashes_iff`).

A declaration put before the others adds one finding for each of them that has its name
(`length_conflicts_cons`). In terms of the numbers of declarations for each name, that is the step
from `k choose 2` to `k + 1 choose 2` for one name, and so there are `k choose 2` findings for each
(`length_conflicts_eq_sum`), whatever the order. A declaration put after the others adds as many, in
between the findings there were (`conflicts_sublist_append`, `length_conflicts_append`).
-/

namespace Preflight

/-- What a search finds in a list, and where. -/
theorem forall₂_findIdxs_filter {α : Type} (f : α → Bool) (l : List α) :
    List.Forall₂ (fun i a => l[i]? = some a) (l.findIdxs f) (l.filter f) := by
  induction l with
  | nil => exact .nil
  | cons a l ih =>
    have htail : List.Forall₂ (fun i b => (a :: l)[i]? = some b) (l.findIdxs f 1) (l.filter f) := by
      rw [List.findIdxs_start, List.forall₂_map_left_iff]
      exact ih
    rw [List.findIdxs_cons, List.filter_cons]
    split_ifs
    · exact .cons rfl htail
    · exact htail

namespace Declaration

variable {ds es : List Declaration} {d : Declaration} {i j : Nat}

/-- Position `i` is before position `j`, and the declarations at the two have one name. -/
def ClashAt (ds : List Declaration) (i j : Nat) : Prop :=
  i < j ∧ ∃ d e, ds[i]? = some d ∧ ds[j]? = some e ∧ d.name = e.name

/-- The finding is on the declarations at two positions, in that order. -/
def ReportsPair (ds : List Declaration) (pos : Nat × Nat) (f : Finding) : Prop :=
  ∃ d e, ds[pos.1]? = some d ∧ ds[pos.2]? = some e ∧ f = .nameConflict d.text e.text

/-- The number of declarations of a name. -/
def bearers (ds : List Declaration) (name : String) : Nat :=
  ds.countP fun d => d.name == name

/-- The positions of two declarations of one name, ordered by the first of the two and then by the
second. -/
def clashes : List Declaration → List (Nat × Nat)
  | [] => []
  | d :: ds =>
    (ds.findIdxs fun e => e.name == d.name).map (fun j => (0, j + 1)) ++
      (clashes ds).map fun (i, j) => (i + 1, j + 1)

/-! ### Pairs of positions -/

/-- The pairs of positions come in order, each of them once. -/
theorem pairwise_clashes (ds : List Declaration) :
    (clashes ds).Pairwise (Prod.Lex (· < ·) (· < ·)) := by
  induction ds with
  | nil => exact .nil
  | cons d ds ih =>
    refine List.pairwise_append.2 ⟨?_, ?_, ?_⟩
    · refine List.pairwise_map.2 (List.pairwise_findIdxs.imp fun hlt => ?_)
      exact .right 0 (Nat.succ_lt_succ hlt)
    · refine List.pairwise_map.2 (ih.imp fun {pos pos'} hlt => ?_)
      cases hlt with
      | left _ _ hlt => exact .left _ _ (Nat.succ_lt_succ hlt)
      | right _ hlt => exact .right _ (Nat.succ_lt_succ hlt)
    · intro pos hpos pos' hpos'
      obtain ⟨j, _, rfl⟩ := List.mem_map.1 hpos
      obtain ⟨⟨i, k⟩, _, rfl⟩ := List.mem_map.1 hpos'
      exact .left _ _ (Nat.succ_pos i)

/-- The first declaration clashes with those after it that have its name. -/
theorem clashAt_zero_iff :
    ClashAt (d :: ds) 0 j ↔ ∃ k ∈ ds.findIdxs fun e => e.name == d.name, k + 1 = j := by
  constructor
  · rintro ⟨hpos, d', e, hd', he, hname⟩
    obtain ⟨k, rfl⟩ := Nat.exists_eq_add_one_of_ne_zero (Nat.ne_of_gt hpos)
    obtain rfl : d = d' := Option.some.inj hd'
    rw [List.getElem?_cons_succ] at he
    obtain ⟨hk, rfl⟩ := List.getElem?_eq_some_iff.1 he
    exact ⟨k, List.mem_findIdxs_iff_exists_getElem_pos.2 ⟨hk, beq_iff_eq.2 hname.symm⟩, rfl⟩
  · rintro ⟨k, hk, rfl⟩
    obtain ⟨hlt, hname⟩ := List.mem_findIdxs_iff_exists_getElem_pos.1 hk
    exact ⟨Nat.succ_pos k, d, ds[k], rfl, List.getElem?_eq_getElem hlt, (eq_of_beq hname).symm⟩

/-- Later positions clash as they do without the first declaration. -/
theorem clashAt_succ_iff : ClashAt (d :: ds) (i + 1) j ↔ ∃ k, ClashAt ds i k ∧ k + 1 = j := by
  cases j <;> simp [ClashAt]

/-- The pairs of positions are all there are of two declarations of one name. -/
theorem mem_clashes_iff : (i, j) ∈ clashes ds ↔ ClashAt ds i j := by
  induction ds generalizing i j with
  | nil => simp [clashes, ClashAt]
  | cons d ds ih =>
    rw [clashes, List.mem_append, List.mem_map, List.mem_map]
    cases i with
    | zero => simp [clashAt_zero_iff]
    | succ i => simp [clashAt_succ_iff, ih]

/-- **Findings and pairs of positions stand side by side.** -/
theorem forall₂_reportsPair (ds : List Declaration) :
    List.Forall₂ (ReportsPair ds) (clashes ds) (conflicts ds) := by
  induction ds with
  | nil => exact .nil
  | cons d ds ih =>
    refine List.rel_append ?_ ?_
    · rw [List.forall₂_map_left_iff, List.forall₂_map_right_iff]
      exact (forall₂_findIdxs_filter _ ds).imp fun j e he => ⟨d, e, rfl, he, rfl⟩
    · rw [List.forall₂_map_left_iff]
      exact ih

/-! ### How many there are -/

/-- A declaration put before the others adds one finding for each that bears its name. -/
theorem length_conflicts_cons (d : Declaration) (ds : List Declaration) :
    (conflicts (d :: ds)).length = bearers ds d.name + (conflicts ds).length := by
  rw [conflicts, List.length_append, List.length_map, ← List.countP_eq_length_filter, bearers]

/-- A declaration put before the others adds one to the number of those that bear its name. -/
theorem bearers_cons (d : Declaration) (ds : List Declaration) (name : String) :
    bearers (d :: ds) name = bearers ds name + if d.name = name then 1 else 0 := by
  rw [bearers, List.countP_cons, bearers]
  simp only [beq_iff_eq]

/-- One more declaration of a name makes as many more pairs as there were declarations of it. -/
theorem choose_bearers_cons (d : Declaration) (ds : List Declaration) (name : String) :
    (bearers (d :: ds) name).choose 2 =
      (bearers ds name).choose 2 + if d.name = name then bearers ds d.name else 0 := by
  rw [bearers_cons]
  split_ifs with hname
  · rw [Nat.choose_succ_succ, Nat.choose_one_right, hname, Nat.add_comm]
  · rfl

/-- **There are `k choose 2` findings for a name that `k` declarations have.** -/
theorem length_conflicts_eq_sum {names : Finset String} (hnames : ∀ d ∈ ds, d.name ∈ names) :
    (conflicts ds).length = ∑ name ∈ names, (bearers ds name).choose 2 := by
  induction ds with
  | nil => simp [conflicts, bearers]
  | cons d ds ih =>
    obtain ⟨hd, hds⟩ := List.forall_mem_cons.1 hnames
    simp only [choose_bearers_cons, Finset.sum_add_distrib, Finset.sum_ite_eq, hd, if_true]
    rw [length_conflicts_cons, ih hds, Nat.add_comm]

/-- The number of findings, name by name, with the pairs counted out. -/
theorem length_conflicts_eq (ds : List Declaration) :
    (conflicts ds).length = ∑ name ∈ (ds.map Declaration.name).toFinset,
      bearers ds name * (bearers ds name - 1) / 2 := by
  simp only [← Nat.choose_two_right]
  exact length_conflicts_eq_sum fun d hd => List.mem_toFinset.2 (List.mem_map_of_mem hd)

/-- In whatever order declarations are made, there are as many findings. -/
theorem length_conflicts_of_perm (hperm : ds.Perm es) :
    (conflicts es).length = (conflicts ds).length := by
  have hbearers : ∀ name, bearers es name = bearers ds name := fun name =>
    (hperm.countP_eq _).symm
  rw [length_conflicts_eq, length_conflicts_eq, List.toFinset_eq_of_perm _ _ (hperm.map _)]
  simp only [hbearers]

/-! ### One more at the end -/

/-- A declaration put after the others leaves the findings there were in their order. -/
theorem conflicts_sublist_append (ds : List Declaration) (d : Declaration) :
    (conflicts ds).Sublist (conflicts (ds ++ [d])) := by
  induction ds with
  | nil => exact List.nil_sublist _
  | cons e ds ih =>
    refine List.Sublist.append ?_ ih
    exact (List.Sublist.filter _ (List.sublist_append_left ds [d])).map _

/-- A declaration put after the others adds one finding for each that bears its name. -/
theorem length_conflicts_append (ds : List Declaration) (d : Declaration) :
    (conflicts (ds ++ [d])).length = (conflicts ds).length + bearers ds d.name := by
  rw [length_conflicts_of_perm (List.perm_append_singleton d ds).symm, length_conflicts_cons,
    Nat.add_comm]

/-- **Every pair of declarations of one name is reported once.**  The findings are those on each pair
of an earlier and a later position whose declarations have one name, ordered by the first and then
by the second, and each names the two in that order. So there is none exactly if the names are
distinct, there are `k * (k - 1) / 2` for a name that `k` declarations have, in whatever order these
stand, and a declaration at the end adds one for each that had its name before and leaves the
others in their order. -/
theorem conflicts_each_pair_once (ds : List Declaration) :
    (∃ pairs : List (Nat × Nat), pairs.Pairwise (Prod.Lex (· < ·) (· < ·)) ∧
      (∀ i j, (i, j) ∈ pairs ↔ ClashAt ds i j) ∧
      List.Forall₂ (ReportsPair ds) pairs (conflicts ds)) ∧
    (conflicts ds = [] ↔ (ds.map Declaration.name).Nodup) ∧
    ((conflicts ds).length = ∑ name ∈ (ds.map Declaration.name).toFinset,
      bearers ds name * (bearers ds name - 1) / 2) ∧
    (∀ es, ds.Perm es → (conflicts es).length = (conflicts ds).length) ∧
    ∀ d, (conflicts ds).Sublist (conflicts (ds ++ [d])) ∧
      (conflicts (ds ++ [d])).length = (conflicts ds).length + bearers ds d.name :=
  ⟨⟨clashes ds, pairwise_clashes ds, fun _ _ => mem_clashes_iff, forall₂_reportsPair ds⟩,
    conflicts_eq_nil_iff, length_conflicts_eq ds, fun _ => length_conflicts_of_perm,
    fun d => ⟨conflicts_sublist_append ds d, length_conflicts_append ds d⟩⟩

/-- Four declarations, of which the first, the third and the last have one name. -/
def threeOfFour : List Declaration :=
  [⟨.command, "f", [], []⟩, ⟨.lookup, "g", [], []⟩, ⟨.function, "f", [], []⟩, ⟨.lookup, "f", [], []⟩]

/-- Each of the three is reported with each that comes after it. From back to front there are as
many reports. -/
theorem conflicts_each_pair_once_threeOfFour :
    conflicts threeOfFour = [.nameConflict "Command f()" "Function f()",
        .nameConflict "Command f()" "Lookup f()", .nameConflict "Function f()" "Lookup f()"] ∧
      bearers threeOfFour "f" = 3 ∧ bearers threeOfFour "g" = 1 ∧
      threeOfFour.Perm threeOfFour.reverse ∧ (conflicts threeOfFour.reverse).length = 3 ∧
      (conflicts (threeOfFour ++ [⟨.command, "f", [], []⟩])).length = 6 := by
  have hperm : threeOfFour.Perm threeOfFour.reverse := (List.reverse_perm _).symm
  obtain ⟨_, _, _, hlength, happend⟩ := conflicts_each_pair_once threeOfFour
  refine ⟨by decide +kernel, by decide, by decide, hperm, ?_, ?_⟩
  · rw [hlength _ hperm]
    decide +kernel
  · rw [(happend _).2]
    decide +kernel

end Declaration
end Preflight
