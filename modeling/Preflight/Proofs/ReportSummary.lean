import Mathlib.Data.List.DropRight
import Preflight.Report

/-!
# The summary of a report can be trusted

A report ends in a line that counts errors and warnings. The findings before it quote names that may
hold anything, line feeds and what looks like a summary included, but they do not reach into the last
line: what comes before the summary is empty or ends in a blank line (`render_eq`), and in the summary
there is no line feed (`lf_notMem_countLine`). So the last line is the summary (`lastLine_render`).

The two numbers can be read off the summary, since each has a blank after it, which is not a digit
(`countLine_inj`). So a report tells how many errors and warnings there are.
-/

namespace Preflight

namespace Text

/-- What stands after the last line feed, or the whole text if there is none. -/
def lastLine (s : String) : String :=
  String.ofList (s.toList.rtakeWhile (· ≠ '\n'))

/-- Every character of a line without a line feed is kept. -/
theorem decide_ne_lf {line : List Char} (hline : '\n' ∉ line) :
    ∀ c ∈ line, decide (c ≠ '\n') = true := by
  rintro c hc
  exact decide_eq_true fun heq => hline (heq ▸ hc)

/-- The characters after a line feed are those of the last line, if none of them is one. -/
theorem rtakeWhile_append_lf {before line : List Char} (hline : '\n' ∉ line) :
    (before ++ ['\n'] ++ line).rtakeWhile (· ≠ '\n') = line := by
  have hreverse : '\n' ∉ line.reverse := fun hmem => hline (List.mem_reverse.1 hmem)
  rw [List.rtakeWhile, List.reverse_append,
    List.takeWhile_append_of_pos (decide_ne_lf hreverse)]
  simp

/-- What comes before the last line is nothing or ends in a line feed. -/
theorem eq_rtakeWhile_or (cs : List Char) :
    cs = cs.rtakeWhile (· ≠ '\n') ∨ ∃ before, cs = before ++ ['\n'] ++ cs.rtakeWhile (· ≠ '\n') := by
  have hsplit := List.rdropWhile_append_rtakeWhile (p := fun c => decide (c ≠ '\n')) (l := cs)
  by_cases hnil : cs.rdropWhile (· ≠ '\n') = []
  · rw [hnil, List.nil_append] at hsplit
    exact .inl hsplit.symm
  · have hlast : (cs.rdropWhile (· ≠ '\n')).getLast hnil = '\n' := by
      simpa using List.rdropWhile_last_not (· ≠ '\n') cs hnil
    have hbefore := List.dropLast_append_getLast hnil
    rw [hlast] at hbefore
    exact .inr ⟨(cs.rdropWhile (· ≠ '\n')).dropLast, by rw [hbefore, hsplit]⟩

/-- The characters of two lines, with the line feed between them. -/
theorem toList_append_lf (before line : String) :
    (before ++ "\n" ++ line).toList = before.toList ++ ['\n'] ++ line.toList := by
  simp

/-- **The last line is the one without a line feed that is the whole text or comes after a line
feed.** -/
theorem lastLine_eq_iff {s line : String} :
    lastLine s = line ↔
      '\n' ∉ line.toList ∧ (s = line ∨ ∃ before, s = before ++ "\n" ++ line) := by
  constructor
  · rintro rfl
    simp only [← String.toList_inj, toList_append_lf, lastLine, String.toList_ofList]
    refine ⟨fun hmem => by simpa using List.mem_rtakeWhile_imp hmem, ?_⟩
    refine (eq_rtakeWhile_or s.toList).imp_right fun ⟨before, hbefore⟩ => ?_
    exact ⟨String.ofList before, by rwa [String.toList_ofList]⟩
  · rintro ⟨hline, rfl | ⟨before, rfl⟩⟩
    · rw [lastLine, List.rtakeWhile_eq_self_iff.2 (decide_ne_lf hline), String.ofList_toList]
    · rw [lastLine, toList_append_lf, rtakeWhile_append_lf hline, String.ofList_toList]

/-! ### Decimal numbers -/

/-- A number is written in digits. -/
theorem isDigit_of_mem_toString {k : Nat} {c : Char} (hc : c ∈ (toString k).toList) :
    c.isDigit = true := by
  rw [Nat.toString_eq_repr, Nat.toList_repr] at hc
  exact Nat.isDigit_of_mem_toDigits (by decide) (by decide) hc

/-- A number can be read back from its digits. -/
theorem toString_inj {m n : Nat} (heq : toString m = toString n) : m = n := by
  have hdigits := congrArg String.toList heq
  simp only [Nat.toString_eq_repr, Nat.toList_repr] at hdigits
  rw [← Nat.ofDigitChars_ten_toDigits (n := m), hdigits, Nat.ofDigitChars_ten_toDigits]

/-- What comes before the first blank of a text that begins with a number is the number. -/
theorem takeWhile_isDigit_toString (k : Nat) (s : String) :
    (toString k ++ " " ++ s).toList.takeWhile Char.isDigit = (toString k).toList := by
  rw [String.toList_append, String.toList_append, List.append_assoc,
    List.takeWhile_append_of_pos fun _ => isDigit_of_mem_toString]
  simp [Char.isDigit]

/-- A number with a blank after it can be read off the beginning of a text. -/
theorem toString_blank_inj {m n : Nat} {s t : String}
    (heq : toString m ++ " " ++ s = toString n ++ " " ++ t) : m = n ∧ s = t := by
  have hnumber : toString m = toString n := by
    rw [← String.toList_inj, ← takeWhile_isDigit_toString m s, heq, takeWhile_isDigit_toString]
  rw [hnumber, String.append_right_inj] at heq
  exact ⟨toString_inj hnumber, heq⟩

end Text

/-- A finding is never written as nothing. -/
theorem Finding.render_ne_empty (f : Finding) : f.render ≠ "" := by
  intro hnil
  have hlength := congrArg String.length hnil
  simp [render] at hlength

namespace Report

open Text

/-- The line that counts errors and warnings. -/
def countLine (errors warnings : Nat) : String :=
  toString errors ++ " error(s), " ++ toString warnings ++ " warning(s)"

/-- The summary is made from the two counts. -/
theorem summary_eq (fs : List Finding) : summary fs = countLine (errors fs) (warnings fs) := rfl

/-- A summary is one line. -/
theorem lf_notMem_countLine (m n : Nat) : '\n' ∉ (countLine m n).toList := by
  have hdigits : ∀ k : Nat, '\n' ∉ (toString k).toList := fun k hmem =>
    absurd (isDigit_of_mem_toString hmem) (by decide)
  simp only [countLine, String.toList_append, List.mem_append, not_or]
  exact ⟨⟨⟨hdigits m, by decide⟩, hdigits n⟩, by decide⟩

/-- Both counts can be read off a summary. -/
theorem countLine_inj {m n m' n' : Nat} (heq : countLine m n = countLine m' n') :
    m = m' ∧ n = n' := by
  have hsplit : ∀ m n : Nat, countLine m n =
      toString m ++ " " ++ ("error(s), " ++ (toString n ++ " " ++ "warning(s)")) := fun m n => by
    rw [countLine, show " error(s), " = " " ++ "error(s), " by decide,
      show " warning(s)" = " " ++ "warning(s)" by decide]
    simp only [String.append_assoc]
  rw [hsplit, hsplit] at heq
  obtain ⟨hm, hrest⟩ := toString_blank_inj heq
  rw [String.append_right_inj] at hrest
  exact ⟨hm, (toString_blank_inj hrest).1⟩

/-- Texts that each have a separator after them are texts with separators between them and one more
at the end. -/
theorem join_map_append {α : Type} {l : List α} (hl : l ≠ []) (text : α → String) (sep : String) :
    String.join (l.map fun a => text a ++ sep) = sep.intercalate (l.map text) ++ sep := by
  induction l with
  | nil => exact absurd rfl hl
  | cons a l ih =>
    cases l with
    | nil => simp
    | cons b l =>
      rw [List.map_cons, String.join_cons, ih (List.cons_ne_nil b l)]
      simp only [List.map_cons, String.intercalate_cons_cons, String.append_assoc]

/-- Joined texts are not empty if the first of them is not. -/
theorem intercalate_ne_empty {s : String} (hs : s ≠ "") (sep : String) (l : List String) :
    sep.intercalate (s :: l) ≠ "" := by
  cases l <;> simp [hs]

/-- **A report is the findings with a blank line between them, one more if that is not nothing, and
the summary.** -/
theorem render_eq (fs : List Finding) :
    render fs =
      (let body := "\n\n".intercalate (fs.map Finding.render)
      if body.isEmpty then body else body ++ "\n\n") ++ summary fs := by
  rw [render]
  congr 1
  cases fs with
  | nil => rfl
  | cons f fs =>
    have hbody : "\n\n".intercalate ((f :: fs).map Finding.render) ≠ "" :=
      intercalate_ne_empty f.render_ne_empty _ _
    simp only [String.isEmpty_iff, hbody, if_false]
    exact join_map_append (List.cons_ne_nil f fs) Finding.render _

/-- **The last line of a report is its summary.** -/
theorem lastLine_render (fs : List Finding) :
    lastLine (render fs) = countLine (errors fs) (warnings fs) := by
  rw [lastLine_eq_iff, render_eq, summary_eq]
  refine ⟨lf_notMem_countLine _ _, ?_⟩
  dsimp only
  split_ifs with hempty
  · left
    rw [String.isEmpty_iff.1 hempty, String.empty_append]
  · right
    refine ⟨"\n\n".intercalate (fs.map Finding.render) ++ "\n", ?_⟩
    rw [show "\n\n" = "\n" ++ "\n" by decide]
    simp only [String.append_assoc]

/-- Equal reports have equal counts. -/
theorem counts_eq_of_render_eq {fs gs : List Finding} (heq : render fs = render gs) :
    errors fs = errors gs ∧ warnings fs = warnings gs :=
  countLine_inj (by rw [← lastLine_render, heq, lastLine_render])

/-- The report that counts nothing and says nothing else is that on no findings. -/
theorem render_eq_clean_iff {fs : List Finding} :
    render fs = "0 error(s), 0 warning(s)" ↔ fs = [] := by
  have hclean : render [] = "0 error(s), 0 warning(s)" := by decide +kernel
  constructor
  · intro heq
    obtain ⟨herrors, hwarnings⟩ := counts_eq_of_render_eq (heq.trans hclean.symm)
    rw [← List.length_eq_zero_iff, ← errors_add_warnings, herrors, hwarnings]
    rfl
  · rintro rfl
    exact hclean

/-- **The summary of a report can be trusted.**  Whatever the findings say, the last line of the
report counts the errors and the warnings among them, which together are all of them. So equal
reports have equal counts, and the report that counts nothing is that of no finding. -/
theorem lastLine_counts (fs : List Finding) :
    lastLine (render fs) =
        toString (fs.countP (·.severity = .error)) ++ " error(s), " ++
          toString (fs.countP (·.severity = .warning)) ++ " warning(s)" ∧
      fs.countP (·.severity = .error) + fs.countP (·.severity = .warning) = fs.length ∧
      (∀ gs, render fs = render gs →
        fs.countP (·.severity = .error) = gs.countP (·.severity = .error) ∧
          fs.countP (·.severity = .warning) = gs.countP (·.severity = .warning)) ∧
      (render fs = "0 error(s), 0 warning(s)" ↔ fs = []) :=
  ⟨lastLine_render fs, errors_add_warnings fs, fun _ => counts_eq_of_render_eq,
    render_eq_clean_iff⟩

/-- An expression whose text holds what looks like the end of a report, in two readings that come to
the same text. -/
def misleading (expr found : String) : List Finding :=
  [.expressionType expr found "type Num\n\n0 error(s), 0 warning(s)", .inaccessibleNode "A" "B"]

/-- The two are different findings and one report. Its last line is the one that counts, not the one
in the middle that looks like it. -/
theorem lastLine_counts_misleading :
    misleading "x with y" "z" ≠ misleading "x" "y with z" ∧
      render (misleading "x with y" "z") = render (misleading "x" "y with z") ∧
      lastLine (render (misleading "x" "y with z")) = "1 error(s), 1 warning(s)" ∧
      (misleading "x with y" "z").countP (·.severity = .error) =
        (misleading "x" "y with z").countP (·.severity = .error) := by
  have hsame : render (misleading "x with y" "z") = render (misleading "x" "y with z") := by
    decide +kernel
  obtain ⟨_, _, hcounts, _⟩ := lastLine_counts (misleading "x with y" "z")
  obtain ⟨hlast, _⟩ := lastLine_counts (misleading "x" "y with z")
  refine ⟨by decide +kernel, hsame, hlast.trans (by decide +kernel), (hcounts _ hsame).1⟩

end Report
end Preflight
