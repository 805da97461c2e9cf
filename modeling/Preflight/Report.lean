import Preflight.Finding

/-!
# Reports

A finding is written as its severity and name, its tip in parentheses if it has one, and its
message on a line of its own. A report is the findings in their order, a blank line after
each, and a last line that counts errors and warnings.
-/

namespace Preflight

/-- The written form of one finding. -/
def Finding.render (f : Finding) : String :=
  let tip := match f.tip with
    | some tip => " (" ++ tip ++ ")"
    | none => ""
  f.severity.name ++ ": " ++ f.name ++ tip ++ "\n | " ++ f.message

namespace Report

/-- The number of errors. -/
def errors (fs : List Finding) : Nat :=
  fs.countP Finding.isError

/-- The number of warnings. -/
def warnings (fs : List Finding) : Nat :=
  fs.countP Finding.isWarning

/-- The last line of a report. -/
def summary (fs : List Finding) : String :=
  toString (errors fs) ++ " error(s), " ++ toString (warnings fs) ++ " warning(s)"

/-- The report on a list of findings. -/
def render (fs : List Finding) : String :=
  String.join (fs.map fun f => f.render ++ "\n\n") ++ summary fs

/-- A finding is an error or a warning and not both, so the two counts make up the whole. -/
theorem errors_add_warnings (fs : List Finding) : errors fs + warnings fs = fs.length := by
  induction fs with
  | nil => rfl
  | cons f fs ih =>
    have h : f.isWarning = !f.isError := by
      unfold Finding.isWarning Finding.isError
      cases f.severity <;> rfl
    simp only [errors, warnings, List.countP_cons, List.length_cons, h] at ih ⊢
    cases f.isError <;> simp <;> omega

end Report

end Preflight
