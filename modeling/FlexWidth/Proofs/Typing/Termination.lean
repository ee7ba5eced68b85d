import FlexWidth.Proofs.Typing.Keeps
import Mathlib

/-!
# Checking ends

The check of expressions is a well-founded recursion, on the nesting of operators and struct
literals.  `byNesting` says so without any count of levels: it is defined by recursion on the
nesting, and has to be told what to do about expressions that nest no less deeply, where the
recursion does not go.  It is never asked about them.

That a check does not run out of levels is an invariant with a condition on failures only
(`invariant_finishes`), so it holds of statements as well.
-/

namespace FlexWidth.Check

/-! ## Recursion on the nesting -/

/-- A function that unfolds as the check does, wherever the check asks again, is the check. -/
theorem eq_expr_of_unfolds {check : Expr → CheckM Expr}
    (h : ∀ value, ∃ recheck, check value = tree recheck value ∧
      ∀ part, part.nesting < value.nesting → recheck part = check part) : check = expr := by
  funext value
  induction hnesting : value.nesting using Nat.strong_induction_on generalizing value with
  | h nesting ih =>
      subst hnesting
      obtain ⟨recheck, hcheck, hbelow⟩ := h value
      have hrecheck : ∀ part, part.nesting < value.nesting → recheck part = expr part :=
        fun part hpart => (hbelow part hpart).trans (ih part.nesting hpart part rfl)
      rw [hcheck, tree_eq_tree_expr hrecheck, ← expr_eq_tree]

/-- The check by recursion on the nesting alone.  What nests less deeply is checked again by the
recursion, and `otherwise` is asked about anything else. -/
def byNesting (otherwise : Expr → CheckM Expr) : Expr → CheckM Expr :=
  (measure Expr.nesting).wf.fix fun value recur =>
    tree (fun part => if h : part.nesting < value.nesting then recur part h else otherwise part)
      value

theorem byNesting_eq_tree (otherwise : Expr → CheckM Expr) (value : Expr) :
    byNesting otherwise value =
      tree (fun part => if part.nesting < value.nesting then byNesting otherwise part
        else otherwise part) value := by
  rw [byNesting, WellFounded.fix_eq]
  rfl

/-! ## Levels -/

/-- The failure is not that of running out of levels. -/
abbrev Finishes (failure : Failure) : Prop := failure ≠ .broken .recursionDepth

/-- Wherever it starts, checking does not run out of levels. -/
theorem invariant_finishes : Invariant (fun _ => True) Finishes fun _ => True where
  intern _ _ _ := trivial
  setType _ _ := trivial
  note _ _ := trivial
  refused _ heq := by cases heq
  broken hother heq := by
    cases heq
    exact hother.2 rfl
  position _ _ _ _ heq := by cases heq

theorem allows_finishes (value : Expr) : Allows Finishes (fun _ => True) value :=
  ⟨fun _ _ heq => (by cases heq), fun _ _ => trivial⟩

theorem Keeps.finishes {α : Type} {stage : CheckM α} (h : Keeps (fun _ => True) Finishes stage)
    (s final : Checking) : stage s ≠ .error (.broken .recursionDepth) final := by
  intro hrun
  exact ((h s trivial).failed_of_error hrun).2 rfl

/-- **Checking ends.**  The check of expressions, with conversions among the parts of it, is a
well-founded recursion on the expression, whose measure is the nesting of operators and struct
literals: it is what recursion on the nesting defines, whatever is put in place of checking again
what nests no less deeply, because nothing of that kind is ever checked again.  It satisfies the
recursion in which checking again is the check itself, without a bound on its depth, and no other
function does.  Whatever the tree and the state, neither the check of an expression nor a
conversion nor the check of statements runs out of levels, and the nesting that measures the
recursion is the same in the result. -/
theorem byNesting_eq_expr :
    (∀ otherwise, byNesting otherwise = expr) ∧
      (∀ value, expr value = tree expr value) ∧
      (∀ value target, convert value target = convertWith expr value target) ∧
      (∀ check : Expr → CheckM Expr, (∀ value, check value = tree check value) → check = expr) ∧
      (∀ value s final, expr value s ≠ .error (.broken .recursionDepth) final) ∧
      (∀ value target s final, convert value target s ≠ .error (.broken .recursionDepth) final) ∧
      (∀ body s final, stmts body s ≠ .error (.broken .recursionDepth) final) ∧
      ∀ value s result final, expr value s = .ok result final → result.nesting = value.nesting := by
  refine ⟨?_, expr_eq_tree, convert_eq_convertWith, ?_, ?_, ?_, ?_, ?_⟩
  · intro otherwise
    refine eq_expr_of_unfolds fun value => ⟨_, byNesting_eq_tree otherwise value, ?_⟩
    intro part hpart
    exact if_pos hpart
  · intro check hcheck
    exact eq_expr_of_unfolds fun value => ⟨check, hcheck value, fun _ _ => rfl⟩
  · intro value
    exact (keeps_expr invariant_finishes (allows_finishes value)).finishes
  · intro value target
    exact (keeps_convert invariant_finishes (allows_finishes value) target).finishes
  · intro body
    exact (keeps_stmts invariant_finishes body fun value _ => allows_finishes value).finishes
  · intro value s result final hrun
    exact Expr.nesting_eq_of_erase_eq (keepsErased_expr value s result final hrun)

/-- A sign that carries a type, over a flexible sum with a conversion in it: the sum is checked
again, which takes up a level. -/
theorem byNesting_eq_expr_demanded :
    let sum : Expr := .binary "+" (.literal 1 none) (.conversion (.literal 2 none) none) none
    let value : Expr := .unary "-" sum (some ⟨0⟩)
    let s : Checking := ⟨(Universe.internInt 8 .empty).2, .empty, #[]⟩
    ∃ result final, (expr value s = .ok result final ∧
        ∃ other, within 0 value s = .error (.broken .recursionDepth) other) ∧
      result.nesting = value.nesting := by
  intro sum value s
  obtain ⟨-, -, -, -, -, -, -, hnesting⟩ := byNesting_eq_expr
  suffices ∃ result final other, expr value s = .ok result final ∧
      within 0 value s = .error (.broken .recursionDepth) other by
    obtain ⟨result, final, other, hrun, hless⟩ := this
    exact ⟨result, final, ⟨hrun, other, hless⟩, hnesting value s result final hrun⟩
  exact ⟨_, _, _, by cbv, by cbv⟩

end FlexWidth.Check
