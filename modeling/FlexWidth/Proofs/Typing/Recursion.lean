import FlexWidth.Proofs.Typing.Calls
import FlexWidth.Proofs.Typing.Erasure
import Mathlib

/-!
# The recursion of the check

The check of an expression recurs into its parts, and where a part has turned out flexible it
sets the type of what it has got back and checks that again.  What it checks again is no part of
what it was given: loads and conversions may have been inserted, and types filled in.  `within`
therefore counts the levels of checking again, and stops with a fault if there are too many.

The count is not needed.  Here is why, in three steps.

* **The measure.**  Operators and struct literals nest as deeply in what has been checked as in
  what was given, since checking changes only what erasing takes away (`nesting_eq_of_erase_eq`).
  And what is checked again is an operand or a field, and so nests less deeply than the whole.
* **Locality.**  The check of an expression asks `recheck` only about expressions that nest less
  deeply.  Two ways of checking again that agree on these lead to the same check
  (`tree_congr`), on any tree and from any state.
* **No bound.**  So the number of levels does not matter as long as it is at least the nesting
  (`within_eq_expr`), and `expr` satisfies the recursion without a bound (`expr_eq_tree`).

Nothing is assumed of the trees or of the states.  Trees may carry any types, conversions and
loads.  A handle that points nowhere makes the check of its node fail (`run_tree_of_unknown`),
which is an end as well.
-/

namespace FlexWidth

/-! ## The measure -/

namespace Expr

mutual

/-- What erasing takes away does not count. -/
theorem nesting_erase : (value : Expr) → value.erase.nesting = value.nesting
  | literal .. => by rw [erase, nesting, nesting]
  | var .. => by rw [erase, nesting, nesting]
  | read _ => by rw [erase, nesting, nesting]
  | unary _ operand _ => by rw [erase, nesting, nesting, nesting_erase operand]
  | binary _ left right _ => by
      rw [erase, nesting, nesting, nesting_erase left, nesting_erase right]
  | conversion operand _ => by rw [erase, nesting, nesting_erase operand]
  | load place _ => by rw [erase, nesting, nesting_erase place]
  | glue fields _ => by rw [erase, nesting, nesting, fieldsNesting_eraseFields fields]
  | dot base _ _ _ => by rw [erase, nesting, nesting, nesting_erase base]
  | index base _ _ => by rw [erase, nesting, nesting, nesting_erase base]

theorem fieldsNesting_eraseFields : (fields : GlueFields) →
    fieldsNesting (eraseFields fields) = fieldsNesting fields
  | [] => rfl
  | (_, value) :: rest => by
      rw [eraseFields, fieldsNesting, fieldsNesting, nesting_erase value,
        fieldsNesting_eraseFields rest]

end

theorem nesting_eq_of_erase_eq {value result : Expr} (h : result.erase = value.erase) :
    result.nesting = value.nesting := by
  rw [← nesting_erase result, h, nesting_erase]

end Expr

namespace Check

/-! ## Locality -/

/-- On expressions that nest less deeply than the bound, the two ways of checking again are the
same; and the first changes only what is erased. -/
structure AgreeBelow (bound : Nat) (recheck recheck' : Expr → CheckM Expr) : Prop where
  eq : ∀ part, part.nesting < bound → recheck part = recheck' part
  erased : ∀ part, KeepsErased (recheck part) part

section Recheck

variable {bound : Nat} {recheck recheck' : Expr → CheckM Expr} {value left right : Expr}
  (h : AgreeBelow bound recheck recheck')

include h

theorem recheck_withType_congr (hvalue : value.nesting < bound) (type : TypeId) :
    recheck (value.withType type) = recheck' (value.withType type) := by
  apply h.eq
  rwa [Expr.nesting_eq_of_erase_eq (Expr.erase_withType value type)]

theorem settle_congr (hvalue : value.nesting < bound) (current : TypeId) :
    settle recheck value current = settle recheck' value current := by
  refine bind_congr fun flexible => ?_
  split
  · exact bind_congr fun type => recheck_withType_congr h hvalue type
  · rfl

theorem convertToBool_congr (hvalue : value.nesting < bound) (current target : TypeId) :
    convertToBool recheck value current target = convertToBool recheck' value current target := by
  unfold convertToBool
  rw [settle_congr h hvalue current]

/-- A conversion checks its value again, at most. -/
theorem convertWith_congr (hvalue : value.nesting < bound) (target : TypeId) :
    convertWith recheck value target = convertWith recheck' value target := by
  refine (keepsErased_materialize value).bind_congr fun loaded herase => ?_
  have hloaded : loaded.nesting < bound := by rwa [Expr.nesting_eq_of_erase_eq herase]
  refine bind_congr fun current => ?_
  rw [recheck_withType_congr h hloaded target, convertToBool_congr h hloaded current target]

theorem signOperand_congr (operator : String) (hvalue : value.nesting < bound)
    (demand : Option TypeId) :
    signOperand (convertWith recheck) operator value demand =
      signOperand (convertWith recheck') operator value demand := by
  have hconvert (target : TypeId) := convertWith_congr h hvalue target
  unfold signOperand
  simp only [hconvert]

theorem convertOperands_congr (hleft : left.nesting < bound) (hright : right.nesting < bound)
    (target : TypeId) :
    convertOperands (convertWith recheck) left right target =
      convertOperands (convertWith recheck') left right target := by
  unfold convertOperands
  rw [convertWith_congr h hleft target, convertWith_congr h hright target]

theorem operands_congr (operator : String) (operatorClass : OperatorClass)
    (hleft : left.nesting < bound) (hright : right.nesting < bound) (demand : Option TypeId) :
    operands (convertWith recheck) operator operatorClass left right demand =
      operands (convertWith recheck') operator operatorClass left right demand := by
  have hoperands (target : TypeId) := convertOperands_congr h hleft hright target
  unfold operands
  simp only [hoperands]

theorem fieldValue_congr (hvalue : value.nesting < bound) :
    fieldValue (convertWith recheck) value = fieldValue (convertWith recheck') value := by
  have hconvert (target : TypeId) := convertWith_congr h hvalue target
  unfold fieldValue
  simp only [hconvert]

end Recheck

/-- A literal right under a sign has a rule of its own. -/
theorem tree_unary (recheck : Expr → CheckM Expr) (operator : String) (operand : Expr)
    (type : Option TypeId) :
    tree recheck (.unary operator operand type) = demandOf type >>= fun demand =>
      if operator = "-" then
        signed recheck operand demand >>= fun checked =>
          signOperand (convertWith recheck) operator checked demand
      else refuse (.unknownOperator operator) := by
  cases operand <;> rfl

theorem signed_congr {recheck recheck' : Expr → CheckM Expr} {operand : Expr}
    (h : tree recheck operand = tree recheck' operand) (demand : Option TypeId) :
    signed recheck operand demand = signed recheck' operand demand := by
  cases operand with
  | literal number own => rfl
  | _ => exact h

theorem keepsErased_signed {recheck : Expr → CheckM Expr}
    (h : ∀ part, KeepsErased (recheck part) part) (operand : Expr) (demand : Option TypeId) :
    KeepsErased (signed recheck operand demand) operand := by
  cases operand with
  | literal number own => exact keepsErased_negatedLiteral number own demand
  | _ => exact keepsErased_tree h _

mutual

/-- **The check of an expression asks only about what nests less deeply.** -/
theorem tree_congr {bound : Nat} {recheck recheck' : Expr → CheckM Expr}
    (h : AgreeBelow bound recheck recheck') : (value : Expr) → value.nesting ≤ bound →
    tree recheck value = tree recheck' value
  | .literal .., _ => by rw [tree, tree]
  | .var .., _ => by rw [tree, tree]
  | .read _, _ => by rw [tree, tree]
  | .unary operator operand type, hle => by
      rw [Expr.nesting] at hle
      rw [tree_unary, tree_unary]
      refine bind_congr fun demand => ?_
      split
      · rw [← signed_congr (tree_congr h operand (by omega)) demand]
        -- what is checked again here is the operand once it has been checked
        refine (keepsErased_signed h.erased operand demand).bind_congr fun checked hchecked => ?_
        refine signOperand_congr h operator ?_ demand
        rw [Expr.nesting_eq_of_erase_eq hchecked]
        omega
      · rfl
  | .binary operator left right type, hle => by
      rw [Expr.nesting] at hle
      rw [tree, tree, ← tree_congr h left (by omega), ← tree_congr h right (by omega)]
      refine bind_congr fun demand => bind_congr fun operatorClass => ?_
      refine (keepsErased_tree h.erased left).bind_congr fun left' hleft => ?_
      refine (keepsErased_tree h.erased right).bind_congr fun right' hright => ?_
      refine operands_congr h operator operatorClass ?_ ?_ demand
      · rw [Expr.nesting_eq_of_erase_eq hleft]
        omega
      · rw [Expr.nesting_eq_of_erase_eq hright]
        omega
  | .conversion operand _, hle => by
      rw [Expr.nesting] at hle
      rw [tree, tree, tree_congr h operand hle]
  | .load place _, hle => by
      rw [Expr.nesting] at hle
      rw [tree, tree, tree_congr h place hle]
  | .glue fields _, hle => by
      rw [Expr.nesting] at hle
      rw [tree, tree, glueFields_congr h 0 .empty fields hle]
  | .dot base _ _ _, hle => by
      rw [Expr.nesting] at hle
      rw [tree, tree, tree_congr h base hle]
  | .index base _ _, hle => by
      rw [Expr.nesting] at hle
      rw [tree, tree, tree_congr h base hle]

theorem glueFields_congr {bound : Nat} {recheck recheck' : Expr → CheckM Expr}
    (h : AgreeBelow bound recheck recheck') (position : Nat) (names : FieldNames) :
    (fields : GlueFields) → Expr.fieldsNesting fields < bound →
    glueFields recheck position names fields = glueFields recheck' position names fields
  | [], _ => by rw [glueFields, glueFields]
  | (name, value) :: rest, hlt => by
      rw [Expr.fieldsNesting] at hlt
      rw [glueFields, glueFields, ← tree_congr h value (by omega)]
      refine bind_congr fun names' => ?_
      refine (keepsErased_tree h.erased value).bind_congr fun checked hchecked => ?_
      have hnesting : checked.nesting < bound := by
        rw [Expr.nesting_eq_of_erase_eq hchecked]
        omega
      rw [fieldValue_congr h hnesting, glueFields_congr h (position + 1) names' rest (by omega)]

end

/-! ## No bound -/

/-- Checking again takes up one level, and enough are left for what nests less deeply. -/
theorem recheckAt_eq_within {depth : Nat} {part : Expr} (h : part.nesting < depth) :
    ∃ less, part.nesting ≤ less ∧ recheckAt depth part = within less part := by
  obtain ⟨less, rfl⟩ : ∃ less, depth = less + 1 := ⟨depth - 1, by omega⟩
  exact ⟨less, Nat.le_of_lt_succ h, rfl⟩

theorem keepsErased_recheckAt (depth : Nat) (part : Expr) :
    KeepsErased (recheckAt depth part) part := by
  cases depth with
  | zero => exact yields_fault _
  | succ depth => exact keepsErased_within depth part

/-- **Levels beyond the nesting do not matter.** -/
theorem within_eq_expr {value : Expr} {depth : Nat} (h : value.nesting ≤ depth) :
    within depth value = expr value := by
  -- the induction is on the nesting, which is less for all that is checked again
  induction hnesting : value.nesting using Nat.strong_induction_on generalizing value depth with
  | h nesting ih =>
      subst hnesting
      rw [expr, within_eq_tree, within_eq_tree]
      refine tree_congr ⟨fun part hpart => ?_, keepsErased_recheckAt _⟩ value (Nat.le_refl _)
      obtain ⟨less, hless, heq⟩ := recheckAt_eq_within hpart
      obtain ⟨more, hmore, heq'⟩ := recheckAt_eq_within (Nat.lt_of_lt_of_le hpart h)
      calc recheckAt depth part
          = within more part := heq'
        _ = expr part := ih part.nesting hpart hmore rfl
        _ = within less part := (ih part.nesting hpart hless rfl).symm
        _ = recheckAt value.nesting part := heq.symm

/-- What agrees with the check on all that nests less deeply can stand in for it. -/
theorem tree_eq_tree_expr {value : Expr} {recheck : Expr → CheckM Expr}
    (h : ∀ part, part.nesting < value.nesting → recheck part = expr part) :
    tree recheck value = tree expr value :=
  (tree_congr ⟨fun part hpart => (h part hpart).symm, keepsErased_expr⟩ value
    (Nat.le_refl _)).symm

/-- **The recursion without a bound.** -/
theorem expr_eq_tree (value : Expr) : expr value = tree expr value := by
  have hbelow : ∀ part, part.nesting < value.nesting →
      recheckAt value.nesting part = expr part := by
    intro part hpart
    obtain ⟨less, hless, heq⟩ := recheckAt_eq_within hpart
    rw [heq, within_eq_expr hless]
  rw [← tree_eq_tree_expr hbelow, ← within_eq_tree, expr]

theorem convert_eq_convertWith (value : Expr) (target : TypeId) :
    convert value target = convertWith expr value target := by
  have hbelow : AgreeBelow (value.nesting + 1) expr (within value.nesting) :=
    ⟨fun part hpart => (within_eq_expr (Nat.le_of_lt_succ hpart)).symm, keepsErased_expr⟩
  exact (convertWith_congr hbelow (Nat.lt_succ_self _) target).symm

end Check

end FlexWidth
