import FlexWidth.Proofs.Typing.Promotion
import Mathlib

/-!
# Expression typing is declarative

Checking an expression finds the type of its parts, passes demands down to them and checks
parts again.  `Expr.synth` does nothing of this, and yet it says all about the outcome: in
every state that the check of a program comes to, an expression whose variables have types is
given its synthesized type, or it has none and is refused, or a literal in it does not fit.

The flexible type is synthesized for the expressions without any width in them
(`Expr.Widthless`), and they are never refused (`Check.failsOnly_tree_widthless`).
-/

namespace FlexWidth

/-- Literals and reads under signs and arithmetic: nothing in the expression has a width. -/
inductive Expr.Widthless : Expr → Prop where
  | literal {value : Nat} {type : Option TypeId} : Widthless (.literal value type)
  | read {type : Option TypeId} : Widthless (.read type)
  | sign {operand : Expr} {type : Option TypeId} : Widthless operand →
      Widthless (.unary "-" operand type)
  | arithmetic {operator : String} {left right : Expr} {type : Option TypeId} :
      OperatorClass.of? operator = some .arithmetic → Widthless left → Widthless right →
      Widthless (.binary operator left right type)

theorem Expr.Widthless.synth_eq {value : Expr} (h : value.Widthless)
    (symbolShape : SymbolId → Option Shape) : value.synth symbolShape = some .flexible := by
  induction h with
  | literal => rfl
  | read => rfl
  | sign _ ih =>
      rw [synth, ih]
      rfl
  | arithmetic hclass _ _ ihleft ihright =>
      rw [synth, hclass, ihleft, ihright]
      rfl

theorem Expr.IsFlexible.widthless_erase {flex : TypeId} {value : Expr}
    (h : value.IsFlexible flex) : value.erase.Widthless := by
  induction h with
  | literal => exact .literal
  | read => exact .read
  | sign _ ih => exact .sign ih
  | binary hclass _ _ ihleft ihright => exact .arithmetic hclass ihleft ihright

/-- What is checked without a width is flexible. -/
theorem Elaborates.checked_flexible {s : Checking} {source value : Expr} (hs : s.Sound)
    (h : Elaborates s.types s.symbols source value) (hsource : source.Widthless) :
    s.types.Checked value .flexible := by
  obtain ⟨ty, shape, hchecked, hspells, hsynth⟩ := h.exists_spells hs
  cases hsynth.symm.trans (hsource.synth_eq _)
  cases hspells
  exact hchecked

/-- The checked expression is flexible exactly if it has been made of one without a width. -/
theorem Elaborates.shape_eq_flexible_iff {s : Checking} {source value : Expr} {shape : Shape}
    (hs : s.Sound) (h : Elaborates s.types s.symbols source value)
    (hshape : value.shape? s.types = some shape) : shape = .flexible ↔ source.Widthless := by
  obtain ⟨ty, found, ⟨id, hid, hty, hflexible⟩, hspells, hsynth⟩ := h.exists_spells hs
  cases hsynth.symm.trans ((h.synth_eq hs.sound.toInterned).trans hshape)
  constructor
  · rintro rfl
    cases hspells
    have hvalue := (hflexible rfl).widthless_erase
    rwa [h.erase_eq] at hvalue
  · intro hsource
    exact Option.some.inj (hsynth.symm.trans (hsource.synth_eq _))

namespace Check

variable {s : Checking} {recheck : Expr → CheckM Expr} {value : Expr}

/-- Arithmetic on two flexible operands succeeds. -/
theorem failsOnly_operands_flexible {operator : String} {failed : Failure → Prop} {l r : Expr}
    (hs : s.Sound) (hl : s.types.Checked l .flexible) (hr : s.types.Checked r .flexible) :
    FailsOnly (operands (convertWith recheck) operator .arithmetic l r none) s failed := by
  obtain ⟨flex, -, hflex, hleft⟩ := hl
  obtain ⟨other, -, hother, hright⟩ := hr
  cases hs.sound.eq_of_get? hflex hother
  exact failsOnly_of_ok (run_operands_flexible hflex hs.sound.toInterned (hleft rfl) (hright rfl))

/-- Without a width, nothing is refused. -/
theorem failsOnly_tree_widthless (hbare : value.Bare) (h : value.Widthless) (hs : s.Sound)
    (hrecheck : CanRecheck recheck value.nesting) :
    FailsOnly (tree recheck value) s fun _ => False := by
  induction h generalizing s with
  | @literal number _ =>
      cases hbare
      rw [tree, demandOf_none_bind]
      exact failsOnly_flexibleLiteral hs number false fun type => .literal number (some type)
  | read =>
      cases hbare
      rw [tree, demandOf_none_bind]
      refine FailsOnly.bind (failsOnly_of_ok (run_modifyGet _ _)) fun id middle hrun => ?_
      obtain ⟨-, hid⟩ := (checks_orFlexible hs).post_of_ok hrun
      exact failsOnly_of_ok (run_bind_ok (run_typeAt hid) _)
  | @sign operand _ hoperand ih =>
      cases hbare with
      | unary hbare =>
      rw [Expr.nesting] at hrecheck
      have hrecheck : CanRecheck recheck operand.nesting := hrecheck.mono (Nat.le_succ _)
      cases operand with
      | literal number own =>
          cases hbare
          rw [tree_negatedLiteral, demandOf_none_bind]
          refine FailsOnly.bind ?_ ?_
          · exact failsOnly_flexibleLiteral hs number true fun type => .literal number (some type)
          · intro checked middle hrun
            obtain ⟨hreaches, hchecked⟩ := (checks_negatedLiteral hs number).post_of_ok hrun
            exact failsOnly_signOperand (hchecked.checked_flexible hreaches.sound .literal) rfl
      | _ =>
          rw [tree_sign recheck (by simp), demandOf_none_bind]
          refine (ih hbare hs hrecheck).bind ?_
          intro checked middle hrun
          obtain ⟨hreaches, hchecked⟩ := (infers_tree hbare hs hrecheck).post_of_ok hrun
          exact failsOnly_signOperand (hchecked.checked_flexible hreaches.sound hoperand) rfl
  | @arithmetic operator left right _ hclass hleft hright ihleft ihright =>
      cases hbare with
      | binary hlbare hrbare =>
      rw [Expr.nesting] at hrecheck
      have hlrecheck : CanRecheck recheck left.nesting := hrecheck.mono (by omega)
      have hrrecheck : CanRecheck recheck right.nesting := hrecheck.mono (by omega)
      rw [tree, hclass, demandOf_none_bind]
      refine .of_bind (run_orRefuse_some _ _ s) ?_
      refine (ihleft hlbare hs hlrecheck).bind fun l middle hrunLeft => ?_
      obtain ⟨hreaches, hl⟩ := (infers_tree hlbare hs hlrecheck).post_of_ok hrunLeft
      refine (ihright hrbare hreaches.sound hrrecheck).bind fun r final hrunRight => ?_
      obtain ⟨hreaches', hr⟩ := (infers_tree hrbare hreaches.sound hrrecheck).post_of_ok hrunRight
      exact failsOnly_operands_flexible hreaches'.sound
        ((hl.checked_flexible hreaches.sound hleft).grow hreaches'.grows)
        (hr.checked_flexible hreaches'.sound hright)

end Check

/-- **Expression typing is declarative.**  In every state that the check of a parsed and
resolved program comes to, checking a bare expression whose variables have types yields an
expression of the synthesized type, which is flexible exactly if nothing in the expression has
a width, or it refuses the expression.  If there is a synthesized type, the reason is that a
literal does not fit. -/
theorem ends_expr_of_reached {tokens : List Token} {spelled body : Program}
    {symbols : SymbolTable} {start log : Array Event} (hparse : parse tokens = .ok spelled)
    (hresolve : Frontend.resolve spelled start = .ok (body, symbols) log) {t : Checking}
    (hreached : Check.Reached body (Checking.initial symbols log) t) {value : Expr}
    (hbare : value.Bare) (htypes : t.symbols.Types value.labels) :
    Ends (Check.expr value) t
      (fun checked final => ∃ shape, value.synth (t.symbols.shape? t.types) = some shape ∧
        checked.shape? final.types = some shape ∧ (shape = .flexible ↔ value.Widthless))
      fun failure _ => (∃ diagnostic, failure = .refused diagnostic) ∧
        ((value.synth (t.symbols.shape? t.types)).isSome → Check.IsOutOfRange failure) ∧
          ¬ value.Widthless := by
  have ht : t.Sound := sound_of_reached hparse hresolve hreached
  have hinfers := Check.infers_expr hbare ht
  cases hrun : Check.expr value t with
  | ok checked final =>
      obtain ⟨hreaches, hchecked⟩ := hinfers.post_of_ok hrun
      obtain ⟨ty, shape, -, -, hsynth⟩ := hchecked.exists_spells hreaches.sound
      have hshape := (hchecked.synth_eq hreaches.sound.sound.toInterned).symm.trans hsynth
      rw [hreaches.shape?_eq ht] at hsynth
      exact .of_ok hrun
        ⟨shape, hsynth, hshape, hchecked.shape_eq_flexible_iff hreaches.sound hshape⟩
  | error failure final =>
      obtain ⟨hrefused, hrange⟩ := hinfers.failed_of_error hrun
      refine .of_error hrun ⟨hrefused htypes, hrange, fun hwidthless => ?_⟩
      rw [Check.expr, Check.within_eq_tree] at hrun
      exact Check.failsOnly_tree_widthless hbare hwidthless ht
        (Check.canRecheck_recheckAt (Nat.le_refl _)) failure final hrun

/-- A truth value and a negated literal meet in the default integer. -/
theorem ends_expr_of_reached_sum :
    ∃ tokens spelled body symbols log, ∃ t final : Checking, ∃ value checked : Expr,
      (tokenize "b = 1 < 2;" = .ok tokens ∧ parse tokens = .ok spelled ∧
        Frontend.resolve spelled #[] = .ok (body, symbols) log ∧
        Check.Reached body (Checking.initial symbols log) t ∧
        value = .binary "+" (.var "b" (some ⟨0⟩) none) (.unary "-" (.literal 3 none) none) none ∧
        value.Bare ∧ t.symbols.Types value.labels) ∧
      Check.expr value t = .ok checked final ∧
      value.synth (t.symbols.shape? t.types) = some (.int 32) ∧
      checked.shape? final.types = some (.int 32) ∧ ¬ value.Widthless := by
  have hruns : ∃ tokens spelled symbols log first first' value checked type,
      ∃ t final : Checking,
      tokenize "b = 1 < 2;" = .ok tokens ∧ parse tokens = .ok spelled ∧
        Frontend.resolve spelled #[] = .ok ([first], symbols) log ∧
        Check.stmt first (Checking.initial symbols log) = .ok first' t ∧
        value = .binary "+" (.var "b" (some ⟨0⟩) none) (.unary "-" (.literal 3 none) none) none ∧
        t.symbols.type? ⟨0⟩ = some type ∧ Check.expr value t = .ok checked final ∧
        value.synth (t.symbols.shape? t.types) = some (.int 32) :=
    ⟨_, _, _, _, _, _, _, _, _, _, _, by cbv, by cbv, by cbv, by cbv, rfl, by cbv, by cbv, by cbv⟩
  obtain ⟨tokens, spelled, symbols, log, first, first', value, checked, type, t, final, htokens,
    hparse, hresolve, hfirst, hvalue, htype, hchecked, hsynth⟩ := hruns
  have hreached : Check.Reached [first] (Checking.initial symbols log) t := .ends .here hfirst
  have hbare : value.Bare := by
    rw [hvalue]
    exact .binary .var (.unary (.literal (by decide)))
  have htypes : t.symbols.Types value.labels := by
    rw [hvalue]
    intro label hlabel
    cases List.mem_singleton.mp hlabel
    exact ⟨⟨0⟩, type, rfl, htype⟩
  refine ⟨tokens, spelled, [first], symbols, log, t, final, value, checked,
    ⟨htokens, hparse, hresolve, hreached, hvalue, hbare, htypes⟩, hchecked, hsynth, ?_⟩
  obtain ⟨shape, hshape, hfound, hflexible⟩ :=
    (ends_expr_of_reached hparse hresolve hreached hbare htypes).post_of_ok hchecked
  cases hsynth.symm.trans hshape
  refine ⟨hfound, fun hwidthless => ?_⟩
  cases hflexible.mpr hwidthless

end FlexWidth
