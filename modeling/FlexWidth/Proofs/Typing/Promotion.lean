import FlexWidth.Proofs.Typing.Erasure
import FlexWidth.Proofs.Typing.Progress
import FlexWidth.Proofs.Typing.Reachable
import Mathlib

/-!
# Promotion and conversion agree

The checker finds the type that values have in common in one place and converts values to it
in another.  Whatever the first promises, the second keeps: of all the conversions that the
check of a program asks for, only that of a struct to a condition is refused as a mismatch.
The others succeed, unless a literal does not fit.

Conversions to integers and structs follow from `Ty.ConvertsTo`, which every caller but one
establishes.  The condition of a branch or a loop is converted to a truth value without any
look at its type, and is the case that is left (`failsOnly_convertWith_bool`).
-/

namespace FlexWidth

/-- The failure is that a value of one type stands where another is wanted. -/
def IsMismatch (failure : Failure) : Prop :=
  ∃ expected received, failure = .refused (.typeMismatch expected received)

namespace Check

variable {s : Checking} {recheck : Expr → CheckM Expr} {value : Expr} {id target : TypeId} {ty : Ty}

theorem failsOnly_mismatch {α : Type} {targetTy : Ty} (hs : s.Sound)
    (hid : s.types.get? id = some ty) (htarget : s.types.get? target = some targetTy) :
    FailsOnly (mismatch target id : CheckM α) s IsMismatch := by
  obtain ⟨expected, hexpected⟩ := exists_run_describe hs.sound.toInterned htarget
  obtain ⟨received, hreceived⟩ := exists_run_describe hs.sound.toInterned hid
  refine .of_bind hexpected (.of_bind hreceived fun failure final hrun => ?_)
  cases hrun
  exact ⟨expected, received, rfl⟩

/-- A value that is no struct becomes a truth value, unless a literal does not fit. -/
theorem failsOnly_convertWith_bool (hs : s.Sound) (hvalue : s.types.Checked value ty)
    (hrecheck : CanRecheck recheck (value.nesting + 1))
    (htarget : s.types.get? target = some .bool) :
    FailsOnly (convertWith recheck value target) s fun failure =>
      IsOutOfRange failure ∨ (∃ struct, ty = .struct struct) ∧ IsMismatch failure := by
  obtain ⟨id, hid, hty, hflexible⟩ := hvalue
  by_cases hcase : ty = .flexible
  · subst hcase
    have hends := ends_convertWith_bool_flexible hs hty (hflexible rfl) hrecheck htarget
    exact Ends.failsOnly hends fun _ _ hblames => Or.inl hblames.isOutOfRange
  have hloaded : value.loaded.type? = some id := value.type?_loaded.trans hid
  rw [convertWith]
  refine .of_bind (run_materialize hid) (.of_bind (run_typeOf hloaded) ?_)
  split
  · exact failsOnly_of_ok (run_pure _ _)
  rename_i hne
  refine .of_bind (run_typeAt htarget) ?_
  rw [if_neg (by simp), if_pos rfl, convertToBool]
  refine .of_bind (run_settle_of_ne hty hcase) (.of_bind (run_typeOf hloaded) ?_)
  refine .of_bind (run_typeAt hty) ?_
  cases ty with
  | flexible => exact absurd rfl hcase
  | int width =>
      obtain ⟨log, hwrap⟩ := exists_run_wrapConversion hs hloaded hty htarget
      exact failsOnly_of_ok hwrap
  | bool => exact absurd (hs.sound.eq_of_get? hty htarget) hne
  | struct struct =>
      exact (failsOnly_mismatch hs hty htarget).weaken fun _ h => Or.inr ⟨⟨struct, rfl⟩, h⟩

/-- What a valid conversion ends in. -/
theorem ExprCall.Valid.ends_convertWith {purpose : Purpose} {depth : Nat}
    (h : (ExprCall.convert purpose depth value target).Valid s) :
    Ends (convertWith (recheckAt depth) value target) s
      (fun result _ => result.type? = some target)
      fun failure _ => IsOutOfRange failure ∨
        purpose = .condition ∧ (∃ struct, s.types.HasTy value (.struct struct)) ∧
          IsMismatch failure := by
  obtain ⟨hs, hnesting, ty, targetTy, hchecked, htarget, hconverts⟩ := h
  have hrecheck : CanRecheck (recheckAt depth) (value.nesting + 1) := canRecheck_recheckAt hnesting
  rcases hconverts with ⟨hconcrete, hconverts⟩ | ⟨hpurpose, rfl⟩
  · refine (Ends.and_failsOnly (checks_convertWith_of_convertsTo hs hchecked hrecheck htarget
      hconcrete hconverts) (failsOnly_convertWith hs hchecked hrecheck htarget hconverts)).weaken
      ?_ fun failure _ hrange => Or.inl hrange
    exact fun result final h => h.2.type?
  · refine (Ends.and_failsOnly (checks_convertWith_bool hs hrecheck hchecked htarget)
      (failsOnly_convertWith_bool hs hchecked hrecheck htarget)).weaken ?_ ?_
    · exact fun result final h => h.2.valueOf.type?
    · rintro failure final (hrange | ⟨⟨struct, rfl⟩, hmismatch⟩)
      · exact Or.inl hrange
      · exact Or.inr ⟨hpurpose, ⟨struct, hchecked.hasTy⟩, hmismatch⟩

end Check

/-- The state in which the check of a resolved program starts is sound, and the expressions
of the program are bare. -/
theorem bare_and_sound_of_resolve {tokens : List Token} {spelled body : Program}
    {symbols : SymbolTable} {start log : Array Event} (hparse : parse tokens = .ok spelled)
    (hresolve : Frontend.resolve spelled start = .ok (body, symbols) log) :
    (∀ value ∈ Stmt.bodyRoots body, value.Bare) ∧ (Checking.initial symbols log).Sound :=
  ⟨bare_of_resolve (bare_of_parse hparse) hresolve,
    (at_initial (fun _ _ hsymbol => untyped_of_resolve hresolve hsymbol) log).sound⟩

/-- Every state that the check of a resolved program comes to is sound. -/
theorem sound_of_reached {tokens : List Token} {spelled body : Program} {symbols : SymbolTable}
    {start log : Array Event} (hparse : parse tokens = .ok spelled)
    (hresolve : Frontend.resolve spelled start = .ok (body, symbols) log) {t : Checking}
    (hreached : Check.Reached body (Checking.initial symbols log) t) : t.Sound := by
  obtain ⟨hbare, hsound⟩ := bare_and_sound_of_resolve hparse hresolve
  exact hreached.sound hbare hsound

/-- **Promotion and conversion agree.**  While a program that has been parsed, from whatever
tokens, and resolved is checked, every conversion that is asked for yields a value of the
wanted type, or it fails because a literal does not fit, except that a condition which is a
struct is refused as a mismatch. -/
theorem ends_conversion_of_makes {tokens : List Token} {spelled body : Program}
    {symbols : SymbolTable} {start log : Array Event} (hparse : parse tokens = .ok spelled)
    (hresolve : Frontend.resolve spelled start = .ok (body, symbols) log)
    {purpose : Check.Purpose} {depth : Nat} {value : Expr} {target : TypeId} {t : Checking}
    (hmakes : Check.Makes body (Checking.initial symbols log)
      (.convert purpose depth value target) t) :
    Ends (Check.convertWith (Check.recheckAt depth) value target) t
      (fun result _ => result.type? = some target)
      fun failure _ => Check.IsOutOfRange failure ∨
        purpose = .condition ∧ (∃ struct, t.types.HasTy value (.struct struct)) ∧
          IsMismatch failure := by
  obtain ⟨hbare, hsound⟩ := bare_and_sound_of_resolve hparse hresolve
  exact (hmakes.valid hbare hsound).ends_convertWith

/-- A struct-typed condition, the one conversion that is refused for its type. -/
theorem ends_conversion_of_makes_struct :
    ∃ tokens spelled body symbols log value target, ∃ t final : Checking,
      (tokenize "p = (1, a: 2 < 3); while (p) \x7b \x7d" = .ok tokens ∧
        parse tokens = .ok spelled ∧ Frontend.resolve spelled #[] = .ok (body, symbols) log ∧
        Check.Makes body (Checking.initial symbols log) (.convert .condition 1 value target) t ∧
        Check.convertWith (Check.recheckAt 1) value target t =
          .error (.refused (.typeMismatch "bool" "struct\x7bint(32), a: bool\x7d")) final) ∧
      ∃ struct, t.types.HasTy value (.struct struct) := by
  have hruns : ∃ tokens spelled symbols log first first' loop test value target,
      ∃ middle t final : Checking,
      tokenize "p = (1, a: 2 < 3); while (p) \x7b \x7d" = .ok tokens ∧
        parse tokens = .ok spelled ∧
        Frontend.resolve spelled #[] = .ok ([first, loop], symbols) log ∧
        Check.stmt first (Checking.initial symbols log) = .ok first' middle ∧
        Check.test? loop = some test ∧
        (do
          let value ← Check.expr test
          return (value, ← Check.intern Universe.internBool)) middle = .ok (value, target) t ∧
        value.nesting = 0 ∧
        Check.convertWith (Check.recheckAt 1) value target t =
          .error (.refused (.typeMismatch "bool" "struct\x7bint(32), a: bool\x7d")) final :=
    ⟨_, _, _, _, _, _, _, _, _, _, _, _, _, by cbv, by cbv, by cbv, by cbv, by cbv, by cbv,
      by cbv, by cbv⟩
  obtain ⟨tokens, spelled, symbols, log, first, first', loop, test, value, target, middle, t,
    final, htokens, hparse, hresolve, hfirst, htest, hvalue, hnesting, hconvert⟩ := hruns
  have harrives : Check.Arrives [first, loop] (Checking.initial symbols log) loop middle :=
    .later hfirst .here
  have hmakes := Check.Makes.opens harrives (.condition htest hvalue)
  rw [Check.convertCall, hnesting] at hmakes
  refine ⟨tokens, spelled, _, symbols, log, value, target, t, final,
    ⟨htokens, hparse, hresolve, hmakes, hconvert⟩, ?_⟩
  have hends := ends_conversion_of_makes hparse hresolve hmakes
  rcases hends.failed_of_error hconvert with ⟨_, _, hrange⟩ | ⟨-, hstruct, -⟩
  · cases hrange
  · exact hstruct

end FlexWidth
