import FlexWidth.Proofs.Typing.ExprCheck

/-!
# Which types convert to which

Two parts of the checker know about widening.  One looks for the type that two values have
in common, the other makes a value one of a given type, and neither asks the other.
`Ty.ConvertsTo` is what they agree on.  The type in which two operands meet is one to
which both convert (`Ty.convertsTo_join`), and a value whose type converts to another is
made a value of that type, unless a literal does not fit (`failsOnly_convertWith`).

What a step yields is known from its `Checks`.  Here only the ways in which it can fail
matter, so most promises of this module are of the form `FailsOnly`.  A flexible tree that
becomes a truth value is settled first, and there both are told
(`ends_convertWith_bool_flexible`).
-/

namespace FlexWidth

/-! ## Ways to fail -/

section FailsOnly

variable {σ α β : Type} {stage : EStateM Failure σ α} {start : σ} {failed : Failure → Prop}

/-- Run from `start`, the stage fails in no other way than `failed` says. -/
def FailsOnly (stage : EStateM Failure σ α) (start : σ) (failed : Failure → Prop) : Prop :=
  ∀ failure final, stage start = .error failure final → failed failure

theorem failsOnly_of_ok {value : α} {final : σ} (h : stage start = .ok value final) :
    FailsOnly stage start failed := by
  intro failure other hrun
  cases h.symm.trans hrun

theorem Ends.failsOnly {post : α → σ → Prop} {failed' : Failure → σ → Prop}
    (h : Ends stage start post failed')
    (hfailed : ∀ failure final, failed' failure final → failed failure) :
    FailsOnly stage start failed :=
  fun failure final hrun => hfailed failure final (h.failed_of_error hrun)

/-- The second part of a sequence starts where the first part has ended. -/
theorem FailsOnly.bind {next : α → EStateM Failure σ β} (h : FailsOnly stage start failed)
    (hnext : ∀ value middle, stage start = .ok value middle →
      FailsOnly (next value) middle failed) : FailsOnly (stage >>= next) start failed := by
  intro failure final hrun
  cases hstage : stage start with
  | ok value middle =>
      rw [run_bind_ok hstage] at hrun
      exact hnext value middle hstage failure final hrun
  | error other middle =>
      rw [run_bind_error hstage] at hrun
      cases hrun
      exact h failure final hstage

/-- A sequence whose first part is known to succeed. -/
theorem FailsOnly.of_bind {next : α → EStateM Failure σ β} {value : α} {middle : σ}
    (h : stage start = .ok value middle) (hnext : FailsOnly (next value) middle failed) :
    FailsOnly (stage >>= next) start failed := by
  intro failure final hrun
  rw [run_bind_ok h] at hrun
  exact hnext failure final hrun

theorem FailsOnly.weaken {failed' : Failure → Prop} (h : FailsOnly stage start failed)
    (hfailed : ∀ failure, failed failure → failed' failure) : FailsOnly stage start failed' :=
  fun failure final hrun => hfailed failure (h failure final hrun)

/-- What is known of the results and what is known of the failures. -/
theorem Ends.and_failsOnly {post : α → σ → Prop} {failed' : Failure → σ → Prop}
    (h : Ends stage start post failed') (hfails : FailsOnly stage start failed) :
    Ends stage start post fun failure _ => failed failure := by
  cases hrun : stage start with
  | ok value final => exact .of_ok hrun (h.post_of_ok hrun)
  | error failure final => exact .of_error hrun (hfails failure final hrun)

end FailsOnly

/-! ## Types -/

/-- A value of the first type can be made one of the second: it is one already, it is
widened, or it is flexible and takes the width of an integer. -/
inductive Ty.ConvertsTo : Ty → Ty → Prop where
  | same (ty : Ty) : ConvertsTo ty ty
  | widen {source target : Ty} : Check.widens source target = true → ConvertsTo source target
  | flexible (width : Nat) : ConvertsTo .flexible (.int width)

namespace Ty

variable {ty left right : Ty} {width : Nat}

/-- Truth values, flexible values and narrower integers convert to an integer. -/
theorem convertsTo_int (hstruct : ty.struct? = none) (h : ∀ narrow, ty = .int narrow →
    narrow ≤ width) : ty.ConvertsTo (.int width) := by
  cases ty with
  | int narrow =>
      rcases Nat.lt_or_eq_of_le (h narrow rfl) with hlt | rfl
      · exact .widen (decide_eq_true hlt)
      · exact .same _
  | bool => exact .widen rfl
  | flexible => exact .flexible width
  | struct struct => cases hstruct

theorem ConvertsTo.le {narrow : Nat} (h : (int narrow).ConvertsTo (int width)) :
    narrow ≤ width := by
  cases h with
  | same => exact Nat.le_refl _
  | widen hwidens => exact Nat.le_of_lt (of_decide_eq_true hwidens)

theorem ConvertsTo.eq_bool (h : ty.ConvertsTo .bool) : ty = .bool := by
  cases h with
  | same => rfl
  | widen hwidens => cases ty <;> cases hwidens

theorem convertsTo_settled (ty : Ty) : ty.ConvertsTo ty.settled := by
  cases ty with
  | flexible => exact .flexible _
  | int width => exact .same _
  | bool => exact .same _
  | struct struct => exact .same _

theorem le_of_merge_left {narrow : Nat} {other : Option Nat}
    (h : Option.merge max (some narrow) other = some width) : narrow ≤ width := by
  cases other with
  | none =>
      cases h
      exact Nat.le_refl _
  | some wide =>
      cases h
      exact Nat.le_max_left _ _

theorem le_of_merge_right {narrow : Nat} {other : Option Nat}
    (h : Option.merge max other (some narrow) = some width) : narrow ≤ width := by
  cases other with
  | none =>
      cases h
      exact Nat.le_refl _
  | some wide =>
      cases h
      exact Nat.le_max_right _ _

/-- Both types convert to the wider integer among them. -/
theorem convertsTo_of_merge (hleft : left.struct? = none) (hright : right.struct? = none)
    (h : Option.merge max left.intWidth? right.intWidth? = some width) :
    left.ConvertsTo (.int width) ∧ right.ConvertsTo (.int width) := by
  refine ⟨convertsTo_int hleft ?_, convertsTo_int hright ?_⟩
  · rintro narrow rfl
    exact le_of_merge_left h
  · rintro narrow rfl
    exact le_of_merge_right h

/-- **Promotion and conversion agree**: both operands convert to the type in which they
meet. -/
theorem convertsTo_join (hleft : left.struct? = none) (hright : right.struct? = none) :
    left.ConvertsTo (left.join right).settled ∧ right.ConvertsTo (left.join right).settled := by
  unfold join
  split
  · rename_i heq
    subst heq
    exact ⟨convertsTo_settled left, convertsTo_settled left⟩
  · split
    · rename_i width hmerge
      exact convertsTo_of_merge hleft hright hmerge
    · rename_i hmerge
      -- neither is an integer, so any width will do
      have hnone : left.intWidth? = none ∧ right.intWidth? = none := by simpa using hmerge
      refine ⟨convertsTo_int hleft ?_, convertsTo_int hright ?_⟩
      · rintro narrow rfl
        cases hnone.1
      · rintro narrow rfl
        cases hnone.2

end Ty

/-- The expression has been checked and has the type: if that is the flexible one, it is a
flexible tree. -/
def Universe.Checked (types : Universe) (value : Expr) (ty : Ty) : Prop :=
  ∃ id, value.type? = some id ∧ types.get? id = some ty ∧ (ty = .flexible → value.IsFlexible id)

theorem Universe.Checked.grow {types later : Universe} {value : Expr} {ty : Ty}
    (h : types.Checked value ty) (hgrows : types.Grows later) : later.Checked value ty := by
  obtain ⟨id, hid, hty, hflexible⟩ := h
  exact ⟨id, hid, hgrows.get? hty, hflexible⟩

theorem Universe.Checked.hasTy {types : Universe} {value : Expr} {ty : Ty}
    (h : types.Checked value ty) : types.HasTy value ty := by
  obtain ⟨id, hid, hty, -⟩ := h
  exact ⟨id, hid, hty⟩

theorem Universe.Checked.loaded {types : Universe} {value : Expr} {ty : Ty}
    (h : types.Checked value ty) : types.Checked value.loaded ty := by
  obtain ⟨id, hid, hty, hflexible⟩ := h
  refine ⟨id, value.type?_loaded.trans hid, hty, fun heq => ?_⟩
  rw [(hflexible heq).loaded]
  exact hflexible heq

theorem Elaborates.exists_checked {types : Universe} {symbols : SymbolTable}
    {source value : Expr} (hcontext : SoundContext types symbols)
    (h : Elaborates types symbols source value) : ∃ ty, types.Checked value ty := by
  obtain ⟨id, ty, hid, hty, hflexible⟩ := h.exists_type hcontext
  exact ⟨ty, id, hid, hty, hflexible⟩

theorem Elaborates.checked_of_hasTy {types : Universe} {symbols : SymbolTable}
    {source value : Expr} {ty : Ty} (hcontext : SoundContext types symbols)
    (h : Elaborates types symbols source value) (hty : types.HasTy value ty) :
    types.Checked value ty := by
  obtain ⟨id, hid, hid'⟩ := hty
  obtain ⟨ty', other, hother, hother', hflexible⟩ := h.exists_checked hcontext
  cases hid.symm.trans hother
  cases hid'.symm.trans hother'
  exact ⟨id, hid, hid', hflexible⟩

namespace Check

variable {s : Checking} {recheck : Expr → CheckM Expr} {value : Expr} {id target : TypeId}
  {ty targetTy : Ty}

/-! ## Conversion -/

/-- The target of a conversion is never the flexible type. -/
theorem checks_convertWith_of_convertsTo (hs : s.Sound) (hvalue : s.types.Checked value ty)
    (hrecheck : CanRecheck recheck (value.nesting + 1))
    (htarget : s.types.get? target = some targetTy) (hconcrete : targetTy ≠ .flexible)
    (hconverts : ty.ConvertsTo targetTy) :
    Checks (convertWith recheck value target) s fun final later =>
      Converts later.types value target final := by
  obtain ⟨id, hid, hty, hflexible⟩ := hvalue
  refine checks_convertWith hs hid hty hflexible hrecheck htarget hconcrete ?_
  rintro rfl
  cases hconverts.eq_bool
  exact hs.sound.eq_of_get? hty htarget

/-- Whatever converts to a type can be made a value of it, unless a literal does not
fit. -/
theorem failsOnly_convertWith (hs : s.Sound) (hvalue : s.types.Checked value ty)
    (hrecheck : CanRecheck recheck (value.nesting + 1))
    (htarget : s.types.get? target = some targetTy) (hconverts : ty.ConvertsTo targetTy) :
    FailsOnly (convertWith recheck value target) s IsOutOfRange := by
  obtain ⟨id, hid, hty, hflexible⟩ := hvalue
  have hloaded : value.loaded.type? = some id := value.type?_loaded.trans hid
  cases hconverts with
  | same =>
      cases hs.sound.eq_of_get? hty htarget
      rw [convertWith]
      refine .of_bind (run_materialize hid) (.of_bind (run_typeOf hloaded) ?_)
      rw [if_pos rfl]
      exact failsOnly_of_ok (run_pure _ _)
  | widen hwidens =>
      have hne : id ≠ target := by
        rintro rfl
        cases hty.symm.trans htarget
        cases ty <;> simp [widens] at hwidens
      rw [convertWith]
      refine .of_bind (run_materialize hid) (.of_bind (run_typeOf hloaded) ?_)
      rw [if_neg hne]
      refine .of_bind (run_typeAt htarget) ?_
      -- only integers are widened to, and nothing flexible is widened
      have htargetTy : targetTy ≠ .flexible ∧ targetTy ≠ .bool ∧ ty ≠ .flexible := by
        cases ty <;> cases targetTy <;> simp_all [widens]
      rw [if_neg htargetTy.1, if_neg htargetTy.2.1]
      refine .of_bind (run_typeAt hty) ?_
      rw [if_neg htargetTy.2.2, if_pos hwidens]
      obtain ⟨log, hwrap⟩ := exists_run_wrapConversion hs hloaded hty htarget
      exact failsOnly_of_ok hwrap
  | flexible width =>
      have htree := hflexible rfl
      have hretypes := retypes_convertWith htarget hty htree
        (hrecheck hs.sound.toInterned hty htree (Nat.lt_succ_self _) htarget)
      exact Ends.failsOnly hretypes fun _ _ h => h.1.isOutOfRange

section Operands

variable {left right l r : Expr} {leftTy rightTy : Ty}

/-- Both operands are converted to one type. -/
theorem failsOnly_convertOperands (hs : s.Sound) (hl : s.types.Checked l leftTy)
    (hr : s.types.Checked r rightTy) (hrecheck : CanRecheck recheck (max l.nesting r.nesting + 1))
    (htarget : s.types.get? target = some targetTy) (hconcrete : targetTy ≠ .flexible)
    (hlconverts : leftTy.ConvertsTo targetTy) (hrconverts : rightTy.ConvertsTo targetTy) :
    FailsOnly (convertOperands (convertWith recheck) l r target) s IsOutOfRange := by
  have hlrecheck : CanRecheck recheck (l.nesting + 1) := hrecheck.mono (by omega)
  have hrrecheck : CanRecheck recheck (r.nesting + 1) := hrecheck.mono (by omega)
  rw [convertOperands]
  refine (failsOnly_convertWith hs hl hlrecheck htarget hlconverts).bind ?_
  intro l' middle hrun
  have hreaches := ((checks_convertWith_of_convertsTo hs hl hlrecheck htarget hconcrete
    hlconverts).post_of_ok hrun).1
  refine (failsOnly_convertWith hreaches.sound (hr.grow hreaches.grows) hrrecheck
    (hreaches.grows.get? htarget) hrconverts).bind fun _ _ _ => ?_
  exact failsOnly_of_ok (run_pure _ _)

/-- Operands that are not structs always meet. -/
theorem failsOnly_operandType {failed : Failure → Prop} (hs : s.Sound)
    (operatorClass : OperatorClass) {leftType rightType : TypeId}
    (hl : s.types.get? leftType = some leftTy) (hr : s.types.get? rightType = some rightTy)
    (hlstruct : leftTy.struct? = none) (hrstruct : rightTy.struct? = none) :
    FailsOnly (operandType operatorClass leftType rightType) s failed := by
  obtain ⟨promotion, hcommon, hmeets⟩ := run_common hs.sound.toInterned hl hr
  rw [operandType]
  refine .of_bind (run_isFlexible hl) (.of_bind (run_isFlexible hr) (.of_bind hcommon ?_))
  cases promotion with
  | resolved type => exact failsOnly_of_ok (run_pure _ _)
  | stillFlexible =>
      dsimp only
      split
      · exact failsOnly_of_ok (run_pure _ _)
      · exact failsOnly_of_ok (run_bind_ok (run_modifyGet _ _) _)
  | incompatible =>
      cases hmeets with
      | struct hl' hr' _ hstruct =>
          cases hl.symm.trans hl'
          cases hr.symm.trans hr'
          simp [hlstruct, hrstruct] at hstruct

/-- A binary operator without a demand, whose operands are not structs. -/
theorem failsOnly_operands {operator : String} {operatorClass : OperatorClass} (hs : s.Sound)
    (hl : s.types.Checked l leftTy) (hr : s.types.Checked r rightTy)
    (hlstruct : leftTy.struct? = none) (hrstruct : rightTy.struct? = none)
    (hrecheck : CanRecheck recheck (max l.nesting r.nesting + 1)) :
    FailsOnly (operands (convertWith recheck) operator operatorClass l r none) s IsOutOfRange := by
  obtain ⟨leftType, hleftType, hleftTy, -⟩ := id hl
  obtain ⟨rightType, hrightType, hrightTy, -⟩ := id hr
  rw [operands]
  refine .of_bind (run_typeOf hleftType) (.of_bind (run_typeOf hrightType) ?_)
  refine .of_bind (run_refuseStruct hleftTy hlstruct) ?_
  refine .of_bind (run_refuseStruct hrightTy hrstruct) ?_
  refine (failsOnly_operandType hs operatorClass hleftTy hrightTy hlstruct hrstruct).bind ?_
  rintro (_ | target) middle hrun
  · exact failsOnly_of_ok (run_bind_ok (run_modifyGet _ _) _)
  · obtain ⟨hreaches, -, htarget⟩ := (checks_operandType hs operatorClass hleftTy hrightTy
      hlstruct hrstruct).post_of_ok hrun
    obtain ⟨hlconverts, hrconverts⟩ := Ty.convertsTo_join hlstruct hrstruct
    refine (failsOnly_convertOperands hreaches.sound (hl.grow hreaches.grows)
      (hr.grow hreaches.grows) hrecheck htarget (Ty.settled_ne_flexible _) hlconverts
      hrconverts).bind ?_
    intro results later _
    cases operatorClass with
    | arithmetic => exact failsOnly_of_ok (run_pure _ _)
    | relational => exact failsOnly_of_ok (run_bind_ok (run_modifyGet _ _) _)

end Operands

/-- The value of a field becomes one of its own type, or of the default integer. -/
theorem failsOnly_fieldValue (hs : s.Sound) (hvalue : s.types.Checked value ty)
    (hrecheck : CanRecheck recheck (value.nesting + 1)) :
    FailsOnly (fieldValue (convertWith recheck) value) s IsOutOfRange := by
  obtain ⟨id, hid, hty, -⟩ := id hvalue
  rw [fieldValue]
  refine .of_bind (run_typeOf hid) (.of_bind (run_isFlexible hty) ?_)
  by_cases hflexible : ty = .flexible
  · rw [decide_eq_true hflexible, if_pos rfl]
    refine FailsOnly.bind (failsOnly_of_ok (run_modifyGet _ _)) ?_
    intro target middle hrun
    obtain ⟨hreaches, htarget⟩ := (checks_internDefaultInt hs).post_of_ok hrun
    subst hflexible
    exact failsOnly_convertWith hreaches.sound (hvalue.grow hreaches.grows) hrecheck htarget
      (.flexible _)
  · rw [decide_eq_false hflexible, if_neg (by decide)]
    exact failsOnly_of_ok (run_materialize hid)

/-! ## Truth values -/

section Truth

variable (hs : s.Sound) (hflex : s.types.get? id = some .flexible) (hvalue : value.IsFlexible id)
  (hrecheck : CanRecheck recheck (value.nesting + 1))

include hs hflex hvalue hrecheck

/-- A flexible tree becomes a default integer. -/
theorem ends_settle_flexible :
    Ends (settle recheck value id) s
      (fun settled later => s.Reaches later ∧
        ∃ default, s.types.internDefaultInt = (default, later.types) ∧
          later.types.get? default = some (.int Ascription.defaultWidth) ∧
          settled = value.retype default ∧ value.literalsFit Ascription.defaultWidth = true)
      fun failure _ => Blames value Ascription.defaultWidth failure := by
  rw [settle]
  refine .of_bind (run_isFlexible hflex) ?_
  rw [decide_eq_true rfl, if_pos rfl]
  have hrun : intern Universe.internDefaultInt s = .ok s.types.internDefaultInt.1
    { s with types := s.types.internDefaultInt.2 } := rfl
  obtain ⟨hreaches, hdefault⟩ := (checks_internDefaultInt hs).post_of_ok hrun
  refine .of_bind hrun ?_
  refine (hrecheck hreaches.sound.sound.toInterned (hreaches.grows.get? hflex) hvalue
    (Nat.lt_succ_self _) hdefault).weaken ?_ fun _ _ h => h.1
  rintro settled final ⟨rfl, rfl, hfit⟩
  exact ⟨hreaches, _, rfl, hdefault, rfl, hfit⟩

/-- A flexible tree becomes a truth value by way of a default integer. -/
theorem ends_convertWith_bool_flexible (htarget : s.types.get? target = some .bool) :
    Ends (convertWith recheck value target) s
      (fun result later => later.symbols = s.symbols ∧
        ∃ default, s.types.internDefaultInt = (default, later.types) ∧
          later.types.get? default = some (.int Ascription.defaultWidth) ∧
          result = .conversion (value.retype default) (some target) ∧
          value.literalsFit Ascription.defaultWidth = true)
      fun failure _ => Blames value Ascription.defaultWidth failure := by
  have hne : id ≠ target := by
    rintro rfl
    cases hflex.symm.trans htarget
  rw [convertWith]
  refine .of_bind (run_materialize hvalue.type?) ?_
  rw [hvalue.loaded]
  refine .of_bind (run_typeOf hvalue.type?) ?_
  rw [if_neg hne]
  refine .of_bind (run_typeAt htarget) ?_
  rw [if_neg (by simp), if_pos rfl, convertToBool]
  refine (ends_settle_flexible hs hflex hvalue hrecheck).bind ?_
  rintro _ later ⟨hreaches, default, hfound, hdefault, rfl, hfit⟩
  have htype := hvalue.type?_retype default
  refine .of_bind (run_typeOf htype) (.of_bind (run_typeAt hdefault) ?_)
  obtain ⟨log, hwrap⟩ := exists_run_wrapConversion hreaches.sound htype hdefault
    (hreaches.grows.get? htarget)
  exact .of_ok hwrap ⟨hreaches.symbols, default, hfound, hdefault, rfl, hfit⟩

end Truth

end Check

end FlexWidth
