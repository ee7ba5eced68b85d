import FlexWidth.Proofs.Scope.Outcome
import FlexWidth.Proofs.Typing.Promotion
import FlexWidth.Proofs.Typing.Reports
import Mathlib

/-!
# The log of conversions

Conversions are inserted in one place only, and there each one is reported
(`Check.reports_wrapConversion`).  But trees are taken apart again after that: where a part turns
out flexible, it takes a type and is checked once more.  There is no conversion in such a part,
neither before nor after (`Check.Retypes.reports`).  So a conversion stays where it was inserted,
and its report is neither repeated nor lost.

The rest is the way of the check through expressions and statements.  What has been checked before
a part stands beside it, and what is reported for the part adds to it.
-/

namespace FlexWidth

namespace Check

variable {s : Checking} {recheck : Expr → CheckM Expr} {value source : Expr}
  {id target : TypeId} {ty targetTy : Ty}

/-! ## Conversion -/

/-- The one place where conversions are inserted. -/
theorem reports_wrapConversion (hvalue : value.type? = some id) :
    Reports (wrapConversion value target) s value.conversions Expr.conversions := by
  intro result final hrun
  obtain ⟨_, middle, hreport, hpure⟩ := bind_eq_ok_iff.mp hrun
  cases hpure
  rw [reportConversion, hvalue] at hreport
  change (describe id >>= _) s = _ at hreport
  obtain ⟨text, _, hsource, hrest⟩ := bind_eq_ok_iff.mp hreport
  obtain ⟨rfl, htext⟩ := describe?_of_run_describe hsource
  obtain ⟨text', _, htarget, hnote⟩ := bind_eq_ok_iff.mp hrest
  obtain ⟨rfl, htext'⟩ := describe?_of_run_describe htarget
  cases hnote
  refine ⟨{.conversion value (some target)}, ⟨.refl _, ?_⟩, Expr.conversions_conversion _ _⟩
  simp [Universe.report?, hvalue, htext, htext', Event.isConversion]

/-- A flexible tree that takes a type has no conversions, before and after. -/
theorem Retypes.reports {stage : CheckM Expr} {flex : TypeId} {width : Nat}
    (h : Retypes stage s value target width) (hvalue : value.IsFlexible flex) :
    Reports stage s value.conversions Expr.conversions := by
  intro result final hrun
  obtain ⟨rfl, rfl, -⟩ := Ends.post_of_ok h hrun
  exact ⟨0, .refl _, by rw [hvalue.conversions_retype, hvalue.conversions, add_zero]⟩

theorem reports_materialize (hvalue : value.type? = some id) :
    Reports (materialize value) s value.conversions Expr.conversions := by
  intro result final hrun
  cases (run_materialize hvalue).symm.trans hrun
  exact ⟨0, .refl s, by rw [value.conversions_loaded, add_zero]⟩

theorem reports_settle (hs : s.Sound) (hvalue : s.types.Checked value ty)
    (hrecheck : CanRecheck recheck (value.nesting + 1)) (hid : value.type? = some id) :
    Reports (settle recheck value.loaded id) s value.conversions Expr.conversions := by
  obtain ⟨id', hid', hty, hflexible⟩ := hvalue
  cases hid.symm.trans hid'
  rw [settle]
  refine .of_bind (run_isFlexible hty) ?_
  split
  · rename_i hcase
    have hcase : ty = .flexible := of_decide_eq_true hcase
    subst hcase
    have htree := hflexible rfl
    rw [htree.loaded]
    refine quiet_internDefaultInt.bind_reports fun default middle hrun => ?_
    obtain ⟨hreaches, hdefault⟩ := (checks_internDefaultInt hs).post_of_ok hrun
    exact Retypes.reports (hrecheck hreaches.sound.sound.toInterned (hreaches.grows.get? hty)
      htree (Nat.lt_succ_self _) hdefault) htree
  · exact reports_pure value.conversions_loaded

theorem reports_convertToBool (hs : s.Sound) (hvalue : s.types.Checked value ty)
    (hrecheck : CanRecheck recheck (value.nesting + 1)) (hid : value.type? = some id) :
    Reports (convertToBool recheck value.loaded id target) s value.conversions
      Expr.conversions := by
  refine (reports_settle hs hvalue hrecheck hid).bind fun settled middle _ => ?_
  intro result final hrun
  -- whatever has been settled has a type, or the check stops
  obtain ⟨current, later, hcurrent, hrest⟩ := bind_eq_ok_iff.mp hrun
  obtain ⟨rfl, htype⟩ := eq_of_run_orRefuse hcurrent
  refine Quiet.bind_reports (quiet_typeAt current) (fun currentTy last _ => ?_) result final hrest
  cases currentTy with
  | int width => exact reports_wrapConversion htype
  | bool => exact reports_of_yields (yields_mismatch _ _)
  | flexible => exact reports_of_yields (yields_mismatch _ _)
  | struct struct => exact reports_of_yields (yields_mismatch _ _)

theorem reports_convertWith (hs : s.Sound) (hvalue : s.types.Checked value ty)
    (hrecheck : CanRecheck recheck (value.nesting + 1))
    (htarget : s.types.get? target = some targetTy) :
    Reports (convertWith recheck value target) s value.conversions Expr.conversions := by
  obtain ⟨id, hid, hty, hflexible⟩ := hvalue
  have hloaded : value.loaded.type? = some id := value.type?_loaded.trans hid
  have hkept (state : Checking) :
      Reports (pure value.loaded) state value.conversions Expr.conversions :=
    reports_pure value.conversions_loaded
  rw [convertWith]
  refine .of_bind (run_materialize hid) (.of_bind (run_typeOf hloaded) ?_)
  split
  · exact hkept s
  refine .of_bind (run_typeAt htarget) ?_
  split
  · exact hkept s
  split
  · exact reports_convertToBool hs ⟨id, hid, hty, hflexible⟩ hrecheck hid
  refine .of_bind (run_typeAt hty) ?_
  split
  · rename_i hcase
    subst hcase
    split
    · exact reports_of_yields (yields_mismatch _ _)
    · -- what is neither flexible, a truth value nor a struct is an integer
      obtain ⟨width, rfl⟩ : ∃ width, targetTy = .int width := by
        cases targetTy <;> simp_all [Ty.struct?]
      have htree := hflexible rfl
      rw [htree.loaded]
      exact Retypes.reports (hrecheck hs.sound.toInterned hty htree (Nat.lt_succ_self _) htarget)
        htree
  · split
    · rw [← value.conversions_loaded]
      exact reports_wrapConversion hloaded
    · exact reports_of_yields (yields_mismatch _ _)

/-! ## Nodes of expressions -/

section Nodes

variable {left right l r : Expr} {leftTy rightTy : Ty}

theorem reports_signOperand (hvalue : s.types.Checked value ty) (operator : String) :
    Reports (signOperand (convertWith recheck) operator value none) s value.conversions
      Expr.conversions := by
  obtain ⟨id, hid, hty, -⟩ := hvalue
  rw [signOperand]
  refine .of_bind (run_typeOf hid) ((quiet_refuseStruct id).bind_reports fun _ middle hrun => ?_)
  refine (quiet_isFlexible id).bind_reports fun flexible later hrun => ?_
  refine .of_bind (run_materialize hid) (reports_pure ?_)
  rw [Expr.conversions_unary, Expr.conversions_loaded]

theorem reports_convertOperands (hs : s.Sound) (hl : Elaborates s.types s.symbols left l)
    (hr : Elaborates s.types s.symbols right r)
    (hrecheck : CanRecheck recheck (max l.nesting r.nesting + 1))
    (htarget : s.types.get? target = some targetTy) (hconcrete : targetTy ≠ .flexible)
    (hbool : targetTy = .bool → s.types.HasTy l .bool) :
    Reports (convertOperands (convertWith recheck) l r target) s (l.conversions + r.conversions)
      fun result => result.1.conversions + result.2.conversions := by
  have hlrecheck : CanRecheck recheck (l.nesting + 1) := hrecheck.mono (by omega)
  have hrrecheck : CanRecheck recheck (r.nesting + 1) := hrecheck.mono (by omega)
  obtain ⟨leftTy, hlchecked⟩ := hl.exists_checked hs
  obtain ⟨rightTy, hrchecked⟩ := hr.exists_checked hs
  rw [convertOperands, add_comm]
  refine ((reports_convertWith hs hlchecked hlrecheck htarget).beside r.conversions).bind
    fun l' middle hrun => ?_
  have hreaches := ((checks_convertWith_of_elaborates hs hl hlrecheck htarget hconcrete
    hbool).post_of_ok hrun).1
  rw [add_comm]
  exact ((reports_convertWith hreaches.sound (hrchecked.grow hreaches.grows) hrrecheck
    (hreaches.grows.get? htarget)).beside l'.conversions).bind_pure fun _ => rfl

theorem reports_operands {operator : String} {operatorClass : OperatorClass} (hs : s.Sound)
    (hl : Elaborates s.types s.symbols left l) (hr : Elaborates s.types s.symbols right r)
    (hrecheck : CanRecheck recheck (max l.nesting r.nesting + 1)) :
    Reports (operands (convertWith recheck) operator operatorClass l r none) s
      (l.conversions + r.conversions) Expr.conversions := by
  obtain ⟨leftTy, leftType, hleftType, hleftTy, -⟩ := hl.exists_checked hs
  obtain ⟨rightTy, rightType, hrightType, hrightTy, -⟩ := hr.exists_checked hs
  rw [operands]
  refine .of_bind (run_typeOf hleftType) (.of_bind (run_typeOf hrightType) ?_)
  refine (quiet_refuseStruct leftType).bind_reports fun _ middle hrun => ?_
  obtain ⟨-, rfl, hlstruct⟩ := (checks_refuseStruct hs hleftTy).post_of_ok hrun
  refine (quiet_refuseStruct rightType).bind_reports fun _ middle hrun => ?_
  obtain ⟨-, rfl, hrstruct⟩ := (checks_refuseStruct hs hrightTy).post_of_ok hrun
  refine (quiet_operandType operatorClass leftType rightType).bind_reports ?_
  rintro (_ | target) middle hrun
  · exact quiet_internFlexible.bind_reports fun _ _ _ =>
      reports_pure (Expr.conversions_binary l r _ operator)
  · obtain ⟨hreaches, -, htarget⟩ := (checks_operandType hs operatorClass hleftTy hrightTy
      hlstruct hrstruct).post_of_ok hrun
    refine (reports_convertOperands hreaches.sound (hl.reach hreaches) (hr.reach hreaches)
      hrecheck htarget (Ty.settled_ne_flexible _) fun hbool => ?_).bind fun result _ _ => ?_
    · have hboth := eq_bool_of_join_settled hbool
      exact ⟨leftType, hleftType, hboth.1 ▸ hreaches.grows.get? hleftTy⟩
    · cases operatorClass with
      | arithmetic => exact reports_pure (Expr.conversions_binary _ _ _ operator)
      | relational =>
          exact quiet_internBool.bind_reports fun _ _ _ =>
            reports_pure (Expr.conversions_binary _ _ _ operator)

theorem reports_fieldValue (hs : s.Sound) (hvalue : s.types.Checked value ty)
    (hrecheck : CanRecheck recheck (value.nesting + 1)) :
    Reports (fieldValue (convertWith recheck) value) s value.conversions Expr.conversions := by
  obtain ⟨id, hid, hty, -⟩ := id hvalue
  rw [fieldValue]
  refine .of_bind (run_typeOf hid) (.of_bind (run_isFlexible hty) ?_)
  split
  · refine quiet_internDefaultInt.bind_reports fun target middle hrun => ?_
    obtain ⟨hreaches, htarget⟩ := (checks_internDefaultInt hs).post_of_ok hrun
    exact reports_convertWith hreaches.sound (hvalue.grow hreaches.grows) hrecheck htarget
  · exact reports_materialize hid

theorem reports_namedField (base : Expr) (field : String) :
    Reports (namedField base field) s base.conversions Expr.conversions := by
  refine (quiet_typeOf base).bind_reports fun type _ _ => ?_
  refine (quiet_structOf type).bind_reports fun struct _ _ => ?_
  split
  · exact (quiet_orFault _ _).bind_reports fun _ _ _ =>
      reports_pure (Expr.conversions_dot base _ field _)
  · exact reports_of_yields (.of_forall fun _ => yields_refuse _)

theorem reports_positionedField (base : Expr) (position : Nat) :
    Reports (positionedField base position) s base.conversions Expr.conversions := by
  refine (quiet_typeOf base).bind_reports fun type _ _ => ?_
  refine (quiet_structOf type).bind_reports fun struct _ _ => ?_
  split
  · exact reports_pure (Expr.conversions_index base _ position)
  · exact reports_of_yields (.of_forall fun _ => yields_refuse _)

/-- The fields of a struct literal, if each of them is reported. -/
theorem reports_glueFields {fields : GlueFields}
    (hfields : ∀ field ∈ fields, ∀ middle : Checking, s.Reaches middle →
      Reports (tree recheck field.2) middle 0 Expr.conversions ∧
        Infers (tree recheck field.2) middle field.2)
    (hrecheck : CanRecheck recheck (Expr.fieldsNesting fields + 1)) (position : Nat)
    (names : FieldNames) (hs : s.Sound) :
    Reports (glueFields recheck position names fields) s 0 fun result =>
      conversionsAmong (Expr.fieldNodes result.1) := by
  induction fields generalizing s position names with
  | nil => exact reports_pure rfl
  | cons field rest ih =>
      obtain ⟨name, value⟩ := field
      rw [Expr.fieldsNesting] at hrecheck
      obtain ⟨hfirst, hrest⟩ := List.forall_mem_cons.mp hfields
      rw [glueFields]
      refine (quiet_addName names position name).bind_reports fun names' middle hrun => ?_
      obtain ⟨-, rfl, -⟩ := (checks_addName hs names position name).post_of_ok hrun
      obtain ⟨hreports, hinfers⟩ := hfirst _ hs.reaches
      refine hreports.bind fun checked middle hrun => ?_
      obtain ⟨hreaches, hchecked⟩ := hinfers.post_of_ok hrun
      have hchecking : CanRecheck recheck (checked.nesting + 1) := by
        rw [hchecked.nesting]
        exact hrecheck.mono (Nat.succ_le_succ (Nat.le_max_left _ _))
      obtain ⟨ty, hty⟩ := hchecked.exists_checked hreaches.sound
      refine (reports_fieldValue hreaches.sound hty hchecking).bind fun final later hrun => ?_
      obtain ⟨hreaches', _, _, -, -, hfinal⟩ :=
        (checks_fieldValue hreaches.sound hchecked hchecking).post_of_ok hrun
      refine .of_bind (run_typeOf hfinal.type?) ?_
      have hpath := hreaches.trans hreaches'
      have hothers := ih (fun field hfield state hstate => hrest field hfield state
        (hpath.trans hstate)) (hrecheck.mono (by omega)) (position + 1) names' hpath.sound
      refine (hothers.afterwards final.conversions).bind_pure fun result => ?_
      rw [Expr.fieldNodes, conversionsAmong_append]
      rfl

end Nodes

/-! ## Expressions -/

/-- A literal without a type becomes flexible. -/
theorem reports_flexibleLiteral (hs : s.Sound) (number : Nat) (negated : Bool) :
    Reports (do
      let type ← orFlexible none
      fits number type negated
      return .literal number (some type)) s 0 Expr.conversions := by
  refine quiet_internFlexible.bind_reports fun type middle hrun => ?_
  have hflexible := ((checks_orFlexible hs).post_of_ok hrun).2
  exact .of_bind (run_fits_flexible hflexible number negated)
    (reports_pure (Expr.conversions_literal _ number))

theorem reports_sign {operand : Expr} (hoperand : operand.Bare) (hs : s.Sound)
    (h : Reports (tree recheck operand) s 0 Expr.conversions)
    (hrecheck : CanRecheck recheck operand.nesting) :
    Reports (tree recheck (.unary "-" operand none)) s 0 Expr.conversions := by
  -- a literal right under a sign has a rule of its own
  cases operand with
  | literal number own =>
      cases hoperand
      rw [tree_negatedLiteral, demandOf_none_bind]
      have hliteral : Reports (negatedLiteral number none none) s 0 Expr.conversions :=
        reports_flexibleLiteral hs number true
      refine hliteral.bind fun checked middle hrun => ?_
      obtain ⟨hreaches, hchecked⟩ := (checks_negatedLiteral hs number).post_of_ok hrun
      obtain ⟨ty, hty⟩ := hchecked.exists_checked hreaches.sound
      exact reports_signOperand hty "-"
  | _ =>
      rw [tree_sign recheck (by simp), demandOf_none_bind]
      refine h.bind fun checked middle hrun => ?_
      obtain ⟨hreaches, hchecked⟩ := (infers_tree hoperand hs hrecheck).post_of_ok hrun
      obtain ⟨ty, hty⟩ := hchecked.exists_checked hreaches.sound
      exact reports_signOperand hty "-"

/-- **Conversions in an expression** are those that are reported while it is checked. -/
theorem reports_tree (hbare : value.Bare) (hs : s.Sound)
    (hrecheck : CanRecheck recheck value.nesting) :
    Reports (tree recheck value) s 0 Expr.conversions := by
  induction hbare generalizing s with
  | @literal number _ =>
      rw [tree, demandOf_none_bind]
      exact reports_flexibleLiteral hs number false
  | @var name symbol =>
      rw [tree, demandOf_none_bind]
      refine (quiet_orRefuse _ _).bind_reports fun symbol _ _ => ?_
      refine (quiet_symbolType? symbol).bind_reports fun found _ _ => ?_
      exact (quiet_orRefuse _ _).bind_reports fun type _ _ =>
        reports_pure (Expr.conversions_var _ name _)
  | read =>
      rw [tree, demandOf_none_bind]
      refine quiet_internFlexible.bind_reports fun type middle hrun => ?_
      have hflexible := ((checks_orFlexible hs).post_of_ok hrun).2
      exact .of_bind (run_typeAt hflexible) (reports_pure (Expr.conversions_read _))
  | @unary operator operand hoperand ih =>
      rw [Expr.nesting] at hrecheck
      have hinside : CanRecheck recheck operand.nesting := hrecheck.mono (Nat.le_succ _)
      by_cases hsign : operator = "-"
      · subst hsign
        exact reports_sign hoperand hs (ih hs hinside) hinside
      · rw [tree, demandOf_none_bind]
        rw [if_neg hsign]
        exact reports_of_yields (yields_refuse _)
  | @binary operator left right hleft hright ihleft ihright =>
      rw [Expr.nesting] at hrecheck
      have hlrecheck : CanRecheck recheck left.nesting := hrecheck.mono (by omega)
      have hrrecheck : CanRecheck recheck right.nesting := hrecheck.mono (by omega)
      rw [tree, demandOf_none_bind]
      refine (quiet_orRefuse _ _).bind_reports fun operatorClass middle hrun => ?_
      obtain ⟨rfl, -⟩ := eq_of_run_orRefuse hrun
      refine (ihleft hs hlrecheck).bind fun l middle hrun => ?_
      obtain ⟨hreaches, hl⟩ := (infers_tree hleft hs hlrecheck).post_of_ok hrun
      refine ((ihright hreaches.sound hrrecheck).afterwards l.conversions).bind
        fun r final hrun => ?_
      obtain ⟨hreaches', hr⟩ := (infers_tree hright hreaches.sound hrrecheck).post_of_ok hrun
      refine reports_operands hreaches'.sound (hl.reach hreaches') hr ?_
      rwa [hl.nesting, hr.nesting]
  | @glue fields hfields ih =>
      rw [Expr.nesting] at hrecheck
      have hinside {field : Option String × Expr} (hfield : field ∈ fields) :
          CanRecheck recheck field.2.nesting :=
        hrecheck.mono (Nat.le_succ_of_le (Expr.nesting_le_fieldsNesting hfield))
      rw [tree, demandOf_none_bind]
      refine Reports.bind (reports_glueFields (fun field hfield middle hreaches => ?_) hrecheck
        0 .empty hs) fun result _ _ => ?_
      · exact ⟨ih field hfield hreaches.sound (hinside hfield),
          infers_tree (hfields field hfield) hreaches.sound (hinside hfield)⟩
      · exact (quiet_intern (Universe.internStruct_eq_intern _)).bind_reports fun _ _ _ =>
          reports_pure (Expr.conversions_glue _ _)
  | @dot base field hbase ih =>
      rw [Expr.nesting] at hrecheck
      rw [tree, demandOf_none_bind]
      exact (ih hs hrecheck).bind fun checked _ _ => reports_namedField checked field
  | @index base position hbase ih =>
      rw [Expr.nesting] at hrecheck
      rw [tree, demandOf_none_bind]
      exact (ih hs hrecheck).bind fun checked _ _ => reports_positionedField checked position

theorem reports_expr (hbare : source.Bare) (hs : s.Sound) :
    Reports (expr source) s 0 Expr.conversions := by
  rw [expr, within_eq_tree]
  exact reports_tree hbare hs (canRecheck_recheckAt (Nat.le_refl _))

/-! ## Values of variables -/

theorem reports_convert (hs : s.Sound) (h : Elaborates s.types s.symbols source value)
    (htarget : s.types.get? target = some targetTy) :
    Reports (convert value target) s value.conversions Expr.conversions := by
  obtain ⟨ty, hvalue⟩ := h.exists_checked hs
  exact reports_convertWith hs hvalue (canRecheck_within value.nesting) htarget

theorem reports_defaultInt (hs : s.Sound) (h : Elaborates s.types s.symbols source value) :
    Reports (defaultInt value) s value.conversions Expr.conversions := by
  refine quiet_internDefaultInt.bind_reports fun target middle hrun => ?_
  obtain ⟨hreaches, htarget⟩ := (checks_internDefaultInt hs).post_of_ok hrun
  exact reports_convert hreaches.sound (h.reach hreaches) htarget

theorem reports_storeTyped (hs : s.Sound) (h : Elaborates s.types s.symbols source value)
    (htarget : s.types.Concrete target) :
    Reports (storeTyped target value) s value.conversions Expr.conversions := by
  obtain ⟨id, ty, hid, hty, -⟩ := h.exists_type hs
  obtain ⟨targetTy, htargetTy, -⟩ := htarget
  obtain ⟨promotion, hcommon, -⟩ := run_common hs.sound.toInterned htargetTy hty
  rw [storeTyped]
  refine .of_bind (run_typeOf hid) (.of_bind hcommon ?_)
  split
  · exact reports_convert hs h htargetTy
  · exact reports_of_yields (yields_mismatch _ _)

theorem reports_storeFirst (hs : s.Sound) (h : Elaborates s.types s.symbols source value)
    (name : String) (symbol : SymbolId) :
    Reports (storeFirst name symbol value) s value.conversions Expr.conversions := by
  obtain ⟨id, ty, hid, hty, -⟩ := h.exists_type hs
  rw [storeFirst]
  refine .of_bind (run_typeOf hid) ((quiet_firstType name id).bind_reports ?_)
  intro type middle hrun
  obtain ⟨hreaches, htype⟩ := (checks_firstType hs hty name).post_of_ok hrun
  refine (quiet_setSymbolType symbol type).bind_reports fun _ later hrun => ?_
  obtain ⟨hlater, hadvances, htypes⟩ := (secures_setSymbolType hreaches.sound
    ⟨_, htype, ty.settled_ne_flexible⟩ symbol).post_of_ok hrun
  have hpath := hreaches.advances.trans hadvances
  exact reports_convert hlater (h.grow hpath.grows hpath.keeps) (htypes ▸ htype)

theorem reports_bindingValue (hbare : source.Bare) (hs : s.Sound) (name : String)
    (written : Option Ascription) (symbol : SymbolId) :
    Reports (bindingValue name written source symbol) s 0 fun result =>
      result.1.conversions := by
  refine (reports_expr hbare hs).bind fun checked middle _ => ?_
  refine (quiet_declareType name symbol written).bind_reports fun _ later _ => ?_
  exact (quiet_symbolType? symbol).bind_reports fun _ _ _ => reports_pure rfl

theorem reports_binding {form : BindingForm} {name : String} {written : Option Ascription}
    {values : Option Expr} (hbare : ∀ value ∈ values, value.Bare) (hs : s.Sound)
    (symbol : Option SymbolId) :
    Reports (stmt (.bind form name written values symbol)) s 0 fun result =>
      conversionsAmong result.nodes := by
  cases symbol with
  | none =>
      rw [stmt]
      intro result final hrun
      cases hrun
  | some symbol =>
      cases values with
      | none =>
          rw [stmt]
          refine .of_bind (run_orRefuse_some _ _ s) (.of_bind (run_pure _ s) ?_)
          refine (quiet_declareType name symbol written).bind_reports fun _ middle _ => ?_
          have hstore : Reports (store name symbol none) middle 0 fun value =>
              conversionsAmong (value.toList.flatMap Expr.nodes) := by
            refine (quiet_symbolType? symbol).bind_reports fun found later _ => ?_
            cases found with
            | some type => exact reports_pure rfl
            | none => exact reports_of_yields (yields_refuse _)
          refine hstore.bind_pure fun value => ?_
          rw [Stmt.nodes]
      | some value =>
          have hvalue := hbare value rfl
          have hnodes (final : Expr) : conversionsAmong
              (Stmt.bind form name written (some final) (some symbol)).nodes =
                final.conversions := by
            rw [Stmt.nodes]
            exact congrArg conversionsAmong (List.append_nil _)
          rw [stmt_bind_eq]
          refine (reports_bindingValue hvalue hs name written symbol).bind ?_
          rintro ⟨checked, found⟩ middle hrun
          obtain ⟨hmiddle, -, hchecked, hfound⟩ :=
            (secures_bindingValue hvalue hs name written symbol).post_of_ok hrun
          cases found with
          | some type =>
              exact (reports_storeTyped hmiddle hchecked (hmiddle.concrete hfound)).bind_pure hnodes
          | none => exact (reports_storeFirst hmiddle hchecked name symbol).bind_pure hnodes

/-! ## Bounds of loops -/

section Bounds

variable {bounds checked : List Expr}

theorem reports_exprs (hbare : ∀ bound ∈ bounds, bound.Bare) (hs : s.Sound) :
    Reports (exprs bounds) s 0 fun result => conversionsAmong (result.flatMap Expr.nodes) := by
  induction bounds generalizing s with
  | nil => exact reports_pure rfl
  | cons first rest ih =>
      obtain ⟨hfirst, hrest⟩ := List.forall_mem_cons.mp hbare
      refine (reports_expr hfirst hs).bind fun checked middle hrun => ?_
      have hmiddle := ((checksOr_expr hfirst hs).post_of_ok hrun).1.sound
      refine ((ih hrest hmiddle).afterwards checked.conversions).bind_pure fun result => ?_
      rw [List.flatMap_cons, conversionsAmong_append]
      rfl

theorem reports_convertAll {width : Nat}
    (h : List.Forall₂ (Elaborates s.types s.symbols) bounds checked) (hs : s.Sound)
    (htarget : s.types.get? target = some (.int width)) :
    Reports (convertAll target checked) s (conversionsAmong (checked.flatMap Expr.nodes))
      fun result => conversionsAmong (result.flatMap Expr.nodes) := by
  induction checked generalizing s bounds with
  | nil => exact reports_pure rfl
  | cons first rest ih =>
      cases h with
      | cons hfirst hrest =>
          rw [convertAll, List.flatMap_cons, conversionsAmong_append, add_comm]
          refine ((reports_convert hs hfirst htarget).beside _).bind fun value middle hrun => ?_
          have hreaches := ((checks_convert hs hfirst htarget (by simp) (by simp)).post_of_ok
            hrun).1
          rw [add_comm]
          refine ((ih (hrest.imp fun _ _ h => h.reach hreaches) hreaches.sound
            (hreaches.grows.get? htarget)).beside value.conversions).bind_pure fun result => ?_
          rw [List.flatMap_cons, conversionsAmong_append]
          rfl

theorem reports_loopBounds (hbare : ∀ bound ∈ bounds, bound.Bare) (hs : s.Sound)
    (name : String) (symbol : SymbolId) :
    Reports (loopBounds name symbol bounds) s 0 fun result =>
      conversionsAmong (result.flatMap Expr.nodes) := by
  rw [loopBounds]
  refine (reports_exprs hbare hs).bind fun checked middle hrun => ?_
  obtain ⟨hreaches, hchecked⟩ := (checksOr_bareExprs hbare hs).post_of_ok hrun
  refine (quiet_loopType name checked).bind_reports fun type later hrun => ?_
  obtain ⟨hreaches', width, htype, -⟩ :=
    (checks_loopType hchecked hreaches.sound name).post_of_ok hrun
  refine (quiet_setSymbolType symbol type).bind_reports fun done final hrun => ?_
  obtain ⟨hfinal, hadvances, htypes⟩ :=
    (secures_setSymbolType hreaches'.sound ⟨_, htype, by simp⟩ symbol).post_of_ok hrun
  have hpath := hreaches'.advances.trans hadvances
  split
  · exact reports_convertAll (hchecked.imp fun _ _ h => h.grow hpath.grows hpath.keeps) hfinal
      (htypes ▸ htype)
  · exact reports_of_yields (yields_refuse _)

end Bounds

/-! ## Statements -/

theorem reports_condition (hbare : source.Bare) (hs : s.Sound) :
    Reports (condition source) s 0 Expr.conversions := by
  refine (reports_expr hbare hs).bind fun checked middle hrun => ?_
  obtain ⟨hreaches, hchecked⟩ := (checksOr_expr hbare hs).post_of_ok hrun
  refine quiet_internBool.bind_reports fun boolean later hrun => ?_
  obtain ⟨hreaches', hboolean⟩ := (checks_internBool hreaches.sound).post_of_ok hrun
  exact reports_convert hreaches'.sound (hchecked.reach hreaches') hboolean

theorem reports_printed (hbare : source.Bare) (hs : s.Sound) :
    Reports (printed source) s 0 Expr.conversions := by
  refine (reports_expr hbare hs).bind fun checked middle hrun => ?_
  obtain ⟨hreaches, hchecked⟩ := (checksOr_expr hbare hs).post_of_ok hrun
  obtain ⟨id, ty, hid, hty, -⟩ := hchecked.exists_type hreaches.sound
  refine .of_bind (run_typeOf hid) (.of_bind (run_typeAt hty) ?_)
  cases ty with
  | flexible => exact reports_defaultInt hreaches.sound hchecked
  | bool => exact reports_defaultInt hreaches.sound hchecked
  | int width => exact reports_materialize hid
  | struct struct => exact reports_of_yields (.of_forall fun _ => yields_refuse _)

theorem reports_evaluated (hbare : source.Bare) (hs : s.Sound) :
    Reports (evaluated source) s 0 Expr.conversions := by
  refine (reports_expr hbare hs).bind fun checked middle hrun => ?_
  obtain ⟨hreaches, hchecked⟩ := (checksOr_expr hbare hs).post_of_ok hrun
  obtain ⟨id, ty, hid, hty, -⟩ := hchecked.exists_type hreaches.sound
  refine .of_bind (run_typeOf hid) (.of_bind (run_isFlexible hty) ?_)
  split
  · exact reports_defaultInt hreaches.sound hchecked
  · exact reports_pure rfl

mutual

/-- **Conversions in a statement** are those that are reported while it is checked. -/
theorem reports_stmt : (st : Stmt) → (∀ value ∈ st.roots, value.Bare) → {s : Checking} →
    s.Sound → Reports (stmt st) s 0 fun result => conversionsAmong result.nodes
  | .bind _ _ _ values symbol, hbare, s, hs => by
      refine reports_binding (fun value hvalue => hbare value ?_) hs symbol
      rw [Stmt.roots, Option.mem_toList]
      exact hvalue
  | .print value, hbare, s, hs => by
      rw [stmt]
      refine (reports_printed (hbare value List.mem_cons_self) hs).bind_pure fun result => ?_
      rw [Stmt.nodes]
      rfl
  | .evaluate value, hbare, s, hs => by
      rw [stmt]
      refine (reports_evaluated (hbare value List.mem_cons_self) hs).bind_pure fun result => ?_
      rw [Stmt.nodes]
      rfl
  | .branch test yes none, hbare, s, hs => by
      obtain ⟨htest, hyes⟩ := List.forall_mem_cons.mp hbare
      rw [stmt]
      refine (reports_condition htest hs).bind fun checked middle hrun => ?_
      have hmiddle := ((secures_condition htest hs).post_of_ok hrun).1
      refine ((reports_stmts yes hyes hmiddle).afterwards _).bind_pure fun result => ?_
      rw [Stmt.nodes, conversionsAmong_append]
      rfl
  | .branch test yes (some no), hbare, s, hs => by
      obtain ⟨htest, hbodies⟩ := List.forall_mem_cons.mp hbare
      obtain ⟨hyes, hno⟩ := List.forall_mem_append.mp hbodies
      rw [stmt]
      refine (reports_condition htest hs).bind fun checked middle hrun => ?_
      have hmiddle := ((secures_condition htest hs).post_of_ok hrun).1
      refine ((reports_stmts yes hyes hmiddle).afterwards _).bind fun result later hrun => ?_
      have hlater := ((secures_stmts yes hyes hmiddle).post_of_ok hrun).1
      refine ((reports_stmts no hno hlater).afterwards _).bind_pure fun result => ?_
      rw [Stmt.nodes, conversionsAmong_append, conversionsAmong_append]
      rfl
  | .whileLoop test body, hbare, s, hs => by
      obtain ⟨htest, hbody⟩ := List.forall_mem_cons.mp hbare
      rw [stmt]
      refine (reports_condition htest hs).bind fun checked middle hrun => ?_
      have hmiddle := ((secures_condition htest hs).post_of_ok hrun).1
      refine ((reports_stmts body hbody hmiddle).afterwards _).bind_pure fun result => ?_
      rw [Stmt.nodes, conversionsAmong_append]
      rfl
  | .forLoop name symbol bounds body, hbare, s, hs => by
      obtain ⟨hbounds, hbody⟩ := List.forall_mem_append.mp hbare
      rw [stmt]
      refine (quiet_orRefuse _ _).bind_reports fun symbol middle hrun => ?_
      obtain ⟨rfl, -⟩ := eq_of_run_orRefuse hrun
      refine (reports_loopBounds hbounds hs name symbol).bind fun checked later hrun => ?_
      have hlater := ((secures_loopBounds hbounds hs name symbol).post_of_ok hrun).1
      refine ((reports_stmts body hbody hlater).afterwards _).bind_pure fun result => ?_
      rw [Stmt.nodes, conversionsAmong_append]
  | .block body, hbare, s, hs => by
      rw [stmt]
      refine (reports_stmts body hbare hs).bind_pure fun result => ?_
      rw [Stmt.nodes]

theorem reports_stmts : (body : List Stmt) → (∀ value ∈ Stmt.bodyRoots body, value.Bare) →
    {s : Checking} → s.Sound →
    Reports (stmts body) s 0 fun result => conversionsAmong (Stmt.bodyNodes result)
  | [], _, _, _ => by
      rw [stmts]
      exact reports_pure rfl
  | first :: rest, hbare, _, hs => by
      obtain ⟨hfirst, hrest⟩ := List.forall_mem_append.mp hbare
      rw [stmts]
      refine (reports_stmt first hfirst hs).bind fun checked middle hrun => ?_
      have hmiddle := ((secures_stmt first hfirst hs).post_of_ok hrun).1
      refine ((reports_stmts rest hrest hmiddle).afterwards _).bind_pure fun result => ?_
      rw [Stmt.bodyNodes, conversionsAmong_append]

end

theorem reports_program {body : Program} (hbare : ∀ value ∈ Stmt.bodyRoots body, value.Bare)
    (hs : s.Sound) :
    Reports (program body) s 0 fun result => conversionsAmong (Stmt.bodyNodes result) := by
  refine (reports_stmts body hbare hs).bind fun result _ _ => ?_
  refine quiet_get.bind_reports fun _ _ _ => ?_
  exact (quiet_note rfl).bind_reports fun _ _ _ => reports_pure rfl

end Check

/-! ## Programs -/

/-- Resolution reports no conversion. -/
theorem reportedConversions_of_resolve {spelled : Program} {result : Program × SymbolTable}
    {start log : Array Event} (h : Frontend.resolve spelled start = .ok result log) :
    reportedConversions log = reportedConversions start := by
  obtain ⟨middle, ⟨events, rfl, hevents⟩, rfl⟩ := (Frontend.ends_resolve spelled start).post_of_ok h
  have hnone : events.toList.filter Event.isConversion = [] := by
    refine List.filter_eq_nil_iff.mpr fun event hevent => ?_
    obtain ⟨name, symbol, depth, rfl⟩ := hevents event (Array.mem_toList_iff.mp hevent)
    exact Bool.false_ne_true
  simp [reportedConversions, hnone, Event.isConversion]

/-- **The log of conversions is exact.**  If a program that has been parsed, from whatever tokens,
is resolved and typed, the conversions that are reported meanwhile are those in the typed program,
each as often as it is there, with the texts of the types of its operand and of itself. -/
theorem reportedConversions_of_typecheck {tokens : List Token} {spelled body : Program}
    {symbols : SymbolTable} {checked : CheckedProgram} {start log final : Array Event}
    (hparse : parse tokens = .ok spelled)
    (hresolve : Frontend.resolve spelled start = .ok (body, symbols) log)
    (htypecheck : Frontend.typecheck body symbols log = .ok checked final) :
    (reportedConversions final).map some = (reportedConversions start).map some +
      (conversionsAmong (Stmt.bodyNodes checked.body)).map checked.types.report? := by
  obtain ⟨hbare, hsound⟩ := bare_and_sound_of_resolve hparse hresolve
  rw [← reportedConversions_of_resolve hresolve]
  unfold Frontend.typecheck at htypecheck
  split at htypecheck
  · rename_i result checking hrun
    cases htypecheck
    exact ((Check.reports_program hbare hsound).logs hrun).reported
  · cases htypecheck

/-- A program with four conversions, two of them reported alike, and with a literal that is checked
again. -/
theorem reportedConversions_of_typecheck_twice :
    ∃ tokens spelled body symbols checked log final,
      (tokenize "x : int(64) = 1 < 2; if (x + -3) \x7b output(0, x < (1 < 2)); \x7d" = .ok tokens ∧
        parse tokens = .ok spelled ∧ Frontend.resolve spelled #[] = .ok (body, symbols) log ∧
        Frontend.typecheck body symbols log = .ok checked final ∧
        reportedConversions final = ↑[Event.converted "bool" "int(64)", .converted "int(64)" "bool",
          .converted "bool" "int(64)", .converted "bool" "int(32)"]) ∧
      (reportedConversions final).map some =
        (reportedConversions #[]).map some +
          (conversionsAmong (Stmt.bodyNodes checked.body)).map checked.types.report? := by
  have hruns : ∃ tokens spelled body symbols checked log final,
      tokenize "x : int(64) = 1 < 2; if (x + -3) \x7b output(0, x < (1 < 2)); \x7d" = .ok tokens ∧
        parse tokens = .ok spelled ∧ Frontend.resolve spelled #[] = .ok (body, symbols) log ∧
        Frontend.typecheck body symbols log = .ok checked final ∧
        reportedConversions final = ↑[Event.converted "bool" "int(64)", .converted "int(64)" "bool",
          .converted "bool" "int(64)", .converted "bool" "int(32)"] :=
    ⟨_, _, _, _, _, _, _, by cbv, by cbv, by cbv, by cbv, rfl⟩
  obtain ⟨tokens, spelled, body, symbols, checked, log, final, htokens, hparse, hresolve,
    htypecheck, hlog⟩ := hruns
  exact ⟨tokens, spelled, body, symbols, checked, log, final,
    ⟨htokens, hparse, hresolve, htypecheck, hlog⟩,
    reportedConversions_of_typecheck hparse hresolve htypecheck⟩

end FlexWidth
