import FlexWidth.Proofs.Grammar.Termination
import FlexWidth.Proofs.Scope.Outcome
import FlexWidth.Proofs.Typing.Descriptions
import FlexWidth.Proofs.Typing.FieldAccess
import FlexWidth.Proofs.Typing.Promotion
import Mathlib

/-!
# A mismatch shows two types

The check refuses a value as a mismatch with two texts, of the type that is expected and of the
one that is received.  Wherever it does so it has compared two handles and found them different,
or it expects just any integer.  `Explained` is this promise about the failures of a stage, and
that the state in which a stage fails is sound.

The texts are those of the types in that state.  Types are identified by their descriptions there
(`Descriptions.lean`), and so the two texts differ.
-/

namespace FlexWidth

/-- The texts of a mismatch. -/
def Diagnostic.mismatch? : Diagnostic → Option (String × String)
  | typeMismatch expected received => some (expected, received)
  | _ => none

/-- The second text is that of a handle, and the first one is that of another handle or asks for
any integer. -/
def Universe.Distinguishes (types : Universe) (expected received : String) : Prop :=
  ∃ id, types.describe? id = some received ∧
    (expected = "int" ∨ ∃ other, other ≠ id ∧ types.describe? other = some expected)

namespace Check

/-- If the stage fails, it does so in a sound state, and a mismatch is about types that
differ there. -/
def Explained {α : Type} (stage : CheckM α) (s : Checking) : Prop :=
  ∀ failure final, stage s = .error failure final → final.Sound ∧
    ∀ expected received, failure = .refused (.typeMismatch expected received) →
      final.types.Distinguishes expected received

section Rules

variable {α β : Type} {stage : CheckM α} {s : Checking}

theorem explained_of_ok {value : α} {final : Checking} (h : stage s = .ok value final) :
    Explained stage s := by
  intro failure other hrun
  cases h.symm.trans hrun

theorem explained_refuse (hs : s.Sound) {diagnostic : Diagnostic}
    (hother : diagnostic.mismatch? = none) : Explained (refuse diagnostic : CheckM α) s := by
  intro failure final hrun
  cases hrun
  refine ⟨hs, fun expected received heq => ?_⟩
  cases heq
  cases hother

theorem explained_fault (hs : s.Sound) (broken : Fault) :
    Explained (fault broken : CheckM α) s := by
  intro failure final hrun
  cases hrun
  exact ⟨hs, fun expected received heq => by cases heq⟩

theorem Explained.bind {next : α → CheckM β} (h : Explained stage s)
    (hnext : ∀ value middle, stage s = .ok value middle → Explained (next value) middle) :
    Explained (stage >>= next) s := by
  intro failure final hrun
  cases hstage : stage s with
  | ok value middle =>
      rw [run_bind_ok hstage] at hrun
      exact hnext value middle hstage failure final hrun
  | error other middle =>
      rw [run_bind_error hstage] at hrun
      cases hrun
      exact h failure final hstage

/-- A sequence whose first part is known to succeed. -/
theorem Explained.of_bind {next : α → CheckM β} {value : α} {middle : Checking}
    (h : stage s = .ok value middle) (hnext : Explained (next value) middle) :
    Explained (stage >>= next) s := by
  intro failure final hrun
  rw [run_bind_ok h] at hrun
  exact hnext failure final hrun

/-- What yields its result in any case may be the end of a sequence. -/
theorem Explained.bind_pure {f : α → β} (h : Explained stage s) :
    Explained (stage >>= fun value => pure (f value)) s :=
  h.bind fun _ _ _ => explained_of_ok (run_pure _ _)

theorem explained_orRefuse (hs : s.Sound) {diagnostic : Diagnostic}
    (hother : diagnostic.mismatch? = none) (value : Option α) :
    Explained (orRefuse diagnostic value : CheckM α) s := by
  cases value with
  | some value => exact explained_of_ok (run_orRefuse_some _ _ _)
  | none => exact explained_refuse hs hother

theorem explained_orFault (hs : s.Sound) (missing : Fault) (value : Option α) :
    Explained (orFault missing value : CheckM α) s := by
  cases value with
  | some value => exact explained_of_ok (run_orFault_some _ _ _)
  | none => exact explained_fault hs missing

end Rules

variable {s : Checking} {recheck : Expr → CheckM Expr} {value source : Expr}
  {id target : TypeId} {ty targetTy : Ty}

/-! ## Refusals -/

theorem explained_describe (hs : s.Sound) (id : TypeId) : Explained (describe id) s :=
  Explained.of_bind (run_get s) (explained_orFault hs _ _)

/-- Different handles are compared. -/
theorem explained_mismatch {α : Type} (hs : s.Sound) (hne : target ≠ id) :
    Explained (mismatch target id : CheckM α) s := by
  refine (explained_describe hs target).bind fun expected middle hexpected => ?_
  obtain ⟨rfl, htarget⟩ := describe?_of_run_describe hexpected
  refine (explained_describe hs id).bind fun received middle hreceived => ?_
  obtain ⟨rfl, hid⟩ := describe?_of_run_describe hreceived
  intro failure final hrun
  cases hrun
  refine ⟨hs, fun _ _ heq => ?_⟩
  cases heq
  exact ⟨id, hid, Or.inr ⟨target, hne, htarget⟩⟩

theorem explained_expectedInt {α : Type} (hs : s.Sound) (id : TypeId) :
    Explained (expectedInt id : CheckM α) s := by
  refine (explained_describe hs id).bind fun received middle hreceived => ?_
  obtain ⟨rfl, hid⟩ := describe?_of_run_describe hreceived
  intro failure final hrun
  cases hrun
  refine ⟨hs, fun _ _ heq => ?_⟩
  cases heq
  exact ⟨id, hid, Or.inl rfl⟩

theorem explained_refuseStruct (hs : s.Sound) (hid : s.types.get? id = some ty) :
    Explained (refuseStruct id) s := by
  refine Explained.of_bind (run_isStruct hid) ?_
  split
  · exact explained_expectedInt hs id
  · exact explained_of_ok (run_pure _ _)

/-! ## Conversion -/

/-- A flexible tree that is checked again fails only where a literal does not fit. -/
theorem Retypes.explained {stage : CheckM Expr} {width : Nat}
    (h : Retypes stage s value target width) (hs : s.Sound) : Explained stage s := by
  intro failure final hrun
  obtain ⟨⟨number, negated, -, rfl⟩, rfl⟩ := Ends.failed_of_error h hrun
  exact ⟨hs, fun expected received heq => by cases heq⟩

theorem explained_convertToBool (hs : s.Sound) (hvalue : s.types.Checked value ty)
    (hrecheck : CanRecheck recheck (value.nesting + 1)) (hid : value.type? = some id)
    (htarget : s.types.get? target = some .bool) (hne : id ≠ target) :
    Explained (convertToBool recheck value.loaded id target) s := by
  obtain ⟨id', hid', hty, hflexible⟩ := hvalue
  cases hid.symm.trans hid'
  rw [convertToBool]
  by_cases hcase : ty = .flexible
  · -- a flexible tree is an integer once it has been settled
    subst hcase
    have htree := hflexible rfl
    rw [htree.loaded]
    have hsettle := ends_settle_flexible hs hty htree hrecheck
    refine Explained.bind ?_ fun settled middle hrun => ?_
    · rw [settle]
      refine .of_bind (run_isFlexible hty) ?_
      rw [decide_eq_true rfl, if_pos rfl]
      refine (explained_of_ok (run_modifyGet _ _)).bind fun default middle hrun => ?_
      obtain ⟨hreaches, hdefault⟩ := (checks_internDefaultInt hs).post_of_ok hrun
      exact Retypes.explained (hrecheck hreaches.sound.sound.toInterned (hreaches.grows.get? hty)
        htree (Nat.lt_succ_self _) hdefault) hreaches.sound
    · obtain ⟨hreaches, default, -, hdefault, rfl, -⟩ := hsettle.post_of_ok hrun
      have htype := htree.type?_retype default
      refine .of_bind (run_typeOf htype) (.of_bind (run_typeAt hdefault) ?_)
      obtain ⟨log, hwrap⟩ := exists_run_wrapConversion hreaches.sound htype hdefault
        (hreaches.grows.get? htarget)
      exact explained_of_ok hwrap
  · have hloaded : value.loaded.type? = some id := value.type?_loaded.trans hid
    refine .of_bind (run_settle_of_ne hty hcase) (.of_bind (run_typeOf hloaded) ?_)
    refine .of_bind (run_typeAt hty) ?_
    cases ty with
    | int width =>
        obtain ⟨log, hwrap⟩ := exists_run_wrapConversion hs hloaded hty htarget
        exact explained_of_ok hwrap
    | bool => exact explained_mismatch hs hne.symm
    | flexible => exact explained_mismatch hs hne.symm
    | struct struct => exact explained_mismatch hs hne.symm

/-- Every conversion compares the two handles first. -/
theorem explained_convertWith (hs : s.Sound) (hvalue : s.types.Checked value ty)
    (hrecheck : CanRecheck recheck (value.nesting + 1))
    (htarget : s.types.get? target = some targetTy) :
    Explained (convertWith recheck value target) s := by
  obtain ⟨id, hid, hty, hflexible⟩ := hvalue
  have hloaded : value.loaded.type? = some id := value.type?_loaded.trans hid
  rw [convertWith]
  refine .of_bind (run_materialize hid) (.of_bind (run_typeOf hloaded) ?_)
  split
  · exact explained_of_ok (run_pure _ _)
  rename_i hne
  refine .of_bind (run_typeAt htarget) ?_
  split
  · exact explained_of_ok (run_pure _ _)
  split
  · rename_i hbool
    subst hbool
    exact explained_convertToBool hs ⟨id, hid, hty, hflexible⟩ hrecheck hid htarget hne
  refine .of_bind (run_typeAt hty) ?_
  split
  · rename_i hcase
    subst hcase
    split
    · exact explained_mismatch hs (Ne.symm hne)
    · -- what is neither flexible, a truth value nor a struct is an integer
      obtain ⟨width, rfl⟩ : ∃ width, targetTy = .int width := by
        cases targetTy <;> simp_all [Ty.struct?]
      have htree := hflexible rfl
      rw [htree.loaded]
      exact Retypes.explained (hrecheck hs.sound.toInterned hty htree (Nat.lt_succ_self _) htarget)
        hs
  · split
    · obtain ⟨log, hwrap⟩ := exists_run_wrapConversion hs hloaded hty htarget
      exact explained_of_ok hwrap
    · exact explained_mismatch hs (Ne.symm hne)

/-! ## Nodes of expressions -/

section Nodes

variable {left right l r : Expr} {leftTy rightTy : Ty}

theorem explained_signOperand (hs : s.Sound) (hvalue : s.types.Checked value ty)
    (operator : String) : Explained (signOperand (convertWith recheck) operator value none) s := by
  obtain ⟨id, hid, hty, -⟩ := hvalue
  rw [signOperand]
  refine .of_bind (run_typeOf hid) ((explained_refuseStruct hs hty).bind ?_)
  intro _ middle hrun
  obtain ⟨-, rfl, -⟩ := (checks_refuseStruct hs hty).post_of_ok hrun
  refine .of_bind (run_isFlexible hty) (.of_bind (run_materialize hid) ?_)
  exact explained_of_ok (run_pure _ _)

/-- Operands that have no type in common have different types. -/
theorem explained_operandType (hs : s.Sound) (operatorClass : OperatorClass)
    {leftType rightType : TypeId} (hl : s.types.get? leftType = some leftTy)
    (hr : s.types.get? rightType = some rightTy) :
    Explained (operandType operatorClass leftType rightType) s := by
  obtain ⟨promotion, hcommon, hmeets⟩ := run_common hs.sound.toInterned hl hr
  rw [operandType]
  refine .of_bind (run_isFlexible hl) (.of_bind (run_isFlexible hr) (.of_bind hcommon ?_))
  cases promotion with
  | resolved type => exact explained_of_ok (run_pure _ _)
  | stillFlexible =>
      dsimp only
      split
      · exact explained_of_ok (run_pure _ _)
      · exact explained_of_ok (run_bind_ok (run_modifyGet _ _) _)
  | incompatible =>
      cases hmeets with
      | struct _ _ hne _ => exact explained_mismatch hs hne

theorem explained_convertOperands (hs : s.Sound) (hl : Elaborates s.types s.symbols left l)
    (hr : Elaborates s.types s.symbols right r)
    (hrecheck : CanRecheck recheck (max l.nesting r.nesting + 1))
    (htarget : s.types.get? target = some targetTy) (hconcrete : targetTy ≠ .flexible)
    (hbool : targetTy = .bool → s.types.HasTy l .bool) :
    Explained (convertOperands (convertWith recheck) l r target) s := by
  have hlrecheck : CanRecheck recheck (l.nesting + 1) := hrecheck.mono (by omega)
  have hrrecheck : CanRecheck recheck (r.nesting + 1) := hrecheck.mono (by omega)
  obtain ⟨leftTy, hlchecked⟩ := hl.exists_checked hs
  obtain ⟨rightTy, hrchecked⟩ := hr.exists_checked hs
  rw [convertOperands]
  refine (explained_convertWith hs hlchecked hlrecheck htarget).bind fun l' middle hrun => ?_
  have hreaches := ((checks_convertWith_of_elaborates hs hl hlrecheck htarget hconcrete
    hbool).post_of_ok hrun).1
  exact (explained_convertWith hreaches.sound (hrchecked.grow hreaches.grows) hrrecheck
    (hreaches.grows.get? htarget)).bind_pure

theorem explained_operands {operator : String} {operatorClass : OperatorClass} (hs : s.Sound)
    (hl : Elaborates s.types s.symbols left l) (hr : Elaborates s.types s.symbols right r)
    (hrecheck : CanRecheck recheck (max l.nesting r.nesting + 1)) :
    Explained (operands (convertWith recheck) operator operatorClass l r none) s := by
  obtain ⟨leftTy, leftType, hleftType, hleftTy, -⟩ := hl.exists_checked hs
  obtain ⟨rightTy, rightType, hrightType, hrightTy, -⟩ := hr.exists_checked hs
  rw [operands]
  refine .of_bind (run_typeOf hleftType) (.of_bind (run_typeOf hrightType) ?_)
  refine (explained_refuseStruct hs hleftTy).bind fun _ middle hrun => ?_
  obtain ⟨-, rfl, hlstruct⟩ := (checks_refuseStruct hs hleftTy).post_of_ok hrun
  refine (explained_refuseStruct hs hrightTy).bind fun _ middle hrun => ?_
  obtain ⟨-, rfl, hrstruct⟩ := (checks_refuseStruct hs hrightTy).post_of_ok hrun
  refine (explained_operandType hs operatorClass hleftTy hrightTy).bind ?_
  rintro (_ | target) middle hrun
  · exact explained_of_ok (run_bind_ok (run_modifyGet _ _) _)
  · obtain ⟨hreaches, -, htarget⟩ := (checks_operandType hs operatorClass hleftTy hrightTy
      hlstruct hrstruct).post_of_ok hrun
    refine (explained_convertOperands hreaches.sound (hl.reach hreaches) (hr.reach hreaches)
      hrecheck htarget (Ty.settled_ne_flexible _) fun hbool => ?_).bind fun _ _ _ => ?_
    · have hboth := eq_bool_of_join_settled hbool
      exact ⟨leftType, hleftType, hboth.1 ▸ hreaches.grows.get? hleftTy⟩
    · cases operatorClass with
      | arithmetic => exact explained_of_ok (run_pure _ _)
      | relational => exact explained_of_ok (run_bind_ok (run_modifyGet _ _) _)

theorem explained_fieldValue (hs : s.Sound) (hvalue : s.types.Checked value ty)
    (hrecheck : CanRecheck recheck (value.nesting + 1)) :
    Explained (fieldValue (convertWith recheck) value) s := by
  obtain ⟨id, hid, hty, -⟩ := id hvalue
  rw [fieldValue]
  refine .of_bind (run_typeOf hid) (.of_bind (run_isFlexible hty) ?_)
  split
  · refine (explained_of_ok (run_modifyGet _ _)).bind fun target middle hrun => ?_
    obtain ⟨hreaches, htarget⟩ := (checks_internDefaultInt hs).post_of_ok hrun
    exact explained_convertWith hreaches.sound (hvalue.grow hreaches.grows) hrecheck htarget
  · exact explained_of_ok (run_materialize hid)

theorem explained_structOf (hs : s.Sound) (hid : s.types.get? id = some ty) :
    Explained (structOf id) s := by
  refine Explained.of_bind (run_typeAt hid) ?_
  cases ty.struct? with
  | some struct => exact explained_of_ok (run_pure _ _)
  | none =>
      refine (explained_describe hs id).bind fun text middle hrun => ?_
      obtain ⟨rfl, -⟩ := describe?_of_run_describe hrun
      exact explained_refuse hs rfl

theorem explained_unknownField {α : Type} (hs : s.Sound) (field : String) (id : TypeId) :
    Explained (unknownField field id : CheckM α) s := by
  refine (explained_describe hs id).bind fun text middle hrun => ?_
  obtain ⟨rfl, -⟩ := describe?_of_run_describe hrun
  exact explained_refuse hs rfl

theorem explained_namedField (hs : s.Sound) (hvalue : s.types.Checked value ty)
    (field : String) : Explained (namedField value field) s := by
  obtain ⟨id, hid, hty, -⟩ := hvalue
  refine Explained.of_bind (run_typeOf hid) ((explained_structOf hs hty).bind ?_)
  intro struct middle hrun
  obtain ⟨-, rfl, -⟩ := (checks_structOf hs hty).post_of_ok hrun
  split
  · exact (explained_orFault hs _ _).bind_pure
  · exact explained_unknownField hs field id

theorem explained_positionedField (hs : s.Sound) (hvalue : s.types.Checked value ty)
    (position : Nat) : Explained (positionedField value position) s := by
  obtain ⟨id, hid, hty, -⟩ := hvalue
  refine Explained.of_bind (run_typeOf hid) ((explained_structOf hs hty).bind ?_)
  intro struct middle hrun
  obtain ⟨-, rfl, -⟩ := (checks_structOf hs hty).post_of_ok hrun
  split
  · exact explained_of_ok (run_pure _ _)
  · exact explained_unknownField hs _ id

theorem explained_symbolType? (hs : s.Sound) (symbol : SymbolId) :
    Explained (symbolType? symbol) s :=
  Explained.of_bind (run_get s) (explained_orFault hs _ _).bind_pure

theorem explained_var (hs : s.Sound) (name : String) (symbol : Option SymbolId) :
    Explained (tree recheck (.var name symbol none)) s := by
  rw [tree, demandOf_none_bind]
  refine (explained_orRefuse hs rfl symbol).bind fun symbol middle hrun => ?_
  obtain ⟨rfl, -⟩ := eq_of_run_orRefuse hrun
  refine (explained_symbolType? hs symbol).bind fun type middle hrun => ?_
  obtain ⟨-, -, rfl, -⟩ := (secures_symbolType? hs symbol).post_of_ok hrun
  exact (explained_orRefuse hs rfl type).bind_pure

theorem explained_addName (hs : s.Sound) (names : FieldNames) (position : Nat)
    (name : Option String) : Explained (addName names position name) s := by
  cases name with
  | none => exact explained_of_ok (run_pure _ _)
  | some name =>
      rw [addName]
      split
      · exact explained_refuse hs rfl
      · exact explained_of_ok (run_pure _ _)

/-- The fields of a struct literal, if each of them is explained. -/
theorem explained_glueFields {fields : GlueFields}
    (hfields : ∀ field ∈ fields, ∀ middle : Checking, s.Reaches middle →
      Explained (tree recheck field.2) middle ∧ Infers (tree recheck field.2) middle field.2)
    (hrecheck : CanRecheck recheck (Expr.fieldsNesting fields + 1)) (position : Nat)
    (names : FieldNames) (hs : s.Sound) :
    Explained (glueFields recheck position names fields) s := by
  induction fields generalizing s position names with
  | nil => exact explained_of_ok (run_pure _ _)
  | cons field rest ih =>
      obtain ⟨name, value⟩ := field
      rw [Expr.fieldsNesting] at hrecheck
      obtain ⟨hfirst, hrest⟩ := List.forall_mem_cons.mp hfields
      rw [glueFields]
      refine (explained_addName hs names position name).bind fun names' middle hrun => ?_
      obtain ⟨-, rfl, -⟩ := (checks_addName hs names position name).post_of_ok hrun
      obtain ⟨hexplained, hinfers⟩ := hfirst _ hs.reaches
      refine hexplained.bind fun checked middle hrun => ?_
      obtain ⟨hreaches, hchecked⟩ := hinfers.post_of_ok hrun
      have hchecking : CanRecheck recheck (checked.nesting + 1) := by
        rw [hchecked.nesting]
        exact hrecheck.mono (Nat.succ_le_succ (Nat.le_max_left _ _))
      obtain ⟨ty, hty⟩ := hchecked.exists_checked hreaches.sound
      refine (explained_fieldValue hreaches.sound hty hchecking).bind fun final later hrun => ?_
      obtain ⟨hreaches', _, _, -, -, hfinal⟩ :=
        (checks_fieldValue hreaches.sound hchecked hchecking).post_of_ok hrun
      refine .of_bind (run_typeOf hfinal.type?) ?_
      have hpath := hreaches.trans hreaches'
      exact (ih (fun field hfield state hstate => hrest field hfield state (hpath.trans hstate))
        (hrecheck.mono (by omega)) (position + 1) names' hpath.sound).bind_pure

end Nodes

/-! ## Expressions -/

/-- A leaf without a type never fails. -/
theorem FailsOnly.explained {α : Type} {stage : CheckM α} (h : FailsOnly stage s fun _ => False) :
    Explained stage s :=
  fun failure final hrun => (h failure final hrun).elim

theorem explained_sign {operand : Expr} (hoperand : operand.Bare) (hs : s.Sound)
    (h : Explained (tree recheck operand) s)
    (hrecheck : CanRecheck recheck operand.nesting) :
    Explained (tree recheck (.unary "-" operand none)) s := by
  -- a literal right under a sign has a rule of its own
  cases operand with
  | literal number own =>
      cases hoperand
      rw [tree_negatedLiteral, demandOf_none_bind]
      have hliteral : Explained (negatedLiteral number none none) s :=
        FailsOnly.explained (failsOnly_flexibleLiteral hs number true fun type =>
          .literal number (some type))
      refine hliteral.bind fun checked middle hrun => ?_
      obtain ⟨hreaches, hchecked⟩ := (checks_negatedLiteral hs number).post_of_ok hrun
      obtain ⟨ty, hty⟩ := hchecked.exists_checked hreaches.sound
      exact explained_signOperand hreaches.sound hty "-"
  | _ =>
      rw [tree_sign recheck (by simp), demandOf_none_bind]
      refine h.bind fun checked middle hrun => ?_
      obtain ⟨hreaches, hchecked⟩ := (infers_tree hoperand hs hrecheck).post_of_ok hrun
      obtain ⟨ty, hty⟩ := hchecked.exists_checked hreaches.sound
      exact explained_signOperand hreaches.sound hty "-"

/-- **Mismatches in an expression** are about types that differ. -/
theorem explained_tree (hbare : value.Bare) (hs : s.Sound)
    (hrecheck : CanRecheck recheck value.nesting) : Explained (tree recheck value) s := by
  induction hbare generalizing s with
  | @literal number _ =>
      rw [tree, demandOf_none_bind]
      exact FailsOnly.explained (failsOnly_flexibleLiteral hs number false fun type =>
        .literal number (some type))
  | @var name symbol => exact explained_var hs name symbol
  | read =>
      rw [tree, demandOf_none_bind]
      refine (explained_of_ok (run_modifyGet _ _)).bind fun id middle hrun => ?_
      obtain ⟨-, hid⟩ := (checks_orFlexible hs).post_of_ok hrun
      exact explained_of_ok (run_bind_ok (run_typeAt hid) _)
  | @unary operator operand hoperand ih =>
      rw [Expr.nesting] at hrecheck
      have hinside : CanRecheck recheck operand.nesting := hrecheck.mono (Nat.le_succ _)
      by_cases hsign : operator = "-"
      · subst hsign
        exact explained_sign hoperand hs (ih hs hinside) hinside
      · rw [tree, demandOf_none_bind]
        rw [if_neg hsign]
        exact explained_refuse hs rfl
  | @binary operator left right hleft hright ihleft ihright =>
      rw [Expr.nesting] at hrecheck
      rw [tree, demandOf_none_bind]
      refine (explained_orRefuse hs rfl _).bind fun operatorClass middle hrun => ?_
      obtain ⟨rfl, -⟩ := eq_of_run_orRefuse hrun
      have hlrecheck : CanRecheck recheck left.nesting := hrecheck.mono (by omega)
      have hrrecheck : CanRecheck recheck right.nesting := hrecheck.mono (by omega)
      refine (ihleft hs hlrecheck).bind fun l middle hrun => ?_
      obtain ⟨hreaches, hl⟩ := (infers_tree hleft hs hlrecheck).post_of_ok hrun
      refine (ihright hreaches.sound hrrecheck).bind fun r final hrun => ?_
      obtain ⟨hreaches', hr⟩ := (infers_tree hright hreaches.sound hrrecheck).post_of_ok hrun
      refine explained_operands hreaches'.sound (hl.reach hreaches') hr ?_
      rwa [hl.nesting, hr.nesting]
  | @glue fields hfields ih =>
      rw [Expr.nesting] at hrecheck
      have hinside {field : Option String × Expr} (hfield : field ∈ fields) :
          CanRecheck recheck field.2.nesting :=
        hrecheck.mono (Nat.le_succ_of_le (Expr.nesting_le_fieldsNesting hfield))
      rw [tree, demandOf_none_bind]
      refine Explained.bind (explained_glueFields (fun field hfield middle hreaches => ?_) hrecheck
        0 .empty hs) fun _ _ _ => ?_
      · exact ⟨ih field hfield hreaches.sound (hinside hfield),
          infers_tree (hfields field hfield) hreaches.sound (hinside hfield)⟩
      · exact explained_of_ok (run_bind_ok (run_modifyGet _ _) _)
  | @dot base field hbase ih =>
      rw [Expr.nesting] at hrecheck
      rw [tree, demandOf_none_bind]
      refine (ih hs hrecheck).bind fun checked middle hrun => ?_
      obtain ⟨hreaches, hchecked⟩ := (infers_tree hbase hs hrecheck).post_of_ok hrun
      obtain ⟨ty, hty⟩ := hchecked.exists_checked hreaches.sound
      exact explained_namedField hreaches.sound hty field
  | @index base position hbase ih =>
      rw [Expr.nesting] at hrecheck
      rw [tree, demandOf_none_bind]
      refine (ih hs hrecheck).bind fun checked middle hrun => ?_
      obtain ⟨hreaches, hchecked⟩ := (infers_tree hbase hs hrecheck).post_of_ok hrun
      obtain ⟨ty, hty⟩ := hchecked.exists_checked hreaches.sound
      exact explained_positionedField hreaches.sound hty position

theorem explained_expr (hbare : source.Bare) (hs : s.Sound) : Explained (expr source) s := by
  rw [expr, within_eq_tree]
  exact explained_tree hbare hs (canRecheck_recheckAt (Nat.le_refl _))

/-! ## Values of variables -/

theorem explained_convert (hs : s.Sound) (h : Elaborates s.types s.symbols source value)
    (htarget : s.types.get? target = some targetTy) : Explained (convert value target) s := by
  obtain ⟨ty, hvalue⟩ := h.exists_checked hs
  exact explained_convertWith hs hvalue (canRecheck_within value.nesting) htarget

theorem explained_defaultInt (hs : s.Sound) (h : Elaborates s.types s.symbols source value) :
    Explained (defaultInt value) s := by
  refine (explained_of_ok (run_modifyGet _ _)).bind fun target middle hrun => ?_
  obtain ⟨hreaches, htarget⟩ := (checks_internDefaultInt hs).post_of_ok hrun
  exact explained_convert hreaches.sound (h.reach hreaches) htarget

theorem explained_setSymbolType (hs : s.Sound) (symbol : SymbolId) (type : TypeId) :
    Explained (setSymbolType symbol type) s := by
  refine Explained.of_bind (run_get s) ?_
  cases s.symbols.setType? symbol type with
  | none => exact explained_fault hs _
  | some found => exact explained_of_ok rfl

theorem explained_declareType (hs : s.Sound) (name : String) (symbol : SymbolId)
    (written : Option Ascription) : Explained (declareType name symbol written) s := by
  cases written with
  | none => exact explained_of_ok (run_pure _ _)
  | some written =>
      by_cases hwidth : written = .int 0
      · subst hwidth
        refine Explained.bind (explained_refuse hs rfl) fun _ _ hrun => ?_
        cases hrun
      · have hascription : Explained (ascription written) s := by
          unfold ascription
          split
          · exact absurd rfl hwidth
          · exact explained_of_ok (run_modifyGet _ _)
          · exact explained_of_ok (run_modifyGet _ _)
        refine hascription.bind fun id middle hrun => ?_
        obtain ⟨hreaches, hid⟩ := (checks_ascription hs hwidth).post_of_ok hrun
        have hconcrete : middle.types.Concrete id :=
          ⟨_, hid, by cases written <;> simp [Ascription.ty]⟩
        refine (explained_setSymbolType hreaches.sound symbol id).bind fun done later hrun => ?_
        have hlater := ((secures_setSymbolType hreaches.sound hconcrete symbol).post_of_ok hrun).1
        split
        · exact explained_of_ok (run_pure _ _)
        · exact explained_refuse hlater rfl

/-- A value is refused only if its type is not the variable's. -/
theorem explained_storeTyped (hs : s.Sound) (h : Elaborates s.types s.symbols source value)
    (htarget : s.types.Concrete target) : Explained (storeTyped target value) s := by
  obtain ⟨id, ty, hid, hty, -⟩ := h.exists_type hs
  obtain ⟨targetTy, htargetTy, hconcrete⟩ := htarget
  obtain ⟨promotion, hcommon, hmeets⟩ := run_common hs.sound.toInterned htargetTy hty
  rw [storeTyped]
  refine .of_bind (run_typeOf hid) (.of_bind hcommon ?_)
  split
  · exact explained_convert hs h htargetTy
  · rename_i hresolved
    refine explained_mismatch hs ?_
    rintro rfl
    -- a concrete type has itself in common with itself
    cases hmeets with
    | equal => exact hresolved rfl
    | flexible hflexible =>
        cases htargetTy.symm.trans hflexible
        exact hconcrete rfl
    | struct _ _ hne _ => exact hne rfl
    | int _ _ hne _ _ _ _ => exact hne rfl
    | neither _ _ hne _ _ _ _ => exact hne rfl

theorem explained_storeFirst (hs : s.Sound) (h : Elaborates s.types s.symbols source value)
    (name : String) (symbol : SymbolId) : Explained (storeFirst name symbol value) s := by
  obtain ⟨id, ty, hid, hty, -⟩ := h.exists_type hs
  have hfirst : Explained (firstType name id) s := by
    refine Explained.of_bind (run_isFlexible hty) ?_
    split
    · exact explained_of_ok (run_bind_ok (run_modify _ _) _)
    · exact explained_of_ok (run_pure _ _)
  rw [storeFirst]
  refine .of_bind (run_typeOf hid) (hfirst.bind fun type middle hrun => ?_)
  obtain ⟨hreaches, htype⟩ := (checks_firstType hs hty name).post_of_ok hrun
  refine (explained_setSymbolType hreaches.sound symbol type).bind fun _ later hrun => ?_
  obtain ⟨hlater, hadvances, htypes⟩ := (secures_setSymbolType hreaches.sound
    ⟨_, htype, ty.settled_ne_flexible⟩ symbol).post_of_ok hrun
  have hpath := hreaches.advances.trans hadvances
  exact explained_convert hlater (h.grow hpath.grows hpath.keeps) (htypes ▸ htype)

theorem explained_bindingValue (hbare : source.Bare) (hs : s.Sound) (name : String)
    (written : Option Ascription) (symbol : SymbolId) :
    Explained (bindingValue name written source symbol) s := by
  refine (explained_expr hbare hs).bind fun checked middle hrun => ?_
  have hmiddle := ((checksOr_expr hbare hs).post_of_ok hrun).1.sound
  refine (explained_declareType hmiddle name symbol written).bind fun _ later hrun => ?_
  have hlater := ((secures_declareType hmiddle name symbol written).post_of_ok hrun).1
  exact (explained_symbolType? hlater symbol).bind_pure

theorem explained_binding {form : BindingForm} {name : String} {written : Option Ascription}
    {values : Option Expr} (hbare : ∀ value ∈ values, value.Bare) (hs : s.Sound)
    (symbol : Option SymbolId) : Explained (stmt (.bind form name written values symbol)) s := by
  cases symbol with
  | none =>
      rw [stmt]
      exact (explained_refuse hs rfl).bind fun _ _ hrun => by cases hrun
  | some symbol =>
      cases values with
      | none =>
          rw [stmt]
          refine .of_bind (run_orRefuse_some _ _ s) (.of_bind (run_pure _ s) ?_)
          refine (explained_declareType hs name symbol written).bind fun _ middle hrun => ?_
          have hmiddle := ((secures_declareType hs name symbol written).post_of_ok hrun).1
          have hstore : Explained (store name symbol none) middle := by
            refine (explained_symbolType? hmiddle symbol).bind fun found later hrun => ?_
            have hlater := ((secures_symbolType? hmiddle symbol).post_of_ok hrun).1
            cases found with
            | some type => exact explained_of_ok (run_pure _ _)
            | none => exact explained_refuse hlater rfl
          exact hstore.bind_pure
      | some value =>
          have hvalue := hbare value rfl
          rw [stmt_bind_eq]
          refine (explained_bindingValue hvalue hs name written symbol).bind ?_
          rintro ⟨checked, found⟩ middle hrun
          obtain ⟨hmiddle, -, hchecked, hfound⟩ :=
            (secures_bindingValue hvalue hs name written symbol).post_of_ok hrun
          cases found with
          | some type =>
              exact (explained_storeTyped hmiddle hchecked (hmiddle.concrete hfound)).bind_pure
          | none => exact (explained_storeFirst hmiddle hchecked name symbol).bind_pure

/-! ## Bounds of loops -/

section Bounds

variable {bounds checked : List Expr}

theorem explained_exprs (hbare : ∀ bound ∈ bounds, bound.Bare) (hs : s.Sound) :
    Explained (exprs bounds) s := by
  induction bounds generalizing s with
  | nil => exact explained_of_ok (run_pure _ _)
  | cons first rest ih =>
      obtain ⟨hfirst, hrest⟩ := List.forall_mem_cons.mp hbare
      refine (explained_expr hfirst hs).bind fun _ middle hrun => ?_
      have hmiddle := ((checksOr_expr hfirst hs).post_of_ok hrun).1.sound
      exact (ih hrest hmiddle).bind_pure

theorem explained_joinBound (hs : s.Sound) {current bound : TypeId} {currentTy boundTy : Ty}
    (hcurrent : s.types.get? current = some currentTy)
    (hbound : s.types.get? bound = some boundTy) : Explained (joinBound current bound) s := by
  obtain ⟨promotion, hcommon, hmeets⟩ := run_common hs.sound.toInterned hcurrent hbound
  rw [joinBound]
  refine .of_bind hcommon ?_
  cases promotion with
  | resolved type => exact explained_of_ok (run_pure _ _)
  | stillFlexible =>
      refine .of_bind (run_isFlexible hcurrent) (.of_bind (run_isFlexible hbound) ?_)
      split
      · exact explained_of_ok (run_pure _ _)
      · exact explained_of_ok (run_modifyGet _ _)
  | incompatible =>
      cases hmeets with
      | struct _ _ hne _ => exact explained_mismatch hs hne

theorem explained_joinBounds (h : List.Forall₂ (Elaborates s.types s.symbols) bounds checked)
    (hs : s.Sound) {current : Option TypeId}
    (hcurrent : ∀ id ∈ current, ∃ ty, s.types.get? id = some ty ∧ ty.struct? = none) :
    Explained (joinBounds current checked) s := by
  induction checked generalizing s bounds current with
  | nil => exact explained_of_ok (run_pure _ _)
  | cons first rest ih =>
      cases h with
      | cons hfirst hrest =>
          obtain ⟨id, ty, hid, hty, -⟩ := hfirst.exists_type hs
          rw [joinBounds]
          refine .of_bind (run_typeOf hid) ((explained_refuseStruct hs hty).bind ?_)
          intro _ middle hrun
          obtain ⟨-, rfl, hstruct⟩ := (checks_refuseStruct hs hty).post_of_ok hrun
          cases current with
          | none =>
              refine ih hrest hs fun found hfound => ?_
              cases hfound
              exact ⟨ty, hty, hstruct⟩
          | some current =>
              obtain ⟨currentTy, hcurrentTy, hcurrentStruct⟩ := hcurrent current rfl
              refine (explained_joinBound hs hcurrentTy hty).bind fun joined final hrun => ?_
              obtain ⟨hreaches, joinedTy, hjoined, hjoinedStruct, -⟩ := (checks_joinBound hs
                hcurrentTy hcurrentStruct hty hstruct).post_of_ok hrun
              refine ih (hrest.imp fun _ _ h => h.reach hreaches) hreaches.sound ?_
              intro found hfound
              cases hfound
              exact ⟨joinedTy, hjoined, hjoinedStruct⟩

theorem explained_loopType (h : List.Forall₂ (Elaborates s.types s.symbols) bounds checked)
    (hs : s.Sound) (name : String) : Explained (loopType name checked) s := by
  have hdefault (middle : Checking) : Explained (note (.defaultedLoop name) >>= fun _ =>
      intern Universe.internDefaultInt) middle :=
    explained_of_ok (run_bind_ok (run_modify _ _) _)
  rw [loopType]
  refine (explained_joinBounds h hs (by simp)).bind ?_
  rintro (_ | id) middle hrun
  · exact hdefault middle
  · obtain ⟨-, hjoined, -⟩ := (checks_joinBounds h hs (by simp) fun _ => rfl).post_of_ok hrun
    obtain ⟨ty, hty, -, -⟩ := hjoined id rfl
    refine .of_bind (run_typeAt hty) ?_
    cases ty with
    | flexible => exact hdefault middle
    | bool => exact hdefault middle
    | int width => exact explained_of_ok (run_pure _ _)
    | struct struct => exact explained_of_ok (run_pure _ _)

theorem explained_convertAll {width : Nat}
    (h : List.Forall₂ (Elaborates s.types s.symbols) bounds checked) (hs : s.Sound)
    (htarget : s.types.get? target = some (.int width)) :
    Explained (convertAll target checked) s := by
  induction checked generalizing s bounds with
  | nil => exact explained_of_ok (run_pure _ _)
  | cons first rest ih =>
      cases h with
      | cons hfirst hrest =>
          rw [convertAll]
          refine (explained_convert hs hfirst htarget).bind fun _ middle hrun => ?_
          have hreaches := ((checks_convert hs hfirst htarget (by simp) (by simp)).post_of_ok
            hrun).1
          exact (ih (hrest.imp fun _ _ h => h.reach hreaches) hreaches.sound
            (hreaches.grows.get? htarget)).bind_pure

theorem explained_loopBounds (hbare : ∀ bound ∈ bounds, bound.Bare) (hs : s.Sound)
    (name : String) (symbol : SymbolId) : Explained (loopBounds name symbol bounds) s := by
  rw [loopBounds]
  refine (explained_exprs hbare hs).bind fun checked middle hrun => ?_
  obtain ⟨hreaches, hchecked⟩ := (checksOr_bareExprs hbare hs).post_of_ok hrun
  refine (explained_loopType hchecked hreaches.sound name).bind fun type later hrun => ?_
  obtain ⟨hreaches', width, htype, -⟩ :=
    (checks_loopType hchecked hreaches.sound name).post_of_ok hrun
  refine (explained_setSymbolType hreaches'.sound symbol type).bind fun done final hrun => ?_
  obtain ⟨hfinal, hadvances, htypes⟩ :=
    (secures_setSymbolType hreaches'.sound ⟨_, htype, by simp⟩ symbol).post_of_ok hrun
  have hpath := hreaches'.advances.trans hadvances
  split
  · exact explained_convertAll (hchecked.imp fun _ _ h => h.grow hpath.grows hpath.keeps) hfinal
      (htypes ▸ htype)
  · exact explained_refuse hfinal rfl

end Bounds

/-! ## Statements -/

theorem explained_condition (hbare : source.Bare) (hs : s.Sound) :
    Explained (condition source) s := by
  refine (explained_expr hbare hs).bind fun checked middle hrun => ?_
  obtain ⟨hreaches, hchecked⟩ := (checksOr_expr hbare hs).post_of_ok hrun
  refine (explained_of_ok (run_modifyGet _ _)).bind fun boolean later hrun => ?_
  obtain ⟨hreaches', hboolean⟩ := (checks_internBool hreaches.sound).post_of_ok hrun
  exact explained_convert hreaches'.sound (hchecked.reach hreaches') hboolean

theorem explained_printed (hbare : source.Bare) (hs : s.Sound) : Explained (printed source) s := by
  refine (explained_expr hbare hs).bind fun checked middle hrun => ?_
  obtain ⟨hreaches, hchecked⟩ := (checksOr_expr hbare hs).post_of_ok hrun
  obtain ⟨id, ty, hid, hty, -⟩ := hchecked.exists_type hreaches.sound
  refine .of_bind (run_typeOf hid) (.of_bind (run_typeAt hty) ?_)
  cases ty with
  | flexible => exact explained_defaultInt hreaches.sound hchecked
  | bool => exact explained_defaultInt hreaches.sound hchecked
  | int width => exact explained_of_ok (run_materialize hid)
  | struct struct => exact explained_expectedInt hreaches.sound id

theorem explained_evaluated (hbare : source.Bare) (hs : s.Sound) :
    Explained (evaluated source) s := by
  refine (explained_expr hbare hs).bind fun checked middle hrun => ?_
  obtain ⟨hreaches, hchecked⟩ := (checksOr_expr hbare hs).post_of_ok hrun
  obtain ⟨id, ty, hid, hty, -⟩ := hchecked.exists_type hreaches.sound
  refine .of_bind (run_typeOf hid) (.of_bind (run_isFlexible hty) ?_)
  split
  · exact explained_defaultInt hreaches.sound hchecked
  · exact explained_of_ok (run_pure _ _)

mutual

/-- **Mismatches in a statement** are about types that differ. -/
theorem explained_stmt : (st : Stmt) → (∀ value ∈ st.roots, value.Bare) → {s : Checking} →
    s.Sound → Explained (stmt st) s
  | .bind _ _ _ values symbol, hbare, s, hs => by
      refine explained_binding (fun value hvalue => hbare value ?_) hs symbol
      rw [Stmt.roots, Option.mem_toList]
      exact hvalue
  | .print value, hbare, s, hs => by
      rw [stmt]
      exact (explained_printed (hbare value List.mem_cons_self) hs).bind_pure
  | .evaluate value, hbare, s, hs => by
      rw [stmt]
      exact (explained_evaluated (hbare value List.mem_cons_self) hs).bind_pure
  | .branch test yes none, hbare, s, hs => by
      obtain ⟨htest, hyes⟩ := List.forall_mem_cons.mp hbare
      rw [stmt]
      refine (explained_condition htest hs).bind fun _ middle hrun => ?_
      have hmiddle := ((secures_condition htest hs).post_of_ok hrun).1
      exact (explained_stmts yes hyes hmiddle).bind_pure
  | .branch test yes (some no), hbare, s, hs => by
      obtain ⟨htest, hbodies⟩ := List.forall_mem_cons.mp hbare
      obtain ⟨hyes, hno⟩ := List.forall_mem_append.mp hbodies
      rw [stmt]
      refine (explained_condition htest hs).bind fun _ middle hrun => ?_
      have hmiddle := ((secures_condition htest hs).post_of_ok hrun).1
      refine (explained_stmts yes hyes hmiddle).bind fun _ later hrun => ?_
      have hlater := ((secures_stmts yes hyes hmiddle).post_of_ok hrun).1
      exact (explained_stmts no hno hlater).bind_pure
  | .whileLoop test body, hbare, s, hs => by
      obtain ⟨htest, hbody⟩ := List.forall_mem_cons.mp hbare
      rw [stmt]
      refine (explained_condition htest hs).bind fun _ middle hrun => ?_
      have hmiddle := ((secures_condition htest hs).post_of_ok hrun).1
      exact (explained_stmts body hbody hmiddle).bind_pure
  | .forLoop name symbol bounds body, hbare, s, hs => by
      obtain ⟨hbounds, hbody⟩ := List.forall_mem_append.mp hbare
      rw [stmt]
      refine (explained_orRefuse hs rfl symbol).bind fun symbol middle hrun => ?_
      obtain ⟨rfl, -⟩ := eq_of_run_orRefuse hrun
      refine (explained_loopBounds hbounds hs name symbol).bind fun _ later hrun => ?_
      have hlater := ((secures_loopBounds hbounds hs name symbol).post_of_ok hrun).1
      exact (explained_stmts body hbody hlater).bind_pure
  | .block body, hbare, s, hs => by
      rw [stmt]
      exact (explained_stmts body hbare hs).bind_pure

theorem explained_stmts : (body : List Stmt) → (∀ value ∈ Stmt.bodyRoots body, value.Bare) →
    {s : Checking} → s.Sound → Explained (stmts body) s
  | [], _, _, _ => by
      rw [stmts]
      exact explained_of_ok (run_pure _ _)
  | first :: rest, hbare, _, hs => by
      obtain ⟨hfirst, hrest⟩ := List.forall_mem_append.mp hbare
      rw [stmts]
      refine (explained_stmt first hfirst hs).bind fun _ middle hrun => ?_
      have hmiddle := ((secures_stmt first hfirst hs).post_of_ok hrun).1
      exact (explained_stmts rest hrest hmiddle).bind_pure

end

/-- However the check of a program ends, its types are sound. -/
theorem sound_stateOf_program {body : Program} (hbare : ∀ value ∈ Stmt.bodyRoots body, value.Bare)
    (hs : s.Sound) : (stateOf (program body s)).types.Sound := by
  cases hrun : stmts body s with
  | ok result final =>
      rw [program, run_bind_ok hrun]
      exact ((secures_stmts body hbare hs).post_of_ok hrun).1.sound
  | error failure final =>
      rw [program, run_bind_error hrun]
      exact (explained_stmts body hbare hs failure final hrun).1.sound

end Check

end FlexWidth
