import FlexWidth.Proofs.Stage
import FlexWidth.Proofs.Typing.Elaboration

/-!
# Checking a flexible tree again

A flexible tree is checked again once its root has been given an integer type.  The
demand travels from the root to the leaves: each operator checks its operands, which
are still flexible and do not change (`run_tree_of_isFlexible`), and then demands its
own type of them.  In the end every node has the type, unless a literal does not fit
it, and then the leftmost of these is refused (`retypes_tree`).  Nothing else changes:
the universe, the symbols and the log stay as they are.

How often one check leads to another is bounded by how deeply operators nest in the
tree, so `within` never runs out (`canRecheck_within`).
-/

namespace FlexWidth.Check

variable {s : Checking} {id : TypeId} {ty : Ty} {value : Expr}

/-! ## Steps that always succeed -/

theorem run_typeAt (h : s.types.get? id = some ty) : typeAt id s = .ok ty s := by
  rw [typeAt, run_bind_ok (run_get s), h]
  rfl

theorem run_isFlexible (h : s.types.get? id = some ty) :
    isFlexible id s = .ok (decide (ty = .flexible)) s := by
  rw [isFlexible, run_bind_ok (run_typeAt h)]
  rfl

theorem run_isStruct (h : s.types.get? id = some ty) :
    isStruct id s = .ok ty.struct?.isSome s := by
  rw [isStruct, run_bind_ok (run_typeAt h)]
  rfl

theorem run_typeOf (h : value.type? = some id) : typeOf value s = .ok id s := by
  rw [typeOf, h]
  rfl

theorem run_materialize (h : value.type? = some id) : materialize value s = .ok value.loaded s := by
  unfold materialize Expr.loaded
  split
  · rw [run_bind_ok (run_typeOf h), h]
    rfl
  · rfl

theorem run_refuseStruct (h : s.types.get? id = some ty) (hstruct : ty.struct? = none) :
    refuseStruct id s = .ok () s := by
  rw [refuseStruct, run_bind_ok (run_isStruct h), hstruct, if_neg (by decide)]
  rfl

theorem exists_run_describe (hinterned : s.types.Interned) (h : s.types.get? id = some ty) :
    ∃ text, describe id s = .ok text s := by
  obtain ⟨text, htext⟩ := hinterned.exists_describe? ⟨ty, h⟩
  refine ⟨text, ?_⟩
  rw [describe, run_bind_ok (run_get s), htext]
  rfl

theorem describe?_of_run_describe {final : Checking} {text : String}
    (h : describe id s = .ok text final) : final = s ∧ s.types.describe? id = some text := by
  rw [describe, run_bind_ok (run_get s)] at h
  cases htext : s.types.describe? id with
  | none =>
      rw [htext] at h
      cases h
  | some found =>
      rw [htext] at h
      cases h
      exact ⟨rfl, rfl⟩

/-- A conversion is reported and wrapped around its operand. -/
theorem exists_run_wrapConversion_of_interned (hinterned : s.types.Interned) {target : TypeId}
    {targetTy : Ty} (hvalue : value.type? = some id) (hid : s.types.get? id = some ty)
    (htarget : s.types.get? target = some targetTy) :
    ∃ log, wrapConversion value target s =
      .ok (.conversion value (some target)) { s with log := log } := by
  obtain ⟨text, htext⟩ := exists_run_describe hinterned hid
  obtain ⟨text', htext'⟩ := exists_run_describe hinterned htarget
  have hreport : reportConversion value target s =
      .ok () { s with log := s.log.push (.converted text text') } := by
    rw [reportConversion, hvalue]
    change (describe id >>= _) s = _
    rw [run_bind_ok htext, run_bind_ok htext']
    rfl
  exact ⟨_, run_bind_ok hreport _⟩

theorem run_describe_int {width : Nat} (h : s.types.get? id = some (.int width)) :
    describe id s = .ok (Shape.int width).describe s := by
  have hshape : s.types.shape? id = some (.int width) := by
    rw [Universe.shape?, Universe.shapeWithin, h]
  rw [describe, run_bind_ok (run_get s), Universe.describe?, hshape]
  rfl

theorem run_common (hinterned : s.types.Interned) {left right : TypeId} {l r : Ty}
    (hl : s.types.get? left = some l) (hr : s.types.get? right = some r) :
    ∃ promotion, common left right s = .ok promotion s ∧ s.types.Meets left right promotion := by
  obtain ⟨promotion, hcommon, hmeets⟩ := hinterned.common?_eq ⟨l, hl⟩ ⟨r, hr⟩
  refine ⟨promotion, ?_, hmeets⟩
  rw [common, run_bind_ok (run_get s), hcommon]
  rfl

/-- A type that is there is found. -/
theorem run_intern (hinterned : s.types.Interned) {interning : Universe → TypeId × Universe}
    (h : ∀ types, interning types = Universe.intern ty types) (hid : s.types.get? id = some ty) :
    intern interning s = .ok id s := by
  have hfind : s.types.find? ty = some id := hinterned.find?_eq_some_iff.mpr hid
  rw [intern, run_modifyGet, h, Universe.intern, hfind]

theorem run_demandOf_flexible (h : s.types.get? id = some .flexible) :
    demandOf (some id) s = .ok none s := by
  rw [demandOf, run_bind_ok (run_isFlexible h), decide_eq_true rfl, if_pos rfl]
  rfl

theorem run_demandOf (h : s.types.get? id = some ty) (hty : ty ≠ .flexible) :
    demandOf (some id) s = .ok (some id) s := by
  rw [demandOf, run_bind_ok (run_isFlexible h), decide_eq_false hty, if_neg (by decide)]
  rfl

theorem exists_run_demandOf_some (h : s.types.Holds id) :
    ∃ demand, demandOf (some id) s = .ok demand s := by
  obtain ⟨ty, hty⟩ := h
  by_cases hflexible : ty = .flexible
  · exact ⟨none, run_demandOf_flexible (hflexible ▸ hty)⟩
  · exact ⟨some id, run_demandOf hty hflexible⟩

theorem exists_run_demandOf_of_holds {type : Option TypeId} (h : ∀ id ∈ type, s.types.Holds id) :
    ∃ demand, demandOf type s = .ok demand s := by
  cases type with
  | none => exact ⟨none, rfl⟩
  | some id => exact exists_run_demandOf_some (h id rfl)

theorem run_typeAt_none (h : s.types.get? id = none) :
    typeAt id s = .error (.broken .unknownType) s := by
  rw [typeAt, run_bind_ok (run_get s), h]
  rfl

theorem run_demandOf_unknown (h : s.types.get? id = none) :
    demandOf (some id) s = .error (.broken .unknownType) s :=
  run_bind_error (run_bind_error (run_typeAt_none h) _) _

/-- The type of a node is looked up, and nothing changes. -/
theorem holds_of_run_demandOf {type demand : Option TypeId} {t : Checking}
    (h : demandOf type s = .ok demand t) : t = s ∧ ∀ id ∈ type, s.types.Holds id := by
  cases type with
  | none =>
      cases h
      exact ⟨rfl, by simp⟩
  | some id =>
      cases hid : s.types.get? id with
      | none => cases (run_demandOf_unknown hid).symm.trans h
      | some ty =>
          obtain ⟨demand, hrun⟩ := exists_run_demandOf_some ⟨ty, hid⟩
          cases hrun.symm.trans h
          exact ⟨rfl, by simpa using ⟨ty, hid⟩⟩

/-- Nothing is looked up for a node without a type. -/
theorem demandOf_none_bind {α : Type} (next : Option TypeId → CheckM α) :
    demandOf none >>= next = next none :=
  rfl

/-! ## Signs -/

theorem tree_negatedLiteral (recheck : Expr → CheckM Expr) (number : Nat)
    (own type : Option TypeId) :
    tree recheck (.unary "-" (.literal number own) type) = (do
      let demand ← demandOf type
      let operand ← negatedLiteral number own demand
      signOperand (convertWith recheck) "-" operand demand) := by
  simp only [tree, if_true]

theorem tree_sign (recheck : Expr → CheckM Expr) {operand : Expr}
    (h : ∀ number own, operand ≠ .literal number own) (type : Option TypeId) :
    tree recheck (.unary "-" operand type) = (do
      let demand ← demandOf type
      let operand ← tree recheck operand
      signOperand (convertWith recheck) "-" operand demand) := by
  simp only [tree, if_true]

/-- A node whose type is in no universe is not checked any further. -/
theorem run_tree_of_unknown {recheck : Expr → CheckM Expr} (htype : value.type? = some id)
    (hid : s.types.get? id = none) :
    tree recheck value s = .error (.broken .unknownType) s := by
  cases value <;>
    (cases htype
     rw [tree]
     exact run_bind_error (run_demandOf_unknown hid) _)

/-! ## A flexible tree does not change -/

section Flexible

variable {recheck : Expr → CheckM Expr} {flex : TypeId} {left right : Expr}
  (hflex : s.types.get? flex = some .flexible)

include hflex

theorem run_fits_flexible (number : Nat) (negated : Bool) :
    fits number flex negated s = .ok () s := by
  rw [fits, run_bind_ok (run_typeAt hflex)]
  rfl

theorem run_literal_flexible (number : Nat) :
    literal number (some flex) s = .ok (.literal number (some flex)) s := by
  rw [literal, orFlexible, run_bind_ok (run_pure flex s),
    run_bind_ok (run_fits_flexible hflex number false)]
  rfl

theorem run_negatedLiteral_flexible (number : Nat) :
    negatedLiteral number (some flex) none s = .ok (.literal number (some flex)) s := by
  rw [negatedLiteral, Option.none_or, orFlexible, run_bind_ok (run_pure flex s),
    run_bind_ok (run_fits_flexible hflex number true)]
  rfl

theorem run_signOperand_flexible {operator : String} (h : value.IsFlexible flex) :
    signOperand (convertWith recheck) operator value none s =
      .ok (.unary operator value (some flex)) s := by
  rw [signOperand, run_bind_ok (run_typeOf h.type?), run_bind_ok (run_refuseStruct hflex rfl),
    run_bind_ok (run_isFlexible hflex)]
  change (materialize value >>= _) s = _
  rw [run_bind_ok (run_materialize h.type?), h.loaded]
  rfl

theorem run_intern_flexible (hinterned : s.types.Interned) :
    intern Universe.internFlexible s = .ok flex s :=
  run_intern hinterned Universe.internFlexible_eq_intern hflex

theorem run_operandType_flexible (hinterned : s.types.Interned) :
    operandType .arithmetic flex flex s = .ok none s := by
  obtain ⟨promotion, hrun, hmeets⟩ := run_common hinterned hflex hflex
  rw [operandType, run_bind_ok (run_isFlexible hflex), run_bind_ok (run_isFlexible hflex),
    run_bind_ok hrun]
  cases hmeets with
  | equal hid hne => exact absurd (Option.some.inj (hid.symm.trans hflex)) hne
  | flexible => rfl
  | struct _ _ hne => exact absurd rfl hne
  | int _ _ hne => exact absurd rfl hne
  | neither _ _ hne => exact absurd rfl hne

theorem run_operands_flexible (hinterned : s.types.Interned) {operator : String}
    (hleft : left.IsFlexible flex) (hright : right.IsFlexible flex) :
    operands (convertWith recheck) operator .arithmetic left right none s =
      .ok (.binary operator left right (some flex)) s := by
  rw [operands, run_bind_ok (run_typeOf hleft.type?), run_bind_ok (run_typeOf hright.type?),
    run_bind_ok (run_refuseStruct hflex rfl), run_bind_ok (run_refuseStruct hflex rfl)]
  change (operandType _ _ _ >>= _) s = _
  rw [run_bind_ok (run_operandType_flexible hflex hinterned)]
  change (intern _ >>= _) s = _
  rw [run_bind_ok (run_intern_flexible hflex hinterned)]
  rfl

/-- Checking a flexible tree again gives the tree back. -/
theorem run_tree_of_isFlexible (hinterned : s.types.Interned) (h : value.IsFlexible flex) :
    tree recheck value s = .ok value s := by
  induction h with
  | literal =>
      rw [tree, run_bind_ok (run_demandOf_flexible hflex), run_literal_flexible hflex]
  | read =>
      rw [tree, run_bind_ok (run_demandOf_flexible hflex), orFlexible,
        run_bind_ok (run_pure flex s), run_bind_ok (run_typeAt hflex)]
      rfl
  | @sign operand hoperand ih =>
      cases operand with
      | literal number own =>
          cases hoperand
          rw [tree_negatedLiteral, run_bind_ok (run_demandOf_flexible hflex),
            run_bind_ok (run_negatedLiteral_flexible hflex number)]
          exact run_signOperand_flexible hflex .literal
      | _ =>
          rw [tree_sign recheck (by simp), run_bind_ok (run_demandOf_flexible hflex),
            run_bind_ok ih]
          exact run_signOperand_flexible hflex hoperand
  | binary hclass hleft hright ihleft ihright =>
      rw [tree, run_bind_ok (run_demandOf_flexible hflex), hclass,
        run_bind_ok (run_orRefuse_some _ _ s), run_bind_ok ihleft, run_bind_ok ihright]
      exact run_operands_flexible hflex hinterned hleft hright

end Flexible

/-! ## A demand reaches the leaves -/

/-- The failure is that a literal does not fit its type. -/
def IsOutOfRange (failure : Failure) : Prop :=
  ∃ literal type, failure = .refused (.literalOutOfRange literal type)

/-- The refusal of a literal that does not fit the integers of a width. -/
def outOfRange (number : Nat) (negated : Bool) (width : Nat) : Failure :=
  .refused (.literalOutOfRange (literalText number negated) (Shape.int width).describe)

theorem isOutOfRange_outOfRange (number : Nat) (negated : Bool) (width : Nat) :
    IsOutOfRange (outOfRange number negated width) :=
  ⟨_, _, rfl⟩

/-- The leftmost literal of a flexible tree that does not lie in the range of a width; it
is negated if it stands right under a sign. -/
inductive Misfits (width : Nat) : Expr → Nat → Bool → Prop where
  | literal {number : Nat} {type : Option TypeId} : literalFits number width false = false →
      Misfits width (.literal number type) number false
  | negatedLiteral {operator : String} {number : Nat} {own type : Option TypeId} :
      literalFits number width true = false →
      Misfits width (.unary operator (.literal number own) type) number true
  | sign {operator : String} {operand : Expr} {type : Option TypeId} {number : Nat}
      {negated : Bool} : (∀ number own, operand ≠ .literal number own) →
      Misfits width operand number negated →
      Misfits width (.unary operator operand type) number negated
  | left {operator : String} {left right : Expr} {type : Option TypeId} {number : Nat}
      {negated : Bool} : Misfits width left number negated →
      Misfits width (.binary operator left right type) number negated
  | right {operator : String} {left right : Expr} {type : Option TypeId} {number : Nat}
      {negated : Bool} : left.literalsFit width = true → Misfits width right number negated →
      Misfits width (.binary operator left right type) number negated

/-- The failure is that the leftmost misfit of the tree is refused. -/
def Blames (value : Expr) (width : Nat) (failure : Failure) : Prop :=
  ∃ number negated, Misfits width value number negated ∧
    failure = outOfRange number negated width

/-- The stage gives every node of a flexible tree the type `target`, of integers of
some width, if all literals fit it, and refuses the leftmost that does not otherwise. -/
def Retypes (stage : CheckM Expr) (s : Checking) (value : Expr) (target : TypeId) (width : Nat) :
    Prop :=
  Ends stage s
    (fun result final =>
      result = value.retype target ∧ final = s ∧ value.literalsFit width = true)
    fun failure final => Blames value width failure ∧ final = s

theorem Blames.isOutOfRange {width : Nat} {failure : Failure} (h : Blames value width failure) :
    IsOutOfRange failure := by
  obtain ⟨number, negated, -, rfl⟩ := h
  exact isOutOfRange_outOfRange number negated width

/-- What is to blame for a part is to blame for the whole. -/
theorem Blames.imp {whole : Expr} {width : Nat} {failure : Failure} (h : Blames value width failure)
    (hwhole : ∀ {number negated}, Misfits width value number negated →
      Misfits width whole number negated) : Blames whole width failure := by
  obtain ⟨number, negated, hmisfits, rfl⟩ := h
  exact ⟨number, negated, hwhole hmisfits, rfl⟩

/-- Flexible trees that nest less than `depth` deep are retyped. -/
def CanRecheck (recheck : Expr → CheckM Expr) (depth : Nat) : Prop :=
  ∀ {s : Checking} {value : Expr} {flex target : TypeId} {width : Nat}, s.types.Interned →
    s.types.get? flex = some .flexible → value.IsFlexible flex → value.nesting < depth →
    s.types.get? target = some (.int width) →
    Retypes (recheck (value.withType target)) s value target width

theorem CanRecheck.mono {recheck : Expr → CheckM Expr} {depth less : Nat}
    (h : CanRecheck recheck depth) (hle : less ≤ depth) : CanRecheck recheck less :=
  fun hinterned hflex hvalue hless htarget =>
    h hinterned hflex hvalue (Nat.lt_of_lt_of_le hless hle) htarget

section Demand

variable {recheck : Expr → CheckM Expr} {flex target : TypeId} {width : Nat}
  (htarget : s.types.get? target = some (.int width))

include htarget

theorem ends_fits (number : Nat) (negated : Bool) :
    Ends (fits number target negated) s
      (fun _ final => final = s ∧ literalFits number width negated = true)
      fun failure final => failure = outOfRange number negated width ∧ final = s ∧
        literalFits number width negated = false := by
  rw [fits]
  refine .of_bind (run_typeAt htarget) ?_
  cases hfit : literalFits number width negated with
  | true =>
      change Ends (if literalFits number width negated = true then _ else _) s _ _
      rw [if_pos hfit]
      exact ends_pure ⟨rfl, rfl⟩
  | false =>
      change Ends (if literalFits number width negated = true then _ else _) s _ _
      rw [hfit, if_neg (by decide)]
      refine .of_bind (run_describe_int htarget) ?_
      exact ends_refuse ⟨rfl, rfl, rfl⟩

/-- Converting a flexible tree to an integer type is checking it again. -/
theorem run_convertWith_flexible (hflex : s.types.get? flex = some .flexible)
    (h : value.IsFlexible flex) :
    convertWith recheck value target s = recheck (value.withType target) s := by
  have hne : flex ≠ target := by
    rintro rfl
    cases hflex.symm.trans htarget
  rw [convertWith, run_bind_ok (run_materialize h.type?), h.loaded,
    run_bind_ok (run_typeOf h.type?), if_neg hne, run_bind_ok (run_typeAt htarget),
    if_neg (by simp), if_neg (by simp), run_bind_ok (run_typeAt hflex), if_pos rfl]
  rfl

theorem retypes_convertWith (hflex : s.types.get? flex = some .flexible)
    (h : value.IsFlexible flex)
    (hrecheck : Retypes (recheck (value.withType target)) s value target width) :
    Retypes (convertWith recheck value target) s value target width := by
  unfold Retypes Ends
  rw [run_convertWith_flexible htarget hflex h]
  exact hrecheck

theorem retypes_literal {own : Option TypeId} (number : Nat) :
    Retypes (tree recheck (.literal number (some target))) s (.literal number own) target
      width := by
  unfold Retypes
  rw [tree]
  refine .of_bind (run_demandOf htarget (by simp)) ?_
  rw [literal, orFlexible]
  refine .of_bind (run_pure target s) ?_
  refine Ends.bind ((ends_fits htarget number false).weaken (fun _ _ h => h) ?_) ?_
  · rintro failure final ⟨rfl, rfl, hfit⟩
    exact ⟨⟨number, false, .literal hfit, rfl⟩, rfl⟩
  · rintro _ _ ⟨rfl, hfit⟩
    exact ends_pure ⟨rfl, rfl, hfit⟩

theorem retypes_read {own : Option TypeId} :
    Retypes (tree recheck (.read (some target))) s (.read own) target width := by
  unfold Retypes
  rw [tree, orFlexible]
  refine .of_bind (run_demandOf htarget (by simp)) (.of_bind (run_pure target s) ?_)
  refine .of_bind (run_typeAt htarget) ?_
  exact ends_pure ⟨rfl, rfl, rfl⟩

/-- A literal under a sign takes the demand at once. -/
theorem retypes_negatedLiteral {own outer : Option TypeId} (number : Nat) :
    Retypes (tree recheck (.unary "-" (.literal number own) (some target))) s
      (.unary "-" (.literal number own) outer) target width := by
  have hliteral : Ends (negatedLiteral number own (some target)) s
      (fun operand final => operand = .literal number (some target) ∧ final = s ∧
        literalFits number width true = true)
      fun failure final => failure = outOfRange number true width ∧ final = s ∧
        literalFits number width true = false := by
    rw [negatedLiteral, Option.some_or, orFlexible]
    refine .of_bind (run_pure target s) ((ends_fits htarget number true).bind ?_)
    rintro _ _ ⟨rfl, hfit⟩
    exact ends_pure ⟨rfl, rfl, hfit⟩
  unfold Retypes
  rw [tree_negatedLiteral]
  refine .of_bind (run_demandOf htarget (by simp)) ?_
  refine Ends.bind (hliteral.weaken (fun _ _ h => h) ?_) ?_
  · rintro failure final ⟨rfl, rfl, hfit⟩
    exact ⟨⟨number, true, .negatedLiteral hfit, rfl⟩, rfl⟩
  rintro _ _ ⟨rfl, rfl, hfit⟩
  rw [signOperand]
  refine .of_bind (run_typeOf rfl) (.of_bind (run_refuseStruct htarget rfl)
    (.of_bind (run_isFlexible htarget) ?_))
  rw [decide_eq_false (by simp)]
  change Ends (materialize _ >>= _) _ _ _
  exact .of_bind (run_materialize rfl) (ends_pure ⟨rfl, rfl, hfit⟩)

/-- Any other operand of a sign is checked as it is and then again on demand. -/
theorem retypes_sign {operand : Expr} {outer : Option TypeId}
    (hflex : s.types.get? flex = some .flexible) (hoperand : operand.IsFlexible flex)
    (hliteral : ∀ number own, operand ≠ .literal number own)
    (hrun : tree recheck operand s = .ok operand s)
    (hrecheck : Retypes (recheck (operand.withType target)) s operand target width) :
    Retypes (tree recheck (.unary "-" operand (some target))) s (.unary "-" operand outer) target
      width := by
  have hfit : (Expr.unary "-" operand outer).literalsFit width = operand.literalsFit width := by
    rw [Expr.literalsFit]
    exact hliteral
  have hconvert := retypes_convertWith htarget hflex hoperand hrecheck
  unfold Retypes
  rw [tree_sign recheck hliteral, hfit]
  refine .of_bind (run_demandOf htarget (by simp)) ?_
  refine .of_bind hrun ?_
  rw [signOperand]
  refine .of_bind (run_typeOf hoperand.type?) (.of_bind (run_refuseStruct hflex rfl)
    (.of_bind (run_isFlexible hflex) ?_))
  rw [decide_eq_true rfl]
  change Ends (convertWith recheck operand target >>= _) _ _ _
  refine Ends.bind (hconvert.weaken (fun _ _ h => h) ?_) ?_
  · rintro failure final ⟨hblames, rfl⟩
    exact ⟨hblames.imp (.sign hliteral), rfl⟩
  · rintro _ _ ⟨rfl, rfl, hfit⟩
    exact ends_pure ⟨rfl, rfl, hfit⟩

/-- Both operands of an arithmetic operator take the demand. -/
theorem retypes_binary {operator : String} {left right : Expr} {outer : Option TypeId}
    (hclass : OperatorClass.of? operator = some .arithmetic)
    (hflex : s.types.get? flex = some .flexible) (hleft : left.IsFlexible flex)
    (hright : right.IsFlexible flex) (hrunLeft : tree recheck left s = .ok left s)
    (hrunRight : tree recheck right s = .ok right s)
    (hrecheckLeft : Retypes (recheck (left.withType target)) s left target width)
    (hrecheckRight : Retypes (recheck (right.withType target)) s right target width) :
    Retypes (tree recheck (.binary operator left right (some target))) s
      (.binary operator left right outer) target width := by
  have hconvertLeft := retypes_convertWith htarget hflex hleft hrecheckLeft
  have hconvertRight := retypes_convertWith htarget hflex hright hrecheckRight
  -- the left side is converted first, so the right one is blamed only if the left one fits
  have hoperands : Ends (convertOperands (convertWith recheck) left right target) s
      (fun results final => results = (left.retype target, right.retype target) ∧ final = s ∧
        (left.literalsFit width && right.literalsFit width) = true)
      fun failure final =>
        Blames (.binary operator left right outer) width failure ∧ final = s := by
    rw [convertOperands]
    refine Ends.bind (hconvertLeft.weaken (fun _ _ h => h) ?_) ?_
    · rintro failure final ⟨hblames, rfl⟩
      exact ⟨hblames.imp .left, rfl⟩
    · rintro _ _ ⟨rfl, rfl, hfitLeft⟩
      refine Ends.bind (hconvertRight.weaken (fun _ _ h => h) ?_) ?_
      · rintro failure final ⟨hblames, rfl⟩
        exact ⟨hblames.imp (.right hfitLeft), rfl⟩
      · rintro _ _ ⟨rfl, rfl, hfitRight⟩
        exact ends_pure ⟨rfl, rfl, by rw [hfitLeft, hfitRight, Bool.and_true]⟩
  unfold Retypes
  rw [tree, hclass]
  refine .of_bind (run_demandOf htarget (by simp)) ?_
  refine .of_bind (run_orRefuse_some _ _ s) ?_
  refine .of_bind hrunLeft ?_
  refine .of_bind hrunRight ?_
  rw [operands]
  refine .of_bind (run_typeOf hleft.type?) (.of_bind (run_typeOf hright.type?) ?_)
  refine .of_bind (run_refuseStruct hflex rfl) (.of_bind (run_refuseStruct hflex rfl) ?_)
  change Ends (convertOperands (convertWith recheck) left right target >>= _) _ _ _
  refine hoperands.bind ?_
  rintro _ _ ⟨rfl, rfl, hfit⟩
  exact ends_pure ⟨rfl, rfl, hfit⟩

end Demand

/-- **Demand propagation.**  A flexible tree whose root has been given an integer
type is retyped as a whole, if the trees inside it can be. -/
theorem retypes_tree {recheck : Expr → CheckM Expr} {flex target : TypeId} {width : Nat}
    (hinterned : s.types.Interned) (hflex : s.types.get? flex = some .flexible)
    (h : value.IsFlexible flex) (hrecheck : CanRecheck recheck value.nesting)
    (htarget : s.types.get? target = some (.int width)) :
    Retypes (tree recheck (value.withType target)) s value target width := by
  cases h with
  | literal => exact retypes_literal htarget _
  | read => exact retypes_read htarget
  | @sign operand hoperand =>
      have hless : operand.nesting < (Expr.unary "-" operand (some flex)).nesting := by
        rw [Expr.nesting]
        exact Nat.lt_succ_self _
      cases operand with
      | literal number own => exact retypes_negatedLiteral htarget number
      | _ =>
          exact retypes_sign htarget hflex hoperand (by simp)
            (run_tree_of_isFlexible hflex hinterned hoperand)
            (hrecheck hinterned hflex hoperand hless htarget)
  | @binary operator left right hclass hleft hright =>
      have hnesting : (Expr.binary operator left right (some flex)).nesting =
          max left.nesting right.nesting + 1 := by rw [Expr.nesting]
      exact retypes_binary htarget hclass hflex hleft hright
        (run_tree_of_isFlexible hflex hinterned hleft)
        (run_tree_of_isFlexible hflex hinterned hright)
        (hrecheck hinterned hflex hleft (by omega) htarget)
        (hrecheck hinterned hflex hright (by omega) htarget)

/-- Checking again never runs out of room. -/
theorem canRecheck_within (depth : Nat) : CanRecheck (within depth) (depth + 1) := by
  induction depth with
  | zero =>
      -- a tree without operators makes no further check
      intro s value flex target width hinterned hflex hvalue hless htarget
      exact retypes_tree hinterned hflex hvalue (fun _ _ _ hless' => by omega) htarget
  | succ depth ih =>
      intro s value flex target width hinterned hflex hvalue hless htarget
      exact retypes_tree hinterned hflex hvalue (ih.mono (by omega)) htarget

end FlexWidth.Check
