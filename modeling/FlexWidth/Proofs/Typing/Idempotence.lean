import FlexWidth.Proofs.Typing.Discipline
import FlexWidth.Proofs.Typing.Promotion
import Mathlib

/-!
# Checking again changes nothing

On a checked expression every node has a type, and the checker reads a type as a demand.  Each
kind of node is then left alone for a reason of its own: a flexible tree demands nothing, a
retyped literal fits, operands that have been converted have the type that is wanted, a struct
literal finds its type in the universe.  None of them is checked for another time, so what
stands in for checking again does not matter (`Check.run_tree_of_elaborates`).

Conversion yields a value of the wanted type, or leaves any value as it is if the flexible type
is wanted.  Either way there is nothing left to convert (`Check.exists_valueOf_of_convertWith`).
-/

namespace FlexWidth

namespace Check

variable {s : Checking} {recheck : Expr → CheckM Expr} {value left right result : Expr}
  {id flex target : TypeId} {ty targetTy : Ty}

/-! ## Steps that find nothing to do -/

theorem run_materialize_value (h : value.ValueOf id) : materialize value s = .ok value s := by
  rw [run_materialize h.type?, h.loaded]

theorem run_convertWith_self (h : value.ValueOf target) :
    convertWith recheck value target s = .ok value s := by
  rw [convertWith, run_bind_ok (run_materialize_value h), run_bind_ok (run_typeOf h.type?),
    if_pos rfl]
  rfl

theorem run_convertOperands_self (hleft : left.ValueOf target) (hright : right.ValueOf target) :
    convertOperands (convertWith recheck) left right target s = .ok (left, right) s := by
  rw [convertOperands, run_bind_ok (run_convertWith_self hleft),
    run_bind_ok (run_convertWith_self hright)]
  rfl

/-- Only a flexible operand takes the demand on a sign. -/
theorem run_signOperand_self (h : value.ValueOf id) (hty : s.types.get? id = some ty)
    (hstruct : ty.struct? = none) (hconcrete : ty ≠ .flexible) (demand : Option TypeId) :
    signOperand (convertWith recheck) "-" value demand s = .ok (.unary "-" value (some id)) s := by
  rw [signOperand, run_bind_ok (run_typeOf h.type?), run_bind_ok (run_refuseStruct hty hstruct),
    run_bind_ok (run_isFlexible hty), decide_eq_false hconcrete]
  cases demand with
  | none => exact run_bind_ok (run_materialize_value h) _
  | some demand => exact run_bind_ok (run_materialize_value h) _

theorem run_operandType_self (hinterned : s.types.Interned)
    (htarget : s.types.get? target = some targetTy) (hconcrete : targetTy ≠ .flexible)
    (operatorClass : OperatorClass) :
    operandType operatorClass target target s = .ok (some target) s := by
  obtain ⟨promotion, hrun, hmeets⟩ := run_common hinterned htarget htarget
  rw [operandType, run_bind_ok (run_isFlexible htarget), run_bind_ok (run_isFlexible htarget),
    run_bind_ok hrun]
  cases hmeets with
  | equal => rfl
  | flexible hflexible => exact absurd (Option.some.inj (htarget.symm.trans hflexible)) hconcrete
  | struct _ _ hne => exact absurd rfl hne
  | int _ _ hne => exact absurd rfl hne
  | neither _ _ hne => exact absurd rfl hne

section Operands

variable {operator : String} (hleft : left.ValueOf target) (hright : right.ValueOf target)
  (htarget : s.types.get? target = some targetTy) (hstruct : targetTy.struct? = none)

include hleft hright htarget hstruct

/-- The operands of an arithmetic operator have the type that is demanded of it. -/
theorem run_operands_arithmetic_self :
    operands (convertWith recheck) operator .arithmetic left right (some target) s =
      .ok (.binary operator left right (some target)) s := by
  rw [operands, run_bind_ok (run_typeOf hleft.type?), run_bind_ok (run_typeOf hright.type?),
    run_bind_ok (run_refuseStruct htarget hstruct), run_bind_ok (run_refuseStruct htarget hstruct)]
  exact run_bind_ok (run_convertOperands_self hleft hright) _

/-- The operands of a relational operator meet in their own type. -/
theorem run_operands_relational_self {boolean : TypeId} (hinterned : s.types.Interned)
    (hconcrete : targetTy ≠ .flexible) (hboolean : s.types.get? boolean = some .bool) :
    operands (convertWith recheck) operator .relational left right (some boolean) s =
      .ok (.binary operator left right (some boolean)) s := by
  rw [operands, run_bind_ok (run_typeOf hleft.type?), run_bind_ok (run_typeOf hright.type?),
    run_bind_ok (run_refuseStruct htarget hstruct), run_bind_ok (run_refuseStruct htarget hstruct)]
  change (operandType _ _ _ >>= _) s = _
  rw [run_bind_ok (run_operandType_self hinterned htarget hconcrete .relational)]
  change (convertOperands _ _ _ _ >>= _) s = _
  rw [run_bind_ok (run_convertOperands_self hleft hright)]
  exact run_bind_ok (run_intern hinterned Universe.internBool_eq_intern hboolean) _

end Operands

/-! ## Checked parts -/

theorem run_fits {width number : Nat} {negated : Bool}
    (htarget : s.types.get? target = some (.int width))
    (hfit : literalFits number width negated = true) :
    fits number target negated s = .ok () s := by
  rw [fits, run_bind_ok (run_typeAt htarget)]
  exact congrFun (if_pos hfit) s

/-- A tree that has taken a demand. -/
theorem run_tree_retype {width : Nat} (htarget : s.types.get? target = some (.int width))
    (hvalue : value.IsFlexible flex) (hfit : value.literalsFit width = true) :
    tree recheck (value.retype target) s = .ok (value.retype target) s := by
  induction hvalue with
  | @literal number =>
      rw [Expr.retype, tree, run_bind_ok (run_demandOf htarget (by simp)), literal, orFlexible,
        run_bind_ok (run_pure target s), run_bind_ok (run_fits htarget hfit)]
      rfl
  | read =>
      rw [Expr.retype, tree, run_bind_ok (run_demandOf htarget (by simp)), orFlexible,
        run_bind_ok (run_pure target s), run_bind_ok (run_typeAt htarget)]
      rfl
  | @sign operand hoperand ih =>
      cases hoperand with
      | @literal number =>
          have hliteral : negatedLiteral number (some target) (some target) s =
              .ok (.literal number (some target)) s := by
            rw [negatedLiteral, Option.some_or, orFlexible, run_bind_ok (run_pure target s),
              run_bind_ok (run_fits htarget hfit)]
            rfl
          rw [Expr.retype, Expr.retype, tree_negatedLiteral,
            run_bind_ok (run_demandOf htarget (by simp)), run_bind_ok hliteral]
          exact run_signOperand_self ⟨rfl, rfl⟩ htarget rfl (by simp) _
      | _ =>
          rw [Expr.retype, tree_sign recheck (by simp [Expr.retype]),
            run_bind_ok (run_demandOf htarget (by simp)), run_bind_ok (ih hfit)]
          exact run_signOperand_self ⟨rfl, rfl⟩ htarget rfl (by simp) _
  | binary hclass hleft hright ihleft ihright =>
      rw [Expr.literalsFit, Bool.and_eq_true] at hfit
      rw [Expr.retype, tree, run_bind_ok (run_demandOf htarget (by simp)), hclass,
        run_bind_ok (run_orRefuse_some _ _ s), run_bind_ok (ihleft hfit.1),
        run_bind_ok (ihright hfit.2)]
      exact run_operands_arithmetic_self (hleft.valueOf_retype target)
        (hright.valueOf_retype target) htarget rfl

theorem run_tree_loaded (htype : value.type? = some id) (hid : s.types.Holds id)
    (hvalue : tree recheck value s = .ok value s) :
    tree recheck value.loaded s = .ok value.loaded s := by
  unfold Expr.loaded
  split
  · obtain ⟨demand, hdemand⟩ := exists_run_demandOf_some hid
    rw [htype, tree, run_bind_ok hdemand, run_bind_ok hvalue, run_bind_ok (run_typeOf htype)]
    rfl
  · exact hvalue

theorem run_tree_converts (h : Converts s.types value target result)
    (htarget : s.types.Holds target) (hvalue : tree recheck value s = .ok value s) :
    tree recheck result s = .ok result s := by
  cases h with
  | same htype => exact run_tree_loaded htype htarget hvalue
  | widen htype hsource =>
      obtain ⟨demand, hdemand⟩ := exists_run_demandOf_some htarget
      rw [tree, run_bind_ok hdemand, run_bind_ok (run_tree_loaded htype ⟨_, hsource⟩ hvalue)]
      rfl
  | retype _ hflexible htarget hfit => exact run_tree_retype htarget hflexible hfit

/-- The value of a field has been settled. -/
theorem run_fieldValue_self (h : value.ValueOf id) (hty : s.types.get? id = some ty)
    (hconcrete : ty ≠ .flexible) : fieldValue (convertWith recheck) value s = .ok value s := by
  rw [fieldValue, run_bind_ok (run_typeOf h.type?), run_bind_ok (run_isFlexible hty),
    decide_eq_false hconcrete]
  exact run_materialize_value h

end Check

/-! ## Checked expressions -/

/-- What is checked as a literal is flexible. -/
theorem Elaborates.loaded_ne_literal {types : Universe} {symbols : SymbolTable}
    {source value : Expr} {id : TypeId} {ty : Ty} (h : Elaborates types symbols source value)
    (hid : value.type? = some id) (hty : types.get? id = some ty) (hconcrete : ty ≠ .flexible)
    (number : Nat) (own : Option TypeId) : value.loaded ≠ .literal number own := by
  intro heq
  unfold Expr.loaded at heq
  split at heq
  · cases heq
  · subst heq
    cases h with
    | literal hflexible =>
        cases hid
        cases hty.symm.trans hflexible
        exact hconcrete rfl

namespace Check

variable {s : Checking} {recheck : Expr → CheckM Expr}

mutual

/-- **A checked expression is checked already**: checking it again yields the same expression
and the same state. -/
theorem run_tree_of_elaborates {source value : Expr} (hs : s.Sound)
    (h : Elaborates s.types s.symbols source value) : tree recheck value s = .ok value s := by
  have hinterned := hs.sound.toInterned
  match h with
  | .literal hid => exact run_tree_of_isFlexible hid hinterned .literal
  | .read hid => exact run_tree_of_isFlexible hid hinterned .read
  | .var hid =>
      obtain ⟨demand, hdemand⟩ := exists_run_demandOf_some (hs.concrete hid).holds
      rw [tree, run_bind_ok hdemand, run_bind_ok (run_orRefuse_some _ _ s),
        run_bind_ok (run_symbolType? hid), run_bind_ok (run_orRefuse_some _ _ s)]
      rfl
  | .flexible hclass hleft hright hid hl hr =>
      obtain ⟨_, _, htype, hty, hflexible⟩ :=
        (Elaborates.flexible hclass hleft hright hid hl hr).exists_type hs
      cases htype
      cases hid.symm.trans hty
      exact run_tree_of_isFlexible hid hinterned (hflexible rfl)
  | @Elaborates.sign _ _ _ _ _ ty hoperand hid hty hstruct =>
      by_cases hcase : ty = .flexible
      · obtain ⟨_, _, htype, hty', hflexible⟩ :=
          (Elaborates.sign hoperand hid hty hstruct).exists_type hs
        cases htype
        cases hty.symm.trans hty'
        subst hcase
        exact run_tree_of_isFlexible hty hinterned (hflexible rfl)
      · have hrun := run_tree_loaded hid ⟨_, hty⟩ (run_tree_of_elaborates hs hoperand)
        rw [tree_sign recheck (hoperand.loaded_ne_literal hid hty hcase),
          run_bind_ok (run_demandOf hty hcase), run_bind_ok hrun]
        exact run_signOperand_self (Expr.valueOf_loaded hid) hty hstruct hcase _
  | .arithmetic hclass hleft hright _ _ hlstruct _ hflexible htarget hl hr =>
      have hconcrete := Ty.join_ne_flexible hflexible
      have hrunLeft := run_tree_converts hl ⟨_, htarget⟩ (run_tree_of_elaborates hs hleft)
      have hrunRight := run_tree_converts hr ⟨_, htarget⟩ (run_tree_of_elaborates hs hright)
      rw [tree, run_bind_ok (run_demandOf htarget hconcrete), hclass,
        run_bind_ok (run_orRefuse_some _ _ s), run_bind_ok hrunLeft, run_bind_ok hrunRight]
      exact run_operands_arithmetic_self hl.valueOf hr.valueOf htarget (Ty.struct?_join hlstruct)
  | .relational hclass hleft hright _ _ hlstruct _ htarget hl hr hid =>
      have hrunLeft := run_tree_converts hl ⟨_, htarget⟩ (run_tree_of_elaborates hs hleft)
      have hrunRight := run_tree_converts hr ⟨_, htarget⟩ (run_tree_of_elaborates hs hright)
      rw [tree, run_bind_ok (run_demandOf hid (by simp)), hclass,
        run_bind_ok (run_orRefuse_some _ _ s), run_bind_ok hrunLeft, run_bind_ok hrunRight]
      exact run_operands_relational_self hl.valueOf hr.valueOf htarget
        (Ty.struct?_settled (Ty.struct?_join hlstruct)) hinterned (Ty.settled_ne_flexible _) hid
  | .glue hfields hdistinct hid htypes hnames =>
      have hnew : NewNames .empty _ := ⟨hdistinct, fun _ _ => rfl⟩
      have hrun := run_glueFields_of_elaborates hs hfields htypes 0 hnew
      obtain ⟨demand, hdemand⟩ := exists_run_demandOf_some ⟨_, hid⟩
      rw [tree, run_bind_ok hdemand, run_bind_ok hrun, ← hnames]
      exact run_bind_ok (run_intern hinterned (Universe.internStruct_eq_intern _) hid) _
  | .dot hbase hty hposition hid =>
      obtain ⟨base, hbaseType, hstruct⟩ := hty
      have hfield := (hs.sound.admits hstruct).1 _ (List.mem_of_getElem? hid)
      obtain ⟨demand, hdemand⟩ := exists_run_demandOf_some hfield.holds
      rw [tree, run_bind_ok hdemand, run_bind_ok (run_tree_of_elaborates hs hbase), namedField,
        run_bind_ok (run_typeOf hbaseType), run_bind_ok (run_structOf hstruct), hposition]
      change (orFault _ _ >>= _) s = _
      rw [hid, run_bind_ok (run_orFault_some _ _ s)]
      rfl
  | .index hbase hty hid =>
      obtain ⟨base, hbaseType, hstruct⟩ := hty
      have hfield := (hs.sound.admits hstruct).1 _ (List.mem_of_getElem? hid)
      obtain ⟨demand, hdemand⟩ := exists_run_demandOf_some hfield.holds
      rw [tree, run_bind_ok hdemand, run_bind_ok (run_tree_of_elaborates hs hbase), positionedField,
        run_bind_ok (run_typeOf hbaseType), run_bind_ok (run_structOf hstruct), hid]
      rfl

/-- The fields of a checked struct literal, with the names of those before them. -/
theorem run_glueFields_of_elaborates {fields checked : GlueFields} {ids : List TypeId}
    {names : FieldNames} (hs : s.Sound) (h : ElaboratesFields s.types s.symbols fields checked)
    (htypes : checked.map (fun field => field.2.type?) = ids.map some) (position : Nat)
    (hnew : NewNames names fields) :
    glueFields recheck position names checked s =
      .ok (checked, ⟨ids, glueNames position names fields⟩) s := by
  match h with
  | .nil =>
      cases ids with
      | nil => rfl
      | cons => cases htypes
  | .cons hvalue hty htarget hfinal hrest =>
      cases ids with
      | nil => cases htypes
      | cons id ids =>
          obtain ⟨hid, hids⟩ := List.cons.inj htypes
          cases hfinal.type?.symm.trans hid
          obtain ⟨names', hname, hnew'⟩ := exists_run_addName (s := s) hnew position
          obtain ⟨-, -, hglue⟩ := (checks_addName hs _ position _).post_of_ok hname
          rw [(hglue _ _).1]
          have hrun := run_tree_converts hfinal ⟨_, htarget⟩ (run_tree_of_elaborates hs hvalue)
          rw [glueFields, run_bind_ok hname, run_bind_ok hrun,
            run_bind_ok (run_fieldValue_self hfinal.valueOf htarget (Ty.settled_ne_flexible _)),
            run_bind_ok (run_typeOf hfinal.type?),
            run_bind_ok (run_glueFields_of_elaborates hs hrest hids (position + 1) hnew')]
          rfl

end

/-! ## Converted expressions -/

/-- What conversion yields is a value of the wanted type, unless that is the flexible one. -/
theorem exists_valueOf_of_convertWith {t : Checking} {value result : Expr} {ty : Ty}
    {target : TypeId} (hs : s.Sound) (hvalue : s.types.Checked value ty)
    (hrecheck : CanRecheck recheck (value.nesting + 1))
    (hrun : convertWith recheck value target s = .ok result t) :
    ∃ id, result.ValueOf id ∧ (id = target ∨ t.types.get? target = some .flexible) := by
  obtain ⟨id, hid, hty, hflexible⟩ := id hvalue
  cases htarget : s.types.get? target with
  | none =>
      have hne : id ≠ target := by
        rintro rfl
        cases hty.symm.trans htarget
      rw [convertWith, run_bind_ok (run_materialize hid),
        run_bind_ok (run_typeOf (Expr.valueOf_loaded hid).type?), if_neg hne,
        run_bind_error (run_typeAt_none htarget)] at hrun
      cases hrun
  | some targetTy =>
      by_cases hdemandless : targetTy = .flexible
      · subst hdemandless
        rw [convertWith, run_bind_ok (run_materialize hid),
          run_bind_ok (run_typeOf (Expr.valueOf_loaded hid).type?)] at hrun
        split at hrun
        · rename_i heq
          cases hrun
          exact ⟨id, Expr.valueOf_loaded hid, Or.inl heq⟩
        · rw [run_bind_ok (run_typeAt htarget), if_pos rfl] at hrun
          cases hrun
          exact ⟨id, Expr.valueOf_loaded hid, Or.inr htarget⟩
      · by_cases hbool : targetTy = .bool
        · subst hbool
          obtain ⟨-, htests⟩ :=
            (checks_convertWith_bool hs hrecheck hvalue htarget).post_of_ok hrun
          exact ⟨target, htests.valueOf, Or.inl rfl⟩
        · obtain ⟨-, hconverts⟩ := (checks_convertWith hs hid hty hflexible hrecheck htarget
            hdemandless fun heq => absurd heq hbool).post_of_ok hrun
          exact ⟨target, hconverts.valueOf, Or.inl rfl⟩

/-- A value of the wanted type stays as it is, and so does any value of which nothing is
wanted. -/
theorem run_convertWith_of_valueOf {value : Expr} {id target : TypeId} (h : value.ValueOf id)
    (hcase : id = target ∨ s.types.get? target = some .flexible) :
    convertWith recheck value target s = .ok value s := by
  by_cases heq : id = target
  · subst heq
    exact run_convertWith_self h
  · have htarget := hcase.resolve_left heq
    rw [convertWith, run_bind_ok (run_materialize_value h), run_bind_ok (run_typeOf h.type?),
      if_neg heq, run_bind_ok (run_typeAt htarget), if_pos rfl]
    rfl

end Check

/-- **Checking again is the identity.**  In every state that the check of a parsed and resolved
program comes to, let a bare expression be checked.  From then on, whatever types are added and
symbols typed, checking the result yields it again and changes nothing, and what it has been
converted to is its own conversion to the same type. -/
theorem expr_eq_ok_self_of_reached {tokens : List Token} {spelled body : Program}
    {symbols : SymbolTable} {start log : Array Event} (hparse : parse tokens = .ok spelled)
    (hresolve : Frontend.resolve spelled start = .ok (body, symbols) log) {s t : Checking}
    (hreached : Check.Reached body (Checking.initial symbols log) s) {source value : Expr}
    (hbare : source.Bare) (hrun : Check.expr source s = .ok value t) :
    t.Sound ∧ ∀ u : Checking, u.Sound → t.Advances u → Check.expr value u = .ok value u ∧
      ∀ target result final, Check.convert value target u = .ok result final →
        Check.convert result target final = .ok result final := by
  have hs : s.Sound := sound_of_reached hparse hresolve hreached
  obtain ⟨hreaches, helaborates⟩ := (Check.infers_expr hbare hs).post_of_ok hrun
  refine ⟨hreaches.sound, fun u hu hadvances => ?_⟩
  have hvalue := helaborates.grow hadvances.grows hadvances.keeps
  refine ⟨?_, fun target result final hconvert => ?_⟩
  · rw [Check.expr, Check.within_eq_tree]
    exact Check.run_tree_of_elaborates hu hvalue
  · obtain ⟨ty, hchecked⟩ := hvalue.exists_checked hu
    obtain ⟨id, hresult, hcase⟩ :=
      Check.exists_valueOf_of_convertWith hu hchecked (Check.canRecheck_within _) hconvert
    exact Check.run_convertWith_of_valueOf hresult hcase

/-- A comparison of what lies in a struct with a literal, once it has been checked and as an
integer of eight bits. -/
theorem expr_eq_ok_self_of_reached_comparison :
    ∃ tokens spelled body symbols log, ∃ s t final : Checking,
      ∃ source value result : Expr, ∃ eight : TypeId,
      (tokenize "p = (1, a: 2 < 3); x : int(8) = 1;" = .ok tokens ∧
        parse tokens = .ok spelled ∧ Frontend.resolve spelled #[] = .ok (body, symbols) log ∧
        Check.Reached body (Checking.initial symbols log) s ∧
        source = .binary "<" (.unary "-" (.index (.var "p" (some ⟨0⟩) none) 0 none) none)
          (.unary "-" (.literal 5 none) none) none ∧
        source.Bare ∧ Check.expr source s = .ok value t ∧
        Check.convert value eight t = .ok result final) ∧
      t.types.get? eight = some (.int 8) ∧ Check.expr value t = .ok value t ∧
        Check.convert result eight final = .ok result final := by
  have hruns : ∃ tokens spelled symbols log first first' second second' source value result eight,
      ∃ middle s t final : Checking,
      tokenize "p = (1, a: 2 < 3); x : int(8) = 1;" = .ok tokens ∧ parse tokens = .ok spelled ∧
        Frontend.resolve spelled #[] = .ok ([first, second], symbols) log ∧
        Check.stmt first (Checking.initial symbols log) = .ok first' middle ∧
        Check.stmt second middle = .ok second' s ∧
        source = .binary "<" (.unary "-" (.index (.var "p" (some ⟨0⟩) none) 0 none) none)
          (.unary "-" (.literal 5 none) none) none ∧
        Check.expr source s = .ok value t ∧ s.symbols.type? ⟨1⟩ = some eight ∧
        t.types.get? eight = some (.int 8) ∧ Check.convert value eight t = .ok result final :=
    ⟨_, _, _, _, _, _, _, _, _, _, _, _, _, _, _, _, by cbv, by cbv, by cbv, by cbv, by cbv, rfl,
      by cbv, by cbv, by cbv, by cbv⟩
  obtain ⟨tokens, spelled, symbols, log, first, first', second, second', source, value, result,
    eight, middle, s, t, final, htokens, hparse, hresolve, hfirst, hsecond, hsource, hvalue, -,
    height, hresult⟩ := hruns
  have hreached : Check.Reached [first, second] (Checking.initial symbols log) s :=
    .ends (.later hfirst .here) hsecond
  have hbare : source.Bare := by
    rw [hsource]
    exact .binary (.unary (.index .var)) (.unary (.literal (by decide)))
  obtain ⟨hsound, hagain⟩ := expr_eq_ok_self_of_reached hparse hresolve hreached hbare hvalue
  obtain ⟨hexpr, hconvert⟩ := hagain t hsound (.refl t)
  exact ⟨tokens, spelled, _, symbols, log, s, t, final, source, value, result, eight,
    ⟨htokens, hparse, hresolve, hreached, hsource, hbare, hvalue, hresult⟩, height, hexpr,
    hconvert eight result final hresult⟩

end FlexWidth
