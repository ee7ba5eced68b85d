import FlexWidth.Proofs.Typing.SoundStates

/-!
# What holds at every call

Every call that is made while a bare program is checked finds what it relies on
(`ExprCall.Valid`).  An expression that is checked is bare, or it is flexible, perhaps with a
width that is demanded of it.  A value that is converted has a type which converts to the one
that is wanted, unless it is a condition.

The invariant is carried from a statement to the calls it makes (`Opens.valid`), and from a
call to the calls it makes in turn (`Calls.valid`).  So it holds along every run
(`Makes.valid`), and every state that is reached is sound (`Reached.sound`).
-/

namespace FlexWidth

@[simp] theorem Expr.nesting_withType (value : Expr) (type : TypeId) :
    (value.withType type).nesting = value.nesting := by
  cases value <;> simp only [withType, nesting]

namespace Check

variable {s t : Checking} {types later : Universe} {value : Expr} {depth : Nat}

/-! ## Expressions that are checked -/

/-- The expressions on which the checker is called. -/
inductive Checkable (types : Universe) (value : Expr) : Prop where
  | bare : value.Bare → Checkable types value
  | flexible {flex : TypeId} : types.get? flex = some .flexible → value.IsFlexible flex →
      Checkable types value
  | demanded {flex target : TypeId} {width : Nat} {inner : Expr} :
      types.get? flex = some .flexible → inner.IsFlexible flex →
      types.get? target = some (.int width) → value = inner.withType target →
      Checkable types value

theorem Checkable.grow (h : Checkable types value) (hgrows : types.Grows later) :
    Checkable later value := by
  cases h with
  | bare hbare => exact .bare hbare
  | flexible hflex hvalue => exact .flexible (hgrows.get? hflex) hvalue
  | demanded hflex hinner htarget heq =>
      exact .demanded (hgrows.get? hflex) hinner (hgrows.get? htarget) heq

/-- Whichever expression is checked, the result has a type and nests as deeply. -/
theorem Checkable.checked_of_tree (h : Checkable s.types value) (hs : s.Sound)
    (hnesting : value.nesting ≤ depth) {result : Expr}
    (hrun : tree (recheckAt depth) value s = .ok result t) :
    s.Reaches t ∧ result.nesting = value.nesting ∧ ∃ ty, t.types.Checked result ty := by
  have hrecheck : CanRecheck (recheckAt depth) value.nesting :=
    canRecheck_recheckAt hnesting
  cases h with
  | bare hbare =>
      obtain ⟨hreaches, hresult⟩ := (infers_tree hbare hs hrecheck).post_of_ok hrun
      exact ⟨hreaches, hresult.nesting, hresult.exists_checked hreaches.sound⟩
  | @flexible flex hflex hvalue =>
      cases (run_tree_of_isFlexible hflex hs.sound.toInterned hvalue).symm.trans hrun
      exact ⟨hs.reaches, rfl, .flexible, flex, hvalue.type?, hflex, fun _ => hvalue⟩
  | @demanded flex target width inner hflex hinner htarget heq =>
      subst heq
      rw [Expr.nesting_withType] at hrecheck ⊢
      obtain ⟨rfl, rfl, -⟩ :=
        (retypes_tree hs.sound.toInterned hflex hinner hrecheck htarget).post_of_ok hrun
      exact ⟨hs.reaches, inner.nesting_retype target, .int width, target,
        hinner.type?_retype target, htarget, fun heq => by cases heq⟩

theorem not_checkable_conversion {operand : Expr} {type : Option TypeId} :
    ¬ Checkable types (.conversion operand type) := by
  rintro (hbare | ⟨-, hvalue⟩ | ⟨-, hinner, -, heq⟩)
  · cases hbare
  · cases hvalue
  · cases hinner <;> cases heq

theorem not_checkable_load {place : Expr} {type : Option TypeId} :
    ¬ Checkable types (.load place type) := by
  rintro (hbare | ⟨-, hvalue⟩ | ⟨-, hinner, -, heq⟩)
  · cases hbare
  · cases hvalue
  · cases hinner <;> cases heq

/-- What denotes a place is never flexible. -/
theorem Checkable.bare_of_denotesStorage (h : Checkable types value)
    (hstorage : value.denotesStorage = true) : value.Bare := by
  cases h with
  | bare hbare => exact hbare
  | flexible _ hvalue => cases hvalue.denotesStorage.symm.trans hstorage
  | demanded _ hinner _ heq =>
      subst heq
      cases hinner <;> cases hstorage

/-! ## Operators -/

/-- The slot for the type of an operator, what its operands are like, and what is demanded
of them. -/
inductive Slot (types : Universe) (type : Option TypeId) (operands : List Expr) :
    Option TypeId → Prop where
  | empty : type = none → (∀ operand ∈ operands, operand.Bare) → Slot types type operands none
  | flexible {flex : TypeId} : types.get? flex = some .flexible → type = some flex →
      (∀ operand ∈ operands, operand.IsFlexible flex) → Slot types type operands none
  | demand {flex target : TypeId} {width : Nat} : types.get? flex = some .flexible →
      type = some target → types.get? target = some (.int width) →
      (∀ operand ∈ operands, operand.IsFlexible flex) → Slot types type operands (some target)

theorem Slot.run_demandOf {type demand : Option TypeId} {operands : List Expr}
    (h : Slot s.types type operands demand) : demandOf type s = .ok demand s := by
  cases h with
  | empty hempty _ =>
      subst hempty
      rfl
  | flexible hflex htype _ =>
      subst htype
      exact run_demandOf_flexible hflex
  | demand _ htype htarget _ =>
      subst htype
      exact Check.run_demandOf htarget (by simp)

theorem Slot.checkable {type demand : Option TypeId} {operands : List Expr} {operand : Expr}
    (h : Slot types type operands demand) (hoperand : operand ∈ operands) :
    Checkable types operand := by
  cases h with
  | empty _ hbare => exact .bare (hbare operand hoperand)
  | flexible hflex _ hoperands => exact .flexible hflex (hoperands operand hoperand)
  | demand hflex _ _ hoperands => exact .flexible hflex (hoperands operand hoperand)

theorem Checkable.unary {operator : String} {operand : Expr} {type : Option TypeId}
    (h : Checkable types (.unary operator operand type)) :
    ∃ demand, Slot types type [operand] demand := by
  cases h with
  | bare hbare =>
      cases hbare with
      | unary hoperand => exact ⟨none, .empty rfl (List.forall_mem_singleton.mpr hoperand)⟩
  | flexible hflex hvalue =>
      cases hvalue with
      | sign hoperand =>
          exact ⟨none, .flexible hflex rfl (List.forall_mem_singleton.mpr hoperand)⟩
  | demanded hflex hinner htarget heq =>
      cases hinner <;> cases heq
      rename_i hoperand
      exact ⟨_, .demand hflex rfl htarget (List.forall_mem_singleton.mpr hoperand)⟩

/-- Only arithmetic operators have something demanded of them. -/
theorem Checkable.binary {operator : String} {left right : Expr} {type : Option TypeId}
    (h : Checkable types (.binary operator left right type)) :
    ∃ demand, Slot types type [left, right] demand ∧
      (demand.isSome → OperatorClass.of? operator = some .arithmetic) := by
  cases h with
  | bare hbare =>
      cases hbare with
      | binary hleft hright =>
          exact ⟨none, .empty rfl (by simp [hleft, hright]), fun hsome => by cases hsome⟩
  | flexible hflex hvalue =>
      cases hvalue with
      | binary hclass hleft hright =>
          exact ⟨none, .flexible hflex rfl (by simp [hleft, hright]), fun _ => hclass⟩
  | demanded hflex hinner htarget heq =>
      cases hinner <;> cases heq
      rename_i hclass hleft hright
      exact ⟨_, .demand hflex rfl htarget (by simp [hleft, hright]), fun _ => hclass⟩

/-- Without a demand, the operands meet in a type to which both convert. -/
theorem converts_of_operandTarget {operatorClass : OperatorClass} {l r : Expr} {leftTy rightTy : Ty}
    {target : TypeId} (hs : s.Sound) (hl : s.types.Checked l leftTy)
    (hr : s.types.Checked r rightTy)
    (hrun : operandTarget operatorClass l r none s = .ok (some target) t) :
    s.Reaches t ∧ ∃ targetTy, t.types.get? target = some targetTy ∧ targetTy ≠ .flexible ∧
      leftTy.ConvertsTo targetTy ∧ rightTy.ConvertsTo targetTy := by
  obtain ⟨leftType, hleftType, hleftTy, -⟩ := hl
  obtain ⟨rightType, hrightType, hrightTy, -⟩ := hr
  rw [operandTarget, run_bind_ok (run_typeOf hleftType), run_bind_ok (run_typeOf hrightType)] at hrun
  obtain ⟨_, _, hrefuseLeft, hrest⟩ := bind_eq_ok_iff.mp hrun
  obtain ⟨-, rfl, hlstruct⟩ := (checks_refuseStruct hs hleftTy).post_of_ok hrefuseLeft
  obtain ⟨_, _, hrefuseRight, htype⟩ := bind_eq_ok_iff.mp hrest
  obtain ⟨-, rfl, hrstruct⟩ := (checks_refuseStruct hs hrightTy).post_of_ok hrefuseRight
  obtain ⟨hreaches, -, htarget⟩ := (checks_operandType hs operatorClass hleftTy hrightTy hlstruct
    hrstruct).post_of_ok htype
  obtain ⟨hlconverts, hrconverts⟩ := Ty.convertsTo_join hlstruct hrstruct
  exact ⟨hreaches, _, htarget, Ty.settled_ne_flexible _, hlconverts, hrconverts⟩

/-- The operands of an operator and the type to which they are converted. -/
theorem Slot.converts_of_meeting {operatorClass : OperatorClass} {left right l r : Expr}
    {type demand : Option TypeId} {target : TypeId} (h : Slot s.types type [left, right] demand)
    (hclass : demand.isSome → operatorClass = .arithmetic) (hs : s.Sound)
    (hleft : left.nesting ≤ depth) (hright : right.nesting ≤ depth)
    (hrun : meeting (recheckAt depth) operatorClass left right type s =
      .ok (l, r, some target) t) :
    s.Reaches t ∧ l.nesting = left.nesting ∧ r.nesting = right.nesting ∧
      ∃ leftTy rightTy targetTy, t.types.Checked l leftTy ∧ t.types.Checked r rightTy ∧
        t.types.get? target = some targetTy ∧ targetTy ≠ .flexible ∧
        leftTy.ConvertsTo targetTy ∧ rightTy.ConvertsTo targetTy := by
  rw [meeting, run_bind_ok h.run_demandOf] at hrun
  obtain ⟨l', middle, hrunLeft, hrun⟩ := bind_eq_ok_iff.mp hrun
  obtain ⟨r', later', hrunRight, hrun⟩ := bind_eq_ok_iff.mp hrun
  obtain ⟨found, final, hrunTarget, hrun⟩ := bind_eq_ok_iff.mp hrun
  cases hrun
  have hleftCheckable := h.checkable (List.mem_cons_self)
  have hrightCheckable := h.checkable (List.mem_cons_of_mem _ List.mem_cons_self)
  obtain ⟨hreaches, hlnesting, leftTy, hl⟩ := hleftCheckable.checked_of_tree hs hleft hrunLeft
  obtain ⟨hreaches', hrnesting, rightTy, hr⟩ :=
    (hrightCheckable.grow hreaches.grows).checked_of_tree hreaches.sound hright hrunRight
  have hpath := hreaches.trans hreaches'
  have hl' := hl.grow hreaches'.grows
  cases demand with
  | none =>
      obtain ⟨hreaches'', targetTy, htarget, hconcrete, hlconverts, hrconverts⟩ :=
        converts_of_operandTarget hpath.sound hl' hr hrunTarget
      exact ⟨hpath.trans hreaches'', hlnesting, hrnesting, leftTy, rightTy, targetTy,
        hl'.grow hreaches''.grows, hr.grow hreaches''.grows, htarget, hconcrete, hlconverts,
        hrconverts⟩
  | some demand =>
      cases h with
      | @demand flex _ width hflex _ htarget hoperands =>
          -- the operands are flexible still, and take the demand
          obtain rfl := hclass rfl
          have hleftFlexible := hoperands left List.mem_cons_self
          have hrightFlexible := hoperands right (List.mem_cons_of_mem _ List.mem_cons_self)
          cases (run_tree_of_isFlexible hflex hs.sound.toInterned hleftFlexible).symm.trans hrunLeft
          cases (run_tree_of_isFlexible hflex hs.sound.toInterned hrightFlexible).symm.trans
            hrunRight
          rw [operandTarget, run_bind_ok (run_typeOf hleftFlexible.type?),
            run_bind_ok (run_typeOf hrightFlexible.type?), run_bind_ok (run_refuseStruct hflex rfl),
            run_bind_ok (run_refuseStruct hflex rfl)] at hrunTarget
          cases hrunTarget
          exact ⟨hs.reaches, rfl, rfl, .flexible, .flexible, .int width,
            ⟨flex, hleftFlexible.type?, hflex, fun _ => hleftFlexible⟩,
            ⟨flex, hrightFlexible.type?, hflex, fun _ => hrightFlexible⟩, htarget, by simp,
            .flexible width, .flexible width⟩

/-- A demand is passed on to the operand of a sign only if that is flexible. -/
theorem Slot.flexible_of_signed {operand checked : Expr} {type demand : Option TypeId}
    {target : TypeId} (h : Slot s.types type [operand] demand) (hs : s.Sound)
    (hrun : (do
      let demand ← demandOf type
      let operand ← signed (recheckAt depth) operand demand
      let operandType ← typeOf operand
      refuseStruct operandType
      return (operand, demand, ← isFlexible operandType)) s = .ok (checked, some target, true) t) :
    t = s ∧ checked = operand ∧ ∃ flex width, s.types.get? flex = some .flexible ∧
      operand.IsFlexible flex ∧ s.types.get? target = some (.int width) := by
  rw [run_bind_ok h.run_demandOf] at hrun
  obtain ⟨operand', middle, hsigned, hrest⟩ := bind_eq_ok_iff.mp hrun
  obtain ⟨id, _, hid, hrest'⟩ := bind_eq_ok_iff.mp hrest
  obtain ⟨_, _, hrefuse, hrest''⟩ := bind_eq_ok_iff.mp hrest'
  obtain ⟨flexible, _, hflexible, hresult⟩ := bind_eq_ok_iff.mp hrest''
  cases hresult
  cases h with
  | @demand flex _ width hflex _ htarget hoperands =>
      have hoperand := hoperands operand List.mem_cons_self
      cases operand with
      | literal number own =>
          -- a literal right under a sign has taken the demand already
          obtain ⟨_, _, hown, hsigned⟩ := bind_eq_ok_iff.mp hsigned
          cases hown
          obtain ⟨_, _, hfits, hsigned⟩ := bind_eq_ok_iff.mp hsigned
          cases hsigned
          obtain ⟨rfl, -⟩ := (ends_fits htarget number true).post_of_ok hfits
          cases (run_typeOf rfl).symm.trans hid
          cases (run_refuseStruct htarget rfl).symm.trans hrefuse
          cases (run_isFlexible htarget).symm.trans hflexible
      | _ =>
          have hsame : tree (recheckAt depth) _ s = _ :=
            run_tree_of_isFlexible hflex hs.sound.toInterned hoperand
          cases hsame.symm.trans hsigned
          cases (run_typeOf hoperand.type?).symm.trans hid
          cases (run_refuseStruct hflex rfl).symm.trans hrefuse
          cases (run_isFlexible hflex).symm.trans hflexible
          exact ⟨rfl, rfl, _, width, hflex, hoperand, htarget⟩

/-! ## Calls -/

/-- A value that is converted: its type converts to the one that is wanted, or it is a
condition. -/
structure Convertible (types : Universe) (purpose : Purpose) (value : Expr) (target : TypeId)
    (ty targetTy : Ty) : Prop where
  checked : types.Checked value ty
  get? : types.get? target = some targetTy
  converts : targetTy ≠ .flexible ∧ ty.ConvertsTo targetTy ∨
    purpose = .condition ∧ targetTy = .bool

/-- What a call relies on. -/
def ExprCall.Valid (s : Checking) : ExprCall → Prop
  | tree depth value => s.Sound ∧ value.nesting ≤ depth ∧ Checkable s.types value
  | fields depth _ _ rest =>
    s.Sound ∧ Expr.fieldsNesting rest < depth ∧ ∀ field ∈ rest, field.2.Bare
  | convert purpose depth value target =>
    s.Sound ∧ value.nesting < depth ∧ ∃ ty targetTy,
      Convertible s.types purpose value target ty targetTy

/-- A checked expression keeps its type while the default integer is looked up. -/
theorem run_of_withDefault {stage : CheckM Expr} {checked : Expr} {ty : Ty} {default : TypeId}
    (hrun : withDefault stage s = .ok (checked, ty, default) t) :
    ∃ middle, stage s = .ok checked middle ∧ (middle.Sound →
      ∀ {found : Ty}, middle.types.Checked checked found → middle.Reaches t ∧
        t.types.Checked checked ty ∧
        t.types.get? default = some (.int Ascription.defaultWidth)) := by
  obtain ⟨checked', middle, hstage, hrest⟩ := bind_eq_ok_iff.mp hrun
  obtain ⟨_, _, hid, hrest'⟩ := bind_eq_ok_iff.mp hrest
  obtain ⟨_, _, hty, hrest''⟩ := bind_eq_ok_iff.mp hrest'
  obtain ⟨_, _, hdefault, hresult⟩ := bind_eq_ok_iff.mp hrest''
  cases hresult
  refine ⟨middle, hstage, fun hs found hfound => ?_⟩
  obtain ⟨id', hid', hty', -⟩ := id hfound
  cases (run_typeOf hid').symm.trans hid
  cases (run_typeAt hty').symm.trans hty
  obtain ⟨hreaches, hget⟩ := (checks_internDefaultInt hs).post_of_ok hdefault
  exact ⟨hreaches, hfound.grow hreaches.grows, hget⟩

/-- **A valid call makes valid calls.** -/
theorem Calls.valid {outer inner : ExprCall} (h : Calls outer s inner t) (hvalid : outer.Valid s) :
    inner.Valid t := by
  cases h with
  | sign _ hdemand =>
      obtain ⟨hs, hnesting, hvalue⟩ := hvalid
      rw [Expr.nesting] at hnesting
      obtain ⟨demand, hslot⟩ := hvalue.unary
      cases hslot.run_demandOf.symm.trans hdemand
      exact ⟨hs, Nat.le_of_succ_le hnesting, hslot.checkable List.mem_cons_self⟩
  | signConversion hrun =>
      obtain ⟨hs, hnesting, hvalue⟩ := hvalid
      rw [Expr.nesting] at hnesting
      obtain ⟨demand, hslot⟩ := hvalue.unary
      obtain ⟨rfl, rfl, flex, width, hflex, hoperand, htarget⟩ := hslot.flexible_of_signed hs hrun
      exact ⟨hs, hnesting, .flexible, .int width,
        ⟨flex, hoperand.type?, hflex, fun _ => hoperand⟩, htarget,
        Or.inl ⟨by simp, .flexible width⟩⟩
  | left _ hdemand =>
      obtain ⟨hs, hnesting, hvalue⟩ := hvalid
      rw [Expr.nesting] at hnesting
      obtain ⟨demand, hslot, -⟩ := hvalue.binary
      cases hslot.run_demandOf.symm.trans hdemand
      exact ⟨hs, by omega, hslot.checkable List.mem_cons_self⟩
  | right _ hrun =>
      obtain ⟨hs, hnesting, hvalue⟩ := hvalid
      rw [Expr.nesting] at hnesting
      obtain ⟨demand, hslot, -⟩ := hvalue.binary
      rw [run_bind_ok hslot.run_demandOf] at hrun
      obtain ⟨hreaches, -⟩ :=
        (hslot.checkable List.mem_cons_self).checked_of_tree hs (by omega) hrun
      refine ⟨hreaches.sound, by omega, Checkable.grow ?_ hreaches.grows⟩
      exact hslot.checkable (List.mem_cons_of_mem _ List.mem_cons_self)
  | leftConversion hclass hrun =>
      obtain ⟨hs, hnesting, hvalue⟩ := hvalid
      rw [Expr.nesting] at hnesting
      obtain ⟨demand, hslot, harithmetic⟩ := hvalue.binary
      obtain ⟨hreaches, hlnesting, -, leftTy, -, targetTy, hl, -, htarget, hconcrete, hconverts, -⟩ :=
        hslot.converts_of_meeting (fun hsome => Option.some.inj (hclass.symm.trans
          (harithmetic hsome))) hs (by omega) (by omega) hrun
      exact ⟨hreaches.sound, by omega, leftTy, targetTy, hl, htarget, Or.inl ⟨hconcrete, hconverts⟩⟩
  | rightConversion hclass hrun hconvert =>
      obtain ⟨hs, hnesting, hvalue⟩ := hvalid
      rw [Expr.nesting] at hnesting
      obtain ⟨demand, hslot, harithmetic⟩ := hvalue.binary
      obtain ⟨hreaches, hlnesting, hrnesting, leftTy, rightTy, targetTy, hl, hr, htarget, hconcrete,
          hlconverts, hrconverts⟩ :=
        hslot.converts_of_meeting (fun hsome => Option.some.inj (hclass.symm.trans
          (harithmetic hsome))) hs (by omega) (by omega) hrun
      have hreaches' := ((checks_convertWith_of_convertsTo hreaches.sound hl
        (canRecheck_recheckAt (by omega)) htarget hconcrete hlconverts).post_of_ok hconvert).1
      exact ⟨hreaches'.sound, by omega, rightTy, targetTy, hr.grow hreaches'.grows,
        hreaches'.grows.get? htarget, Or.inl ⟨hconcrete, hrconverts⟩⟩
  | conversion => exact absurd hvalid.2.2 not_checkable_conversion
  | load => exact absurd hvalid.2.2 not_checkable_load
  | dot hdemand =>
      obtain ⟨hs, hnesting, hvalue⟩ := hvalid
      rw [Expr.nesting] at hnesting
      obtain ⟨rfl, -⟩ := holds_of_run_demandOf hdemand
      cases hvalue.bare_of_denotesStorage rfl with
      | dot hbase => exact ⟨hs, hnesting, .bare hbase⟩
  | index hdemand =>
      obtain ⟨hs, hnesting, hvalue⟩ := hvalid
      rw [Expr.nesting] at hnesting
      obtain ⟨rfl, -⟩ := holds_of_run_demandOf hdemand
      cases hvalue.bare_of_denotesStorage rfl with
      | index hbase => exact ⟨hs, hnesting, .bare hbase⟩
  | glue hdemand =>
      obtain ⟨hs, hnesting, hvalue⟩ := hvalid
      rw [Expr.nesting] at hnesting
      obtain ⟨rfl, -⟩ := holds_of_run_demandOf hdemand
      cases hvalue.bare_of_denotesStorage rfl with
      | glue hfields => exact ⟨hs, hnesting, hfields⟩
  | field hname =>
      obtain ⟨hs, hnesting, hbare⟩ := hvalid
      rw [Expr.fieldsNesting] at hnesting
      obtain ⟨-, rfl, -⟩ := (checks_addName hs _ _ _).post_of_ok hname
      exact ⟨hs, by omega, .bare (hbare _ List.mem_cons_self)⟩
  | @fieldConversion _ _ _ name value _ _ _ _ _ hrun =>
      obtain ⟨hs, hnesting, hbare⟩ := hvalid
      rw [Expr.fieldsNesting] at hnesting
      have hfirst : value.Bare := hbare (name, value) List.mem_cons_self
      obtain ⟨middle, hchecked, hrest⟩ := run_of_withDefault hrun
      obtain ⟨_, _, hname, hvalue⟩ := bind_eq_ok_iff.mp hchecked
      obtain ⟨-, rfl, -⟩ := (checks_addName hs _ _ _).post_of_ok hname
      obtain ⟨hreaches, hvalueNesting, ty, hty⟩ :=
        Checkable.checked_of_tree (.bare hfirst) hs (by omega) hvalue
      obtain ⟨hreaches', hflexible, htarget⟩ := hrest hreaches.sound hty
      exact ⟨hreaches'.sound, by omega, _, _, hflexible, htarget,
        Or.inl ⟨by simp, .flexible _⟩⟩
  | @otherFields _ _ _ _ name value _ _ _ hrun =>
      obtain ⟨hs, hnesting, hbare⟩ := hvalid
      rw [Expr.fieldsNesting] at hnesting
      have hfirst : value.Bare := hbare (name, value) List.mem_cons_self
      obtain ⟨_, _, hname, hrun'⟩ := bind_eq_ok_iff.mp hrun
      obtain ⟨-, rfl, -⟩ := (checks_addName hs _ _ _).post_of_ok hname
      obtain ⟨checked, middle, hvalue, hrun''⟩ := bind_eq_ok_iff.mp hrun'
      obtain ⟨hreaches, hchecked⟩ := (infers_tree hfirst hs
        (canRecheck_recheckAt (by omega))).post_of_ok hvalue
      obtain ⟨final, later, hfield, htype⟩ := bind_eq_ok_iff.mp hrun''
      have hnesting' := hchecked.nesting
      obtain ⟨hreaches', _, _, -, -, hfinal⟩ := (checks_fieldValue hreaches.sound hchecked
        (canRecheck_recheckAt (by omega))).post_of_ok hfield
      rw [run_bind_ok (run_typeOf hfinal.type?)] at htype
      cases htype
      exact ⟨hreaches'.sound, by omega, (List.forall_mem_cons.mp hbare).2⟩
  | demand hrun =>
      obtain ⟨hs, hnesting, ty, targetTy, ⟨id, hid, hty, hflexible⟩, htarget, -⟩ := hvalid
      rw [run_bind_ok (run_materialize hid), run_bind_ok
        (run_typeOf ((Expr.type?_loaded _).trans hid)), run_bind_ok (run_typeAt hty),
        run_bind_ok (run_typeAt htarget)] at hrun
      cases hrun
      have hvalue := hflexible rfl
      rw [hvalue.loaded]
      exact ⟨hs, by rw [Expr.nesting_withType]; omega, .demanded hty hvalue htarget rfl⟩
  | settle htype hrun =>
      obtain ⟨hs, hnesting, ty, targetTy, hvalue, htarget, -⟩ := hvalid
      cases (run_typeAt htarget).symm.trans htype
      obtain ⟨_, hid, -⟩ := id hvalue
      obtain ⟨middle, hloaded, hrest⟩ := run_of_withDefault hrun
      cases (run_materialize hid).symm.trans hloaded
      obtain ⟨hreaches, ⟨flex, -, hflex, hloaded'⟩, hdefault⟩ := hrest hs hvalue.loaded
      refine ⟨hreaches.sound, ?_, .demanded hflex (hloaded' rfl) hdefault rfl⟩
      rw [Expr.nesting_withType, Expr.nesting_loaded]
      exact Nat.le_of_lt_succ hnesting

/-! ## Statements -/

theorem mem_roots_of_test? {st : Stmt} (h : test? st = some value) : value ∈ st.roots := by
  cases st with
  | branch test yes no =>
      cases h
      cases no <;> exact List.mem_cons_self
  | whileLoop test body =>
      cases h
      exact List.mem_cons_self
  | bind => cases h
  | print => cases h
  | evaluate => cases h
  | forLoop => cases h
  | block => cases h

/-- A variable takes a value whose type it has in common with it. -/
theorem convertsTo_of_common {type id : TypeId} {ty targetTy : Ty} (hs : s.Sound)
    (htype : s.types.get? type = some targetTy) (hid : s.types.get? id = some ty)
    (hrun : common type id s = .ok (.resolved type) t) : t = s ∧ ty.ConvertsTo targetTy := by
  obtain ⟨promotion, hcommon, hmeets⟩ := run_common hs.sound.toInterned htype hid
  cases hcommon.symm.trans hrun
  refine ⟨rfl, ?_⟩
  cases hmeets with
  | equal =>
      cases htype.symm.trans hid
      exact .same ty
  | int hl hr _ hlstruct hrstruct hmerge hwidth =>
      cases htype.symm.trans hl
      cases hid.symm.trans hr
      cases htype.symm.trans hwidth
      exact (Ty.convertsTo_of_merge hlstruct hrstruct hmerge).2

/-- The expressions of a statement are checked as they stand. -/
theorem valid_exprCall (hs : s.Sound) (hbare : value.Bare) : (exprCall value).Valid s :=
  ⟨hs, Nat.le_refl _, .bare hbare⟩

theorem valid_convertCall {purpose : Purpose} {target : TypeId} {ty targetTy : Ty} (hs : s.Sound)
    (h : Convertible s.types purpose value target ty targetTy) :
    (convertCall purpose value target).Valid s :=
  ⟨hs, Nat.lt_succ_self _, ty, targetTy, h⟩

/-- A value that is printed or evaluated, while the default integer is looked up. -/
theorem checked_of_withDefault_expr {checked : Expr} {ty : Ty} {default : TypeId} (hs : s.Sound)
    (hbare : value.Bare) (hrun : withDefault (expr value) s = .ok (checked, ty, default) t) :
    t.Sound ∧ t.types.Checked checked ty ∧
      t.types.get? default = some (.int Ascription.defaultWidth) := by
  obtain ⟨middle, hvalue, hrest⟩ := run_of_withDefault hrun
  obtain ⟨hreaches, hchecked⟩ := (checksOr_expr hbare hs).post_of_ok hvalue
  obtain ⟨found, hfound⟩ := hchecked.exists_checked hreaches.sound
  obtain ⟨hreaches', hty, hdefault⟩ := hrest hreaches.sound hfound
  exact ⟨hreaches'.sound, hty, hdefault⟩

/-- **A statement makes valid calls.** -/
theorem Opens.valid {st : Stmt} {call : ExprCall} (h : Opens st s call t)
    (hbare : ∀ value ∈ st.roots, value.Bare) (hs : s.Sound) : call.Valid t := by
  cases h with
  | value => exact valid_exprCall hs (hbare _ (by simp [Stmt.roots]))
  | typed hvalue hcommon =>
      obtain ⟨hmiddle, -, hchecked, htype⟩ := (secures_bindingValue (hbare _ (by simp [Stmt.roots]))
        hs _ _ _).post_of_ok hvalue
      obtain ⟨targetTy, htarget, hconcrete⟩ := hmiddle.concrete htype
      obtain ⟨ty, hty⟩ := hchecked.exists_checked hmiddle
      obtain ⟨_, hid, hget, -⟩ := id hty
      rw [run_bind_ok (run_typeOf hid)] at hcommon
      obtain ⟨rfl, hconverts⟩ := convertsTo_of_common hmiddle htarget hget hcommon
      exact valid_convertCall hmiddle ⟨hty, htarget, Or.inl ⟨hconcrete, hconverts⟩⟩
  | first hvalue hfirst =>
      obtain ⟨hmiddle, -, hchecked, -⟩ := (secures_bindingValue (hbare _ (by simp [Stmt.roots]))
        hs _ _ _).post_of_ok hvalue
      obtain ⟨hfinal, -, -, ty, hty, htarget⟩ :=
        (secures_firstBinding hmiddle hchecked _ _).post_of_ok hfirst
      exact valid_convertCall hfinal ⟨hty, htarget,
        Or.inl ⟨ty.settled_ne_flexible, ty.convertsTo_settled⟩⟩
  | print => exact valid_exprCall hs (hbare _ (by simp [Stmt.roots]))
  | printing hrun hcase =>
      obtain ⟨hfinal, hty, hdefault⟩ :=
        checked_of_withDefault_expr hs (hbare _ (by simp [Stmt.roots])) hrun
      refine valid_convertCall hfinal ⟨hty, hdefault, Or.inl ⟨by simp, ?_⟩⟩
      rcases hcase with rfl | rfl
      · exact .flexible _
      · exact .widen rfl
  | evaluate => exact valid_exprCall hs (hbare _ (by simp [Stmt.roots]))
  | evaluation hrun =>
      obtain ⟨hfinal, hty, hdefault⟩ :=
        checked_of_withDefault_expr hs (hbare _ (by simp [Stmt.roots])) hrun
      exact valid_convertCall hfinal ⟨hty, hdefault, Or.inl ⟨by simp, .flexible _⟩⟩
  | test htest => exact valid_exprCall hs (hbare _ (mem_roots_of_test? htest))
  | condition htest hrun =>
      obtain ⟨checked, middle, hvalue, hrest⟩ := bind_eq_ok_iff.mp hrun
      obtain ⟨hreaches, hchecked⟩ :=
        (checksOr_expr (hbare _ (mem_roots_of_test? htest)) hs).post_of_ok hvalue
      obtain ⟨_, _, hintern, hresult⟩ := bind_eq_ok_iff.mp hrest
      cases hresult
      obtain ⟨hreaches', htarget⟩ := (checks_internBool hreaches.sound).post_of_ok hintern
      obtain ⟨ty, hty⟩ := hchecked.exists_checked hreaches.sound
      exact valid_convertCall hreaches'.sound ⟨hty.grow hreaches'.grows, htarget,
        Or.inr ⟨rfl, rfl⟩⟩
  | bound hbefore =>
      obtain ⟨hbounds, -⟩ := List.forall_mem_append.mp hbare
      obtain ⟨hbeforeBare, hafterBare⟩ := List.forall_mem_append.mp hbounds
      obtain ⟨hreaches, -⟩ := (checksOr_bareExprs hbeforeBare hs).post_of_ok hbefore
      exact valid_exprCall hreaches.sound (hafterBare _ List.mem_cons_self)
  | @boundConversion _ _ bounds before after _ checked _ type _ middle _ hrun hbefore =>
      obtain ⟨hbounds, -⟩ := List.forall_mem_append.mp hbare
      obtain ⟨hmiddle, -, hchecked, width, htype, hconverts⟩ :=
        (secures_boundsType hbounds hs _ _).post_of_ok hrun
      -- the bounds before this one have been converted
      have hfirst := List.forall₂_take_append bounds before (checked :: after) hchecked
      obtain ⟨hreaches, -⟩ := (checks_convertAll hfirst hmiddle htype).post_of_ok hbefore
      have hrest := List.forall₂_drop_append bounds before (checked :: after) hchecked
      obtain ⟨source, _, hsource, -⟩ := List.forall₂_cons_right_iff.mp hrest
      obtain ⟨ty, hty, htyConverts⟩ :=
        hconverts checked (List.mem_append_right _ List.mem_cons_self)
      exact valid_convertCall hreaches.sound
        ⟨(hsource.checked_of_hasTy hmiddle hty).grow hreaches.grows, hreaches.grows.get? htype,
          Or.inl ⟨by simp, htyConverts⟩⟩

/-! ## Runs -/

theorem ExprCall.Valid.sound {call : ExprCall} (h : call.Valid s) : s.Sound := by
  cases call with
  | tree => exact h.1
  | fields => exact h.1
  | convert => exact h.1

/-- A valid call leaves a sound state. -/
theorem ExprCall.Valid.sound_of_returns {call : ExprCall} (h : call.Valid s)
    (hreturns : call.Returns s t) : t.Sound := by
  cases call with
  | tree depth value =>
      obtain ⟨hs, hnesting, hvalue⟩ := h
      obtain ⟨result, hrun⟩ := hreturns
      exact (hvalue.checked_of_tree hs hnesting hrun).1.sound
  | fields depth position names rest =>
      obtain ⟨hs, hnesting, hbare⟩ := h
      obtain ⟨result, hrun⟩ := hreturns
      have hfields : ∀ field ∈ rest, ∀ middle : Checking, s.Reaches middle →
          ChecksOr (fun _ => True) (Check.tree (recheckAt depth) field.2) middle
            fun checked final => Elaborates final.types final.symbols field.2 checked := by
        intro field hfield middle hreaches
        have hle := Expr.nesting_le_fieldsNesting hfield
        exact Ends.weaken (infers_tree (hbare field hfield) hreaches.sound
          (canRecheck_recheckAt (by omega))) (fun _ _ h => h) fun _ _ _ => trivial
      exact ((checksOr_glueFields (fun _ _ => trivial) hfields (canRecheck_recheckAt hnesting)
        position names hs).post_of_ok hrun).1.sound
  | convert purpose depth value target =>
      obtain ⟨hs, hnesting, ty, targetTy, hchecked, htarget, hconverts⟩ := h
      obtain ⟨result, hrun⟩ := hreturns
      rcases hconverts with ⟨hconcrete, hconverts⟩ | ⟨-, rfl⟩
      · exact ((checks_convertWith_of_convertsTo hs hchecked (canRecheck_recheckAt hnesting) htarget
          hconcrete hconverts).post_of_ok hrun).1.sound
      · exact ((checks_convertWith_bool hs (canRecheck_recheckAt hnesting) hchecked
          htarget).post_of_ok hrun).1.sound

section Runs

variable {body : List Stmt} {call : ExprCall} (hbare : ∀ value ∈ Stmt.bodyRoots body, value.Bare)
  (hs : s.Sound)

include hbare hs

/-- **Every call is valid.** -/
theorem Makes.valid (h : Makes body s call t) : call.Valid t := by
  induction h with
  | opens harrives hopens =>
      obtain ⟨hmiddle, hroots⟩ := harrives.sound hbare hs
      exact hopens.valid hroots hmiddle
  | calls _ hcalls ih => exact hcalls.valid ih

/-- **Every state that is reached is sound.** -/
theorem Reached.sound (h : Reached body s t) : t.Sound := by
  cases h with
  | start => exact hs
  | begins harrives => exact (harrives.sound hbare hs).1
  | ends harrives hrun =>
      obtain ⟨hmiddle, hroots⟩ := harrives.sound hbare hs
      exact ((secures_stmt _ hroots hmiddle).post_of_ok hrun).1
  | calls hmakes => exact (hmakes.valid hbare hs).sound
  | returns hmakes hreturns => exact (hmakes.valid hbare hs).sound_of_returns hreturns

end Runs

end Check

end FlexWidth
