import FlexWidth.Proofs.Scope.Numbering
import FlexWidth.Proofs.Typing.Promise

/-!
# Checking expressions

In a sound state in which all symbols of a plain expression have types, checking the
expression yields what it elaborates to, or refuses it.

The induction is on the expression (`checks_tree`), with a lemma for each kind of node.
It never needs to look into the checks that are made again, since `CanRecheck` has said
all about them.
-/

namespace FlexWidth

namespace Check

variable {s : Checking} {id target : TypeId} {ty targetTy : Ty} {value : Expr}

/-! ## Operators -/

section Operators

variable {recheck : Expr → CheckM Expr} {left right l r : Expr} {leftTy rightTy : Ty}

/-- Conversion of what an expression elaborates to. -/
theorem checks_convertWith_of_elaborates {source : Expr} (hs : s.Sound)
    (h : Elaborates s.types s.symbols source value)
    (hrecheck : CanRecheck recheck (value.nesting + 1))
    (htarget : s.types.get? target = some targetTy) (hconcrete : targetTy ≠ .flexible)
    (hbool : targetTy = .bool → s.types.HasTy value .bool) :
    Checks (convertWith recheck value target) s fun final later =>
      Converts later.types value target final := by
  obtain ⟨id, ty, hvalue, hid, hflexible⟩ := h.exists_type hs
  refine checks_convertWith hs hvalue hid hflexible hrecheck htarget hconcrete ?_
  rintro rfl
  obtain ⟨id', hvalue', hid'⟩ := hbool rfl
  cases hvalue.symm.trans hvalue'
  exact hs.sound.eq_of_get? hid' htarget

theorem checks_convertOperands (hs : s.Sound) (hl : Elaborates s.types s.symbols left l)
    (hr : Elaborates s.types s.symbols right r)
    (hrecheck : CanRecheck recheck (max l.nesting r.nesting + 1))
    (htarget : s.types.get? target = some targetTy) (hconcrete : targetTy ≠ .flexible)
    (hbool : targetTy = .bool → s.types.HasTy l .bool ∧ s.types.HasTy r .bool) :
    Checks (convertOperands (convertWith recheck) l r target) s fun results final =>
      Converts final.types l target results.1 ∧ Converts final.types r target results.2 := by
  rw [convertOperands]
  refine (checks_convertWith_of_elaborates hs hl (hrecheck.mono (by omega)) htarget hconcrete
    fun h => (hbool h).1).bind ?_
  intro l' middle hreaches hl'
  refine (checks_convertWith_of_elaborates hreaches.sound (hr.reach hreaches)
    (hrecheck.mono (by omega)) (hreaches.grows.get? htarget) hconcrete
    fun h => (hbool h).2.grow hreaches.grows).bind ?_
  intro r' final hreaches' hr'
  exact checks_pure hreaches'.sound ⟨hl'.grow hreaches'.grows, hr'⟩

theorem eq_bool_of_join_settled (h : (leftTy.join rightTy).settled = .bool) :
    leftTy = .bool ∧ rightTy = .bool := by
  unfold Ty.join at h
  split at h
  · rename_i heq
    subst heq
    exact ⟨Ty.eq_bool_of_settled h, Ty.eq_bool_of_settled h⟩
  · split at h <;> simp [Ty.settled] at h

/-- Two operands meet in their common type; only an arithmetic operator leaves two
flexible ones as they are. -/
theorem checks_operandType (hs : s.Sound) (operatorClass : OperatorClass)
    {leftType rightType : TypeId} (hl : s.types.get? leftType = some leftTy)
    (hr : s.types.get? rightType = some rightTy) (hlstruct : leftTy.struct? = none)
    (hrstruct : rightTy.struct? = none) :
    Checks (operandType operatorClass leftType rightType) s fun result final =>
      match result with
      | some target =>
        ¬ (operatorClass = .arithmetic ∧ leftTy = .flexible ∧ rightTy = .flexible) ∧
          final.types.get? target = some (leftTy.join rightTy).settled
      | none => operatorClass = .arithmetic ∧ leftTy = .flexible ∧ rightTy = .flexible := by
  obtain ⟨promotion, hcommon, hmeets⟩ := run_common hs.sound.toInterned hl hr
  rw [operandType]
  refine .of_bind (run_isFlexible hl) ?_
  refine .of_bind (run_isFlexible hr) ?_
  refine .of_bind hcommon ?_
  cases hmeets with
  | equal hid hne =>
      cases hl.symm.trans hr
      cases hl.symm.trans hid
      refine checks_pure hs ⟨fun h => hne h.2.1, ?_⟩
      rw [Ty.join, if_pos rfl, Ty.settled_eq_self hne, hid]
  | flexible hid =>
      cases hl.symm.trans hr
      cases hl.symm.trans hid
      cases operatorClass with
      | arithmetic => exact checks_pure hs ⟨rfl, rfl, rfl⟩
      | relational =>
          refine (checks_internDefaultInt hs).bind ?_
          intro id final hreaches hid
          exact checks_pure hreaches.sound ⟨by simp, hid⟩
  | struct hl' hr' _ hstruct =>
      cases hl.symm.trans hl'
      cases hr.symm.trans hr'
      simp [hlstruct, hrstruct] at hstruct
  | int hl' hr' hne _ _ hmerge hid =>
      cases hl.symm.trans hl'
      cases hr.symm.trans hr'
      have hdiffer := hs.sound.ne_of_get? hl hr hne
      refine checks_pure hs ⟨fun h => hdiffer (h.2.1.trans h.2.2.symm), ?_⟩
      rw [Ty.join, if_neg hdiffer, hmerge, hid]
      rfl
  | neither hl' hr' hne _ _ hlwidth hrwidth =>
      -- a truth value and a flexible operand, which meet in the default integer
      cases hl.symm.trans hl'
      cases hr.symm.trans hr'
      have hdiffer := hs.sound.ne_of_get? hl hr hne
      have hboth : ¬ (leftTy = .flexible ∧ rightTy = .flexible) :=
        fun h => hdiffer (h.1.trans h.2.symm)
      have hdefault : ¬ (operatorClass = .arithmetic ∧ decide (leftTy = .flexible) = true ∧
          decide (rightTy = .flexible) = true) := by
        simpa using fun _ => not_and.mp hboth
      dsimp only
      rw [if_neg hdefault]
      refine (checks_internDefaultInt hs).bind ?_
      intro id final hreaches hid
      refine checks_pure hreaches.sound ⟨fun h => hboth h.2, ?_⟩
      rw [Ty.join, if_neg hdiffer, hlwidth, hrwidth, hid]
      rfl

/-- A binary operator without a demand. -/
theorem checks_operands {operator : String} {operatorClass : OperatorClass} (hs : s.Sound)
    (hclass : OperatorClass.of? operator = some operatorClass)
    (hl : Elaborates s.types s.symbols left l) (hr : Elaborates s.types s.symbols right r)
    (hrecheck : CanRecheck recheck (max l.nesting r.nesting + 1)) :
    Checks (operands (convertWith recheck) operator operatorClass l r none) s fun checked final =>
      Elaborates final.types final.symbols (.binary operator left right none) checked := by
  obtain ⟨leftType, leftTy, hleftType, hleftTy, -⟩ := hl.exists_type hs
  obtain ⟨rightType, rightTy, hrightType, hrightTy, -⟩ := hr.exists_type hs
  rw [operands]
  refine .of_bind (run_typeOf hleftType) ?_
  refine .of_bind (run_typeOf hrightType) ?_
  refine (checks_refuseStruct hs hleftTy).bind ?_
  rintro _ _ - ⟨rfl, hlstruct⟩
  refine (checks_refuseStruct hs hrightTy).bind ?_
  rintro _ _ - ⟨rfl, hrstruct⟩
  refine (checks_operandType hs operatorClass hleftTy hrightTy hlstruct hrstruct).bind ?_
  rintro (_ | target) middle hreaches hresult
  · -- both operands are flexible, and so is the result
    obtain ⟨rfl, rfl, rfl⟩ := hresult
    refine (checks_internFlexible hreaches.sound).bind ?_
    intro id final hreaches' hid
    have hpath := hreaches.trans hreaches'
    have hleftId := hpath.sound.sound.eq_of_get? (hpath.grows.get? hleftTy) hid
    have hrightId := hpath.sound.sound.eq_of_get? (hpath.grows.get? hrightTy) hid
    exact checks_pure hpath.sound (.flexible hclass (hl.reach hpath)
      (hr.reach hpath) hid (hleftId ▸ hleftType) (hrightId ▸ hrightType))
  · -- both operands become values of the type in which they meet
    obtain ⟨hboth, htarget⟩ := hresult
    have hlTy : middle.types.HasTy l leftTy := ⟨leftType, hleftType, hreaches.grows.get? hleftTy⟩
    have hrTy : middle.types.HasTy r rightTy :=
      ⟨rightType, hrightType, hreaches.grows.get? hrightTy⟩
    refine (checks_convertOperands hreaches.sound (hl.reach hreaches)
      (hr.reach hreaches) hrecheck htarget (Ty.settled_ne_flexible _)
      fun h => ?_).bind ?_
    · obtain ⟨rfl, rfl⟩ := eq_bool_of_join_settled h
      exact ⟨hlTy, hrTy⟩
    · rintro ⟨l', r'⟩ final hreaches' ⟨hl', hr'⟩
      have hpath := hreaches.trans hreaches'
      cases operatorClass with
      | arithmetic =>
          have hflexible : ¬ (leftTy = .flexible ∧ rightTy = .flexible) := fun h => hboth ⟨rfl, h⟩
          rw [Ty.settled_eq_self (Ty.join_ne_flexible hflexible)] at htarget
          exact checks_pure hpath.sound (.arithmetic hclass (hl.reach hpath)
            (hr.reach hpath) (hlTy.grow hreaches'.grows)
            (hrTy.grow hreaches'.grows) hlstruct hrstruct hflexible
            (hreaches'.grows.get? htarget) hl' hr')
      | relational =>
          refine (checks_internBool hpath.sound).bind ?_
          intro id last hreaches'' hid
          have hpath' := hreaches'.trans hreaches''
          have hpath'' := hpath.trans hreaches''
          exact checks_pure hpath''.sound (.relational hclass (hl.reach hpath'')
            (hr.reach hpath'') (hlTy.grow hpath'.grows)
            (hrTy.grow hpath'.grows) hlstruct hrstruct (hpath'.grows.get? htarget)
            (hl'.grow hreaches''.grows) (hr'.grow hreaches''.grows) hid)

end Operators

/-! ## Leaves and signs -/

theorem checks_orFlexible (hs : s.Sound) :
    Checks (orFlexible none) s fun id final => final.types.get? id = some .flexible :=
  checks_internFlexible hs

theorem checks_literal (hs : s.Sound) (number : Nat) :
    Checks (literal number none) s fun checked final =>
      Elaborates final.types final.symbols (.literal number none) checked := by
  refine (checks_orFlexible hs).bind ?_
  intro id final hreaches hid
  exact .of_bind (run_fits_flexible hid number false) (checks_pure hreaches.sound (.literal hid))

theorem checks_negatedLiteral (hs : s.Sound) (number : Nat) :
    Checks (negatedLiteral number none none) s fun checked final =>
      Elaborates final.types final.symbols (.literal number none) checked := by
  refine (checks_orFlexible hs).bind ?_
  intro id final hreaches hid
  exact .of_bind (run_fits_flexible hid number true) (checks_pure hreaches.sound (.literal hid))

/-- A sign without a demand. -/
theorem checks_signOperand {recheck : Expr → CheckM Expr} {operand checked : Expr} (hs : s.Sound)
    (h : Elaborates s.types s.symbols operand checked) :
    Checks (signOperand (convertWith recheck) "-" checked none) s fun result final =>
      Elaborates final.types final.symbols (.unary "-" operand none) result := by
  obtain ⟨id, ty, hid, hty, -⟩ := h.exists_type hs
  rw [signOperand]
  refine .of_bind (run_typeOf hid) ?_
  refine (checks_refuseStruct hs hty).bind ?_
  rintro _ _ - ⟨rfl, hstruct⟩
  refine .of_bind (run_isFlexible hty) ?_
  exact .of_bind (run_materialize hid) (checks_pure hs (.sign h hid hty hstruct))

/-! ## Struct literals -/

/-- A field becomes a value of its own type, or of the default integer. -/
theorem checks_fieldValue {recheck : Expr → CheckM Expr} {source : Expr} (hs : s.Sound)
    (h : Elaborates s.types s.symbols source value)
    (hrecheck : CanRecheck recheck (value.nesting + 1)) :
    Checks (fieldValue (convertWith recheck) value) s fun final later =>
      ∃ ty target, later.types.HasTy value ty ∧ later.types.get? target = some ty.settled ∧
        Converts later.types value target final := by
  obtain ⟨id, ty, hid, hty, -⟩ := h.exists_type hs
  rw [fieldValue]
  refine .of_bind (run_typeOf hid) ?_
  refine .of_bind (run_isFlexible hty) ?_
  by_cases hflexible : ty = .flexible
  · subst hflexible
    rw [decide_eq_true rfl, if_pos rfl]
    refine (checks_internDefaultInt hs).bind ?_
    intro target middle hreaches htarget
    refine (checks_convertWith_of_elaborates hreaches.sound
      (h.reach hreaches) hrecheck htarget (by simp) (by simp)).weaken ?_
    intro final later hreaches' hfinal
    exact ⟨.flexible, target, ⟨id, hid, (hreaches.trans hreaches').grows.get? hty⟩,
      hreaches'.grows.get? htarget, hfinal⟩
  · rw [decide_eq_false hflexible, if_neg (by decide)]
    unfold Checks Ends
    rw [run_materialize hid]
    exact ⟨hs.reaches, ty, id, ⟨id, hid, hty⟩, by rw [Ty.settled_eq_self hflexible, hty],
      .same hid⟩

theorem lookup_insertName (name other : String) (position : Nat)
    (entries : List (String × Nat)) :
    (insertName name position entries).lookup other =
      if other = name then some position else entries.lookup other := by
  induction entries with
  | nil => rw [insertName, Universe.lookup_cons_eq_ite]
  | cons entry rest ih =>
      obtain ⟨key, value⟩ := entry
      unfold insertName
      split
      · rw [Universe.lookup_cons_eq_ite]
      · split
        · rename_i heq
          obtain rfl : name = key := heq
          rw [Universe.lookup_cons_eq_ite, Universe.lookup_cons_eq_ite]
          split <;> rfl
        · rename_i hne
          rw [Universe.lookup_cons_eq_ite, Universe.lookup_cons_eq_ite, ih]
          split
          · rename_i heq
            rw [if_neg]
            exact fun h => hne (h.symm.trans heq)
          · rfl

theorem position?_insert (names : FieldNames) (name other : String) (position : Nat) :
    (names.insert name position).position? other =
      if other = name then some position else names.position? other :=
  lookup_insertName name other position names.entries

/-- The fields have names that differ from each other and from those before them. -/
def NewNames (names : FieldNames) (fields : GlueFields) : Prop :=
  (fields.filterMap Prod.fst).Nodup ∧
    ∀ name ∈ fields.filterMap Prod.fst, names.position? name = none

theorem NewNames.cons {names : FieldNames} {name : String} {position : Nat} {value : Expr}
    {rest : GlueFields} (hname : names.position? name = none)
    (h : NewNames (names.insert name position) rest) :
    NewNames names ((some name, value) :: rest) := by
  obtain ⟨hdistinct, hnew⟩ := h
  refine ⟨?_, ?_⟩
  · refine List.nodup_cons.mpr ⟨fun hmem => ?_, hdistinct⟩
    have hnone := hnew name hmem
    rw [position?_insert, if_pos rfl] at hnone
    cases hnone
  · refine List.forall_mem_cons.mpr ⟨hname, fun other hmem => ?_⟩
    have hnone := hnew other hmem
    rw [position?_insert] at hnone
    split at hnone
    · cases hnone
    · exact hnone

theorem NewNames.of_cons {names : FieldNames} {name : String} {value : Expr} {rest : GlueFields}
    (h : NewNames names ((some name, value) :: rest)) (position : Nat) :
    names.position? name = none ∧ NewNames (names.insert name position) rest := by
  obtain ⟨hdistinct, hnew⟩ := h
  obtain ⟨hfirst, hrest⟩ := List.nodup_cons.mp hdistinct
  obtain ⟨hname, hothers⟩ := List.forall_mem_cons.mp hnew
  refine ⟨hname, hrest, fun other hother => ?_⟩
  have hne : other ≠ name := fun heq => hfirst (heq ▸ hother)
  rw [position?_insert, if_neg hne]
  exact hothers other hother

theorem checks_addName (hs : s.Sound) (names : FieldNames) (position : Nat)
    (name : Option String) :
    Checks (addName names position name) s fun result final =>
      final = s ∧ ∀ value rest, glueNames position names ((name, value) :: rest) =
        glueNames (position + 1) result rest ∧
          (NewNames result rest → NewNames names ((name, value) :: rest)) := by
  cases name with
  | none => exact checks_pure hs ⟨rfl, fun _ _ => ⟨rfl, fun hnew => hnew⟩⟩
  | some name =>
      rw [addName]
      split
      · exact checks_refuse rfl
      · rename_i hname
        exact checks_pure hs ⟨rfl, fun _ _ => ⟨rfl, .cons (by simpa using hname)⟩⟩

/-- A name stands for one of the fields among which it was written. -/
theorem lt_of_mem_glueNames {names : FieldNames} {position : Nat} {fields : GlueFields}
    (h : ∀ entry ∈ names.entries, entry.2 < position) {entry : String × Nat}
    (hentry : entry ∈ (glueNames position names fields).entries) :
    entry.2 < position + fields.length := by
  induction fields generalizing position names with
  | nil => exact h entry hentry
  | cons field rest ih =>
      have hlater : ∀ entry ∈ names.entries, entry.2 < position + 1 :=
        fun entry hmem => Nat.lt_succ_of_lt (h entry hmem)
      rw [List.length_cons, Nat.add_comm rest.length, ← Nat.add_assoc]
      obtain ⟨_ | name, value⟩ := field
      · exact ih hlater hentry
      · refine ih ?_ hentry
        intro entry hmem
        rcases mem_insertName hmem with rfl | hmem
        · exact Nat.lt_succ_self _
        · exact hlater entry hmem

theorem mem_of_position? {names : FieldNames} {name : String} {position : Nat}
    (h : names.position? name = some position) : (name, position) ∈ names.entries := by
  obtain ⟨before, after, hentries, -⟩ := List.lookup_eq_some_iff.mp h
  rw [hentries]
  exact List.mem_append_right _ List.mem_cons_self

section Fields

variable {recheck : Expr → CheckM Expr} {failed : Failure → Prop}
  (hfailed : ∀ failure, RefusesExpr failure → failed failure)

include hfailed

/-- The fields of a struct literal, if each of them is checked as it should be. -/
theorem checksOr_glueFields {fields : GlueFields}
    (hfields : ∀ field ∈ fields, ∀ middle : Checking, s.Reaches middle →
      ChecksOr failed (tree recheck field.2) middle fun checked final =>
        Elaborates final.types final.symbols field.2 checked)
    (hrecheck : CanRecheck recheck (Expr.fieldsNesting fields + 1)) (position : Nat)
    (names : FieldNames) (hs : s.Sound) :
    ChecksOr failed (glueFields recheck position names fields) s fun result final =>
      ElaboratesFields final.types final.symbols fields result.1 ∧
        result.1.map (fun field => field.2.type?) = result.2.fields.map some ∧
        (∀ id ∈ result.2.fields, final.types.Concrete id) ∧
        result.2.names = glueNames position names fields ∧ NewNames names fields := by
  induction fields generalizing s position names with
  | nil => exact ends_pure ⟨hs.reaches, .nil, rfl, fun _ h => (nomatch h), rfl, by simp [NewNames]⟩
  | cons field rest ih =>
      obtain ⟨name, value⟩ := field
      rw [Expr.fieldsNesting] at hrecheck
      obtain ⟨hfirst, hrest⟩ := List.forall_mem_cons.mp hfields
      rw [glueFields]
      refine ((checks_addName hs names position name).or hfailed).bind ?_
      rintro names' _ - ⟨rfl, hnames⟩
      refine (hfirst _ hs.reaches).bind ?_
      intro checked middle hreaches hchecked
      have hchecking : CanRecheck recheck (checked.nesting + 1) := by
        rw [hchecked.nesting]
        exact hrecheck.mono (Nat.succ_le_succ (Nat.le_max_left _ _))
      refine ((checks_fieldValue hreaches.sound hchecked hchecking).or hfailed).bind ?_
      rintro final later hreaches' ⟨ty, target, hty, htarget, hfinal⟩
      refine Ends.of_bind (run_typeOf hfinal.type?) ?_
      have hpath := hreaches.trans hreaches'
      refine (ih (fun field hfield state hstate => hrest field hfield state (hpath.trans hstate))
        (hrecheck.mono (by omega)) (position + 1) names' hpath.sound).bind ?_
      rintro ⟨rest', struct⟩ last hreaches'' ⟨hrest', htypes, hconcrete, hstruct, hnew⟩
      obtain ⟨hnames, hnewNames⟩ := hnames value rest
      refine ends_pure ⟨hreaches''.sound.reaches, ?_, ?_, ?_, ?_, hnewNames hnew⟩
      · have hpath' := hreaches'.trans hreaches''
        exact .cons (hchecked.reach hpath') (hty.grow hreaches''.grows)
          (hreaches''.grows.get? htarget) (hfinal.grow hreaches''.grows) hrest'
      · rw [List.map_cons, List.map_cons, htypes, hfinal.type?]
      · refine List.forall_mem_cons.mpr ⟨?_, hconcrete⟩
        exact ⟨_, hreaches''.grows.get? htarget, Ty.settled_ne_flexible ty⟩
      · rw [hnames, hstruct]

theorem checksOr_glue {fields : GlueFields}
    (hfields : ∀ field ∈ fields, ∀ middle : Checking, s.Reaches middle →
      ChecksOr failed (tree recheck field.2) middle fun checked final =>
        Elaborates final.types final.symbols field.2 checked)
    (hrecheck : CanRecheck recheck (Expr.fieldsNesting fields + 1)) (hs : s.Sound) :
    ChecksOr failed (tree recheck (.glue fields none)) s fun checked final =>
      Elaborates final.types final.symbols (.glue fields none) checked := by
  rw [tree, demandOf_none_bind]
  refine (checksOr_glueFields hfailed hfields hrecheck 0 .empty hs).bind ?_
  rintro ⟨checked, struct⟩ middle hreaches ⟨hchecked, htypes, hconcrete, hnames, hdistinct, -⟩
  have hlength : struct.fields.length = fields.length := by
    have hlength := congrArg List.length htypes
    rw [List.length_map, List.length_map] at hlength
    rw [← hlength, hchecked.length]
  -- the struct that is interned names only fields that it has
  have hadmits : middle.types.Admits (.struct struct) := by
    refine ⟨hconcrete, fun name position hposition => ?_⟩
    rw [hnames] at hposition
    have hlt := lt_of_mem_glueNames (by simp [FieldNames.empty]) (mem_of_position? hposition)
    rwa [hlength, ← Nat.zero_add fields.length]
  have hintern := checks_intern hreaches.sound (Universe.internStruct_eq_intern struct) hadmits
  refine (hintern.or hfailed).bind ?_
  intro id final hreaches' hid
  exact ends_pure ⟨hreaches'.sound.reaches,
    .glue (hchecked.grow hreaches'.grows hreaches'.keeps) hdistinct hid htypes hnames⟩

end Fields

/-! ## Fields -/

theorem checks_structOf (hs : s.Sound) (hid : s.types.get? id = some ty) :
    Checks (structOf id) s fun struct final => final = s ∧ ty = .struct struct := by
  rw [structOf]
  refine .of_bind (run_typeAt hid) ?_
  obtain ⟨text, htext⟩ := exists_run_describe hs.sound.toInterned hid
  cases ty with
  | struct struct => exact checks_pure hs ⟨rfl, rfl⟩
  | int width => exact .of_bind htext (checks_refuse rfl)
  | bool => exact .of_bind htext (checks_refuse rfl)
  | flexible => exact .of_bind htext (checks_refuse rfl)

theorem checks_unknownField {α : Type} {post : α → Checking → Prop} (hs : s.Sound)
    (hid : s.types.get? id = some ty) (field : String) : Checks (unknownField field id) s post := by
  obtain ⟨text, htext⟩ := exists_run_describe hs.sound.toInterned hid
  exact .of_bind htext (checks_refuse rfl)

theorem checks_namedField {base : Expr} (hs : s.Sound)
    (h : Elaborates s.types s.symbols base value) (field : String) :
    Checks (namedField value field) s fun checked final =>
      Elaborates final.types final.symbols (.dot base field none none) checked := by
  obtain ⟨id, ty, hid, hty, -⟩ := h.exists_type hs
  rw [namedField]
  refine .of_bind (run_typeOf hid) ?_
  refine (checks_structOf hs hty).bind ?_
  rintro struct _ - ⟨rfl, rfl⟩
  cases hposition : struct.names.position? field with
  | none => exact checks_unknownField hs hty field
  | some position =>
      -- a sound universe names only fields that are there
      have hlt := (hs.sound.admits hty).2 field position hposition
      have hfield := List.getElem?_eq_getElem hlt
      change Checks (orFault _ struct.fields[position]? >>= _) _ _
      rw [hfield]
      exact .of_bind (run_orFault_some _ _ _)
        (checks_pure hs (.dot h ⟨id, hid, hty⟩ hposition hfield))

theorem checks_positionedField {base : Expr} (hs : s.Sound)
    (h : Elaborates s.types s.symbols base value) (position : Nat) :
    Checks (positionedField value position) s fun checked final =>
      Elaborates final.types final.symbols (.index base position none) checked := by
  obtain ⟨id, ty, hid, hty, -⟩ := h.exists_type hs
  rw [positionedField]
  refine .of_bind (run_typeOf hid) ?_
  refine (checks_structOf hs hty).bind ?_
  rintro struct _ - ⟨rfl, rfl⟩
  cases hfield : struct.fields[position]? with
  | none => exact checks_unknownField hs hty _
  | some fieldType => exact checks_pure hs (.index h ⟨id, hid, hty⟩ hfield)

/-! ## Expressions -/

/-- The first `count` symbols have types. -/
def TypedBelow (s : Checking) (count : Nat) : Prop :=
  ∀ symbol : SymbolId, symbol.index < count → ∃ type, s.symbols.type? symbol = some type

theorem TypedBelow.reach {final : Checking} {count : Nat} (h : TypedBelow s count)
    (hreaches : s.Reaches final) : TypedBelow final count := by
  intro symbol hlt
  rw [hreaches.symbols]
  exact h symbol hlt

theorem run_symbolType? {symbol : SymbolId} (h : s.symbols.type? symbol = some id) :
    symbolType? symbol s = .ok (some id) s := by
  obtain ⟨known, hknown, htype⟩ := Option.bind_eq_some_iff.mp h
  rw [symbolType?, run_bind_ok (run_get s), hknown]
  change EStateM.Result.ok known.type s = _
  rw [htype]

theorem checks_var {symbol : SymbolId} (hs : s.Sound) (h : s.symbols.type? symbol = some id)
    (recheck : Expr → CheckM Expr) (name : String) :
    Checks (tree recheck (.var name (some symbol) none)) s fun checked final =>
      Elaborates final.types final.symbols (.var name (some symbol) none) checked := by
  rw [tree, demandOf_none_bind]
  refine .of_bind (run_orRefuse_some _ _ s) ?_
  refine .of_bind (run_symbolType? h) ?_
  refine .of_bind (run_orRefuse_some _ _ s) ?_
  exact checks_pure hs (.var h)

theorem checks_read (hs : s.Sound) (recheck : Expr → CheckM Expr) :
    Checks (tree recheck (.read none)) s fun checked final =>
      Elaborates final.types final.symbols (.read none) checked := by
  rw [tree, demandOf_none_bind]
  refine (checks_orFlexible hs).bind ?_
  intro id final hreaches hid
  exact .of_bind (run_typeAt hid) (checks_pure hreaches.sound (.read hid))

/-- **Checking a plain expression elaborates it or refuses it.** -/
theorem checks_tree {recheck : Expr → CheckM Expr} {count : Nat} (hplain : value.BoundBelow count)
    (hs : s.Sound) (htyped : TypedBelow s count) (hrecheck : CanRecheck recheck value.nesting) :
    Checks (tree recheck value) s fun checked final =>
      Elaborates final.types final.symbols value checked := by
  induction hplain generalizing s with
  | @literal number =>
      rw [tree, demandOf_none_bind]
      exact checks_literal hs number
  | @var name symbol hsymbol =>
      obtain ⟨symbol, rfl, hlt⟩ := hsymbol
      obtain ⟨type, htype⟩ := htyped symbol hlt
      exact checks_var hs htype recheck name
  | read => exact checks_read hs recheck
  | @sign operand hoperand ih =>
      rw [Expr.nesting] at hrecheck
      -- a literal right under a sign has a rule of its own
      cases operand with
      | literal number own =>
          cases hoperand
          rw [tree_negatedLiteral, demandOf_none_bind]
          refine (checks_negatedLiteral hs number).bind ?_
          intro checked final hreaches hchecked
          exact checks_signOperand hreaches.sound hchecked
      | _ =>
          rw [tree_sign recheck (by simp), demandOf_none_bind]
          refine (ih hs htyped (hrecheck.mono (Nat.le_succ _))).bind ?_
          intro checked final hreaches hchecked
          exact checks_signOperand hreaches.sound hchecked
  | @binary operator operatorClass left right hclass _ _ ihleft ihright =>
      rw [Expr.nesting] at hrecheck
      rw [tree, hclass, demandOf_none_bind]
      refine .of_bind (run_orRefuse_some _ _ s) ?_
      refine (ihleft hs htyped (hrecheck.mono (by omega))).bind ?_
      intro l middle hreaches hl
      refine (ihright hreaches.sound (htyped.reach hreaches) (hrecheck.mono (by omega))).bind ?_
      intro r final hreaches' hr
      refine checks_operands hreaches'.sound hclass (hl.reach hreaches') hr ?_
      rwa [hl.nesting, hr.nesting]
  | @glue fields _ ih =>
      rw [Expr.nesting] at hrecheck
      refine checksOr_glue (fun _ h => h) (fun field hfield middle hreaches => ?_) hrecheck hs
      refine ih field hfield hreaches.sound (htyped.reach hreaches) (hrecheck.mono ?_)
      exact Nat.le_succ_of_le (Expr.nesting_le_fieldsNesting hfield)
  | @dot base field _ ih =>
      rw [Expr.nesting] at hrecheck
      rw [tree, demandOf_none_bind]
      refine (ih hs htyped hrecheck).bind ?_
      intro checked final hreaches hchecked
      exact checks_namedField hreaches.sound hchecked field
  | @index base position _ ih =>
      rw [Expr.nesting] at hrecheck
      rw [tree, demandOf_none_bind]
      refine (ih hs htyped hrecheck).bind ?_
      intro checked final hreaches hchecked
      exact checks_positionedField hreaches.sound hchecked position

/-- Checking an expression has room for all the checks that it makes again. -/
theorem checks_expr {count : Nat} (hplain : value.BoundBelow count) (hs : s.Sound)
    (htyped : TypedBelow s count) :
    Checks (expr value) s fun checked final =>
      Elaborates final.types final.symbols value checked := by
  unfold expr
  cases hnesting : value.nesting with
  | zero =>
      refine checks_tree hplain hs htyped ?_
      rw [hnesting]
      exact fun _ _ _ hless => absurd hless (Nat.not_lt_zero _)
  | succ depth =>
      refine checks_tree hplain hs htyped ?_
      rw [hnesting]
      exact canRecheck_within depth

/-- Conversion of a checked expression to a concrete type, not to truth values
unless it is one. -/
theorem checks_convert {source : Expr} (hs : s.Sound)
    (h : Elaborates s.types s.symbols source value)
    (htarget : s.types.get? target = some targetTy) (hconcrete : targetTy ≠ .flexible)
    (hbool : targetTy = .bool → s.types.HasTy value .bool) :
    Checks (convert value target) s fun final later => Converts later.types value target final :=
  checks_convertWith_of_elaborates hs h (canRecheck_within value.nesting) htarget hconcrete hbool

end Check

end FlexWidth
