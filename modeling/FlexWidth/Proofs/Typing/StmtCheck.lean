import FlexWidth.Proofs.Typing.Conversion

/-!
# Checking statements

The parts of statements: conditions, printed and evaluated values, the bounds of
loops, and the values that variables take.
-/

namespace FlexWidth.Check

variable {s : Checking} {id target : TypeId} {ty targetTy : Ty} {value source : Expr}

/-! ## Values -/

theorem checks_note (hs : s.Sound) (event : Event) :
    Checks (note event) s fun _ final => final.types = s.types := by
  unfold Checks Ends
  rw [note, run_modify]
  exact ⟨⟨hs, .refl _, rfl⟩, rfl⟩

theorem checks_defaultInt (hs : s.Sound) (h : Elaborates s.types s.symbols source value) :
    Checks (defaultInt value) s fun final later => ∃ target,
      later.types.get? target = some (.int Ascription.defaultWidth) ∧
        Converts later.types value target final := by
  refine (checks_internDefaultInt hs).bind ?_
  intro target middle hreaches htarget
  refine (checks_convert hreaches.sound (h.reach hreaches) htarget (by simp)
    (by simp)).weaken ?_
  intro final later hreaches' hfinal
  exact ⟨target, hreaches'.grows.get? htarget, hfinal⟩

/-- An integer is tested, a struct is refused. -/
theorem checks_test (hs : s.Sound) (hvalue : value.type? = some id)
    (hid : s.types.get? id = some ty) (htarget : s.types.get? target = some .bool) :
    Checks (do
        match ← typeAt id with
        | .int _ => wrapConversion value target
        | _ => mismatch target id) s fun final later =>
      (∃ width, ty = .int width) ∧ later.types = s.types ∧
        final = .conversion value (some target) := by
  refine .of_bind (run_typeAt hid) ?_
  cases ty with
  | int width =>
      refine (checks_wrapConversion hs hvalue hid htarget).weaken ?_
      rintro _ later - ⟨rfl, htypes⟩
      exact ⟨⟨width, rfl⟩, htypes, rfl⟩
  | bool => exact checks_mismatch hs hid htarget
  | flexible => exact checks_mismatch hs hid htarget
  | struct struct => exact checks_mismatch hs hid htarget

/-- Anything but a flexible expression stays as it is. -/
theorem run_settle_of_ne {recheck : Expr → CheckM Expr} (hty : s.types.get? id = some ty)
    (hne : ty ≠ .flexible) : settle recheck value id s = .ok value s := by
  rw [settle, run_bind_ok (run_isFlexible hty), decide_eq_false hne, if_neg (by decide)]
  rfl

section Truth

variable {recheck : Expr → CheckM Expr} (hs : s.Sound)
  (hrecheck : CanRecheck recheck (value.nesting + 1))

include hs hrecheck

/-- A flexible tree becomes a default integer, anything else stays. -/
theorem checks_settle (hty : s.types.get? id = some ty)
    (hflexible : ty = .flexible → value.IsFlexible id) :
    Checks (settle recheck value.loaded id) s fun settled later =>
      (ty ≠ .flexible ∧ later = s ∧ settled = value.loaded) ∨
        ∃ default, ty = .flexible ∧
          later.types.get? default = some (.int Ascription.defaultWidth) ∧
          value.literalsFit Ascription.defaultWidth = true ∧ settled = value.retype default := by
  by_cases hcase : ty = .flexible
  · subst hcase
    have hvalue := hflexible rfl
    rw [hvalue.loaded]
    refine (ends_settle_flexible hs hty hvalue hrecheck).weaken ?_ ?_
    · rintro _ later ⟨hreaches, default, -, hdefault, rfl, hfit⟩
      exact ⟨hreaches, Or.inr ⟨default, rfl, hdefault, hfit, rfl⟩⟩
    · intro failure _ hblames
      obtain ⟨text, type, rfl⟩ := hblames.isOutOfRange
      exact ⟨_, rfl, rfl⟩
  · exact Ends.of_ok (run_settle_of_ne hty hcase) ⟨hs.reaches, Or.inl ⟨hcase, rfl, rfl⟩⟩

/-- Conversion to truth values, where `target` is their type. -/
theorem checks_convertWith_bool (hvalue : s.types.Checked value ty)
    (htarget : s.types.get? target = some .bool) :
    Checks (convertWith recheck value target) s fun final later =>
      Tests later.types value target final := by
  obtain ⟨id, hid, hty, hflexible⟩ := hvalue
  have hloaded : value.loaded.type? = some id := value.type?_loaded.trans hid
  rw [convertWith]
  refine .of_bind (run_materialize hid) ?_
  refine .of_bind (run_typeOf hloaded) ?_
  split
  · rename_i heq
    exact checks_pure hs (.bool (heq ▸ hid))
  · refine .of_bind (run_typeAt htarget) ?_
    rw [if_neg (by simp), if_pos rfl, convertToBool]
    refine (checks_settle hs hrecheck hty hflexible).bind ?_
    rintro settled middle hreaches (⟨hcase, rfl, rfl⟩ | ⟨default, rfl, hdefault, hfit, rfl⟩)
    · refine .of_bind (run_typeOf hloaded) ?_
      refine (checks_test hs hloaded hty htarget).weaken ?_
      rintro _ later - ⟨⟨width, rfl⟩, htypes, rfl⟩
      exact .int hid (htypes ▸ hty)
    · have hvalue := hflexible rfl
      refine .of_bind (run_typeOf (hvalue.type?_retype default)) ?_
      refine (checks_test hreaches.sound (hvalue.type?_retype default) hdefault
        (hreaches.grows.get? htarget)).weaken ?_
      rintro _ later hreaches' ⟨-, -, rfl⟩
      exact .flexible ((hreaches.trans hreaches').grows.get? hty) hvalue
        (hreaches'.grows.get? hdefault) hfit

end Truth

theorem checks_convert_bool (hs : s.Sound) (h : Elaborates s.types s.symbols source value)
    (htarget : s.types.get? target = some .bool) :
    Checks (convert value target) s fun final later => Tests later.types value target final := by
  obtain ⟨ty, hvalue⟩ := h.exists_checked hs
  exact checks_convertWith_bool hs (canRecheck_within value.nesting) hvalue htarget

section Checked

variable {failed : Failure → Prop} (hfailed : ∀ failure, RefusesExpr failure → failed failure)
  (hexpr : ChecksOr failed (expr source) s fun checked final =>
    Elaborates final.types final.symbols source checked)

include hfailed hexpr

theorem checksOr_condition :
    ChecksOr failed (condition source) s fun final later =>
      ElaboratesTest later.types later.symbols source final := by
  refine hexpr.bind ?_
  intro checked middle hreaches hchecked
  refine ((checks_internBool hreaches.sound).or hfailed).bind ?_
  intro target middle' hreaches' htarget
  have hchecked' := hchecked.reach hreaches'
  refine ((checks_convert_bool hreaches'.sound hchecked' htarget).weaken ?_).or hfailed
  intro final later hreaches'' hfinal
  exact ⟨checked, target, hreaches''.grows.get? htarget,
    hchecked'.reach hreaches'', hfinal⟩

theorem checksOr_printed :
    ChecksOr failed (printed source) s fun final later => ∃ target width,
      later.types.get? target = some (.int width) ∧
        ElaboratesTo later.types later.symbols target source final := by
  refine hexpr.bind ?_
  intro checked middle hreaches hchecked
  obtain ⟨id, ty, hid, hty, -⟩ := hchecked.exists_type hreaches.sound
  have hdefault : Checks (defaultInt checked) middle fun final later => ∃ target width,
      later.types.get? target = some (.int width) ∧
        ElaboratesTo later.types later.symbols target source final := by
    refine (checks_defaultInt hreaches.sound hchecked).weaken ?_
    rintro final later hreaches' ⟨target, htarget, hfinal⟩
    exact ⟨target, _, htarget, checked, hchecked.reach hreaches', hfinal⟩
  refine Checks.or (.of_bind (run_typeOf hid) (.of_bind (run_typeAt hty) ?_)) hfailed
  cases ty with
  | flexible => exact hdefault
  | bool => exact hdefault
  | struct struct => exact checks_expectedInt hreaches.sound hty
  | int width =>
      unfold Checks Ends
      dsimp only
      rw [run_materialize hid]
      exact ⟨hreaches.sound.reaches, id, width, hty, checked, hchecked, .same hid⟩

theorem checksOr_evaluated :
    ChecksOr failed (evaluated source) s fun final later =>
      ElaboratesStmt later.types later.symbols (.evaluate source) (.evaluate final) := by
  refine hexpr.bind ?_
  intro checked middle hreaches hchecked
  obtain ⟨id, ty, hid, hty, -⟩ := hchecked.exists_type hreaches.sound
  refine Checks.or (.of_bind (run_typeOf hid) (.of_bind (run_isFlexible hty) ?_)) hfailed
  by_cases hflexible : ty = .flexible
  · rw [decide_eq_true hflexible, if_pos rfl]
    refine (checks_defaultInt hreaches.sound hchecked).weaken ?_
    rintro final later hreaches' ⟨target, htarget, hfinal⟩
    exact .evaluateFlexible htarget
      ⟨checked, hchecked.reach hreaches', hfinal⟩
  · rw [decide_eq_false hflexible, if_neg (by decide)]
    exact checks_pure hreaches.sound (.evaluate hchecked ⟨id, hid, hty⟩ hflexible)

end Checked

section Values

variable {count : Nat} (hplain : source.BoundBelow count) (hs : s.Sound)
  (htyped : TypedBelow s count)

include hplain hs htyped

theorem checks_condition :
    Checks (condition source) s fun final later =>
      ElaboratesTest later.types later.symbols source final :=
  checksOr_condition (fun _ h => h) (checks_expr hplain hs htyped)

theorem checks_printed :
    Checks (printed source) s fun final later => ∃ target width,
      later.types.get? target = some (.int width) ∧
        ElaboratesTo later.types later.symbols target source final :=
  checksOr_printed (fun _ h => h) (checks_expr hplain hs htyped)

theorem checks_evaluated :
    Checks (evaluated source) s fun final later =>
      ElaboratesStmt later.types later.symbols (.evaluate source) (.evaluate final) :=
  checksOr_evaluated (fun _ h => h) (checks_expr hplain hs htyped)

end Values

/-! ## Bounds of loops -/

section Bounds

variable {count : Nat} {bounds checked : List Expr}

theorem checksOr_exprs {failed : Failure → Prop}
    (hexprs : ∀ bound ∈ bounds, ∀ middle : Checking, s.Reaches middle →
      ChecksOr failed (expr bound) middle fun checked final =>
        Elaborates final.types final.symbols bound checked) (hs : s.Sound) :
    ChecksOr failed (exprs bounds) s fun checked final =>
      List.Forall₂ (Elaborates final.types final.symbols) bounds checked := by
  induction bounds generalizing s with
  | nil => exact ends_pure ⟨hs.reaches, .nil⟩
  | cons first rest ih =>
      obtain ⟨hfirst, hrest⟩ := List.forall_mem_cons.mp hexprs
      refine (hfirst s hs.reaches).bind ?_
      intro checked middle hreaches hchecked
      refine (ih (fun bound hbound later hlater => hrest bound hbound later
        (hreaches.trans hlater)) hreaches.sound).bind ?_
      intro rest' final hreaches' hrest'
      exact ends_pure ⟨hreaches'.sound.reaches, .cons (hchecked.reach hreaches') hrest'⟩

theorem checks_exprs (hplain : ∀ bound ∈ bounds, bound.BoundBelow count) (hs : s.Sound)
    (htyped : TypedBelow s count) :
    Checks (exprs bounds) s fun checked final =>
      List.Forall₂ (Elaborates final.types final.symbols) bounds checked :=
  checksOr_exprs (fun bound hbound _ hreaches => checks_expr (hplain bound hbound) hreaches.sound
    (htyped.reach hreaches)) hs

/-- A common type of two bounds: whatever integer it converts to, they convert to. -/
def Joins (left right joined : Ty) : Prop :=
  joined.struct? = none ∧ ∀ width, joined.ConvertsTo (.int width) →
    left.ConvertsTo (.int width) ∧ right.ConvertsTo (.int width)

theorem joins_self (h : ty.struct? = none) : Joins ty ty ty := ⟨h, fun _ hwidth => ⟨hwidth, hwidth⟩⟩

theorem joins_of_merge {left right : Ty} {wide : Nat} (hleft : left.struct? = none)
    (hright : right.struct? = none)
    (h : Option.merge max left.intWidth? right.intWidth? = some wide) :
    Joins left right (.int wide) := by
  refine ⟨rfl, fun width hwidth => ⟨Ty.convertsTo_int hleft ?_, Ty.convertsTo_int hright ?_⟩⟩
  · rintro narrow rfl
    exact Nat.le_trans (Ty.le_of_merge_left h) hwidth.le
  · rintro narrow rfl
    exact Nat.le_trans (Ty.le_of_merge_right h) hwidth.le

theorem joins_of_noWidth {left right joined : Ty} (hleft : left.struct? = none)
    (hright : right.struct? = none) (hlwidth : left.intWidth? = none)
    (hrwidth : right.intWidth? = none) (hjoined : joined.struct? = none) :
    Joins left right joined := by
  refine ⟨hjoined, fun width _ => ⟨Ty.convertsTo_int hleft ?_, Ty.convertsTo_int hright ?_⟩⟩
  · rintro narrow rfl
    cases hlwidth
  · rintro narrow rfl
    cases hrwidth

theorem joins_join {left right : Ty} (hleft : left.struct? = none) (hright : right.struct? = none) :
    Joins left right (left.join right) := by
  unfold Ty.join
  split
  · rename_i heq
    subst heq
    exact joins_self hleft
  split
  · rename_i hmerge
    exact joins_of_merge hleft hright hmerge
  · rename_i hmerge
    obtain ⟨hlwidth, hrwidth⟩ := Option.merge_eq_none_iff.mp hmerge
    exact joins_of_noWidth hleft hright hlwidth hrwidth rfl

/-- Two bounds meet where two operands do. -/
theorem checks_joinBound_join (hs : s.Sound) {current bound : TypeId} {currentTy boundTy : Ty}
    (hcurrent : s.types.get? current = some currentTy) (hcurrentStruct : currentTy.struct? = none)
    (hbound : s.types.get? bound = some boundTy) (hboundStruct : boundTy.struct? = none) :
    Checks (joinBound current bound) s fun joined final =>
      final.types.get? joined = some (currentTy.join boundTy) := by
  obtain ⟨promotion, hcommon, hmeets⟩ := run_common hs.sound.toInterned hcurrent hbound
  rw [joinBound]
  refine .of_bind hcommon ?_
  cases hmeets with
  | equal hid =>
      cases hcurrent.symm.trans hbound
      refine checks_pure hs ?_
      rw [Ty.join, if_pos rfl, hcurrent]
  | flexible hid =>
      cases hcurrent.symm.trans hbound
      cases hcurrent.symm.trans hid
      refine .of_bind (run_isFlexible hcurrent) (.of_bind (run_isFlexible hbound) ?_)
      exact checks_pure hs hcurrent
  | struct hcurrent' hbound' _ hstruct =>
      cases hcurrent.symm.trans hcurrent'
      cases hbound.symm.trans hbound'
      simp [hcurrentStruct, hboundStruct] at hstruct
  | int hcurrent' hbound' hne _ _ hmerge hid =>
      cases hcurrent.symm.trans hcurrent'
      cases hbound.symm.trans hbound'
      refine checks_pure hs ?_
      rw [Ty.join, if_neg (hs.sound.ne_of_get? hcurrent hbound hne), hmerge, hid]
  | neither hcurrent' hbound' hne _ _ hcurrentWidth hboundWidth =>
      cases hcurrent.symm.trans hcurrent'
      cases hbound.symm.trans hbound'
      have hdiffer := hs.sound.ne_of_get? hcurrent hbound hne
      refine .of_bind (run_isFlexible hcurrent) (.of_bind (run_isFlexible hbound) ?_)
      rw [if_neg (by rintro ⟨hl, hr⟩; exact hdiffer ((of_decide_eq_true hl).trans
        (of_decide_eq_true hr).symm))]
      refine (checks_internDefaultInt hs).weaken fun joined final _ hjoined => ?_
      rw [Ty.join, if_neg hdiffer, hcurrentWidth, hboundWidth, hjoined]
      rfl

theorem checks_joinBound (hs : s.Sound) {current bound : TypeId} {currentTy boundTy : Ty}
    (hcurrent : s.types.get? current = some currentTy) (hcurrentStruct : currentTy.struct? = none)
    (hbound : s.types.get? bound = some boundTy) (hboundStruct : boundTy.struct? = none) :
    Checks (joinBound current bound) s fun joined final => ∃ joinedTy,
      final.types.get? joined = some joinedTy ∧ Joins currentTy boundTy joinedTy := by
  refine (checks_joinBound_join hs hcurrent hcurrentStruct hbound hboundStruct).weaken ?_
  intro joined final _ hjoined
  exact ⟨_, hjoined, joins_join hcurrentStruct hboundStruct⟩

/-- A common type of some bounds: whatever integer it converts to, all of them convert
to. -/
structure Covers (types : Universe) (joined : TypeId) (bounds : List Expr) (ty : Ty) : Prop where
  get? : types.get? joined = some ty
  struct? : ty.struct? = none
  converts : ∀ bound ∈ bounds, ∃ boundTy, types.HasTy bound boundTy ∧
    ∀ width, ty.ConvertsTo (.int width) → boundTy.ConvertsTo (.int width)

theorem checks_joinBounds (h : List.Forall₂ (Elaborates s.types s.symbols) bounds checked)
    (hs : s.Sound) {current : Option TypeId} {seen : List Expr}
    (hcurrent : ∀ id ∈ current, ∃ ty, Covers s.types id seen ty)
    (hseen : current = none → seen = []) :
    Checks (joinBounds current checked) s fun joined final =>
      (∀ id ∈ joined, ∃ ty, Covers final.types id (seen ++ checked) ty) ∧
        (joined = none → seen ++ checked = []) := by
  induction checked generalizing s bounds current seen with
  | nil =>
      rw [List.append_nil]
      exact checks_pure hs ⟨hcurrent, hseen⟩
  | cons first rest ih =>
      cases h with
      | cons hfirst hrest =>
          obtain ⟨id, ty, hid, hty, -⟩ := hfirst.exists_type hs
          rw [joinBounds]
          refine .of_bind (run_typeOf hid) ?_
          refine (checks_refuseStruct hs hty).bind ?_
          rintro _ _ - ⟨rfl, hstruct⟩
          rw [List.append_cons]
          cases current with
          | none =>
              obtain rfl := hseen rfl
              refine ih hrest hs (fun id' hid' => ?_) (by simp)
              cases hid'
              exact ⟨ty, hty, hstruct, List.forall_mem_singleton.mpr
                ⟨ty, ⟨id, hid, hty⟩, fun _ hwidth => hwidth⟩⟩
          | some current =>
              obtain ⟨currentTy, hcurrentTy, hcurrentStruct, hcovers⟩ := hcurrent current rfl
              refine (checks_joinBound hs hcurrentTy hcurrentStruct hty hstruct).bind ?_
              rintro joined final hreaches ⟨joinedTy, hjoined, hjoinedStruct, hjoins⟩
              have hrest' := hrest.imp fun _ _ h => h.reach hreaches
              refine ih hrest' hreaches.sound (fun id' hid' => ?_) (by simp)
              cases hid'
              refine ⟨joinedTy, hjoined, hjoinedStruct,
                List.forall_mem_append.mpr ⟨fun bound hbound => ?_, ?_⟩⟩
              · obtain ⟨boundTy, hboundTy, hconverts⟩ := hcovers bound hbound
                exact ⟨boundTy, hboundTy.grow hreaches.grows,
                  fun width hwidth => hconverts width (hjoins width hwidth).1⟩
              · exact List.forall_mem_singleton.mpr ⟨ty, ⟨id, hid, hreaches.grows.get? hty⟩,
                  fun width hwidth => (hjoins width hwidth).2⟩

/-- The variable of a loop is an integer, to which all bounds convert. -/
theorem checks_loopType (h : List.Forall₂ (Elaborates s.types s.symbols) bounds checked)
    (hs : s.Sound) (name : String) :
    Checks (loopType name checked) s fun id final =>
      ∃ width, final.types.get? id = some (.int width) ∧ ∀ bound ∈ checked, ∃ boundTy,
        final.types.HasTy bound boundTy ∧ boundTy.ConvertsTo (.int width) := by
  have hdefault {middle : Checking} (hmiddle : middle.Sound)
      (hbounds : ∀ bound ∈ checked, ∃ boundTy, middle.types.HasTy bound boundTy ∧
        boundTy.ConvertsTo (.int Ascription.defaultWidth)) :
      Checks (do note (.defaultedLoop name); intern Universe.internDefaultInt) middle
        fun id final => ∃ width, final.types.get? id = some (.int width) ∧
          ∀ bound ∈ checked, ∃ boundTy, final.types.HasTy bound boundTy ∧
            boundTy.ConvertsTo (.int width) := by
    refine (checks_note hmiddle _).bind fun _ later hreaches _ => ?_
    refine (checks_internDefaultInt hreaches.sound).weaken fun id final hreaches' hid => ?_
    refine ⟨_, hid, fun bound hbound => ?_⟩
    obtain ⟨boundTy, hboundTy, hconverts⟩ := hbounds bound hbound
    exact ⟨boundTy, hboundTy.grow (hreaches.trans hreaches').grows, hconverts⟩
  rw [loopType]
  refine (checks_joinBounds h hs (by simp) (fun _ => rfl)).bind ?_
  rintro (_ | id) middle hreaches ⟨hjoined, hnone⟩
  · rw [List.nil_append] at hnone
    refine hdefault hreaches.sound fun bound hbound => ?_
    rw [hnone rfl] at hbound
    cases hbound
  · obtain ⟨ty, hty, hstruct, hcovers⟩ := hjoined id rfl
    have hconverts {width : Nat} (hwidth : ty.ConvertsTo (.int width)) :
        ∀ bound ∈ checked, ∃ boundTy, middle.types.HasTy bound boundTy ∧
          boundTy.ConvertsTo (.int width) := by
      intro bound hbound
      obtain ⟨boundTy, hboundTy, hboundConverts⟩ := hcovers bound hbound
      exact ⟨boundTy, hboundTy, hboundConverts width hwidth⟩
    refine .of_bind (run_typeAt hty) ?_
    cases ty with
    | flexible => exact hdefault hreaches.sound (hconverts (.flexible _))
    | bool => exact hdefault hreaches.sound (hconverts (.widen rfl))
    | int width => exact checks_pure hreaches.sound ⟨width, hty, hconverts (.same _)⟩
    | struct struct => cases hstruct

theorem checks_convertAll {width : Nat}
    (h : List.Forall₂ (Elaborates s.types s.symbols) bounds checked) (hs : s.Sound)
    (htarget : s.types.get? target = some (.int width)) :
    Checks (convertAll target checked) s fun finals later =>
      List.Forall₂ (ElaboratesTo later.types later.symbols target) bounds finals := by
  induction checked generalizing s bounds with
  | nil =>
      cases h
      exact checks_pure hs .nil
  | cons first rest ih =>
      cases h with
      | cons hfirst hrest =>
          rw [convertAll]
          refine (checks_convert hs hfirst htarget (by simp) (by simp)).bind ?_
          intro final middle hreaches hfinal
          refine (ih (hrest.imp fun _ _ h => h.reach hreaches) hreaches.sound
            (hreaches.grows.get? htarget)).bind ?_
          intro finals later hreaches' hfinals
          have hpath := hreaches.trans hreaches'
          exact checks_pure hreaches'.sound
            (.cons ⟨_, hfirst.reach hpath, hfinal.grow hreaches'.grows⟩ hfinals)

end Bounds

/-! ## Values of variables -/

theorem checks_ascription (hs : s.Sound) {written : Ascription} (hwidth : written ≠ .int 0) :
    Checks (ascription written) s fun id final => final.types.get? id = some written.ty := by
  cases written with
  | bool => exact checks_internBool hs
  | int width =>
      cases width with
      | zero => exact absurd rfl hwidth
      | succ width =>
          exact checks_intern hs (Universe.internInt_eq_intern (width + 1)) (Nat.succ_pos width)

/-- A value for a variable that has a type. -/
theorem checks_storeTyped (hs : s.Sound) (h : Elaborates s.types s.symbols source value)
    (htarget : s.types.Concrete target) :
    Checks (storeTyped target value) s fun final later =>
      Converts later.types value target final := by
  obtain ⟨id, ty, hid, hty, -⟩ := h.exists_type hs
  obtain ⟨targetTy, htargetTy, hconcrete⟩ := htarget
  obtain ⟨promotion, hcommon, hmeets⟩ := run_common hs.sound.toInterned htargetTy hty
  rw [storeTyped]
  refine .of_bind (run_typeOf hid) ?_
  refine .of_bind hcommon ?_
  split
  · rename_i hresolved
    refine checks_convert hs h htargetTy hconcrete ?_
    rintro rfl
    -- truth values meet nothing but truth values in their own type
    cases hmeets with
    | equal => exact ⟨_, hid, htargetTy⟩
    | int _ _ _ _ _ _ hint =>
        cases hresolved
        cases htargetTy.symm.trans hint
    | flexible => cases hresolved
    | struct => cases hresolved
    | neither => cases hresolved
  · exact checks_mismatch hs hty htargetTy

/-- The type that a variable takes from its first value. -/
theorem checks_firstType (hs : s.Sound) (hty : s.types.get? id = some ty) (name : String) :
    Checks (firstType name id) s fun target final =>
      final.types.get? target = some ty.settled := by
  rw [firstType]
  refine .of_bind (run_isFlexible hty) ?_
  by_cases hflexible : ty = .flexible
  · rw [decide_eq_true hflexible, if_pos rfl]
    refine (checks_note hs _).bind fun _ middle hreaches _ => ?_
    refine (checks_internDefaultInt hreaches.sound).weaken ?_
    rintro target final - htarget
    subst hflexible
    exact htarget
  · rw [decide_eq_false hflexible, if_neg (by decide)]
    exact checks_pure hs (by rw [Ty.settled_eq_self hflexible, hty])

end FlexWidth.Check
