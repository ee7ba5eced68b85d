import FlexWidth.Proofs.Typing.Recheck

/-!
# Promises of the check

A step in the check of an expression starts in a sound state.  It ends in a later one,
where types may have been added but the symbols are the same, or it refuses the
expression for one of five reasons.  `Checks` is this promise, together with what the
step says about its result, and `Checks.bind` puts promises together.

The steps here are the elementary ones and the conversion of a checked expression.
-/

namespace FlexWidth

/-- The state of a check: its universe and its symbols are sound. -/
def Checking.Sound (s : Checking) : Prop := SoundContext s.types s.symbols

/-- A later state of the check of one expression: types may have been added. -/
structure Checking.Reaches (s final : Checking) : Prop where
  sound : final.Sound
  grows : s.types.Grows final.types
  symbols : final.symbols = s.symbols

theorem Checking.Sound.reaches {s : Checking} (h : s.Sound) : s.Reaches s :=
  ⟨h, .refl _, rfl⟩

theorem Checking.Reaches.trans {s middle final : Checking} (h : s.Reaches middle)
    (h' : middle.Reaches final) : s.Reaches final :=
  ⟨h'.sound, h.grows.trans h'.grows, h'.symbols.trans h.symbols⟩

theorem Checking.Reaches.keeps {s final : Checking} (h : s.Reaches final) :
    s.symbols.Keeps final.symbols := by
  intro id type hid
  rwa [h.symbols]

theorem Elaborates.reach {s final : Checking} {source value : Expr}
    (h : Elaborates s.types s.symbols source value) (hreaches : s.Reaches final) :
    Elaborates final.types final.symbols source value :=
  h.grow hreaches.grows hreaches.keeps

/-- The reasons for which an expression can be refused. -/
def Diagnostic.refusesExpr : Diagnostic → Bool
  | duplicateField _ | typeMismatch _ _ | literalOutOfRange _ _ | unknownField _ _
  | invalidFieldAccess _ => true
  | _ => false

/-- The failure is that an expression is refused. -/
def RefusesExpr (failure : Failure) : Prop :=
  ∃ diagnostic, failure = .refused diagnostic ∧ diagnostic.refusesExpr = true

namespace Check

/-- Run from a sound state, the stage ends in a later one with a result that
satisfies `post`, or it refuses an expression. -/
def Checks {α : Type} (stage : CheckM α) (s : Checking) (post : α → Checking → Prop) : Prop :=
  Ends stage s (fun value final => s.Reaches final ∧ post value final) fun failure _ =>
    RefusesExpr failure

/-- The same for a stage that may fail in other ways. -/
def ChecksOr {α : Type} (failed : Failure → Prop) (stage : CheckM α) (s : Checking)
    (post : α → Checking → Prop) : Prop :=
  Ends stage s (fun value final => s.Reaches final ∧ post value final) fun failure _ =>
    failed failure

section Rules

variable {α β : Type} {stage : CheckM α} {s : Checking} {post : α → Checking → Prop}

theorem checks_pure {value : α} (hs : s.Sound) (h : post value s) : Checks (pure value) s post :=
  ends_pure ⟨hs.reaches, h⟩

theorem checks_refuse {diagnostic : Diagnostic} (h : diagnostic.refusesExpr = true) :
    Checks (refuse diagnostic) s post :=
  ends_refuse ⟨diagnostic, rfl, h⟩

theorem ChecksOr.bind {failed : Failure → Prop} {next : α → CheckM β}
    {post' : β → Checking → Prop} (h : ChecksOr failed stage s post)
    (hnext : ∀ value middle, s.Reaches middle → post value middle →
      ChecksOr failed (next value) middle post') : ChecksOr failed (stage >>= next) s post' := by
  refine Ends.bind h ?_
  rintro value middle ⟨hreaches, hpost⟩
  exact (hnext value middle hreaches hpost).weaken
    (fun result final h => ⟨hreaches.trans h.1, h.2⟩) fun _ _ h => h

theorem Checks.bind {next : α → CheckM β} {post' : β → Checking → Prop}
    (h : Checks stage s post)
    (hnext : ∀ value middle, s.Reaches middle → post value middle →
      Checks (next value) middle post') : Checks (stage >>= next) s post' :=
  ChecksOr.bind h hnext

theorem Checks.of_bind {next : α → CheckM β} {post' : β → Checking → Prop} {value : α}
    (h : stage s = .ok value s) (hnext : Checks (next value) s post') :
    Checks (stage >>= next) s post' :=
  Ends.of_bind h hnext

theorem Checks.or {failed : Failure → Prop} (h : Checks stage s post)
    (hfailed : ∀ failure, RefusesExpr failure → failed failure) : ChecksOr failed stage s post :=
  Ends.weaken h (fun _ _ h => h) fun failure _ h => hfailed failure h

theorem Checks.weaken {post' : α → Checking → Prop} (h : Checks stage s post)
    (hpost : ∀ value final, s.Reaches final → post value final → post' value final) :
    Checks stage s post' :=
  Ends.weaken h (fun value final h => ⟨h.1, hpost value final h.1 h.2⟩) fun _ _ h => h

end Rules

variable {s : Checking} {id target : TypeId} {ty targetTy : Ty} {value : Expr}

/-! ## Elementary steps -/

section Steps

variable (hs : s.Sound)

include hs

theorem checks_intern {interning : Universe → TypeId × Universe}
    (h : ∀ types, interning types = Universe.intern ty types) (hty : s.types.Admits ty) :
    Checks (intern interning) s fun id final => final.types.get? id = some ty := by
  obtain ⟨hsound, hid⟩ := hs.sound.intern hty
  have hgrows := Universe.grows_intern s.types ty
  unfold Checks Ends
  rw [intern, run_modifyGet, h]
  refine ⟨⟨⟨hsound, fun hsymbol => ?_⟩, hgrows, rfl⟩, hid⟩
  exact (hs.concrete hsymbol).grow hgrows

theorem checks_internFlexible :
    Checks (intern Universe.internFlexible) s fun id final =>
      final.types.get? id = some .flexible :=
  checks_intern hs Universe.internFlexible_eq_intern trivial

theorem checks_internBool :
    Checks (intern Universe.internBool) s fun id final => final.types.get? id = some .bool :=
  checks_intern hs Universe.internBool_eq_intern trivial

theorem checks_internDefaultInt :
    Checks (intern Universe.internDefaultInt) s fun id final =>
      final.types.get? id = some (.int Ascription.defaultWidth) :=
  checks_intern hs (Universe.internInt_eq_intern Ascription.defaultWidth)
    (show 0 < Ascription.defaultWidth by decide)

theorem checks_mismatch {α : Type} {post : α → Checking → Prop}
    (hid : s.types.get? id = some ty) (htarget : s.types.get? target = some targetTy) :
    Checks (mismatch target id) s post := by
  obtain ⟨text, htext⟩ := exists_run_describe hs.sound.toInterned htarget
  obtain ⟨text', htext'⟩ := exists_run_describe hs.sound.toInterned hid
  exact .of_bind htext (.of_bind htext' (checks_refuse rfl))

theorem checks_expectedInt {α : Type} {post : α → Checking → Prop}
    (hid : s.types.get? id = some ty) : Checks (expectedInt id) s post := by
  obtain ⟨text, htext⟩ := exists_run_describe hs.sound.toInterned hid
  exact .of_bind htext (checks_refuse rfl)

/-- Structs are refused, so what goes on is none. -/
theorem checks_refuseStruct (hid : s.types.get? id = some ty) :
    Checks (refuseStruct id) s fun _ final => final = s ∧ ty.struct? = none := by
  rw [refuseStruct]
  refine .of_bind (run_isStruct hid) ?_
  cases hstruct : ty.struct? with
  | some struct => exact checks_expectedInt hs hid
  | none => exact checks_pure hs ⟨rfl, rfl⟩

/-- A conversion is reported and wrapped around its operand. -/
theorem exists_run_wrapConversion (hvalue : value.type? = some id)
    (hid : s.types.get? id = some ty) (htarget : s.types.get? target = some targetTy) :
    ∃ log, wrapConversion value target s =
      .ok (.conversion value (some target)) { s with log := log } :=
  exists_run_wrapConversion_of_interned hs.sound.toInterned hvalue hid htarget

theorem checks_wrapConversion (hvalue : value.type? = some id) (hid : s.types.get? id = some ty)
    (htarget : s.types.get? target = some targetTy) :
    Checks (wrapConversion value target) s fun result final =>
      result = .conversion value (some target) ∧ final.types = s.types := by
  obtain ⟨log, hrun⟩ := exists_run_wrapConversion hs hvalue hid htarget
  exact Ends.of_ok hrun ⟨⟨hs, .refl _, rfl⟩, rfl, rfl⟩

end Steps

/-! ## Conversion -/

/-- A retyped tree, seen as a promise of checking. -/
theorem Retypes.checks {stage : CheckM Expr} {width : Nat} (hs : s.Sound)
    (h : Retypes stage s value target width) :
    Checks stage s fun result final =>
      result = value.retype target ∧ final = s ∧ value.literalsFit width = true := by
  refine Ends.weaken h ?_ ?_
  · rintro result final ⟨hresult, rfl, hfit⟩
    exact ⟨hs.reaches, hresult, rfl, hfit⟩
  · rintro failure final ⟨hblames, -⟩
    obtain ⟨text, type, rfl⟩ := hblames.isOutOfRange
    exact ⟨_, rfl, rfl⟩

/-- Conversion to a type that is not the flexible one, nor that of truth values
unless the expression has it already. -/
theorem checks_convertWith {recheck : Expr → CheckM Expr} (hs : s.Sound)
    (hvalue : value.type? = some id) (hid : s.types.get? id = some ty)
    (hflexible : ty = .flexible → value.IsFlexible id)
    (hrecheck : CanRecheck recheck (value.nesting + 1))
    (htarget : s.types.get? target = some targetTy) (hconcrete : targetTy ≠ .flexible)
    (hbool : targetTy = .bool → id = target) :
    Checks (convertWith recheck value target) s fun final later =>
      Converts later.types value target final := by
  rw [convertWith]
  refine .of_bind (run_materialize hvalue) ?_
  have hloaded : value.loaded.type? = some id := value.type?_loaded.trans hvalue
  refine .of_bind (run_typeOf hloaded) ?_
  split
  · rename_i heq
    exact checks_pure hs (.same (heq ▸ hvalue))
  · rename_i hne
    refine .of_bind (run_typeAt htarget) ?_
    -- conversion to truth values is another matter (`checks_convert_bool`)
    rw [if_neg hconcrete, if_neg fun h => hne (hbool h)]
    refine .of_bind (run_typeAt hid) ?_
    split
    · rename_i hty
      subst hty
      have hvalueFlexible := hflexible rfl
      split
      · exact checks_mismatch hs hid htarget
      · rename_i hstruct
        -- neither flexible nor a truth value nor a struct: an integer
        cases targetTy with
        | int width =>
            rw [hvalueFlexible.loaded]
            have hretypes := hrecheck hs.sound.toInterned hid hvalueFlexible (Nat.lt_succ_self _)
              htarget
            refine (hretypes.checks hs).weaken ?_
            rintro _ final - ⟨rfl, rfl, hfit⟩
            exact .retype hid hvalueFlexible htarget hfit
        | bool => exact absurd (hbool rfl) hne
        | flexible => exact absurd rfl hconcrete
        | struct struct => exact absurd rfl hstruct
    · split
      · rename_i hwidens
        refine (checks_wrapConversion hs hloaded hid htarget).weaken ?_
        rintro _ final hreaches ⟨rfl, -⟩
        exact .widen hvalue (hreaches.grows.get? hid) (hreaches.grows.get? htarget) hwidens
      · exact checks_mismatch hs hid htarget

end Check

end FlexWidth
