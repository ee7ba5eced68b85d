import FlexWidth.Proofs.Tree.Labels
import FlexWidth.Proofs.Typing.Conversion
import FlexWidth.Proofs.Typing.Synthesis

/-!
# Inference

Checking a bare expression, with any operators and any symbols, from any sound state.  If
it yields a result, the expression elaborates to it.  Otherwise one of two things is known
about the failure, depending on what is known about the expression:

* if all its variables have types, the expression is refused;
* if it has a synthesized type, then a literal does not fit.

`Infers` is this promise.  The induction is on the expression (`infers_tree`).  A part that
fails makes the whole fail, so it has to be seen that a synthesized type for the whole means
one for the part (`Infers.bind`).  A node itself cannot fail once its parts have the types
that synthesis wants.
-/

namespace FlexWidth

/-- The labels are those of symbols that have types. -/
def SymbolTable.Types (symbols : SymbolTable) (labels : List Label) : Prop :=
  ∀ label ∈ labels, ∃ id type, label.2 = some id ∧ symbols.type? id = some type

/-- Checking an expression keeps the shapes of all symbols. -/
theorem Checking.Reaches.shape?_eq {s final : Checking} (hs : s.Sound) (h : s.Reaches final) :
    final.symbols.shape? final.types = s.symbols.shape? s.types := by
  funext id
  rw [SymbolTable.shape?, SymbolTable.shape?, h.symbols]
  cases htype : s.symbols.type? id with
  | none => rfl
  | some type =>
      obtain ⟨ty, hty, -⟩ := hs.concrete htype
      obtain ⟨shape, hshape, -⟩ := hs.sound.toInterned.exists_spells hty
      rw [Option.bind_some, Option.bind_some, hshape]
      exact h.grows.shapeWithin hshape

/-- A checked expression, its type and the synthesized one. -/
theorem Elaborates.exists_spells {s : Checking} {source value : Expr} (hs : s.Sound)
    (h : Elaborates s.types s.symbols source value) :
    ∃ ty shape, s.types.Checked value ty ∧ ty.Spells s.types.Denotes shape ∧
      source.synth (s.symbols.shape? s.types) = some shape := by
  obtain ⟨ty, hchecked⟩ := h.exists_checked hs
  obtain ⟨shape, hshape, hspells⟩ := hchecked.hasTy.exists_shape? hs.sound.toInterned
  exact ⟨ty, shape, hchecked, hspells, (h.synth_eq hs.sound.toInterned).trans hshape⟩

/-! ## Synthesized types of parts -/

namespace Expr

variable {symbolShape : SymbolId → Option Shape} {shape : Shape}

theorem synth_unary_eq_some {operator : String} {operand : Expr} {type : Option TypeId}
    (h : (unary operator operand type).synth symbolShape = some shape) :
    operator = "-" ∧ operand.synth symbolShape = some shape ∧ shape.struct? = none := by
  rw [synth] at h
  obtain ⟨inner, hinner, hrest⟩ := Option.bind_eq_some_iff.mp h
  split at hrest
  · rename_i hsign
    cases hrest
    exact ⟨hsign.1, hinner, hsign.2⟩
  · cases hrest

theorem synth_binary_eq_some {operator : String} {left right : Expr} {type : Option TypeId}
    (h : (binary operator left right type).synth symbolShape = some shape) :
    (OperatorClass.of? operator).isSome ∧ ∃ l r, left.synth symbolShape = some l ∧
      right.synth symbolShape = some r ∧ l.struct? = none ∧ r.struct? = none := by
  rw [synth] at h
  obtain ⟨operatorClass, hclass, h⟩ := Option.bind_eq_some_iff.mp h
  obtain ⟨l, hl, h⟩ := Option.bind_eq_some_iff.mp h
  obtain ⟨r, hr, h⟩ := Option.bind_eq_some_iff.mp h
  obtain ⟨joined, hjoined, -⟩ := Option.bind_eq_some_iff.mp h
  refine ⟨by rw [hclass]; rfl, l, r, hl, hr, ?_, ?_⟩
  · cases l <;> first | rfl | cases hjoined
  · cases r <;> first | rfl | (cases l <;> cases hjoined)

theorem synth_glue_eq_some {fields : GlueFields} {type : Option TypeId}
    (h : (glue fields type).synth symbolShape = some shape) :
    (synthFields symbolShape fields).isSome ∧ (fields.filterMap Prod.fst).Nodup := by
  rw [synth] at h
  obtain ⟨shapes, hshapes, hrest⟩ := Option.bind_eq_some_iff.mp h
  split at hrest
  · rename_i hdistinct
    exact ⟨by rw [hshapes]; rfl, hdistinct⟩
  · cases hrest

theorem synthFields_cons_isSome {name : Option String} {value : Expr} {rest : GlueFields}
    (h : (synthFields symbolShape ((name, value) :: rest)).isSome) :
    (value.synth symbolShape).isSome ∧ (synthFields symbolShape rest).isSome := by
  obtain ⟨shapes, hshapes⟩ := Option.isSome_iff_exists.mp h
  rw [synthFields] at hshapes
  obtain ⟨first, hfirst, hrest⟩ := Option.bind_eq_some_iff.mp hshapes
  obtain ⟨others, hothers, -⟩ := Option.bind_eq_some_iff.mp hrest
  exact ⟨by rw [hfirst]; rfl, by rw [hothers]; rfl⟩

theorem synth_dot_eq_some {base : Expr} {field : String} {position : Option Nat}
    {type : Option TypeId} (h : (dot base field position type).synth symbolShape = some shape) :
    ∃ fields names index, base.synth symbolShape = some (.struct fields names) ∧
      names.position? field = some index ∧ fields[index]? = some shape := by
  rw [synth] at h
  obtain ⟨inner, hinner, h⟩ := Option.bind_eq_some_iff.mp h
  obtain ⟨⟨fields, names⟩, hstruct, h⟩ := Option.bind_eq_some_iff.mp h
  obtain ⟨index, hindex, hfield⟩ := Option.bind_eq_some_iff.mp h
  cases inner <;> cases hstruct
  exact ⟨fields, names, index, hinner, hindex, hfield⟩

theorem synth_index_eq_some {base : Expr} {position : Nat} {type : Option TypeId}
    (h : (index base position type).synth symbolShape = some shape) :
    ∃ fields names, base.synth symbolShape = some (.struct fields names) ∧
      fields[position]? = some shape := by
  rw [synth] at h
  obtain ⟨inner, hinner, h⟩ := Option.bind_eq_some_iff.mp h
  obtain ⟨⟨fields, names⟩, hstruct, hfield⟩ := Option.bind_eq_some_iff.mp h
  cases inner <;> cases hstruct
  exact ⟨fields, names, hinner, hfield⟩

/-- What an expression with a synthesized type is made of has synthesized types too. -/
theorem isSome_synth_of_unary {operator : String} {operand : Expr} {type : Option TypeId}
    (h : ((unary operator operand type).synth symbolShape).isSome) :
    (operand.synth symbolShape).isSome := by
  obtain ⟨shape, hshape⟩ := Option.isSome_iff_exists.mp h
  exact Option.isSome_of_eq_some (synth_unary_eq_some hshape).2.1

theorem isSome_synth_of_binary {operator : String} {left right : Expr} {type : Option TypeId}
    (h : ((binary operator left right type).synth symbolShape).isSome) :
    (left.synth symbolShape).isSome ∧ (right.synth symbolShape).isSome := by
  obtain ⟨shape, hshape⟩ := Option.isSome_iff_exists.mp h
  obtain ⟨-, l, r, hl, hr, -⟩ := synth_binary_eq_some hshape
  exact ⟨Option.isSome_of_eq_some hl, Option.isSome_of_eq_some hr⟩

theorem isSome_synth_of_dot {base : Expr} {field : String} {position : Option Nat}
    {type : Option TypeId} (h : ((dot base field position type).synth symbolShape).isSome) :
    (base.synth symbolShape).isSome := by
  obtain ⟨shape, hshape⟩ := Option.isSome_iff_exists.mp h
  obtain ⟨fields, names, index, hbase, -⟩ := synth_dot_eq_some hshape
  exact Option.isSome_of_eq_some hbase

theorem isSome_synth_of_index {base : Expr} {position : Nat} {type : Option TypeId}
    (h : ((index base position type).synth symbolShape).isSome) :
    (base.synth symbolShape).isSome := by
  obtain ⟨shape, hshape⟩ := Option.isSome_iff_exists.mp h
  obtain ⟨fields, names, hbase, -⟩ := synth_index_eq_some hshape
  exact Option.isSome_of_eq_some hbase

end Expr

theorem Ty.Spells.ty_struct?_eq_none {denotes : TypeId → Shape → Prop} {ty : Ty} {shape : Shape}
    (h : ty.Spells denotes shape) (hstruct : shape.struct? = none) : ty.struct? = none := by
  cases h <;> first | rfl | cases hstruct

namespace Check

variable {s : Checking} {recheck : Expr → CheckM Expr} {value part : Expr}

/-! ## The promise -/

/-- What is known about a failure, of something with these labels: it is a refusal if the
labels have types, and a literal does not fit if synthesis is `defined`. -/
def Rejects (symbols : SymbolTable) (labels : List Label) (defined : Prop) (failure : Failure) :
    Prop :=
  (symbols.Types labels → ∃ diagnostic, failure = .refused diagnostic) ∧
    (defined → IsOutOfRange failure)

theorem Rejects.of_part {symbols : SymbolTable} {labels whole : List Label}
    {defined definedWhole : Prop} {failure : Failure} (h : Rejects symbols labels defined failure)
    (hlabels : labels ⊆ whole) (hdefined : definedWhole → defined) :
    Rejects symbols whole definedWhole failure := by
  refine ⟨fun htypes => h.1 fun label hlabel => htypes label (hlabels hlabel), fun hwhole => ?_⟩
  exact h.2 (hdefined hwhole)

/-- The stage yields what the expression elaborates to, or rejects it. -/
def Infers (stage : CheckM Expr) (s : Checking) (value : Expr) : Prop :=
  ChecksOr
    (Rejects s.symbols value.labels (value.synth (s.symbols.shape? s.types)).isSome) stage s
    fun checked final => Elaborates final.types final.symbols value checked

theorem Infers.of_bind {α : Type} {stage : CheckM α} {next : α → CheckM Expr} {found : α}
    (h : stage s = .ok found s) (hnext : Infers (next found) s value) :
    Infers (stage >>= next) s value :=
  Ends.of_bind h hnext

/-- A part is checked first.  Whatever rejects it rejects the whole. -/
theorem Infers.bind {stage : CheckM Expr} {next : Expr → CheckM Expr} (hs : s.Sound)
    (h : Infers stage s part) (hlabels : part.labels ⊆ value.labels)
    (hsynth : ∀ symbolShape : SymbolId → Option Shape,
      (value.synth symbolShape).isSome → (part.synth symbolShape).isSome)
    (hnext : ∀ checked middle, s.Reaches middle →
      Elaborates middle.types middle.symbols part checked → Infers (next checked) middle value) :
    Infers (stage >>= next) s value := by
  refine ChecksOr.bind (Ends.weaken h (fun _ _ h => h) ?_) ?_
  · intro failure _ hrejects
    exact hrejects.of_part hlabels (hsynth _)
  · intro checked middle hreaches hchecked
    have hinfers := hnext checked middle hreaches hchecked
    unfold Infers at hinfers
    rwa [hreaches.shape?_eq hs, hreaches.symbols] at hinfers

/-- A node whose parts have been checked. -/
theorem Checks.infers {stage : CheckM Expr}
    (h : Checks stage s fun checked final => Elaborates final.types final.symbols value checked)
    (hfails : ∀ shape, value.synth (s.symbols.shape? s.types) = some shape →
      FailsOnly stage s IsOutOfRange) : Infers stage s value := by
  refine Ends.and_failsOnly h fun failure final hrun => ⟨fun _ => ?_, fun hdefined => ?_⟩
  · obtain ⟨diagnostic, rfl, -⟩ := h.failed_of_error hrun
    exact ⟨diagnostic, rfl⟩
  · obtain ⟨shape, hshape⟩ := Option.isSome_iff_exists.mp hdefined
    exact hfails shape hshape failure final hrun

theorem Infers.of_error {stage : CheckM Expr} {failure : Failure} {final : Checking}
    (hrun : stage s = .error failure final)
    (h : Rejects s.symbols value.labels (value.synth (s.symbols.shape? s.types)).isSome failure) :
    Infers stage s value := by
  unfold Infers ChecksOr
  exact Ends.of_error hrun h

/-- What has no synthesized type may be refused for any reason. -/
theorem infers_refuse {diagnostic : Diagnostic}
    (h : value.synth (s.symbols.shape? s.types) = none) : Infers (refuse diagnostic) s value := by
  refine .of_error (run_refuse diagnostic s) ⟨fun _ => ⟨diagnostic, rfl⟩, fun hdefined => ?_⟩
  rw [h] at hdefined
  cases hdefined

/-! ## Nodes -/

/-- A sign on something that is no struct. -/
theorem failsOnly_signOperand {operator : String} {failed : Failure → Prop} {ty : Ty}
    (hvalue : s.types.Checked value ty) (hstruct : ty.struct? = none) :
    FailsOnly (signOperand (convertWith recheck) operator value none) s failed := by
  obtain ⟨id, hid, hty, -⟩ := hvalue
  rw [signOperand]
  refine .of_bind (run_typeOf hid) (.of_bind (run_refuseStruct hty hstruct) ?_)
  refine .of_bind (run_isFlexible hty) (.of_bind (run_materialize hid) ?_)
  exact failsOnly_of_ok (run_pure _ _)

theorem infers_signOperand {operand checked : Expr} (hs : s.Sound)
    (h : Elaborates s.types s.symbols operand checked) :
    Infers (signOperand (convertWith recheck) "-" checked none) s (.unary "-" operand none) := by
  refine (checks_signOperand hs h).infers fun shape hshape => ?_
  obtain ⟨-, hoperand, hstruct⟩ := Expr.synth_unary_eq_some hshape
  obtain ⟨ty, shape', hchecked, hspells, hsynth⟩ := h.exists_spells hs
  cases hoperand.symm.trans hsynth
  exact failsOnly_signOperand hchecked (hspells.ty_struct?_eq_none hstruct)

theorem infers_operands {operator : String} {operatorClass : OperatorClass} {left right l r : Expr}
    (hs : s.Sound) (hclass : OperatorClass.of? operator = some operatorClass)
    (hl : Elaborates s.types s.symbols left l) (hr : Elaborates s.types s.symbols right r)
    (hrecheck : CanRecheck recheck (max l.nesting r.nesting + 1)) :
    Infers (operands (convertWith recheck) operator operatorClass l r none) s
      (.binary operator left right none) := by
  refine (checks_operands hs hclass hl hr hrecheck).infers fun shape hshape => ?_
  obtain ⟨-, leftShape, rightShape, hleft, hright, hlstruct, hrstruct⟩ :=
    Expr.synth_binary_eq_some hshape
  obtain ⟨leftTy, _, hlchecked, hlspells, hlsynth⟩ := hl.exists_spells hs
  obtain ⟨rightTy, _, hrchecked, hrspells, hrsynth⟩ := hr.exists_spells hs
  cases hleft.symm.trans hlsynth
  cases hright.symm.trans hrsynth
  exact failsOnly_operands hs hlchecked hrchecked (hlspells.ty_struct?_eq_none hlstruct)
    (hrspells.ty_struct?_eq_none hrstruct) hrecheck

/-- The struct of which a field is taken. -/
theorem run_structOf {id : TypeId} {struct : StructTy}
    (h : s.types.get? id = some (.struct struct)) : structOf id s = .ok struct s := by
  rw [structOf, run_bind_ok (run_typeAt h)]
  rfl

theorem infers_namedField {base : Expr} (hs : s.Sound)
    (h : Elaborates s.types s.symbols base value) (field : String) :
    Infers (namedField value field) s (.dot base field none none) := by
  refine (checks_namedField hs h field).infers fun shape hshape => ?_
  obtain ⟨fields, names, position, hbase, hposition, -⟩ := Expr.synth_dot_eq_some hshape
  obtain ⟨ty, _, ⟨id, hid, hty, -⟩, hspells, hsynth⟩ := h.exists_spells hs
  cases hbase.symm.trans hsynth
  cases hspells with
  | @struct ids _ _ hfields =>
      have hlt : position < ids.length := (hs.sound.admits hty).2 field position hposition
      rw [namedField]
      refine .of_bind (run_typeOf hid) (.of_bind (run_structOf hty) ?_)
      dsimp only
      rw [hposition]
      dsimp only
      rw [List.getElem?_eq_getElem hlt]
      exact failsOnly_of_ok (run_bind_ok (run_orFault_some _ _ _) _)

theorem infers_positionedField {base : Expr} (hs : s.Sound)
    (h : Elaborates s.types s.symbols base value) (position : Nat) :
    Infers (positionedField value position) s (.index base position none) := by
  refine (checks_positionedField hs h position).infers fun shape hshape => ?_
  obtain ⟨fields, names, hbase, hfield⟩ := Expr.synth_index_eq_some hshape
  obtain ⟨ty, _, ⟨id, hid, hty, -⟩, hspells, hsynth⟩ := h.exists_spells hs
  cases hbase.symm.trans hsynth
  cases hspells with
  | @struct ids _ _ hfields =>
      -- the struct has as many fields as its shape
      have hlt : position < ids.length := by
        rw [hfields.length_eq]
        exact (List.getElem?_eq_some_iff.mp hfield).1
      rw [positionedField]
      refine .of_bind (run_typeOf hid) (.of_bind (run_structOf hty) ?_)
      dsimp only
      rw [List.getElem?_eq_getElem hlt]
      exact failsOnly_of_ok (run_pure _ _)

/-- A variable without a type is neither typed nor does it have a synthesized type. -/
theorem rejects_var {name : String} {symbol : SymbolId} (h : s.symbols.type? symbol = none)
    (failure : Failure) :
    Rejects s.symbols (Expr.var name (some symbol) none).labels
      ((Expr.var name (some symbol) none).synth (s.symbols.shape? s.types)).isSome failure := by
  refine ⟨fun htypes => ?_, fun hdefined => ?_⟩
  · obtain ⟨id, type, hid, htype⟩ := htypes (name, some symbol) (List.mem_singleton.mpr rfl)
    cases hid
    cases h.symm.trans htype
  · have hnone : (Expr.var name (some symbol) none).synth (s.symbols.shape? s.types) = none := by
      change s.symbols.shape? s.types symbol = none
      rw [SymbolTable.shape?, h, Option.bind_none]
    rw [hnone] at hdefined
    cases hdefined

theorem infers_var {name : String} (hs : s.Sound) (symbol : Option SymbolId) :
    Infers (tree recheck (.var name symbol none)) s (.var name symbol none) := by
  cases symbol with
  | none =>
      rw [tree, demandOf_none_bind]
      exact infers_refuse rfl
  | some symbol =>
      cases htype : s.symbols.type? symbol with
      | some type =>
          refine (checks_var hs htype recheck name).infers fun _ _ => ?_
          rw [tree, demandOf_none_bind]
          refine .of_bind (run_orRefuse_some _ _ s) (.of_bind (run_symbolType? htype) ?_)
          exact failsOnly_of_ok (run_bind_ok (run_orRefuse_some _ _ s) _)
      | none =>
          rw [tree, demandOf_none_bind]
          refine .of_bind (run_orRefuse_some _ _ s) ?_
          cases hknown : s.symbols.get? symbol with
          | none =>
              have hrun : symbolType? symbol s = .error (.broken .unknownSymbol) s := by
                rw [symbolType?, run_bind_ok (run_get s), hknown]
                rfl
              exact .of_error (run_bind_error hrun _) (rejects_var htype _)
          | some known =>
              have hrun : symbolType? symbol s = .ok none s := by
                rw [SymbolTable.type?, hknown, Option.bind_some] at htype
                rw [symbolType?, run_bind_ok (run_get s), hknown, ← htype]
                rfl
              refine .of_bind hrun ?_
              exact .of_error (run_bind_error (run_orRefuse_none _ s) _) (rejects_var htype _)

/-! ## Struct literals -/

theorem Rejects.of_isOutOfRange {symbols : SymbolTable} {labels : List Label} {defined : Prop}
    {failure : Failure} (h : IsOutOfRange failure) : Rejects symbols labels defined failure := by
  refine ⟨fun _ => ?_, fun _ => h⟩
  obtain ⟨text, type, rfl⟩ := h
  exact ⟨_, rfl⟩

/-- A new name is added, and the names after it are still new. -/
theorem exists_run_addName {names : FieldNames} {name : Option String} {rest : GlueFields}
    (h : NewNames names ((name, value) :: rest)) (position : Nat) :
    ∃ names', addName names position name s = .ok names' s ∧ NewNames names' rest := by
  cases name with
  | none => exact ⟨names, rfl, h⟩
  | some name =>
      obtain ⟨hname, hrest⟩ := h.of_cons position
      refine ⟨names.insert name position, ?_, hrest⟩
      rw [addName, if_neg (by rw [hname]; decide)]
      rfl

/-- The fields of a struct literal, if each of them is inferred. -/
theorem failsOnly_glueFields {fields : GlueFields}
    (hfields : ∀ field ∈ fields, ∀ middle : Checking, s.Reaches middle →
      Infers (tree recheck field.2) middle field.2)
    (hrecheck : CanRecheck recheck (Expr.fieldsNesting fields + 1)) (position : Nat)
    (names : FieldNames) (hs : s.Sound) :
    FailsOnly (glueFields recheck position names fields) s
      (Rejects s.symbols (Expr.fieldLabels fields)
        ((Expr.synthFields (s.symbols.shape? s.types) fields).isSome ∧
          NewNames names fields)) := by
  induction fields generalizing s position names with
  | nil => exact failsOnly_of_ok (run_pure _ _)
  | cons field rest ih =>
      obtain ⟨name, value⟩ := field
      rw [Expr.fieldsNesting] at hrecheck
      obtain ⟨hfirst, hrest⟩ := List.forall_mem_cons.mp hfields
      rw [glueFields]
      -- the name
      have hname := checks_addName hs names position name
      refine FailsOnly.bind ?_ ?_
      · intro failure final hrun
        refine ⟨fun _ => ?_, fun hdefined => ?_⟩
        · obtain ⟨diagnostic, rfl, -⟩ := hname.failed_of_error hrun
          exact ⟨diagnostic, rfl⟩
        · obtain ⟨names', hok, -⟩ := exists_run_addName hdefined.2 position
          cases hok.symm.trans hrun
      intro names' _ hrun
      obtain ⟨-, rfl, -⟩ := hname.post_of_ok hrun
      have hnew : NewNames names ((name, value) :: rest) → NewNames names' rest := by
        intro hnew
        obtain ⟨names'', hok, hnew'⟩ := exists_run_addName hnew position
        cases hok.symm.trans hrun
        exact hnew'
      -- the value
      have hinfers := hfirst _ hs.reaches
      refine FailsOnly.bind (Ends.failsOnly hinfers fun failure _ hrejects => ?_) ?_
      · refine hrejects.of_part (List.subset_append_left _ _) fun hdefined => ?_
        exact (Expr.synthFields_cons_isSome hdefined.1).1
      intro checked middle hrunValue
      obtain ⟨hreaches, hchecked⟩ := hinfers.post_of_ok hrunValue
      have hchecking : CanRecheck recheck (checked.nesting + 1) := by
        rw [hchecked.nesting]
        exact hrecheck.mono (Nat.succ_le_succ (Nat.le_max_left _ _))
      obtain ⟨ty, hty⟩ := hchecked.exists_checked hreaches.sound
      refine ((failsOnly_fieldValue hreaches.sound hty hchecking).weaken
        fun _ => .of_isOutOfRange).bind ?_
      intro final later hrunField
      obtain ⟨hreaches', _, _, -, -, hfinal⟩ :=
        (checks_fieldValue hreaches.sound hchecked hchecking).post_of_ok hrunField
      refine .of_bind (run_typeOf hfinal.type?) ?_
      -- the other fields
      have hpath := hreaches.trans hreaches'
      have hothers := ih (fun field hfield state hstate => hrest field hfield state
        (hpath.trans hstate)) (hrecheck.mono (by omega)) (position + 1) names' hpath.sound
      rw [hpath.shape?_eq hs, hpath.symbols] at hothers
      refine (hothers.weaken fun failure hrejects => ?_).bind fun _ _ _ => ?_
      · refine hrejects.of_part (List.subset_append_right _ _) fun hdefined => ?_
        exact ⟨(Expr.synthFields_cons_isSome hdefined.1).2, hnew hdefined.2⟩
      · exact failsOnly_of_ok (run_pure _ _)

theorem infers_glue {fields : GlueFields}
    (hfields : ∀ field ∈ fields, ∀ middle : Checking, s.Reaches middle →
      Infers (tree recheck field.2) middle field.2)
    (hrecheck : CanRecheck recheck (Expr.fieldsNesting fields + 1)) (hs : s.Sound) :
    Infers (tree recheck (.glue fields none)) s (.glue fields none) := by
  have hglue : ChecksOr (fun _ => True) (tree recheck (.glue fields none)) s
      fun checked final => Elaborates final.types final.symbols (.glue fields none) checked := by
    refine checksOr_glue (fun _ _ => trivial) (fun field hfield middle hreaches => ?_) hrecheck hs
    exact Ends.weaken (hfields field hfield middle hreaches) (fun _ _ h => h) fun _ _ _ => trivial
  refine Ends.and_failsOnly hglue ?_
  rw [tree, demandOf_none_bind]
  refine FailsOnly.bind ?_ fun _ _ _ => ?_
  · refine (failsOnly_glueFields hfields hrecheck 0 .empty hs).weaken fun failure hrejects => ?_
    refine hrejects.of_part (List.Subset.refl _) fun hdefined => ?_
    obtain ⟨shape, hshape⟩ := Option.isSome_iff_exists.mp hdefined
    obtain ⟨hsynth, hdistinct⟩ := Expr.synth_glue_eq_some hshape
    exact ⟨hsynth, hdistinct, fun _ _ => rfl⟩
  · exact failsOnly_of_ok (run_bind_ok (run_modifyGet _ _) _)

/-! ## Expressions -/

/-- Nothing is asked of a literal before it has a width. -/
theorem failsOnly_flexibleLiteral {failed : Failure → Prop} (hs : s.Sound) (number : Nat)
    (negated : Bool) (next : TypeId → Expr) :
    FailsOnly (do
      let type ← orFlexible none
      fits number type negated
      return next type) s failed := by
  refine FailsOnly.bind (failsOnly_of_ok (run_modifyGet _ _)) fun id middle hrun => ?_
  obtain ⟨-, hid⟩ := (checks_orFlexible hs).post_of_ok hrun
  exact failsOnly_of_ok (run_bind_ok (run_fits_flexible hid number negated) _)

/-- A sign in front of an operand that is inferred. -/
theorem infers_sign {operand : Expr} (hoperand : operand.Bare) (hs : s.Sound)
    (h : ∀ {s : Checking}, s.Sound → Infers (tree recheck operand) s operand) :
    Infers (tree recheck (.unary "-" operand none)) s (.unary "-" operand none) := by
  -- a literal right under a sign has a rule of its own
  cases operand with
  | literal number own =>
      cases hoperand
      rw [tree_negatedLiteral, demandOf_none_bind]
      have hliteral : Infers (negatedLiteral number none none) s (.literal number none) :=
        (checks_negatedLiteral hs number).infers fun _ _ =>
          failsOnly_flexibleLiteral hs number true fun type => .literal number (some type)
      refine hliteral.bind hs (List.Subset.refl _) (fun _ => Expr.isSome_synth_of_unary) ?_
      exact fun checked middle hreaches hchecked => infers_signOperand hreaches.sound hchecked
  | _ =>
      rw [tree_sign recheck (by simp), demandOf_none_bind]
      refine (h hs).bind hs (List.Subset.refl _) (fun _ => Expr.isSome_synth_of_unary) ?_
      exact fun checked middle hreaches hchecked => infers_signOperand hreaches.sound hchecked

/-- **Inference.**  Checking a bare expression yields what it elaborates to, or rejects
it. -/
theorem infers_tree (hbare : value.Bare) (hs : s.Sound)
    (hrecheck : CanRecheck recheck value.nesting) : Infers (tree recheck value) s value := by
  induction hbare generalizing s with
  | @literal number _ =>
      rw [tree, demandOf_none_bind]
      refine (checks_literal hs number).infers fun _ _ => ?_
      exact failsOnly_flexibleLiteral hs number false fun type => .literal number (some type)
  | @var name symbol => exact infers_var hs symbol
  | read =>
      refine (checks_read hs recheck).infers fun _ _ => ?_
      rw [tree, demandOf_none_bind]
      refine FailsOnly.bind (failsOnly_of_ok (run_modifyGet _ _)) fun id middle hrun => ?_
      obtain ⟨-, hid⟩ := (checks_orFlexible hs).post_of_ok hrun
      exact failsOnly_of_ok (run_bind_ok (run_typeAt hid) _)
  | @unary operator operand hoperand ih =>
      rw [Expr.nesting] at hrecheck
      by_cases hsign : operator = "-"
      · subst hsign
        exact infers_sign hoperand hs (ih · (hrecheck.mono (Nat.le_succ _)))
      · have hrun : tree recheck (.unary operator operand none) s =
            .error (.refused (.unknownOperator operator)) s := by
          rw [tree, demandOf_none_bind, if_neg hsign]
          rfl
        refine .of_error hrun ⟨fun _ => ⟨_, rfl⟩, fun hdefined => ?_⟩
        obtain ⟨shape, hshape⟩ := Option.isSome_iff_exists.mp hdefined
        exact absurd (Expr.synth_unary_eq_some hshape).1 hsign
  | @binary operator left right _ _ ihleft ihright =>
      rw [Expr.nesting] at hrecheck
      rw [tree, demandOf_none_bind]
      cases hclass : OperatorClass.of? operator with
      | none =>
          refine .of_error (run_bind_error (run_orRefuse_none _ s) _)
            ⟨fun _ => ⟨_, rfl⟩, fun hdefined => ?_⟩
          obtain ⟨shape, hshape⟩ := Option.isSome_iff_exists.mp hdefined
          have hsome := (Expr.synth_binary_eq_some hshape).1
          rw [hclass] at hsome
          cases hsome
      | some operatorClass =>
          refine .of_bind (run_orRefuse_some _ _ s) ?_
          refine (ihleft hs (hrecheck.mono (by omega))).bind hs (List.subset_append_left _ _)
            (fun _ hdefined => (Expr.isSome_synth_of_binary hdefined).1) ?_
          intro l middle hreaches hl
          refine (ihright hreaches.sound (hrecheck.mono (by omega))).bind hreaches.sound
            (List.subset_append_right _ _)
            (fun _ hdefined => (Expr.isSome_synth_of_binary hdefined).2) ?_
          intro r final hreaches' hr
          refine infers_operands hreaches'.sound hclass (hl.reach hreaches') hr ?_
          rwa [hl.nesting, hr.nesting]
  | @glue fields _ ih =>
      rw [Expr.nesting] at hrecheck
      refine infers_glue (fun field hfield middle hreaches => ?_) hrecheck hs
      refine ih field hfield hreaches.sound (hrecheck.mono ?_)
      exact Nat.le_succ_of_le (Expr.nesting_le_fieldsNesting hfield)
  | @dot base field _ ih =>
      rw [Expr.nesting] at hrecheck
      rw [tree, demandOf_none_bind]
      refine (ih hs hrecheck).bind hs (List.Subset.refl _) (fun _ => Expr.isSome_synth_of_dot) ?_
      exact fun checked middle hreaches hchecked => infers_namedField hreaches.sound hchecked field
  | @index base position _ ih =>
      rw [Expr.nesting] at hrecheck
      rw [tree, demandOf_none_bind]
      refine (ih hs hrecheck).bind hs (List.Subset.refl _) (fun _ => Expr.isSome_synth_of_index) ?_
      exact fun checked middle hreaches hchecked =>
        infers_positionedField hreaches.sound hchecked position

/-! ## Levels -/

/-- Checking again where `depth` levels of it are left. -/
def recheckAt : Nat → Expr → CheckM Expr
  | 0, _ => fault .recursionDepth
  | depth + 1, value => within depth value

theorem within_eq_tree (depth : Nat) (value : Expr) :
    within depth value = tree (recheckAt depth) value := by
  cases depth <;> rfl

theorem canRecheck_recheckAt {depth less : Nat} (h : less ≤ depth) :
    CanRecheck (recheckAt depth) less := by
  cases depth with
  | zero => exact fun _ _ _ hless => absurd (Nat.lt_of_lt_of_le hless h) (Nat.not_lt_zero _)
  | succ depth => exact CanRecheck.mono (canRecheck_within depth) h

theorem infers_expr (hbare : value.Bare) (hs : s.Sound) : Infers (expr value) s value := by
  rw [expr, within_eq_tree]
  exact infers_tree hbare hs (canRecheck_recheckAt (Nat.le_refl _))

end Check

end FlexWidth
