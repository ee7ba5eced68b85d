import FlexWidth.Proofs.Tree.Erasure
import FlexWidth.Proofs.Types.Shapes
import FlexWidth.Proofs.Typing.Elaboration

/-!
# Synthesized types

The type of a plain expression is a function of the expression and of the types of its
symbols, computed from the leaves up (`Expr.synth`).  No universe, no demand and no
conversion occurs in it.

Checking finds this type (`Elaborates.synth_eq`): whatever an expression elaborates to
has the synthesized type, and what is erased from it is all that was added
(`Elaborates.erase_eq`).  A value that is converted to some type therefore has a
synthesized type which that type takes (`ElaboratesTo.exists_synth`).
-/

namespace FlexWidth

namespace Shape

/-- The shape itself, or the default integer if it is flexible. -/
def settled : Shape → Shape
  | flexible => int Ascription.defaultWidth
  | shape => shape

/-- The shape in which the operands of an operator meet; a struct meets nothing. -/
def join : Shape → Shape → Option Shape
  | flexible, flexible => some flexible
  | bool, bool => some bool
  | bool, flexible | flexible, bool => some (int Ascription.defaultWidth)
  | int width, int width' => some (int (max width width'))
  | int width, bool | int width, flexible | bool, int width | flexible, int width =>
    some (int width)
  | struct .., _ | _, struct .. => none

/-- A value of the other shape can be stored as a value of this one: it has this shape
already, or this is an integer and the other is a truth value, flexible, or an integer
that is not wider. -/
def Takes (shape other : Shape) : Prop :=
  other = shape ∨ ∃ width, shape = int width ∧
    (other = bool ∨ other = flexible ∨ ∃ narrow ≤ width, other = int narrow)

end Shape

/-- The written type spelled out. -/
def Ascription.shape : Ascription → Shape
  | .int width => .int width
  | .bool => .bool

namespace Expr

mutual

/-- The type of a plain expression, given those of the symbols. -/
def synth (symbolShape : SymbolId → Option Shape) : Expr → Option Shape
  | literal _ _ | read _ => some .flexible
  | var _ symbol _ => symbol.bind symbolShape
  | unary operator operand _ => do
    let shape ← operand.synth symbolShape
    if operator = "-" ∧ shape.struct? = none then some shape else none
  | binary operator left right _ => do
    let operatorClass ← OperatorClass.of? operator
    let joined ← Shape.join (← left.synth symbolShape) (← right.synth symbolShape)
    match operatorClass with
    | .arithmetic => some joined
    | .relational => some .bool
  | conversion _ _ | load _ _ => none
  | glue fields _ => do
    let shapes ← synthFields symbolShape fields
    if (fields.filterMap Prod.fst).Nodup then some (.struct shapes (glueNames 0 .empty fields))
    else none
  | dot base field _ _ => do
    let (fields, names) ← (← base.synth symbolShape).struct?
    fields[← names.position? field]?
  | index base position _ => do
    let (fields, _) ← (← base.synth symbolShape).struct?
    fields[position]?

/-- The types of the fields of a struct literal, where none is flexible. -/
def synthFields (symbolShape : SymbolId → Option Shape) : GlueFields → Option (List Shape)
  | [] => some []
  | (_, value) :: rest => do
    let shape ← value.synth symbolShape
    let shapes ← synthFields symbolShape rest
    some (shape.settled :: shapes)

end

/-- The type of a checked expression, spelled out. -/
def shape? (types : Universe) (value : Expr) : Option Shape := value.type?.bind types.shape?

end Expr

/-- The type of a symbol, spelled out. -/
def SymbolTable.shape? (symbols : SymbolTable) (types : Universe) (id : SymbolId) : Option Shape :=
  (symbols.type? id).bind types.shape?

/-! ## Types and what spells them out -/

section Spelling

variable {denotes : TypeId → Shape → Prop} {ty leftTy rightTy : Ty} {shape left right : Shape}

theorem Ty.Spells.settled (h : ty.Spells denotes shape) :
    ty.settled.Spells denotes shape.settled := by
  cases h with
  | int width => exact .int width
  | bool => exact .bool
  | flexible => exact .int _
  | struct names hfields => exact .struct names hfields

theorem Ty.Spells.struct?_eq_none (h : ty.Spells denotes shape) (hstruct : ty.struct? = none) :
    shape.struct? = none := by
  cases h <;> first | rfl | cases hstruct

/-- Operands that are not structs meet in the same type, spelled out or not. -/
theorem Ty.Spells.exists_join (hleft : leftTy.Spells denotes left)
    (hright : rightTy.Spells denotes right) (hlstruct : leftTy.struct? = none)
    (hrstruct : rightTy.struct? = none) :
    ∃ joined, left.join right = some joined ∧ (leftTy.join rightTy).Spells denotes joined := by
  cases hleft with
  | struct => cases hlstruct
  | int width =>
      cases hright with
      | struct => cases hrstruct
      | int width' =>
          refine ⟨_, rfl, ?_⟩
          unfold Ty.join
          split
          · rename_i heq
            cases heq
            rw [Nat.max_self]
            exact .int width
          · exact .int _
      | bool => exact ⟨_, rfl, .int width⟩
      | flexible => exact ⟨_, rfl, .int width⟩
  | bool =>
      cases hright with
      | struct => cases hrstruct
      | int width => exact ⟨_, rfl, .int width⟩
      | bool => exact ⟨_, rfl, .bool⟩
      | flexible => exact ⟨_, rfl, .int _⟩
  | flexible =>
      cases hright with
      | struct => cases hrstruct
      | int width => exact ⟨_, rfl, .int width⟩
      | bool => exact ⟨_, rfl, .int _⟩
      | flexible => exact ⟨_, rfl, .flexible⟩

theorem Ascription.spells_shape (written : Ascription) :
    written.ty.Spells denotes written.shape := by
  cases written with
  | int width => exact .int width
  | bool => exact .bool

end Spelling

section Synthesis

variable {types : Universe} {symbols : SymbolTable} {source value final : Expr} {target : TypeId}
  {ty : Ty}

theorem Universe.Interned.exists_spells (h : types.Interned) (hty : types.get? target = some ty) :
    ∃ shape, types.shape? target = some shape ∧ ty.Spells types.Denotes shape := by
  obtain ⟨shape, hshape⟩ := h.exists_denotes ⟨ty, hty⟩
  obtain ⟨ty', hty', hspells⟩ := h.denotes_iff.mp hshape
  cases hty.symm.trans hty'
  exact ⟨shape, hshape, hspells⟩

theorem Universe.HasTy.exists_shape? (h : types.HasTy value ty) (hinterned : types.Interned) :
    ∃ shape, value.shape? types = some shape ∧ ty.Spells types.Denotes shape := by
  obtain ⟨id, hid, hty⟩ := h
  rw [Expr.shape?, hid, Option.bind_some]
  exact hinterned.exists_spells hty

/-- The fields of a struct are spelled out in their positions. -/
theorem Ty.Spells.exists_field {struct : StructTy} {shape : Shape} {position : Nat}
    (h : (Ty.struct struct).Spells types.Denotes shape)
    (hid : struct.fields[position]? = some target) :
    ∃ shapes, shape = .struct shapes struct.names ∧ shapes[position]? = types.shape? target := by
  cases h with
  | @struct _ shapes names hfields =>
      have hfield := rel_getElem?_of_forall₂ hfields position
      rw [hid] at hfield
      refine ⟨shapes, rfl, ?_⟩
      cases hfound : shapes[position]? with
      | none =>
          rw [hfound] at hfield
          cases hfield
      | some found =>
          rw [hfound] at hfield
          cases hfield with
          | some hdenotes => exact hdenotes.symm

theorem Universe.Interned.shape?_eq (h : types.Interned) {shape : Shape}
    (hty : types.get? target = some ty) (hspells : ty.Spells types.Denotes shape) :
    types.shape? target = some shape :=
  h.denotes_iff.mpr ⟨ty, hty, hspells⟩

/-! ## What is added to an expression -/

theorem Expr.erase_loaded (value : Expr) : value.loaded.erase = value.erase := by
  unfold loaded
  split
  · rw [erase]
  · rfl

theorem Expr.IsFlexible.erase_retype {flex : TypeId} (h : value.IsFlexible flex)
    (target : TypeId) : (value.retype target).erase = value.erase := by
  induction h with
  | literal => rfl
  | read => rfl
  | sign _ ih => rw [retype, erase, erase, ih]
  | binary _ _ _ ihleft ihright => rw [retype, erase, erase, ihleft, ihright]

theorem Converts.erase_eq (h : Converts types value target final) : final.erase = value.erase := by
  cases h with
  | same => exact value.erase_loaded
  | widen => rw [Expr.erase, Expr.erase_loaded]
  | retype _ hvalue => exact hvalue.erase_retype target

mutual

/-- What is erased from a checked expression is all that checking has added. -/
theorem Elaborates.erase_eq {source value : Expr} (h : Elaborates types symbols source value) :
    value.erase = source := by
  match h with
  | .literal _ => rfl
  | .var _ => rfl
  | .read _ => rfl
  | .sign hoperand _ _ _ => rw [Expr.erase, Expr.erase_loaded, hoperand.erase_eq]
  | .flexible _ hleft hright _ _ _ => rw [Expr.erase, hleft.erase_eq, hright.erase_eq]
  | .arithmetic _ hleft hright _ _ _ _ _ _ hl hr =>
      rw [Expr.erase, hl.erase_eq, hr.erase_eq, hleft.erase_eq, hright.erase_eq]
  | .relational _ hleft hright _ _ _ _ _ hl hr _ =>
      rw [Expr.erase, hl.erase_eq, hr.erase_eq, hleft.erase_eq, hright.erase_eq]
  | .glue hfields _ _ _ _ => rw [Expr.erase, hfields.erase_eq]
  | .dot hbase _ _ _ => rw [Expr.erase, hbase.erase_eq]
  | .index hbase _ _ => rw [Expr.erase, hbase.erase_eq]

theorem ElaboratesFields.erase_eq {fields checked : GlueFields}
    (h : ElaboratesFields types symbols fields checked) : Expr.eraseFields checked = fields := by
  match h with
  | .nil => rfl
  | .cons hvalue _ _ hfinal hrest =>
      rw [Expr.eraseFields, hfinal.erase_eq, hvalue.erase_eq, hrest.erase_eq]

end

theorem ElaboratesTo.erase_eq (h : ElaboratesTo types symbols target source final) :
    final.erase = source := by
  obtain ⟨checked, hchecked, hfinal⟩ := h
  rw [hfinal.erase_eq, hchecked.erase_eq]

/-! ## The type of a checked expression -/

mutual

/-- **Checking finds the synthesized type.** -/
theorem Elaborates.synth_eq {source value : Expr} (hinterned : types.Interned)
    (h : Elaborates types symbols source value) :
    source.synth (symbols.shape? types) = value.shape? types := by
  match h with
  | .literal hid => exact (hinterned.shape?_eq hid .flexible).symm
  | .var hid =>
      change symbols.shape? types _ = types.shape? _
      rw [SymbolTable.shape?, hid, Option.bind_some]
  | .read hid => exact (hinterned.shape?_eq hid .flexible).symm
  | .sign hoperand hid hty hstruct =>
      obtain ⟨shape, hshape, hspells⟩ := hinterned.exists_spells hty
      have hsynth := hoperand.synth_eq hinterned
      rw [Expr.shape?, hid, Option.bind_some, hshape] at hsynth
      rw [Expr.synth, hsynth]
      simp [Expr.shape?, Expr.type?, hshape, hspells.struct?_eq_none hstruct]
  | .flexible hclass hleft hright hid hl hr =>
      have hflexible := hinterned.shape?_eq hid .flexible
      have hlsynth := hleft.synth_eq hinterned
      have hrsynth := hright.synth_eq hinterned
      rw [Expr.shape?, hl, Option.bind_some, hflexible] at hlsynth
      rw [Expr.shape?, hr, Option.bind_some, hflexible] at hrsynth
      rw [Expr.synth, hclass, hlsynth, hrsynth]
      exact hflexible.symm
  | .arithmetic hclass hleft hright hl hr hlstruct hrstruct _ htarget _ _ =>
      obtain ⟨left, hlshape, hlspells⟩ := hl.exists_shape? hinterned
      obtain ⟨right, hrshape, hrspells⟩ := hr.exists_shape? hinterned
      obtain ⟨joined, hjoined, hspells⟩ := hlspells.exists_join hrspells hlstruct hrstruct
      rw [Expr.synth, hclass, hleft.synth_eq hinterned, hright.synth_eq hinterned, hlshape, hrshape]
      change (left.join right).bind _ = _
      rw [hjoined]
      exact (hinterned.shape?_eq htarget hspells).symm
  | .relational hclass hleft hright hl hr hlstruct hrstruct _ _ _ hid =>
      obtain ⟨left, hlshape, hlspells⟩ := hl.exists_shape? hinterned
      obtain ⟨right, hrshape, hrspells⟩ := hr.exists_shape? hinterned
      obtain ⟨joined, hjoined, -⟩ := hlspells.exists_join hrspells hlstruct hrstruct
      rw [Expr.synth, hclass, hleft.synth_eq hinterned, hright.synth_eq hinterned, hlshape, hrshape]
      change (left.join right).bind _ = _
      rw [hjoined]
      exact (hinterned.shape?_eq hid .bool).symm
  | .glue hfields hdistinct hid htypes hnames =>
      obtain ⟨shapes, hshapes, hspells⟩ := hfields.exists_synthFields hinterned htypes
      rw [Expr.synth, hshapes]
      change (if _ then _ else _) = types.shape? _
      rw [if_pos hdistinct, ← hnames]
      exact (hinterned.shape?_eq hid (.struct _ hspells)).symm
  | .dot hbase hty hposition hid =>
      obtain ⟨shape, hshape, hspells⟩ := hty.exists_shape? hinterned
      obtain ⟨shapes, rfl, hfield⟩ := hspells.exists_field hid
      rw [Expr.synth, hbase.synth_eq hinterned, hshape]
      change (FieldNames.position? _ _).bind _ = types.shape? _
      rw [hposition]
      exact hfield
  | .index hbase hty hid =>
      obtain ⟨shape, hshape, hspells⟩ := hty.exists_shape? hinterned
      obtain ⟨shapes, rfl, hfield⟩ := hspells.exists_field hid
      rw [Expr.synth, hbase.synth_eq hinterned, hshape]
      exact hfield

theorem ElaboratesFields.exists_synthFields {fields checked : GlueFields} {ids : List TypeId}
    (hinterned : types.Interned) (h : ElaboratesFields types symbols fields checked)
    (htypes : checked.map (fun field => field.2.type?) = ids.map some) :
    ∃ shapes, Expr.synthFields (symbols.shape? types) fields = some shapes ∧
      List.Forall₂ types.Denotes ids shapes := by
  match h with
  | .nil =>
      cases ids with
      | nil => exact ⟨[], rfl, .nil⟩
      | cons => cases htypes
  | .cons hvalue hty htarget hfinal hrest =>
      cases ids with
      | nil => cases htypes
      | cons id ids =>
          obtain ⟨hid, hids⟩ := List.cons.inj htypes
          cases hfinal.type?.symm.trans hid
          obtain ⟨shape, hshape, hspells⟩ := hty.exists_shape? hinterned
          obtain ⟨shapes, hshapes, hdenotes⟩ := hrest.exists_synthFields hinterned hids
          refine ⟨shape.settled :: shapes, ?_, .cons ?_ hdenotes⟩
          · rw [Expr.synthFields, hvalue.synth_eq hinterned, hshape, hshapes]
            rfl
          · exact hinterned.shape?_eq htarget hspells.settled

end

/-- A type takes the values that are converted to it. -/
theorem ElaboratesTo.exists_synth (hinterned : types.Interned)
    (h : ElaboratesTo types symbols target source final) {shape : Shape}
    (hshape : types.shape? target = some shape) :
    ∃ synthesized, source.synth (symbols.shape? types) = some synthesized ∧
      shape.Takes synthesized := by
  obtain ⟨checked, hchecked, hfinal⟩ := h
  rw [hchecked.synth_eq hinterned]
  cases hfinal with
  | same hid => exact ⟨shape, by rw [Expr.shape?, hid, Option.bind_some, hshape], Or.inl rfl⟩
  | @widen _ _ s t hid hs ht hwidens =>
      rw [Expr.shape?, hid, Option.bind_some]
      cases t with
      | int width =>
          cases hshape.symm.trans (hinterned.shape?_eq ht (.int width))
          cases s with
          | bool => exact ⟨_, hinterned.shape?_eq hs .bool, Or.inr ⟨width, rfl, Or.inl rfl⟩⟩
          | int narrow =>
              have hlt : narrow < width := by simpa [Check.widens] using hwidens
              exact ⟨_, hinterned.shape?_eq hs (.int narrow),
                Or.inr ⟨width, rfl, Or.inr (Or.inr ⟨narrow, Nat.le_of_lt hlt, rfl⟩)⟩⟩
          | flexible => cases hwidens
          | struct => cases hwidens
      | bool => cases s <;> cases hwidens
      | flexible => cases s <;> cases hwidens
      | struct => cases s <;> cases hwidens
  | @retype _ _ width hflex hvalue ht _ =>
      cases hshape.symm.trans (hinterned.shape?_eq ht (.int width))
      rw [Expr.shape?, hvalue.type?, Option.bind_some]
      exact ⟨_, hinterned.shape?_eq hflex .flexible, Or.inr ⟨width, rfl, Or.inr (Or.inl rfl)⟩⟩

end Synthesis

end FlexWidth
