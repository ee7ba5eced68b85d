import FlexWidth.Proofs.Types.Interning
import Mathlib.Data.List.Forall2

/-!
# What handles denote

A handle *denotes* the shape that spelling its type out gives.  In an interned universe
this is a bijection between handles and the shapes of the types that are there: a valid
handle denotes a shape (`Interned.exists_denotes`), and a shape is denoted by at most one
handle (`Interned.eq_of_denotes`).  So equality of handles is equality of shapes.  Adding
types changes nothing of this.
-/

namespace FlexWidth

/-! ## Equality of shapes -/

namespace Shape

mutual

/-- Two shapes are compared from the outside in. -/
def decEq : (left right : Shape) → Decidable (left = right)
  | int width, int width' => decidable_of_iff (width = width') (by simp)
  | bool, bool => isTrue rfl
  | flexible, flexible => isTrue rfl
  | struct fields names, struct fields' names' =>
    match decEqFields fields fields' with
    | isTrue h => decidable_of_iff (names = names') (by simp [h])
    | isFalse h => isFalse (by simp [h])
  | int _, bool | int _, flexible | int _, struct .. => isFalse (by simp)
  | bool, int _ | bool, flexible | bool, struct .. => isFalse (by simp)
  | flexible, int _ | flexible, bool | flexible, struct .. => isFalse (by simp)
  | struct .., int _ | struct .., bool | struct .., flexible => isFalse (by simp)

/-- Two lists of shapes are compared from left to right. -/
def decEqFields : (left right : List Shape) → Decidable (left = right)
  | [], [] => isTrue rfl
  | [], _ :: _ | _ :: _, [] => isFalse (by simp)
  | first :: rest, first' :: rest' =>
    match decEq first first' with
    | isTrue h =>
      match decEqFields rest rest' with
      | isTrue hrest => isTrue (by rw [h, hrest])
      | isFalse hrest => isFalse (by simp [hrest])
    | isFalse h => isFalse (by simp [h])

end

instance : DecidableEq Shape := decEq

/-- The width of an integer. -/
def intWidth? : Shape → Option Nat
  | int width => some width
  | _ => none

/-- The fields and names of a struct. -/
def struct? : Shape → Option (List Shape × FieldNames)
  | struct fields names => some (fields, names)
  | _ => none

end Shape

/-- A type is spelled out by a shape, given what the handles of its fields denote. -/
inductive Ty.Spells (denotes : TypeId → Shape → Prop) : Ty → Shape → Prop where
  | int (width : Nat) : Spells denotes (.int width) (.int width)
  | bool : Spells denotes .bool .bool
  | flexible : Spells denotes .flexible .flexible
  | struct {fields : List TypeId} {shapes : List Shape} (names : FieldNames) :
      List.Forall₂ denotes fields shapes →
      Spells denotes (.struct ⟨fields, names⟩) (.struct shapes names)

namespace Ty.Spells

variable {denotes denotes' : TypeId → Shape → Prop} {ty : Ty} {shape : Shape}

theorem imp (h : ty.Spells denotes shape)
    (himp : ∀ struct, ty = .struct struct → ∀ field ∈ struct.fields, ∀ shape,
      denotes field shape → denotes' field shape) : ty.Spells denotes' shape := by
  cases h with
  | int width => exact .int width
  | bool => exact .bool
  | flexible => exact .flexible
  | struct names hfields =>
      have hboth := (List.forall₂_and_left _ _).mpr ⟨himp _ rfl, hfields⟩
      exact .struct names (hboth.imp fun field shape h => h.1 shape h.2)

theorem eq_flexible_iff (h : ty.Spells denotes shape) : ty = .flexible ↔ shape = .flexible := by
  cases h <;> simp

theorem eq_bool_iff (h : ty.Spells denotes shape) : ty = .bool ↔ shape = .bool := by
  cases h <;> simp

theorem intWidth?_eq (h : ty.Spells denotes shape) : ty.intWidth? = shape.intWidth? := by
  cases h <;> rfl

theorem isSome_struct?_eq (h : ty.Spells denotes shape) :
    ty.struct?.isSome = shape.struct?.isSome := by
  cases h <;> rfl

end Ty.Spells

theorem mapM_eq_some_iff_forall₂ {α β : Type} {f : α → Option β} {values : List α}
    {results : List β} :
    values.mapM f = some results ↔ List.Forall₂ (fun value result => f value = some result)
      values results := by
  induction values generalizing results with
  | nil => cases results <;> simp
  | cons first rest ih =>
      cases results with
      | nil => simp [List.mapM_cons, Option.bind_eq_some_iff]
      | cons result results =>
          rw [List.forall₂_cons, ← ih]
          simp [List.mapM_cons, Option.bind_eq_some_iff]

theorem rel_getElem?_of_forall₂ {α β : Type} {r : α → β → Prop} {values : List α}
    {results : List β} (h : List.Forall₂ r values results) (index : Nat) :
    Option.Rel r values[index]? results[index]? := by
  induction h generalizing index with
  | nil => exact .none
  | cons hfirst _ ih =>
      cases index with
      | zero => exact .some hfirst
      | succ index => exact ih index

namespace Universe

variable {types later : Universe} {id other : TypeId} {ty : Ty} {shape : Shape}

/-- The shape is that of the handle's type. -/
def Denotes (types : Universe) (id : TypeId) (shape : Shape) : Prop :=
  types.shape? id = some shape

theorem shapeWithin_succ_eq_some_iff {depth : Nat} :
    types.shapeWithin (depth + 1) id = some shape ↔ ∃ ty, types.get? id = some ty ∧
      ty.Spells (fun field shape => types.shapeWithin depth field = some shape) shape := by
  rw [shapeWithin]
  cases hid : types.get? id with
  | none => simp
  | some ty =>
      constructor
      · intro h
        refine ⟨ty, rfl, ?_⟩
        cases ty with
        | int width =>
            cases h
            exact .int width
        | bool =>
            cases h
            exact .bool
        | flexible =>
            cases h
            exact .flexible
        | struct struct =>
            obtain ⟨shapes, hshapes, rfl⟩ := Option.map_eq_some_iff.mp h
            exact .struct struct.names (mapM_eq_some_iff_forall₂.mp hshapes)
      · intro h
        obtain ⟨_, heq, hspells⟩ := h
        cases heq
        cases hspells with
        | int width => rfl
        | bool => rfl
        | flexible => rfl
        | struct names hfields => simp [mapM_eq_some_iff_forall₂.mpr hfields]

/-! ## Growth -/

theorem Grows.shapeWithin (h : types.Grows later) {depth : Nat}
    (hshape : types.shapeWithin depth id = some shape) :
    later.shapeWithin depth id = some shape := by
  induction depth generalizing id shape with
  | zero => cases hshape
  | succ depth ih =>
      obtain ⟨ty, hty, hspells⟩ := shapeWithin_succ_eq_some_iff.mp hshape
      exact shapeWithin_succ_eq_some_iff.mpr
        ⟨ty, h.get? hty, hspells.imp fun _ _ _ _ _ hfield => ih hfield⟩

theorem Denotes.grow (h : types.Denotes id shape) (hgrows : types.Grows later) :
    later.Denotes id shape :=
  hgrows.shapeWithin h

theorem Denotes.holds (h : types.Denotes id shape) : types.Holds id := by
  obtain ⟨ty, hty, -⟩ := shapeWithin_succ_eq_some_iff.mp h
  exact ⟨ty, hty⟩

/-! ## Interned universes -/

section Interned

variable (h : types.Interned)

include h

/-- What can be spelled out at all can be spelled out in the room that the handle gives. -/
theorem Interned.shapeWithin_of_lt {depth depth' : Nat} (hlt : id.index < depth')
    (hshape : types.shapeWithin depth id = some shape) :
    types.shapeWithin depth' id = some shape := by
  induction depth generalizing id shape depth' with
  | zero => cases hshape
  | succ depth ih =>
      obtain ⟨ty, hty, hspells⟩ := shapeWithin_succ_eq_some_iff.mp hshape
      obtain ⟨room, rfl⟩ : ∃ room, depth' = room + 1 := ⟨depth' - 1, by omega⟩
      refine shapeWithin_succ_eq_some_iff.mpr ⟨ty, hty, hspells.imp ?_⟩
      intro struct hstruct field hfield shape hshape
      have holder := h.older (hstruct ▸ hty) field hfield
      exact ih (by omega) hshape

/-- A handle denotes what spells its type out. -/
theorem Interned.denotes_iff :
    types.Denotes id shape ↔ ∃ ty, types.get? id = some ty ∧ ty.Spells types.Denotes shape := by
  rw [Denotes, shape?, shapeWithin_succ_eq_some_iff]
  constructor
  · intro hid
    obtain ⟨ty, hty, hspells⟩ := hid
    refine ⟨ty, hty, hspells.imp fun struct _ field _ shape hshape => ?_⟩
    exact h.shapeWithin_of_lt (Nat.lt_succ_self _) hshape
  · intro hid
    obtain ⟨ty, hty, hspells⟩ := hid
    refine ⟨ty, hty, hspells.imp fun struct hstruct field hfield shape hshape => ?_⟩
    exact h.shapeWithin_of_lt (h.older (hstruct ▸ hty) field hfield) hshape

theorem Interned.exists_denotes (hid : types.Holds id) : ∃ shape, types.Denotes id shape :=
  Option.isSome_iff_exists.mp (isSome_shapeWithin h.older (Nat.lt_succ_self _) hid)

/-- A shape is denoted by one handle. -/
theorem Interned.eq_of_denotes (hid : types.Denotes id shape)
    (hother : types.Denotes other shape) : id = other := by
  -- the induction is on a bound of both handles, which is smaller for all of their fields
  obtain ⟨bound, hlt, hlt'⟩ : ∃ bound, id.index < bound ∧ other.index < bound :=
    ⟨max id.index other.index + 1, by omega, by omega⟩
  induction bound generalizing id other shape with
  | zero => omega
  | succ bound ih =>
      obtain ⟨ty, hty, hspells⟩ := h.denotes_iff.mp hid
      obtain ⟨ty', hty', hspells'⟩ := h.denotes_iff.mp hother
      refine h.eq_of_get? hty (hty'.trans (congrArg some ?_))
      cases hspells with
      | int width => cases hspells' with | int => rfl
      | bool => cases hspells' with | bool => rfl
      | flexible => cases hspells' with | flexible => rfl
      | struct names hfields =>
          cases hspells' with
          | struct _ hfields' =>
              have hunique : Relator.LeftUnique fun (field : TypeId) shape =>
                  field.index < bound ∧ types.Denotes field shape :=
                fun _ _ _ ha hb => ih ha.2 hb.2 ha.1 hb.1
              have hbelow {id : TypeId} {struct : StructTy}
                  (hid : types.get? id = some (.struct struct)) (hlt : id.index < bound + 1) :
                  ∀ field ∈ struct.fields, field.index < bound := fun field hfield =>
                Nat.lt_of_lt_of_le (h.older hid field hfield) (Nat.le_of_lt_succ hlt)
              have heq := List.left_unique_forall₂' hunique
                ((List.forall₂_and_left _ _).mpr ⟨hbelow hty' hlt', hfields'⟩)
                ((List.forall₂_and_left _ _).mpr ⟨hbelow hty hlt, hfields⟩)
              simp_all

/-- Interning a type gives it a handle, which denotes what spells the type out. -/
theorem Interned.intern (hspells : ty.Spells types.Denotes shape) :
    (intern ty types).2.Interned ∧
      (Universe.intern ty types).2.Denotes (Universe.intern ty types).1 shape := by
  have hinterned : (Universe.intern ty types).2.Interned ∧
      (Universe.intern ty types).2.get? (Universe.intern ty types).1 = some ty := by
    unfold Universe.intern
    cases hfind : types.find? ty with
    | some id => exact ⟨h, h.find?_eq_some_iff.mp hfind⟩
    | none =>
        refine ⟨h.add hfind ?_, by simp [get?_add]⟩
        intro struct hstruct field hfield
        subst hstruct
        cases hspells with
        | struct names hfields =>
            have hholds := hfields.imp fun _ _ hfield => And.intro hfield.holds hfield
            exact ((List.forall₂_and_left _ _).mp hholds).1 field hfield
  refine ⟨hinterned.1, hinterned.1.denotes_iff.mpr ⟨ty, hinterned.2, ?_⟩⟩
  exact hspells.imp fun _ _ _ _ _ hfield => hfield.grow (grows_intern types ty)

end Interned

end Universe

end FlexWidth
