import FlexWidth.Types.Basic

/-!
# The universe of types

A universe owns every type of a program. Each type is held once, so two handles
are equal exactly if their types are, and types are only ever added, so a handle
keeps its meaning. Beside the types stand tables that find the handle of a type
that is already there.
-/

namespace FlexWidth

/-- Every type of a program, and where each stands. -/
structure Universe where
  arena : Array Ty
  ints : List (Nat × TypeId)
  structs : List (StructTy × TypeId)
  boolean : Option TypeId
  flexible : Option TypeId
deriving DecidableEq

namespace Universe

/-- The universe without types. -/
def empty : Universe :=
  { arena := #[]
    ints := []
    structs := []
    boolean := none
    flexible := none }

/-- The number of types. -/
def size (types : Universe) : Nat := types.arena.size

/-- The type of a handle. -/
def get? (types : Universe) (id : TypeId) : Option Ty := types.arena[id.index]?

/-- The handle that the next new type will have. -/
def nextId (types : Universe) : TypeId := ⟨types.arena.size⟩

/-- The handle of the truth values. -/
def internBool (types : Universe) : TypeId × Universe :=
  match types.boolean with
  | some id => (id, types)
  | none =>
    (types.nextId,
      { types with
        arena := types.arena.push .bool
        boolean := some types.nextId })

/-- The handle of the flexible type. -/
def internFlexible (types : Universe) : TypeId × Universe :=
  match types.flexible with
  | some id => (id, types)
  | none =>
    (types.nextId,
      { types with
        arena := types.arena.push .flexible
        flexible := some types.nextId })

/-- The handle of the integers of a width. -/
def internInt (width : Nat) (types : Universe) : TypeId × Universe :=
  match types.ints.lookup width with
  | some id => (id, types)
  | none =>
    (types.nextId,
      { types with
        arena := types.arena.push (.int width)
        ints := (width, types.nextId) :: types.ints })

/-- The handle of the integers whose width nothing else fixes. -/
def internDefaultInt (types : Universe) : TypeId × Universe :=
  types.internInt Ascription.defaultWidth

/-- The handle of a struct type. -/
def internStruct (struct : StructTy) (types : Universe) : TypeId × Universe :=
  match types.structs.lookup struct with
  | some id => (id, types)
  | none =>
    (types.nextId,
      { types with
        arena := types.arena.push (.struct struct)
        structs := (struct, types.nextId) :: types.structs })

/-! ## Spelling types out -/

/-- The type of a handle spelled out, if structs nest less than `depth` deep in
it. -/
def shapeWithin (types : Universe) : Nat → TypeId → Option Shape
  | 0, _ => none
  | depth + 1, id =>
    match types.get? id with
    | some (.int width) => some (.int width)
    | some .bool => some .bool
    | some .flexible => some .flexible
    | some (.struct struct) =>
      (struct.fields.mapM (shapeWithin types depth)).map fun fields => .struct fields struct.names
    | none => none

/-- The type of a handle spelled out. A struct is younger than its fields, so
its handle bounds how deeply structs nest in it. -/
def shape? (types : Universe) (id : TypeId) : Option Shape :=
  types.shapeWithin (id.index + 1) id

/-- The text of a handle's type. -/
def describe? (types : Universe) (id : TypeId) : Option String :=
  (types.shape? id).map Shape.describe

/-- The number of bits of a handle's type. -/
def bitWidth (types : Universe) (id : TypeId) : Except Fault (Option Nat) :=
  match types.shape? id with
  | some shape => shape.bitWidth
  | none => .error .unknownType

end Universe

/-- What two types have in common. -/
inductive Promotion where
  /-- Both convert to this type. -/
  | resolved (type : TypeId)
  /-- Neither fixes a width. -/
  | stillFlexible
  /-- They have nothing in common. -/
  | incompatible
deriving DecidableEq, Repr

namespace Universe

/-- What two types have in common: themselves if they are equal and, unless one
is a struct, the wider of the integers among them. -/
def common? (types : Universe) (left right : TypeId) : Option (Promotion × Universe) :=
  match types.get? left, types.get? right with
  | some leftTy, some rightTy =>
    if left = right then
      if leftTy = .flexible then some (.stillFlexible, types)
      else some (.resolved left, types)
    else if leftTy.struct?.isSome || rightTy.struct?.isSome then some (.incompatible, types)
    else
      match Option.merge max leftTy.intWidth? rightTy.intWidth? with
      | some width =>
        let (id, types) := types.internInt width
        some (.resolved id, types)
      | none => some (.stillFlexible, types)
  | _, _ => none

end Universe

end FlexWidth
