import FlexWidth.Failure
import FlexWidth.Text.Numeral
import FlexWidth.Tree.Basic
import FlexWidth.Types.FieldNames

/-!
# Types

A type is an integer of some width, a truth value, a struct, or the *flexible*
type of literals and reads whose width nothing has fixed yet. There are two
views of it. A `Ty` names the types of a struct's fields by handles of a
universe. A `Shape` spells them out, and needs no universe.
-/

namespace FlexWidth

/-- A struct type: the types of its fields in written order, and the names of
those that have one. -/
structure StructTy where
  fields : List TypeId
  names : FieldNames
deriving DecidableEq

/-- A type whose fields are handles. -/
inductive Ty where
  | int (width : Nat)
  | bool
  | flexible
  | struct (struct : StructTy)
deriving DecidableEq

namespace Ty

/-- The width of an integer type. -/
def intWidth? : Ty → Option Nat
  | int width => some width
  | _ => none

/-- The struct that a type is, if it is one. -/
def struct? : Ty → Option StructTy
  | struct fields => some fields
  | _ => none

end Ty

/-- A type spelled out in full. -/
inductive Shape where
  | int (width : Nat)
  | bool
  | flexible
  | struct (fields : List Shape) (names : FieldNames)

namespace Shape

mutual

/-- The text of a type. -/
def describe : Shape → String
  | int width => "int(" ++ toString width ++ ")"
  | bool => "bool"
  | flexible => "flexible"
  | struct fields names =>
    "struct\x7b" ++ ", ".intercalate (describeFields names 0 fields) ++ "\x7d"

/-- The texts of the fields from a position on, each after its name if it has
one. -/
def describeFields (names : FieldNames) (position : Nat) : List Shape → List String
  | [] => []
  | field :: rest =>
    let text := describe field
    (match names.nameAt? position with
      | some name => name ++ ": " ++ text
      | none => text) :: describeFields names (position + 1) rest

end

mutual

/-- The number of bits of a type; the flexible type, and a struct with a field
of it, has none. A sum that leaves the range of widths is a fault. -/
def bitWidth : Shape → Except Fault (Option Nat)
  | int width => .ok (some width)
  | bool => .ok (some 1)
  | flexible => .ok none
  | struct fields _ => sumWidths 0 fields

/-- The number of bits of some fields, added to those before them from left to
right. -/
def sumWidths (before : Nat) : List Shape → Except Fault (Option Nat)
  | [] => .ok (some before)
  | field :: rest =>
    match bitWidth field with
    | .ok (some width) =>
      if before + width < Text.widthLimit then sumWidths (before + width) rest
      else .error .widthOverflow
    | .ok none => .ok none
    | .error overflow => .error overflow

end

end Shape

end FlexWidth
