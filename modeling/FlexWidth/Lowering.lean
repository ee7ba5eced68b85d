import FlexWidth.Diagnostic

/-!
# Lowering obstacles

The reasons for which one instruction of a lowered program cannot be built. Each
is reported as a lowering error with a fixed text. Reasons and texts are those of
the builder of instructions, a library of its own: its errors are passed on as
they are. Lowering itself is not part of this library.
-/

namespace FlexWidth

/-- Why an instruction cannot be built. -/
inductive LoweringObstacle where
  | unsetPosition
  | alignment
  | extractOutOfRange
  | bitwidth
  | pointeeTypeMismatch
  | valueTypeMismatch
  | ordering
  | elementPointee
  | elementIndex
deriving DecidableEq, Repr

namespace LoweringObstacle

/-- The text of the obstacle. -/
def text : LoweringObstacle → String
  | unsetPosition => "Builder position is not set"
  | alignment => "Alignment error"
  | extractOutOfRange => "Aggregate extract index out of range"
  | bitwidth => "Bitwidth of a value is incorrect"
  | pointeeTypeMismatch => "Pointee type does not match the value's type"
  | valueTypeMismatch => "Values do not have the same type"
  | ordering => "Ordering error or mismatch"
  | elementPointee => "GEP pointee is not a struct"
  | elementIndex => "GEP index out of range"

/-- The diagnostic that reports the obstacle. -/
def diagnostic (obstacle : LoweringObstacle) : Diagnostic := .loweringError obstacle.text

end LoweringObstacle

end FlexWidth
