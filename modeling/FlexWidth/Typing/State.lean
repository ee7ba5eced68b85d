import FlexWidth.Event
import FlexWidth.Failure
import FlexWidth.Scope.Symbol
import FlexWidth.Types.Universe

/-!
# The state of type checking

Type checking works on the universe of types, the symbol table and the log. All
three survive a failure, and nothing in them is ever taken back.
-/

namespace FlexWidth

/-- The state of type checking. -/
structure Checking where
  types : Universe
  symbols : SymbolTable
  log : Array Event

/-- A step of type checking. -/
abbrev CheckM := EStateM Failure Checking

namespace Check

/-- The handle of a type, interned if need be. -/
def intern (type : Universe → TypeId × Universe) : CheckM TypeId :=
  modifyGet fun checking =>
    let (id, types) := type checking.types
    (id, { checking with types := types })

/-- The type of a handle. -/
def typeAt (id : TypeId) : CheckM Ty := do
  orFault .unknownType ((← get).types.get? id)

/-- The text of a handle's type. -/
def describe (id : TypeId) : CheckM String := do
  orFault .unknownType ((← get).types.describe? id)

/-- Whether a handle's type is the flexible one. -/
def isFlexible (id : TypeId) : CheckM Bool := do
  return (← typeAt id) = .flexible

/-- Whether a handle's type is a struct. -/
def isStruct (id : TypeId) : CheckM Bool := do
  return (← typeAt id).struct?.isSome

/-- What two types have in common. -/
def common (left right : TypeId) : CheckM Promotion := do
  let checking ← get
  match checking.types.common? left right with
  | some (promotion, types) =>
    set { checking with types := types }
    return promotion
  | none => fault .unknownType

/-- The type of a symbol, if it has one. -/
def symbolType? (symbol : SymbolId) : CheckM (Option TypeId) := do
  let known ← orFault .unknownSymbol ((← get).symbols.get? symbol)
  return known.type

/-- Sets the type of a symbol and says whether that was done. -/
def setSymbolType (symbol : SymbolId) (type : TypeId) : CheckM Bool := do
  let checking ← get
  match checking.symbols.setType? symbol type with
  | some (done, symbols) =>
    set { checking with symbols := symbols }
    return done
  | none => fault .unknownSymbol

/-- Adds an event to the log. -/
def note (event : Event) : CheckM Unit :=
  modify fun checking => { checking with log := checking.log.push event }

/-- Refuses a value of one type where another is wanted. -/
def mismatch {α : Type} (expected received : TypeId) : CheckM α := do
  let expected ← describe expected
  let received ← describe received
  refuse (.typeMismatch expected received)

/-- Refuses a value that is no integer. -/
def expectedInt {α : Type} (received : TypeId) : CheckM α := do
  let received ← describe received
  refuse (.typeMismatch "int" received)

/-- The type of an expression that has been checked. -/
def typeOf (expr : Expr) : CheckM TypeId :=
  orRefuse (.loweringError "expression has not been type checked") expr.type?

end Check

end FlexWidth
