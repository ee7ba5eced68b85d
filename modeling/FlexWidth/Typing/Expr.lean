import FlexWidth.Typing.Convert
import FlexWidth.Typing.Literal

/-!
# Typing expressions

Checking gives every node of an expression a type and inserts loads and
conversions. A type that a node already has is a demand of its surroundings,
which flexible operands take over. It is looked up first, whatever the node.

Checking an expression means checking its parts, and then, where a part turns
out flexible, setting its type and checking it again. `tree` recurs into the
parts and leaves checking again to its argument; `within` ties the knot. Since
checking keeps the nesting of operators and struct literals, and only their
operands are checked again, that nesting bounds how often one check can lead to
another: `expr` never runs out.
-/

namespace FlexWidth.Check

/-- The type that an expression's surroundings demand of it; a flexible type
demands nothing. -/
def demandOf : Option TypeId → CheckM (Option TypeId)
  | some type => do
    if ← isFlexible type then return none else return some type
  | none => return none

/-- Refuses operands that are structs. -/
def refuseStruct (type : TypeId) : CheckM Unit := do
  if ← isStruct type then expectedInt type else return ()

/-- The operand of a sign takes a demand only if it is flexible. -/
def signOperand (convert : Expr → TypeId → CheckM Expr) (operator : String) (operand : Expr)
    (demand : Option TypeId) : CheckM Expr := do
  let operandType ← typeOf operand
  refuseStruct operandType
  let flexible ← isFlexible operandType
  match demand with
  | some demand =>
    if flexible then
      let operand ← convert operand demand
      return .unary operator operand (some demand)
    else
      let operand ← materialize operand
      return .unary operator operand (some operandType)
  | none =>
    let operand ← materialize operand
    return .unary operator operand (some operandType)

/-- Both operands of an operator as values of one type. -/
def convertOperands (convert : Expr → TypeId → CheckM Expr) (left right : Expr)
    (target : TypeId) : CheckM (Expr × Expr) := do
  let left ← convert left target
  let right ← convert right target
  return (left, right)

/-- The type to which two operands are converted, or `none` if an arithmetic
operator leaves both flexible. -/
def operandType (operatorClass : OperatorClass) (leftType rightType : TypeId) :
    CheckM (Option TypeId) := do
  let leftFlexible ← isFlexible leftType
  let rightFlexible ← isFlexible rightType
  match ← common leftType rightType with
  | .resolved type => return some type
  | .stillFlexible =>
    if operatorClass = .arithmetic ∧ leftFlexible ∧ rightFlexible then return none
    else
      let defaultInt ← intern Universe.internDefaultInt
      return some defaultInt
  | .incompatible => mismatch leftType rightType

/-- A binary operator on two checked operands. An arithmetic operator passes a
demand on to its operands; without one the operands meet in their common type. -/
def operands (convert : Expr → TypeId → CheckM Expr) (operator : String)
    (operatorClass : OperatorClass) (left right : Expr) (demand : Option TypeId) :
    CheckM Expr := do
  let leftType ← typeOf left
  let rightType ← typeOf right
  refuseStruct leftType
  refuseStruct rightType
  match demand, operatorClass with
  | some demand, .arithmetic =>
    let (left, right) ← convertOperands convert left right demand
    return .binary operator left right (some demand)
  | _, _ =>
    match ← operandType operatorClass leftType rightType with
    | some type =>
      let (left, right) ← convertOperands convert left right type
      match operatorClass with
      | .arithmetic => return .binary operator left right (some type)
      | .relational =>
        let boolean ← intern Universe.internBool
        return .binary operator left right (some boolean)
    | none =>
      let flexible ← intern Universe.internFlexible
      return .binary operator left right (some flexible)

/-- The names of a struct literal with one more field; no name may occur twice. -/
def addName (names : FieldNames) (position : Nat) : Option String → CheckM FieldNames
  | some name =>
    if (names.position? name).isSome then refuse (.duplicateField name)
    else return names.insert name position
  | none => return names

/-- The value of a field: a flexible one becomes a default integer. -/
def fieldValue (convert : Expr → TypeId → CheckM Expr) (value : Expr) : CheckM Expr := do
  let type ← typeOf value
  if ← isFlexible type then
    let defaultInt ← intern Universe.internDefaultInt
    convert value defaultInt
  else materialize value

/-- The struct type of an expression of which a field is taken. -/
def structOf (type : TypeId) : CheckM StructTy := do
  match (← typeAt type).struct? with
  | some struct => return struct
  | none =>
    let text ← describe type
    refuse (.invalidFieldAccess text)

/-- Refuses a field that a struct type does not have. -/
def unknownField {α : Type} (field : String) (type : TypeId) : CheckM α := do
  let text ← describe type
  refuse (.unknownField field text)

/-- A field taken by name. -/
def namedField (base : Expr) (field : String) : CheckM Expr := do
  let baseType ← typeOf base
  let struct ← structOf baseType
  match struct.names.position? field with
  | some position =>
    let type ← orFault .unknownPosition struct.fields[position]?
    return .dot base field (some position) (some type)
  | none => unknownField field baseType

/-- A field taken by position. -/
def positionedField (base : Expr) (position : Nat) : CheckM Expr := do
  let baseType ← typeOf base
  let struct ← structOf baseType
  match struct.fields[position]? with
  | some type => return .index base position (some type)
  | none => unknownField (toString position) baseType

mutual

/-- Checks an expression. `recheck` checks a part whose type has been set. -/
def tree (recheck : Expr → CheckM Expr) : Expr → CheckM Expr
  | .literal value type => do
    let _ ← demandOf type
    literal value type
  | .var name symbol type => do
    let _ ← demandOf type
    let symbol ← orRefuse (.unresolvedName name) symbol
    let type ← orRefuse (.unboundSymbolType name) (← symbolType? symbol)
    return .var name (some symbol) (some type)
  | .read type => do
    let _ ← demandOf type
    let type ← orFlexible type
    match ← typeAt type with
    | .int _ | .flexible => return .read (some type)
    | _ => expectedInt type
  | .unary operator operand type => do
    let demand ← demandOf type
    if operator = "-" then
      let operand ← (match operand with
        | .literal value own => negatedLiteral value own demand
        | _ => tree recheck operand)
      signOperand (convertWith recheck) operator operand demand
    else refuse (.unknownOperator operator)
  | .binary operator left right type => do
    let demand ← demandOf type
    let operatorClass ← orRefuse (.unknownOperator operator) (OperatorClass.of? operator)
    let left ← tree recheck left
    let right ← tree recheck right
    operands (convertWith recheck) operator operatorClass left right demand
  | .conversion operand type => do
    let _ ← demandOf type
    let operand ← tree recheck operand
    match type with
    | some type => return .conversion operand (some type)
    | none =>
      let type ← typeOf operand
      return .conversion operand (some type)
  | .load place type => do
    let _ ← demandOf type
    let place ← tree recheck place
    let type ← typeOf place
    return .load place (some type)
  | .glue fields type => do
    let _ ← demandOf type
    let (fields, struct) ← glueFields recheck 0 .empty fields
    let type ← intern (Universe.internStruct struct)
    return .glue fields (some type)
  | .dot base field _ type => do
    let _ ← demandOf type
    let base ← tree recheck base
    namedField base field
  | .index base position type => do
    let _ ← demandOf type
    let base ← tree recheck base
    positionedField base position

/-- Checks the fields of a struct literal from a position on, given the names
before it, and yields their types and all names. -/
def glueFields (recheck : Expr → CheckM Expr) (position : Nat) (names : FieldNames) :
    GlueFields → CheckM (GlueFields × StructTy)
  | [] => return ([], ⟨[], names⟩)
  | (name, value) :: rest => do
    let names ← addName names position name
    let value ← tree recheck value
    let value ← fieldValue (convertWith recheck) value
    let type ← typeOf value
    let (rest, struct) ← glueFields recheck (position + 1) names rest
    return ((name, value) :: rest, ⟨type :: struct.fields, struct.names⟩)

end

/-- Checks an expression in which checking again leads to at most `depth`
further levels of it. -/
def within : Nat → Expr → CheckM Expr
  | 0, value => tree (fun _ => fault .recursionDepth) value
  | depth + 1, value => tree (within depth) value

/-- Checks an expression. -/
def expr (value : Expr) : CheckM Expr := within value.nesting value

/-- Makes a checked expression a value of the type `target`. -/
def convert (value : Expr) (target : TypeId) : CheckM Expr :=
  convertWith (within value.nesting) value target

end FlexWidth.Check
