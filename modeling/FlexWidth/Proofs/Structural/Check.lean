import FlexWidth.Proofs.Structural.Tree

/-!
# Checking with structural types

The rules of the check, stated for types that are spelled out.  There is no universe:
types are compared by structure, what two types have in common is computed from the two
alone, and the only state is the table of variables.

The order of the rules matters where two of them could refuse a program, so it is the one
of the check with handles.
-/

namespace FlexWidth.Structural

/-- A step of the check; its state is the table of variables. -/
abbrev CheckM := EStateM Failure SymbolTable

/-- The integers whose width nothing else fixes. -/
def defaultInt : Shape := .int Ascription.defaultWidth

/-! ## Elementary steps -/

/-- The type of an expression that has been checked. -/
def typeOf (value : Expr) : CheckM Shape :=
  orRefuse (.loweringError "expression has not been type checked") value.type?

/-- Refuses a value of one type where another is wanted. -/
def mismatch {α : Type} (expected received : Shape) : CheckM α :=
  refuse (.typeMismatch expected.describe received.describe)

/-- Refuses a value that is no integer. -/
def expectedInt {α : Type} (received : Shape) : CheckM α :=
  refuse (.typeMismatch "int" received.describe)

/-- Refuses operands that are structs. -/
def refuseStruct (type : Shape) : CheckM Unit :=
  if type.struct?.isSome then expectedInt type else return ()

/-- The type of a variable, if it has one. -/
def symbolType? (symbol : SymbolId) : CheckM (Option Shape) := do
  let known ← orFault .unknownSymbol ((← get).get? symbol)
  return known.type

/-- Sets the type of a variable that has none and says whether that was done. -/
def setSymbolType (symbol : SymbolId) (type : Shape) : CheckM Bool := do
  let table ← get
  let known ← orFault .unknownSymbol (table.get? symbol)
  if known.type.isSome then return false
  else
    set (SymbolTable.mk (table.symbols.set symbol.index { known with type := some type }))
    return true

/-- What two types have in common. -/
inductive Promotion where
  | resolved (type : Shape)
  | stillFlexible
  | incompatible

/-- What two types have in common: themselves if they are equal and, unless one is a
struct, the wider of the integers among them. -/
def common (left right : Shape) : Promotion :=
  if left = right then
    if left = .flexible then .stillFlexible else .resolved left
  else if left.struct?.isSome || right.struct?.isSome then .incompatible
  else
    match Option.merge max left.intWidth? right.intWidth? with
    | some width => .resolved (.int width)
    | none => .stillFlexible

/-! ## Literals -/

/-- Refuses a literal that does not fit its type. -/
def fits (value : Nat) (type : Shape) (negated : Bool) : CheckM Unit :=
  match type with
  | .int width =>
    if literalFits value width negated then return ()
    else refuse (.literalOutOfRange (Check.literalText value negated) type.describe)
  | .flexible => return ()
  | _ => refuse (.typeMismatch type.describe "int")

/-- A literal of its own type, or a flexible one. -/
def literal (value : Nat) (type : Option Shape) : CheckM Expr := do
  let type := type.getD .flexible
  fits value type false
  return .literal value (some type)

/-- A literal under a minus sign: of the type demanded, or its own, or a flexible one. -/
def negatedLiteral (value : Nat) (type demand : Option Shape) : CheckM Expr := do
  let type := (demand.or type).getD .flexible
  fits value type true
  return .literal value (some type)

/-! ## Conversion -/

/-- The value of an expression: a place is loaded from. -/
def materialize (value : Expr) : CheckM Expr := do
  if value.denotesStorage then
    let type ← typeOf value
    return .load value (some type)
  else return value

/-- Whether every value of one type is a value of another. -/
def widens : Shape → Shape → Bool
  | .bool, .int _ => true
  | .int source, .int target => source < target
  | _, _ => false

section Recheck

variable (recheck : Expr → CheckM Expr)

/-- A flexible expression as a default integer; any other stays as it is. -/
def settle (value : Expr) (current : Shape) : CheckM Expr :=
  if current = .flexible then recheck (value.withType defaultInt) else return value

/-- Makes an expression a truth value; a flexible one becomes an integer first. -/
def convertToBool (value : Expr) (current : Shape) : CheckM Expr := do
  let value ← settle recheck value current
  let current ← typeOf value
  match current with
  | .int _ => return .conversion value (some .bool)
  | _ => mismatch .bool current

/-- Makes an expression a value of the type `target`. -/
def convertWith (value : Expr) (target : Shape) : CheckM Expr := do
  let value ← materialize value
  let current ← typeOf value
  if current = target then return value
  else if target = .flexible then return value
  else if target = .bool then convertToBool recheck value current
  else if current = .flexible then
    if target.struct?.isSome then mismatch target current
    else recheck (value.withType target)
  else if widens current target then return .conversion value (some target)
  else mismatch target current

/-! ## Nodes of expressions -/

/-- The type that an expression's surroundings demand of it. -/
def demandOf (type : Option Shape) : Option Shape := type.filter (· ≠ .flexible)

/-- The operand of a sign takes a demand only if it is flexible. -/
def signOperand (operator : String) (operand : Expr) (demand : Option Shape) : CheckM Expr := do
  let operandType ← typeOf operand
  refuseStruct operandType
  match demand with
  | some demand =>
    if operandType = .flexible then
      let operand ← convertWith recheck operand demand
      return .unary operator operand (some demand)
    else
      let operand ← materialize operand
      return .unary operator operand (some operandType)
  | none =>
    let operand ← materialize operand
    return .unary operator operand (some operandType)

/-- Both operands of an operator as values of one type. -/
def convertOperands (left right : Expr) (target : Shape) : CheckM (Expr × Expr) := do
  let left ← convertWith recheck left target
  let right ← convertWith recheck right target
  return (left, right)

/-- The type to which two operands are converted, or `none` if an arithmetic operator
leaves both flexible. -/
def operandType (operatorClass : OperatorClass) (leftType rightType : Shape) :
    CheckM (Option Shape) :=
  match common leftType rightType with
  | .resolved type => return some type
  | .stillFlexible =>
    if operatorClass = .arithmetic ∧ leftType = .flexible ∧ rightType = .flexible then return none
    else return some defaultInt
  | .incompatible => mismatch leftType rightType

/-- A binary operator on two checked operands. -/
def operands (operator : String) (operatorClass : OperatorClass) (left right : Expr)
    (demand : Option Shape) : CheckM Expr := do
  let leftType ← typeOf left
  let rightType ← typeOf right
  refuseStruct leftType
  refuseStruct rightType
  match demand, operatorClass with
  | some demand, .arithmetic =>
    let (left, right) ← convertOperands recheck left right demand
    return .binary operator left right (some demand)
  | _, _ =>
    match ← operandType operatorClass leftType rightType with
    | some type =>
      let (left, right) ← convertOperands recheck left right type
      match operatorClass with
      | .arithmetic => return .binary operator left right (some type)
      | .relational => return .binary operator left right (some .bool)
    | none => return .binary operator left right (some .flexible)

/-- The names of a struct literal with one more field; no name may occur twice. -/
def addName (names : FieldNames) (position : Nat) : Option String → CheckM FieldNames
  | some name =>
    if (names.position? name).isSome then refuse (.duplicateField name)
    else return names.insert name position
  | none => return names

/-- The value of a field: a flexible one becomes a default integer. -/
def fieldValue (value : Expr) : CheckM Expr := do
  let type ← typeOf value
  if type = .flexible then convertWith recheck value defaultInt else materialize value

/-- The fields and names of a struct of which a field is taken. -/
def structOf (type : Shape) : CheckM (List Shape × FieldNames) :=
  orRefuse (.invalidFieldAccess type.describe) type.struct?

/-- A field taken by name. -/
def namedField (base : Expr) (field : String) : CheckM Expr := do
  let baseType ← typeOf base
  let (fields, names) ← structOf baseType
  match names.position? field with
  | some position =>
    let type ← orFault .unknownPosition fields[position]?
    return .dot base field (some position) (some type)
  | none => refuse (.unknownField field baseType.describe)

/-- A field taken by position. -/
def positionedField (base : Expr) (position : Nat) : CheckM Expr := do
  let baseType ← typeOf base
  let (fields, _) ← structOf baseType
  match fields[position]? with
  | some type => return .index base position (some type)
  | none => refuse (.unknownField (toString position) baseType.describe)

/-! ## Expressions -/

mutual

/-- Checks an expression. `recheck` checks a part whose type has been set. -/
def tree : Expr → CheckM Expr
  | .literal value type => literal value type
  | .var name symbol _ => do
    let symbol ← orRefuse (.unresolvedName name) symbol
    let type ← orRefuse (.unboundSymbolType name) (← symbolType? symbol)
    return .var name (some symbol) (some type)
  | .read type =>
    match type.getD .flexible with
    | .int width => return .read (some (.int width))
    | .flexible => return .read (some .flexible)
    | other => expectedInt other
  | .unary operator operand type => do
    if operator = "-" then
      let operand ← (match operand with
        | .literal value own => negatedLiteral value own (demandOf type)
        | _ => tree operand)
      signOperand recheck operator operand (demandOf type)
    else refuse (.unknownOperator operator)
  | .binary operator left right type => do
    let operatorClass ← orRefuse (.unknownOperator operator) (OperatorClass.of? operator)
    let left ← tree left
    let right ← tree right
    operands recheck operator operatorClass left right (demandOf type)
  | .conversion operand type => do
    let operand ← tree operand
    match type with
    | some type => return .conversion operand (some type)
    | none =>
      let type ← typeOf operand
      return .conversion operand (some type)
  | .load place _ => do
    let place ← tree place
    let type ← typeOf place
    return .load place (some type)
  | .glue fields _ => do
    let (fields, types, names) ← glueFields 0 .empty fields
    return .glue fields (some (.struct types names))
  | .dot base field _ _ => do
    let base ← tree base
    namedField base field
  | .index base position _ => do
    let base ← tree base
    positionedField base position

/-- Checks the fields of a struct literal from a position on, given the names before it,
and yields their types and all names. -/
def glueFields (position : Nat) (names : FieldNames) :
    GlueFields → CheckM (GlueFields × List Shape × FieldNames)
  | [] => return ([], [], names)
  | (name, value) :: rest => do
    let names ← addName names position name
    let value ← tree value
    let value ← fieldValue recheck value
    let type ← typeOf value
    let (rest, types, names) ← glueFields (position + 1) names rest
    return ((name, value) :: rest, type :: types, names)

end

end Recheck

theorem tree_unary (recheck : Expr → CheckM Expr) (operator : String) (operand : Expr)
    (type : Option Shape) :
    tree recheck (.unary operator operand type) =
      if operator = "-" then
        (match operand with
          | .literal value own => negatedLiteral value own (demandOf type)
          | _ => tree recheck operand) >>= fun operand =>
            signOperand recheck operator operand (demandOf type)
      else refuse (.unknownOperator operator) := by
  cases operand <;> rfl

/-- Checks an expression in which checking again leads to at most `depth` further levels
of it. -/
def within : Nat → Expr → CheckM Expr
  | 0, value => tree (fun _ => fault .recursionDepth) value
  | depth + 1, value => tree (within depth) value

/-- Checks an expression. -/
def expr (value : Expr) : CheckM Expr := within value.nesting value

/-- Makes a checked expression a value of the type `target`. -/
def convert (value : Expr) (target : Shape) : CheckM Expr :=
  convertWith (within value.nesting) value target

/-! ## Statements -/

/-- The shape of a written type; an integer has at least one bit. -/
def ascription : Ascription → CheckM Shape
  | .int 0 => refuse (.invalidWidth 0)
  | .int width => return .int width
  | .bool => return .bool

/-- Gives a variable its written type, if it has none yet. -/
def declareType (name : String) (symbol : SymbolId) : Option Ascription → CheckM Unit
  | some written => do
    let type ← ascription written
    if ← setSymbolType symbol type then return () else refuse (.duplicateDeclaration name)
  | none => return ()

/-- A value for a variable that has a type: the type must be common to both. -/
def storeTyped (symbolType : Shape) (value : Expr) : CheckM Expr := do
  let valueType ← typeOf value
  match common symbolType valueType with
  | .resolved type =>
    if type = symbolType then convert value symbolType else mismatch symbolType valueType
  | _ => mismatch symbolType valueType

/-- The type that a variable takes from its first value. -/
def firstType (valueType : Shape) : Shape :=
  if valueType = .flexible then defaultInt else valueType

/-- A value for a variable without a type, which takes that of the value. -/
def storeFirst (symbol : SymbolId) (value : Expr) : CheckM Expr := do
  let valueType ← typeOf value
  let _ ← setSymbolType symbol (firstType valueType)
  convert value (firstType valueType)

/-- The value of a binding as a value of the variable's type. -/
def store (name : String) (symbol : SymbolId) (value : Option Expr) : CheckM (Option Expr) := do
  match ← symbolType? symbol, value with
  | some symbolType, some value =>
    let value ← storeTyped symbolType value
    return some value
  | none, some value =>
    let value ← storeFirst symbol value
    return some value
  | some _, none => return none
  | none, none => refuse (.unboundSymbolType name)

/-- Checks an expression, if there is one. -/
def expr? : Option Expr → CheckM (Option Expr)
  | some value => do
    let value ← expr value
    return some value
  | none => return none

/-- Checks expressions, one after the other. -/
def exprs : List Expr → CheckM (List Expr)
  | [] => return []
  | first :: rest => do
    let first ← expr first
    let rest ← exprs rest
    return first :: rest

/-- Converts expressions to one type, one after the other. -/
def convertAll (target : Shape) : List Expr → CheckM (List Expr)
  | [] => return []
  | first :: rest => do
    let first ← convert first target
    let rest ← convertAll target rest
    return first :: rest

/-- The common type of a loop's bounds so far and its next bound. -/
def joinBound (current bound : Shape) : CheckM Shape :=
  match common current bound with
  | .resolved type => return type
  | .stillFlexible =>
    if current = .flexible ∧ bound = .flexible then return current else return defaultInt
  | .incompatible => mismatch current bound

/-- The common type of a loop's bounds, joined from left to right. -/
def joinBounds (current : Option Shape) : List Expr → CheckM (Option Shape)
  | [] => return current
  | bound :: rest => do
    let boundType ← typeOf bound
    refuseStruct boundType
    match current with
    | some type =>
      let joined ← joinBound type boundType
      joinBounds (some joined) rest
    | none => joinBounds (some boundType) rest

/-- The type of a loop variable: the common type of the bounds if that fixes more than a
truth value, or else the default integer. -/
def loopType (bounds : List Expr) : CheckM Shape := do
  match ← joinBounds none bounds with
  | some .flexible | some .bool | none => return defaultInt
  | some type => return type

/-- Checks the bounds of a loop and gives its variable their type. -/
def loopBounds (name : String) (symbol : SymbolId) (bounds : List Expr) : CheckM (List Expr) := do
  let bounds ← exprs bounds
  let type ← loopType bounds
  if ← setSymbolType symbol type then convertAll type bounds
  else refuse (.duplicateDeclaration name)

/-- Checks a condition, which becomes a truth value. -/
def condition (value : Expr) : CheckM Expr := do
  let value ← expr value
  convert value .bool

/-- Checks a value to print, which becomes an integer. -/
def printed (value : Expr) : CheckM Expr := do
  let value ← expr value
  let type ← typeOf value
  match type with
  | .flexible | .bool => convert value defaultInt
  | .int _ => materialize value
  | .struct .. => expectedInt type

/-- Checks an expression evaluated for its effect. -/
def evaluated (value : Expr) : CheckM Expr := do
  let value ← expr value
  let type ← typeOf value
  if type = .flexible then convert value defaultInt else return value

mutual

/-- Checks a statement. -/
def stmt : Stmt → CheckM Stmt
  | .bind form name written value symbol => do
    let symbol ← orRefuse (.unresolvedName name) symbol
    let value ← expr? value
    declareType name symbol written
    let value ← store name symbol value
    return .bind form name written value (some symbol)
  | .print value => do
    let value ← printed value
    return .print value
  | .evaluate value => do
    let value ← evaluated value
    return .evaluate value
  | .branch test yes none => do
    let test ← condition test
    let yes ← stmts yes
    return .branch test yes none
  | .branch test yes (some no) => do
    let test ← condition test
    let yes ← stmts yes
    let no ← stmts no
    return .branch test yes (some no)
  | .whileLoop test body => do
    let test ← condition test
    let body ← stmts body
    return .whileLoop test body
  | .forLoop name symbol bounds body => do
    let symbol ← orRefuse (.unresolvedName name) symbol
    let bounds ← loopBounds name symbol bounds
    let body ← stmts body
    return .forLoop name (some symbol) bounds body
  | .block body => do
    let body ← stmts body
    return .block body

/-- Checks statements, one after the other. -/
def stmts : List Stmt → CheckM (List Stmt)
  | [] => return []
  | first :: rest => do
    let first ← stmt first
    let rest ← stmts rest
    return first :: rest

end

/-- Checks a program whose names are bound to the variables of a table. -/
def typecheck (body : List Stmt) (symbols : SymbolTable) : Except Failure CheckedProgram :=
  match stmts body symbols with
  | .ok body symbols => .ok ⟨body, symbols⟩
  | .error failure _ => .error failure

end FlexWidth.Structural
