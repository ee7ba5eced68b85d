import FlexWidth.Typing.Expr

/-!
# Typing statements

The first binding of a variable fixes its type: the written one, or that of the
value, where a flexible value makes a default integer. Later bindings convert
their values to it.
-/

namespace FlexWidth.Check

/-- An expression as a value of the default integer type. -/
def defaultInt (value : Expr) : CheckM Expr := do
  let type ← intern Universe.internDefaultInt
  convert value type

/-- The handle of a written type; an integer has at least one bit. -/
def ascription : Ascription → CheckM TypeId
  | .int 0 => refuse (.invalidWidth 0)
  | .int width => intern (Universe.internInt width)
  | .bool => intern Universe.internBool

/-- Gives a variable its written type, if it has none yet. -/
def declareType (name : String) (symbol : SymbolId) : Option Ascription → CheckM Unit
  | some written => do
    let type ← ascription written
    if ← setSymbolType symbol type then return () else refuse (.duplicateDeclaration name)
  | none => return ()

/-- A value for a variable that has a type: the type must be common to both. -/
def storeTyped (symbolType : TypeId) (value : Expr) : CheckM Expr := do
  let valueType ← typeOf value
  if (← common symbolType valueType) = .resolved symbolType then convert value symbolType
  else mismatch symbolType valueType

/-- The type that a variable takes from its first value. -/
def firstType (name : String) (valueType : TypeId) : CheckM TypeId := do
  if ← isFlexible valueType then
    note (.defaulted name)
    intern Universe.internDefaultInt
  else return valueType

/-- A value for a variable without a type, which takes that of the value. -/
def storeFirst (name : String) (symbol : SymbolId) (value : Expr) : CheckM Expr := do
  let valueType ← typeOf value
  let symbolType ← firstType name valueType
  let _ ← setSymbolType symbol symbolType
  convert value symbolType

/-- The value of a binding as a value of the variable's type. -/
def store (name : String) (symbol : SymbolId) (value : Option Expr) : CheckM (Option Expr) := do
  match ← symbolType? symbol, value with
  | some symbolType, some value =>
    let value ← storeTyped symbolType value
    return some value
  | none, some value =>
    let value ← storeFirst name symbol value
    return some value
  | some _, none => return none
  | none, none => refuse (.unboundSymbolType name)

/-- Checks an expression, if there is one. -/
def expr? : Option Expr → CheckM (Option Expr)
  | some value => do
    let value ← expr value
    return some value
  | none => return none

/-- Checks expressions, one after the other. -/
def exprs : List Expr → CheckM (List Expr)
  | [] => return []
  | first :: rest => do
    let first ← expr first
    let rest ← exprs rest
    return first :: rest

/-- Converts expressions to one type, one after the other. -/
def convertAll (target : TypeId) : List Expr → CheckM (List Expr)
  | [] => return []
  | first :: rest => do
    let first ← convert first target
    let rest ← convertAll target rest
    return first :: rest

/-- The common type of a loop's bounds so far and its next bound. -/
def joinBound (current bound : TypeId) : CheckM TypeId := do
  match ← common current bound with
  | .resolved type => return type
  | .stillFlexible =>
    let currentFlexible ← isFlexible current
    let boundFlexible ← isFlexible bound
    if currentFlexible ∧ boundFlexible then return current
    else intern Universe.internDefaultInt
  | .incompatible => mismatch current bound

/-- The common type of a loop's bounds, joined from left to right. -/
def joinBounds (current : Option TypeId) : List Expr → CheckM (Option TypeId)
  | [] => return current
  | bound :: rest => do
    let boundType ← typeOf bound
    refuseStruct boundType
    match current with
    | some type =>
      let joined ← joinBound type boundType
      joinBounds (some joined) rest
    | none => joinBounds (some boundType) rest

/-- The type of a loop variable: the common type of the bounds if that is an
integer, or else the default integer. -/
def loopType (name : String) (bounds : List Expr) : CheckM TypeId := do
  match ← joinBounds none bounds with
  | some type =>
    match ← typeAt type with
    | .flexible | .bool =>
      note (.defaultedLoop name)
      intern Universe.internDefaultInt
    | _ => return type
  | none =>
    note (.defaultedLoop name)
    intern Universe.internDefaultInt

/-- Checks the bounds of a loop and gives its variable their type. -/
def loopBounds (name : String) (symbol : SymbolId) (bounds : List Expr) : CheckM (List Expr) := do
  let bounds ← exprs bounds
  let type ← loopType name bounds
  if ← setSymbolType symbol type then convertAll type bounds
  else refuse (.duplicateDeclaration name)

/-- Checks a condition, which becomes a truth value. -/
def condition (value : Expr) : CheckM Expr := do
  let value ← expr value
  let boolean ← intern Universe.internBool
  convert value boolean

/-- Checks a value to print, which becomes an integer. -/
def printed (value : Expr) : CheckM Expr := do
  let value ← expr value
  let type ← typeOf value
  match ← typeAt type with
  | .flexible | .bool => defaultInt value
  | .int _ => materialize value
  | .struct _ => expectedInt type

/-- Checks an expression evaluated for its effect. -/
def evaluated (value : Expr) : CheckM Expr := do
  let value ← expr value
  let type ← typeOf value
  if ← isFlexible type then defaultInt value else return value

mutual

/-- Checks a statement. -/
def stmt : Stmt → CheckM Stmt
  | .bind form name written value symbol => do
    let symbol ← orRefuse (.unresolvedName name) symbol
    let value ← expr? value
    declareType name symbol written
    let value ← store name symbol value
    return .bind form name written value (some symbol)
  | .print value => do
    let value ← printed value
    return .print value
  | .evaluate value => do
    let value ← evaluated value
    return .evaluate value
  | .branch test yes none => do
    let test ← condition test
    let yes ← stmts yes
    return .branch test yes none
  | .branch test yes (some no) => do
    let test ← condition test
    let yes ← stmts yes
    let no ← stmts no
    return .branch test yes (some no)
  | .whileLoop test body => do
    let test ← condition test
    let body ← stmts body
    return .whileLoop test body
  | .forLoop name symbol bounds body => do
    let symbol ← orRefuse (.unresolvedName name) symbol
    let bounds ← loopBounds name symbol bounds
    let body ← stmts body
    return .forLoop name (some symbol) bounds body
  | .block body => do
    let body ← stmts body
    return .block body

/-- Checks statements, one after the other. -/
def stmts : List Stmt → CheckM (List Stmt)
  | [] => return []
  | first :: rest => do
    let first ← stmt first
    let rest ← stmts rest
    return first :: rest

end

/-- Checks a program and reports how many types it has. -/
def program (body : Program) : CheckM Program := do
  let body ← stmts body
  note (.typed (← get).types.size)
  return body

end FlexWidth.Check
