import FlexWidth.Event
import FlexWidth.Failure
import FlexWidth.Scope.Symbol

/-!
# Resolution

Resolution binds every name of a program to a symbol. Scopes nest like the
blocks of the program: a name is looked up from the innermost scope outwards, a
declaration binds in the innermost scope, and an assignment to a name that is
not visible declares it there.

Expressions only look names up. Statements work on the state `Scoping`, which
survives a failure: the scopes that were open then stay open.
-/

namespace FlexWidth

/-- The names bound in one block. -/
abbrev Scope := List (String × SymbolId)

/-- The state of resolution: the open scopes from the innermost on, the symbols
and the log. -/
structure Scoping where
  scopes : List Scope
  symbols : SymbolTable
  log : Array Event

/-- A step of resolution. -/
abbrev ResolveM := EStateM Failure Scoping

/-- The symbol that a name is bound to in the innermost scope that binds it. -/
def findSymbol? (scopes : List Scope) (name : String) : Option SymbolId :=
  scopes.findSome? fun scope => scope.lookup name

/-! ## Expressions -/

mutual

/-- Binds the names of an expression, from left to right. -/
def Expr.resolve (find? : String → Option SymbolId) : Expr → Except Diagnostic Expr
  | .literal value type => .ok (.literal value type)
  | .var name _ type =>
    match find? name with
    | some symbol => .ok (.var name (some symbol) type)
    | none => .error (.unresolvedName name)
  | .read type => .ok (.read type)
  | .unary operator operand type => do
    let operand ← operand.resolve find?
    return .unary operator operand type
  | .binary operator left right type => do
    let left ← left.resolve find?
    let right ← right.resolve find?
    return .binary operator left right type
  | .conversion operand type => do
    let operand ← operand.resolve find?
    return .conversion operand type
  | .load place type => do
    let place ← place.resolve find?
    return .load place type
  | .glue fields type => do
    let fields ← resolveFields find? fields
    return .glue fields type
  | .dot base field position type => do
    let base ← base.resolve find?
    return .dot base field position type
  | .index base position type => do
    let base ← base.resolve find?
    return .index base position type

/-- Binds the names in the fields of a struct literal. -/
def resolveFields (find? : String → Option SymbolId) : GlueFields → Except Diagnostic GlueFields
  | [] => .ok []
  | (name, value) :: rest => do
    let value ← value.resolve find?
    let rest ← resolveFields find? rest
    return (name, value) :: rest

end

/-- Binds the names of a list of expressions, from left to right. -/
def resolveExprs (find? : String → Option SymbolId) : List Expr → Except Diagnostic (List Expr)
  | [] => .ok []
  | expr :: rest => do
    let expr ← expr.resolve find?
    let rest ← resolveExprs find? rest
    return expr :: rest

namespace Scoping

/-- No open scope and no symbol. -/
def empty : Scoping := ⟨[], .empty, #[]⟩

/-- Opens a scope. -/
def push (scoping : Scoping) : Scoping := { scoping with scopes := [] :: scoping.scopes }

/-- Closes the innermost scope, if one is open. -/
def pop (scoping : Scoping) : Scoping := { scoping with scopes := scoping.scopes.tail }

/-- The symbol that a name is visibly bound to. -/
def find? (scoping : Scoping) (name : String) : Option SymbolId := findSymbol? scoping.scopes name

/-- The symbol of a name in the innermost scope, a new one if the scope does not
bind it. If no scope is open, one is opened. -/
def declare (scoping : Scoping) (name : String) (origin : Origin) : SymbolId × Scoping :=
  let inner := scoping.scopes.headD []
  let outer := scoping.scopes.tail
  match inner.lookup name with
  | some symbol => (symbol, scoping)
  | none =>
    let (symbol, symbols) := scoping.symbols.add name origin
    (symbol,
      { scopes := ((name, symbol) :: inner) :: outer
        symbols := symbols
        log := scoping.log.push (.declared name symbol (outer.length + 1)) })

end Scoping

namespace Resolve

/-! ## Statements -/

/-- Binds the names of an expression in the current scopes. -/
def expr (value : Expr) : ResolveM Expr := do
  ofExcept (value.resolve (← get).find?)

/-- Binds the names of a list of expressions in the current scopes. -/
def exprs (values : List Expr) : ResolveM (List Expr) := do
  ofExcept (resolveExprs (← get).find? values)

/-- Binds the names of an expression, if there is one. -/
def expr? : Option Expr → ResolveM (Option Expr)
  | some value => do
    let value ← expr value
    return some value
  | none => return none

/-- The symbol of a name in the innermost scope. -/
def declare (name : String) (origin : Origin) : ResolveM SymbolId :=
  modifyGet fun scoping => scoping.declare name origin

/-- The symbol that a binding of a name writes to. -/
def target (form : BindingForm) (name : String) : ResolveM SymbolId := do
  match form with
  | .declaration => declare name .declaration
  | .assignment =>
    match (← get).find? name with
    | some symbol => return symbol
    | none => declare name .assignment

/-- Runs a step in a scope of its own. If the step fails the scope stays open. -/
def inScope {α : Type} (body : ResolveM α) : ResolveM α := do
  modify Scoping.push
  let result ← body
  modify Scoping.pop
  return result

mutual

/-- Binds the names of a statement. The value of a binding is resolved before
its name. -/
def stmt : Stmt → ResolveM Stmt
  | .bind form name ascription value _ => do
    let value ← expr? value
    let symbol ← target form name
    return .bind form name ascription value (some symbol)
  | .print value => do
    let value ← expr value
    return .print value
  | .evaluate value => do
    let value ← expr value
    return .evaluate value
  | .branch condition yes none => do
    let condition ← expr condition
    let yes ← inScope (stmts yes)
    return .branch condition yes none
  | .branch condition yes (some no) => do
    let condition ← expr condition
    let yes ← inScope (stmts yes)
    let no ← inScope (stmts no)
    return .branch condition yes (some no)
  | .whileLoop condition body => do
    let condition ← expr condition
    let body ← inScope (stmts body)
    return .whileLoop condition body
  | .forLoop name _ bounds body =>
    inScope do
      let bounds ← exprs bounds
      let symbol ← declare name .loopVariable
      let body ← inScope (stmts body)
      return .forLoop name (some symbol) bounds body
  | .block body => do
    let body ← inScope (stmts body)
    return .block body

/-- Binds the names of statements in the current scope, one after the other. -/
def stmts : List Stmt → ResolveM (List Stmt)
  | [] => return []
  | first :: rest => do
    let first ← stmt first
    let rest ← stmts rest
    return first :: rest

end

/-- Binds the names of statements in a scope of their own. -/
def block (body : List Stmt) : ResolveM (List Stmt) := inScope (stmts body)

/-- Binds the names of a program and reports how many symbols it has. -/
def program (body : Program) : ResolveM Program := do
  let body ← block body
  modify fun scoping =>
    { scoping with log := scoping.log.push (.resolved scoping.symbols.size) }
  return body

end Resolve

end FlexWidth
