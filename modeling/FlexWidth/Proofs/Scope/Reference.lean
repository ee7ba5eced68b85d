import FlexWidth.Scope.Resolve

/-!
# Lexical scoping by environments

A second account of what names are bound to, without a stack of scopes.  An
*environment* is a value: the bindings of the innermost scope and those in sight
around it.  A block or a loop works on an extension of the environment it stands
in and what it adds is forgotten at its end, simply because nobody keeps it.

An expression is treated as a whole: its uses of names are listed in the order in
which they are walked, the first that is unbound is the error, and if there is
none every use receives its symbol.

Symbols are numbered by the *ledger*, the list of all bindings made so far with
the kind of statement that made each.
-/

namespace FlexWidth

/-! ## Uses of names -/

mutual

/-- The names used in an expression, in the order in which it is walked. -/
def Expr.uses : Expr → List String
  | .literal .. | .read .. => []
  | .var name _ _ => [name]
  | .unary _ operand _ => operand.uses
  | .binary _ left right _ => left.uses ++ right.uses
  | .conversion operand _ => operand.uses
  | .load place _ => place.uses
  | .glue fields _ => fieldUses fields
  | .dot base _ _ _ => base.uses
  | .index base _ _ => base.uses

/-- The names used in the fields of a struct literal. -/
def fieldUses : GlueFields → List String
  | [] => []
  | (_, value) :: rest => value.uses ++ fieldUses rest

end

mutual

/-- The expression with the given symbols on its uses of names. -/
def Expr.annotate (symbolOf : String → Option SymbolId) : Expr → Expr
  | .literal value type => .literal value type
  | .var name _ type => .var name (symbolOf name) type
  | .read type => .read type
  | .unary operator operand type => .unary operator (operand.annotate symbolOf) type
  | .binary operator left right type =>
    .binary operator (left.annotate symbolOf) (right.annotate symbolOf) type
  | .conversion operand type => .conversion (operand.annotate symbolOf) type
  | .load place type => .load (place.annotate symbolOf) type
  | .glue fields type => .glue (annotateFields symbolOf fields) type
  | .dot base field position type => .dot (base.annotate symbolOf) field position type
  | .index base position type => .index (base.annotate symbolOf) position type

/-- The fields of a struct literal with the given symbols on their uses of names. -/
def annotateFields (symbolOf : String → Option SymbolId) : GlueFields → GlueFields
  | [] => []
  | (name, value) :: rest => (name, value.annotate symbolOf) :: annotateFields symbolOf rest

end

/-! ## Environments -/

/-- The bindings in sight: those of the innermost scope and those around it. -/
structure Environment where
  inner : String → Option SymbolId
  outer : String → Option SymbolId

namespace Environment

/-- Nothing is bound. -/
def empty : Environment := ⟨fun _ => none, fun _ => none⟩

/-- The innermost binding of a name. -/
def visible (env : Environment) (name : String) : Option SymbolId :=
  (env.inner name).or (env.outer name)

/-- The environment at the start of a scope: all that was in sight is now around
it. -/
def enter (env : Environment) : Environment := ⟨fun _ => none, env.visible⟩

/-- A binding added to the innermost scope. -/
def bind (env : Environment) (name : String) (symbol : SymbolId) : Environment :=
  { env with inner := fun other => if other = name then some symbol else env.inner other }

end Environment

/-- The bindings made so far: the name of each, and the kind of statement that
made it.  A symbol is a position in the ledger. -/
abbrev Ledger := List (String × Origin)

namespace Ledger

/-- The symbol table that a ledger describes; no symbol has a type yet. -/
def table (ledger : Ledger) : SymbolTable :=
  ⟨(ledger.map fun entry => ⟨entry.1, entry.2, none⟩).toArray⟩

end Ledger

namespace Reference

/-! ## The reference resolver -/

/-- The value, if all names are bound; else the first that is not is the error. -/
def ifBound {α : Type} (symbolOf : String → Option SymbolId) (names : List String) (value : α) :
    Except Diagnostic α :=
  match names.find? fun name => (symbolOf name).isNone with
  | some name => .error (.unresolvedName name)
  | none => .ok value

/-- An expression in an environment: every use gets its symbol. -/
def expr (env : Environment) (value : Expr) : Except Diagnostic Expr :=
  ifBound env.visible value.uses (value.annotate env.visible)

/-- Expressions in an environment. -/
def exprs (env : Environment) (values : List Expr) : Except Diagnostic (List Expr) :=
  ifBound env.visible (values.flatMap Expr.uses) (values.map (Expr.annotate env.visible))

/-- An expression that may be missing. -/
def expr? (env : Environment) : Option Expr → Except Diagnostic (Option Expr)
  | some value => (expr env value).map some
  | none => .ok none

/-- The binding of a name in the innermost scope, a new one if there is none. -/
def declare (env : Environment) (ledger : Ledger) (name : String) (origin : Origin) :
    SymbolId × Environment × Ledger :=
  match env.inner name with
  | some symbol => (symbol, env, ledger)
  | none => (⟨ledger.length⟩, env.bind name ⟨ledger.length⟩, ledger ++ [(name, origin)])

/-- The binding that a statement writes to: a declaration binds in the innermost
scope, an assignment takes the innermost binding in sight if there is one. -/
def target (env : Environment) (ledger : Ledger) (form : BindingForm) (name : String) :
    SymbolId × Environment × Ledger :=
  match form with
  | .declaration => declare env ledger name .declaration
  | .assignment =>
    match env.visible name with
    | some symbol => (symbol, env, ledger)
    | none => declare env ledger name .assignment

mutual

/-- A statement in an environment, with the environment after it. -/
def stmt (env : Environment) (ledger : Ledger) :
    Stmt → Except Diagnostic (Stmt × Environment × Ledger)
  | .bind form name ascription value _ => do
    let value ← expr? env value
    let (symbol, env, ledger) := target env ledger form name
    return (.bind form name ascription value (some symbol), env, ledger)
  | .print value => do
    let value ← expr env value
    return (.print value, env, ledger)
  | .evaluate value => do
    let value ← expr env value
    return (.evaluate value, env, ledger)
  | .branch condition yes none => do
    let condition ← expr env condition
    let (yes, _, ledger) ← stmts env.enter ledger yes
    return (.branch condition yes none, env, ledger)
  | .branch condition yes (some no) => do
    let condition ← expr env condition
    let (yes, _, ledger) ← stmts env.enter ledger yes
    let (no, _, ledger) ← stmts env.enter ledger no
    return (.branch condition yes (some no), env, ledger)
  | .whileLoop condition body => do
    let condition ← expr env condition
    let (body, _, ledger) ← stmts env.enter ledger body
    return (.whileLoop condition body, env, ledger)
  | .forLoop name _ bounds body => do
    let bounds ← exprs env.enter bounds
    let (symbol, loop, ledger) := declare env.enter ledger name .loopVariable
    let (body, _, ledger) ← stmts loop.enter ledger body
    return (.forLoop name (some symbol) bounds body, env, ledger)
  | .block body => do
    let (body, _, ledger) ← stmts env.enter ledger body
    return (.block body, env, ledger)

/-- Statements one after the other, each in the environment that the one before
it leaves. -/
def stmts (env : Environment) (ledger : Ledger) :
    List Stmt → Except Diagnostic (List Stmt × Environment × Ledger)
  | [] => return ([], env, ledger)
  | first :: rest => do
    let (first, env, ledger) ← stmt env ledger first
    let (rest, env, ledger) ← stmts env ledger rest
    return (first :: rest, env, ledger)

end

/-- A program with every name bound, and the table of its symbols. -/
def program (body : Program) : Except Diagnostic (Program × SymbolTable) := do
  let (body, _, ledger) ← stmts Environment.empty [] body
  return (body, ledger.table)

end Reference

end FlexWidth
