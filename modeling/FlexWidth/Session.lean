import FlexWidth.Frontend
import FlexWidth.Tree.Outline

/-!
# Sessions

A session works on one program piece by piece. Its scopes, symbols and types
stay from one step to the next, also after a step that fails.
-/

namespace FlexWidth

/-- What a session remembers. -/
structure Session where
  scopes : List Scope
  symbols : SymbolTable
  types : Universe

/-- A step of a session. -/
abbrev SessionM := EStateM Failure Session

namespace Session

/-- A session in which nothing has happened. -/
def start : Session := ⟨[], .empty, .empty⟩

/-- The number of open scopes. -/
def depth (session : Session) : Nat := session.scopes.length

/-- A step that binds names. -/
def resolving {α : Type} (step : ResolveM α) : SessionM α := fun session =>
  match step ⟨session.scopes, session.symbols, #[]⟩ with
  | .ok result scoping =>
    .ok result { session with scopes := scoping.scopes, symbols := scoping.symbols }
  | .error failure scoping =>
    .error failure { session with scopes := scoping.scopes, symbols := scoping.symbols }

/-- A step that types. -/
def checking {α : Type} (step : CheckM α) : SessionM α := fun session =>
  match step ⟨session.types, session.symbols, #[]⟩ with
  | .ok result checking =>
    .ok result { session with types := checking.types, symbols := checking.symbols }
  | .error failure checking =>
    .error failure { session with types := checking.types, symbols := checking.symbols }

/-- Binds the names of statements in the current scope. -/
def resolve (body : List Stmt) : SessionM (List Stmt) := resolving (Resolve.stmts body)

/-- Types statements whose names are bound. -/
def typecheck (body : List Stmt) : SessionM (List Stmt) := checking (Check.stmts body)

/-- Binds the names of statements in the current scope and types them. -/
def check (body : List Stmt) : SessionM (List Stmt) := do
  typecheck (← resolve body)

/-- Binds the names of statements in a scope of their own and types them. -/
def checkBlock (body : List Stmt) : SessionM (List Stmt) := do
  typecheck (← resolving (Resolve.block body))

end Session

end FlexWidth
