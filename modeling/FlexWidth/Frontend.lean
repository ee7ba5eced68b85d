import FlexWidth.Grammar.Parse
import FlexWidth.Scope.Resolve
import FlexWidth.Token.Lexeme
import FlexWidth.Typing.Stmt

/-!
# The front end

The stages in a row: a source text is cut into tokens, the tokens are read as a
program, the names of the program are bound to symbols, and its expressions are
typed. The log of a run holds the events of all stages up to the first failure.
-/

namespace FlexWidth

/-- A run of the front end; its state is the log. -/
abbrev Frontend := EStateM Failure (Array Event)

/-- A program all of whose names are bound and whose expressions are typed, with
the types and symbols that its handles point to. -/
structure CheckedProgram where
  body : Program
  types : Universe
  symbols : SymbolTable

namespace Frontend

/-- Adds an event to the log. -/
def note (event : Event) : Frontend Unit := modify fun log => log.push event

/-- The tokens of a source text. -/
def tokens (source : String) : Frontend (List Token) := do
  let tokens ← ofExcept (tokenize source)
  note (.tokenized tokens.length)
  return tokens

/-- The program that tokens spell. -/
def program (tokens : List Token) : Frontend Program := do
  match parse tokens with
  | .ok body =>
    note (.parsed body.length)
    return body
  | .error failure => throw failure

/-- The program that a source text spells. -/
def sourceProgram (source : String) : Frontend Program := do
  program (← tokens source)

/-- Binds the names of a program. -/
def resolve (body : Program) : Frontend (Program × SymbolTable) := fun log =>
  match Resolve.program body { Scoping.empty with log := log } with
  | .ok body scoping => .ok (body, scoping.symbols) scoping.log
  | .error failure scoping => .error failure scoping.log

/-- Types a program whose names are bound. -/
def typecheck (body : Program) (symbols : SymbolTable) : Frontend CheckedProgram := fun log =>
  match Check.program body { types := .empty, symbols := symbols, log := log } with
  | .ok body checking => .ok ⟨body, checking.types, checking.symbols⟩ checking.log
  | .error failure checking => .error failure checking.log

/-- Binds the names of a program and types it. -/
def check (body : Program) : Frontend CheckedProgram := do
  let (body, symbols) ← resolve body
  typecheck body symbols

end Frontend

/-- The program that a source text spells. -/
def parseSource (source : String) : Except Failure Program :=
  outcome (Frontend.sourceProgram source #[])

/-- The program that a source text spells, its names bound and its expressions
typed. -/
def checkSource (source : String) : Except Failure CheckedProgram :=
  outcome ((Frontend.sourceProgram source >>= Frontend.check) #[])

end FlexWidth
