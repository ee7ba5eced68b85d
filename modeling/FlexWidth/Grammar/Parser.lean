import FlexWidth.Failure
import FlexWidth.Grammar.Rules
import FlexWidth.Text.Numeral
import FlexWidth.Token.Stream
import FlexWidth.Tree.Basic

/-!
# Parsers

A parser reads from a token stream. It fails without giving back what it has
read, so the stream after a failure shows where the parser stopped.

The phrases that contain one another are named by `Nonterminal`, whose index is
the type of what the phrase stands for.
-/

namespace FlexWidth

/-- A computation that reads tokens; the stream survives a failure. -/
abbrev Parser := EStateM Failure TokenStream

/-- The phrases of the grammar that can nest. -/
inductive Nonterminal : Type → Type where
  /-- An expression whose operators bind tighter than `above`. -/
  | expr (above : Power) : Nonterminal Expr
  /-- What extends the expression `left` by operators that bind tighter than
  `above`. -/
  | extension (above : Power) (left : Expr) : Nonterminal Expr
  /-- The fields of a struct literal after its first. -/
  | fields : Nonterminal GlueFields
  /-- The bounds of a `for` loop after its first. -/
  | bounds : Nonterminal (List Expr)
  /-- A statement. -/
  | stmt : Nonterminal Stmt
  /-- Statements up to a token of one of the kinds `stop`. -/
  | stmts (stop : List TokenKind) : Nonterminal (List Stmt)
  /-- An `if` statement. -/
  | branch : Nonterminal Stmt
  /-- A written type. -/
  | ascription : Nonterminal Ascription

/-- Parsers for all nonterminals: what a rule uses for the phrases inside its
own. -/
abbrev Nested := {α : Type} → Nonterminal α → Parser α

namespace Parser

/-- The current token. -/
def current : Parser Token := do
  return (← get).current

/-- The kind of the current token. -/
def currentKind : Parser TokenKind := do
  return (← get).current.kind

/-- The kind of the token some places after the current one. -/
def peekKind (distance : Nat) : Parser TokenKind := do
  return ((← get).peek distance).kind

/-- Reads the current token. -/
def advance : Parser Token := modifyGet fun stream => (stream.current, stream.advance)

/-- Fails at the current token. -/
def reject {α : Type} (message : String) : Parser α := do
  refuse (.syntaxError (← get).current.text message)

/-- Reads a token of one kind, or fails. -/
def expect (kind : TokenKind) : Parser Token := do
  if (← currentKind) = kind then advance else reject ("expected " ++ kind.name)

/-- Passes over a token of one kind, or fails. -/
def skip (kind : TokenKind) : Parser Unit := do
  let _ ← expect kind

/-- The value of a number token, below a limit. -/
def numberBelow (limit : Nat) (token : Token) : Parser Nat :=
  orRefuse (.numberParseError token.text) (Text.numeral? limit token.text)

/-- The value of a number token as a literal or a position. -/
def number (token : Token) : Parser Nat := numberBelow Text.wordLimit token

/-- Passes over the number of a stream; there is only stream `0`. -/
def streamNumber : Parser Unit := do
  if (← currentKind) = .number then
    let value ← number (← current)
    if value = 0 then
      let _ ← advance
    else reject "only stream 0 is supported"
  else reject "expected stream number"

end Parser

end FlexWidth
