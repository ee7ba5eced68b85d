import FlexWidth.Grammar.Parser

/-!
# Reading statements and written types

Each statement starts with a token that chooses its rule; any other token starts
an expression followed by a semicolon.
-/

namespace FlexWidth.Parser

/-! ## Written types -/

/-- The word `int`, with an optional width in parentheses. -/
def intAscription : Parser Ascription := do
  skip .intWord
  if (← currentKind) = .openParen then
    let _ ← advance
    let token ← expect .number
    let width ← numberBelow Text.widthLimit token
    skip .closeParen
    return .int width
  else return .int Ascription.defaultWidth

/-- The word `bool`. -/
def boolAscription : Parser Ascription := do
  skip .boolWord
  return .bool

/-- What an ascription rule reads. -/
def ascriptionRule (nested : Nested) : AscriptionRule → Parser Ascription
  | .any => nested .ascription
  | .int => intAscription
  | .bool => boolAscription

/-- A written type, by the rule of the current token. -/
def ascription (rules : Rules) (nested : Nested) : Parser Ascription := do
  match rules.ascription (← currentKind) with
  | some rule => ascriptionRule nested rule
  | none => reject "expected type"

/-! ## Statements -/

/-- An expression and a semicolon. -/
def expressionStmt (nested : Nested) : Parser Stmt := do
  let value ← nested (.expr .least)
  skip .semicolon
  return .evaluate value

/-- Statements in braces. -/
def block (nested : Nested) : Parser (List Stmt) := do
  skip .openCurly
  let body ← nested (.stmts [.closeCurly, .endOfInput])
  skip .closeCurly
  return body

/-- A block that stands as a statement. -/
def blockStmt (nested : Nested) : Parser Stmt := do
  let body ← block nested
  return .block body

/-- The written type of a declaration, if the current token starts one. -/
def optionalAscription (rules : Rules) (nested : Nested) : Parser (Option Ascription) := do
  match rules.ascription (← currentKind) with
  | some _ =>
    let written ← nested .ascription
    return some written
  | none => return none

/-- The initial value of a declaration, if an equals sign announces one. -/
def optionalValue (nested : Nested) : Parser (Option Expr) := do
  if (← currentKind) = .assignment then
    let _ ← advance
    let value ← nested (.expr .least)
    return some value
  else return none

/-- A declaration `x : T = e;`, where the type or the value may be missing, but
not both. -/
def declaration (rules : Rules) (nested : Nested) : Parser Stmt := do
  let name ← expect .identifier
  skip .colon
  let written ← optionalAscription rules nested
  let value ← optionalValue nested
  if written.isNone && value.isNone then reject "expected type or initializer"
  else
    skip .semicolon
    return .bind .declaration name.text written value none

/-- An assignment `x = e;`. -/
def assignment (nested : Nested) : Parser Stmt := do
  let name ← advance
  skip .assignment
  let value ← nested (.expr .least)
  skip .semicolon
  return .bind .assignment name.text none (some value) none

/-- A statement that starts with a name; the token after the name decides which. -/
def named (rules : Rules) (nested : Nested) : Parser Stmt := do
  let next ← peekKind 1
  if next = .colon then declaration rules nested
  else if next = .assignment then assignment nested
  else expressionStmt nested

/-- Output of a value, `output(0, e);`. -/
def print (nested : Nested) : Parser Stmt := do
  skip .outputWord
  skip .openParen
  streamNumber
  skip .comma
  let value ← nested (.expr .least)
  skip .closeParen
  skip .semicolon
  return .print value

/-- A condition in parentheses. -/
def condition (nested : Nested) : Parser Expr := do
  skip .openParen
  let value ← nested (.expr .least)
  skip .closeParen
  return value

/-- What follows the first block of an `if`: nothing, an `else` block, or an
`else if`, which is the only statement of its block. -/
def otherwise (nested : Nested) : Parser (Option (List Stmt)) := do
  if (← currentKind) = .elseWord then
    let _ ← advance
    if (← currentKind) = .ifWord then
      let next ← nested .branch
      return some [next]
    else
      let body ← block nested
      return some body
  else return none

/-- A branch `if (c) { … }`, with what may follow it. -/
def branch (nested : Nested) : Parser Stmt := do
  skip .ifWord
  let test ← condition nested
  let yes ← block nested
  let no ← otherwise nested
  return .branch test yes no

/-- A loop `while (c) { … }`. -/
def whileLoop (nested : Nested) : Parser Stmt := do
  skip .whileWord
  let test ← condition nested
  let body ← block nested
  return .whileLoop test body

/-- The bounds of a `for` loop after its first: colons, each before a bound. -/
def bounds (nested : Nested) : Parser (List Expr) := do
  if (← currentKind) = .colon then
    let _ ← advance
    let first ← nested (.expr .least)
    let rest ← nested .bounds
    return first :: rest
  else return []

/-- A loop `for (i in a : b) { … }`, with one or more bounds. -/
def forLoop (nested : Nested) : Parser Stmt := do
  skip .forWord
  skip .openParen
  let name ← expect .identifier
  skip .inWord
  let first ← nested (.expr .least)
  let rest ← nested .bounds
  skip .closeParen
  let body ← block nested
  return .forLoop name.text none (first :: rest) body

/-- What a statement rule reads. -/
def stmtRule (rules : Rules) (nested : Nested) : StmtRule → Parser Stmt
  | .any => nested .stmt
  | .expression => expressionStmt nested
  | .block => blockStmt nested
  | .named => named rules nested
  | .print => print nested
  | .branch => nested .branch
  | .whileLoop => whileLoop nested
  | .forLoop => forLoop nested

/-- A statement, by the rule of the current token. -/
def stmt (rules : Rules) (nested : Nested) : Parser Stmt := do
  match rules.stmt (← currentKind) with
  | some rule => stmtRule rules nested rule
  | none => expressionStmt nested

/-- Statements up to a token of one of the kinds `stop`. -/
def stmts (nested : Nested) (stop : List TokenKind) : Parser (List Stmt) := do
  if stop.contains (← currentKind) then return []
  else
    let first ← nested .stmt
    let rest ← nested (.stmts stop)
    return first :: rest

end FlexWidth.Parser
