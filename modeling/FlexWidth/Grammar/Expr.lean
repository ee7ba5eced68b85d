import FlexWidth.Grammar.Parser

/-!
# Reading expressions

The head rules, the tail rules, and how they combine: an expression is a head
extended by tails as long as their operators bind tighter than what surrounds
the expression.

Each rule is given parsers for the phrases inside it.
-/

namespace FlexWidth.Parser

/-- A number or an identifier. -/
def primary : Parser Expr := do
  let kind ← currentKind
  if kind = .number then
    let value ← number (← advance)
    return .literal value none
  else if kind = .identifier then
    let token ← advance
    return .var token.text none none
  else reject "expected literal or identifier"

/-- An operator and its operand, which takes only what binds tighter than a
sign. -/
def sign (nested : Nested) : Parser Expr := do
  let operator ← advance
  let operand ← nested (.expr .unary)
  return .unary operator.text operand none

/-- Whether the current token is the name of a field: an identifier before a
colon. -/
def startsNamedField : Parser Bool := do
  let kind ← currentKind
  let next ← peekKind 1
  return kind = .identifier ∧ next = .colon

/-- One field of a struct literal. -/
def field (nested : Nested) : Parser (Option String × Expr) := do
  if ← startsNamedField then
    let name ← advance
    skip .colon
    let value ← nested (.expr .least)
    return (some name.text, value)
  else
    let value ← nested (.expr .least)
    return (none, value)

/-- The fields of a struct literal after its first: commas, each before a field
or the closing parenthesis. -/
def fields (nested : Nested) : Parser GlueFields := do
  if (← currentKind) = .comma then
    let _ ← advance
    if (← currentKind) = .closeParen then return []
    else
      let first ← field nested
      let rest ← nested .fields
      return first :: rest
  else return []

/-- Parentheses hold a struct literal if they hold a comma or a named field;
otherwise they only group. -/
def parens (nested : Nested) : Parser Expr := do
  skip .openParen
  let named ← startsNamedField
  let first ← field nested
  let kind ← currentKind
  if named ∨ kind = .comma then
    let rest ← nested .fields
    skip .closeParen
    return .glue (first :: rest) none
  else
    skip .closeParen
    return first.2

/-- Reads `input(0)`. -/
def read : Parser Expr := do
  skip .inputWord
  skip .openParen
  streamNumber
  skip .closeParen
  return .read none

/-- An operator and its right operand, which takes only what binds tighter than
the operator. -/
def binary (nested : Nested) (left : Expr) (power : Power) : Parser Expr := do
  let operator ← advance
  let right ← nested (.expr power)
  return .binary operator.text left right none

/-- A dot and the name or the position of a field. -/
def member (left : Expr) : Parser Expr := do
  skip .dot
  let kind ← currentKind
  if kind = .identifier then
    let token ← advance
    return .dot left token.text none none
  else if kind = .number then
    let position ← number (← advance)
    return .index left position none
  else reject "expected field name or index"

/-- What a head rule reads. -/
def head (nested : Nested) : HeadRule → Parser Expr
  | .primary => primary
  | .sign => sign nested
  | .parens => parens nested
  | .read => read

/-- What a tail rule reads after `left`. -/
def tail (nested : Nested) (left : Expr) (power : Power) : TailRule → Parser Expr
  | .binary => binary nested left power
  | .member => member left

/-- A head and its extensions. -/
def expr (rules : Rules) (nested : Nested) (above : Power) : Parser Expr := do
  match rules.head (← currentKind) with
  | some rule =>
    let left ← head nested rule
    nested (.extension above left)
  | none => reject "expected expression"

/-- Extends `left` as long as the current token binds tighter than `above`. -/
def extension (rules : Rules) (nested : Nested) (above : Power) (left : Expr) : Parser Expr := do
  match rules.tail (← currentKind) with
  | some (power, rule) =>
    if above < power then
      let longer ← tail nested left power rule
      nested (.extension above longer)
    else return left
  | none => return left

end FlexWidth.Parser
