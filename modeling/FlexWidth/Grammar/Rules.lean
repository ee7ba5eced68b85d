import FlexWidth.Token.Basic

/-!
# Grammar rules

The parser is driven by tables from token kinds to rules. A *head* rule starts
an expression, a *tail* rule extends one that has been read, a *statement* rule
starts a statement and an *ascription* rule a written type. A tail rule comes
with a power, which says how tightly its operator binds.

`Rules.standard` holds the language's own tables.
-/

namespace FlexWidth

/-- How tightly an operator binds, from the loosest to the tightest. -/
inductive Power where
  | least
  | logicalOr
  | logicalAnd
  | relational
  | additive
  | multiplicative
  | unary
  | member
deriving DecidableEq, Repr

namespace Power

/-- The place of a power in the order. -/
def rank : Power → Nat
  | least => 0
  | logicalOr => 1
  | logicalAnd => 2
  | relational => 3
  | additive => 4
  | multiplicative => 5
  | unary => 6
  | member => 7

/-- Looser powers come first. -/
instance : LT Power := ⟨fun loose tight => loose.rank < tight.rank⟩

instance (loose tight : Power) : Decidable (loose < tight) :=
  inferInstanceAs (Decidable (loose.rank < tight.rank))

/-- Every power, from the loosest on. -/
def all : List Power :=
  [least, logicalOr, logicalAnd, relational, additive, multiplicative, unary, member]

/-- The name of a power. -/
def name : Power → String
  | least => "Default"
  | logicalOr => "LogicalOr"
  | logicalAnd => "LogicalAnd"
  | relational => "Relational"
  | additive => "Additive"
  | multiplicative => "Multiplicative"
  | unary => "Unary"
  | member => "Member"

/-- The power of a given name. -/
def ofName? (name : String) : Option Power := all.find? fun power => power.name == name

end Power

/-- How an expression starts. -/
inductive HeadRule where
  /-- A number or an identifier. -/
  | primary
  /-- An operator before its operand. -/
  | sign
  /-- A parenthesised expression or a struct literal. -/
  | parens
  /-- Reads `input(0)`. -/
  | read
deriving DecidableEq, Repr

/-- How an expression goes on. -/
inductive TailRule where
  /-- An operator between two operands. -/
  | binary
  /-- A dot and a field. -/
  | member
deriving DecidableEq, Repr

/-- How a statement starts. -/
inductive StmtRule where
  /-- Whatever rule the current token has. -/
  | any
  | expression
  | block
  /-- A declaration, an assignment or an expression that starts with a name. -/
  | named
  | print
  | branch
  | whileLoop
  | forLoop
deriving DecidableEq, Repr

/-- How a written type starts. -/
inductive AscriptionRule where
  /-- Whatever rule the current token has. -/
  | any
  | int
  | bool
deriving DecidableEq, Repr

/-- The tables that drive the parser. -/
structure Rules where
  head : TokenKind → Option HeadRule
  tail : TokenKind → Option (Power × TailRule)
  stmt : TokenKind → Option StmtRule
  ascription : TokenKind → Option AscriptionRule

namespace Rules

/-- Tables without any rule. -/
def empty : Rules :=
  { head := fun _ => none
    tail := fun _ => none
    stmt := fun _ => none
    ascription := fun _ => none }

/-- How an expression of the language starts. -/
def standardHead : TokenKind → Option HeadRule
  | .number | .identifier => some .primary
  | .dash => some .sign
  | .openParen => some .parens
  | .inputWord => some .read
  | _ => none

/-- How an expression of the language goes on. -/
def standardTail : TokenKind → Option (Power × TailRule)
  | .or => some (.logicalOr, .binary)
  | .and => some (.logicalAnd, .binary)
  | .less | .lessEquals | .greater | .greaterEquals | .equals | .notEquals =>
    some (.relational, .binary)
  | .plus | .dash => some (.additive, .binary)
  | .star | .slash => some (.multiplicative, .binary)
  | .dot => some (.member, .member)
  | _ => none

/-- How a statement of the language starts, if it is not an expression. -/
def standardStmt : TokenKind → Option StmtRule
  | .identifier => some .named
  | .outputWord => some .print
  | .ifWord => some .branch
  | .whileWord => some .whileLoop
  | .forWord => some .forLoop
  | .openCurly => some .block
  | _ => none

/-- How a written type of the language starts. -/
def standardAscription : TokenKind → Option AscriptionRule
  | .intWord => some .int
  | .boolWord => some .bool
  | _ => none

/-- The language's own tables. -/
def standard : Rules :=
  { head := standardHead
    tail := standardTail
    stmt := standardStmt
    ascription := standardAscription }

/-- Adds the rules of one table to another; those added win. -/
def overlay (rules added : Rules) : Rules :=
  { head := fun kind => (added.head kind).or (rules.head kind)
    tail := fun kind => (added.tail kind).or (rules.tail kind)
    stmt := fun kind => (added.stmt kind).or (rules.stmt kind)
    ascription := fun kind => (added.ascription kind).or (rules.ascription kind) }

/-- Sets the head rule of one kind. -/
def setHead (rules : Rules) (kind : TokenKind) (rule : HeadRule) : Rules :=
  { rules with head := fun other => if other = kind then some rule else rules.head other }

/-- Sets the tail rule of one kind and its power. -/
def setTail (rules : Rules) (kind : TokenKind) (power : Power) (rule : TailRule) : Rules :=
  { rules with tail := fun other => if other = kind then some (power, rule) else rules.tail other }

/-- Sets the statement rule of one kind. -/
def setStmt (rules : Rules) (kind : TokenKind) (rule : StmtRule) : Rules :=
  { rules with stmt := fun other => if other = kind then some rule else rules.stmt other }

/-- Sets the ascription rule of one kind. -/
def setAscription (rules : Rules) (kind : TokenKind) (rule : AscriptionRule) : Rules :=
  { rules with
    ascription := fun other => if other = kind then some rule else rules.ascription other }

/-- The power with which a kind continues an expression; the least if it does
not. -/
def power (rules : Rules) (kind : TokenKind) : Power :=
  match rules.tail kind with
  | some (power, _) => power
  | none => .least

end Rules

end FlexWidth
