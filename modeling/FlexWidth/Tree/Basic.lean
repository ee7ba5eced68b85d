/-!
# Syntax trees

Expressions and statements. One tree serves every stage of the front end: the
parser leaves the slots for symbols and types empty, resolution fills the former
and type checking the latter, adding conversions and loads where the language
leaves them implicit.
-/

namespace FlexWidth

/-- A handle of a type: its position in the universe of types. -/
structure TypeId where
  index : Nat
deriving DecidableEq, Repr

/-- A handle of a symbol: its position in the symbol table. -/
structure SymbolId where
  index : Nat
deriving DecidableEq, Repr

/-- A written type. -/
inductive Ascription where
  | int (width : Nat)
  | bool
deriving DecidableEq, Repr

namespace Ascription

/-- The width of an integer type written without one. -/
def defaultWidth : Nat := 32

/-- The text of a written type. -/
def text : Ascription → String
  | int width => "int(" ++ toString width ++ ")"
  | bool => "bool"

end Ascription

/-- An expression. The last argument of each node is its type, once it has one. -/
inductive Expr where
  /-- An integer literal. -/
  | literal (value : Nat) (type : Option TypeId)
  /-- A variable, with the symbol it is bound to. -/
  | var (name : String) (symbol : Option SymbolId) (type : Option TypeId)
  /-- One integer read from the input stream. -/
  | read (type : Option TypeId)
  | unary (operator : String) (operand : Expr) (type : Option TypeId)
  | binary (operator : String) (left right : Expr) (type : Option TypeId)
  /-- The operand's value in the representation of the node's own type. -/
  | conversion (operand : Expr) (type : Option TypeId)
  /-- The value stored where the operand lies. -/
  | load (place : Expr) (type : Option TypeId)
  /-- A struct literal: its fields in written order, named or positional. -/
  | glue (fields : List (Option String × Expr)) (type : Option TypeId)
  /-- A field taken by name, with its position once it is known. -/
  | dot (base : Expr) (field : String) (position : Option Nat) (type : Option TypeId)
  /-- A field taken by position. -/
  | index (base : Expr) (position : Nat) (type : Option TypeId)
deriving Repr

/-- The fields of a struct literal. -/
abbrev GlueFields := List (Option String × Expr)

namespace Expr

/-- The type of an expression, once it has one. -/
def type? : Expr → Option TypeId
  | literal _ type | var _ _ type | read type | unary _ _ type | binary _ _ _ type
  | conversion _ type | load _ type | glue _ type | dot _ _ _ type | index _ _ type => type

/-- The same expression with another type on its root. -/
def withType (type : TypeId) : Expr → Expr
  | literal value _ => literal value type
  | var name symbol _ => var name symbol type
  | read _ => read type
  | unary operator operand _ => unary operator operand type
  | binary operator left right _ => binary operator left right type
  | conversion operand _ => conversion operand type
  | load place _ => load place type
  | glue fields _ => glue fields type
  | dot base field position _ => dot base field position type
  | index base position _ => index base position type

@[simp] theorem type?_withType (expr : Expr) (type : TypeId) :
    (expr.withType type).type? = some type := by
  cases expr <;> rfl

/-- Whether an expression denotes a place rather than a value: variables, fields
and struct literals do. -/
def denotesStorage : Expr → Bool
  | var .. | dot .. | index .. | glue .. => true
  | _ => false

mutual

/-- How deeply operators and struct literals nest in an expression. Conversions,
loads and field accesses do not count. -/
def nesting : Expr → Nat
  | literal .. | var .. | read .. => 0
  | unary _ operand _ => operand.nesting + 1
  | binary _ left right _ => max left.nesting right.nesting + 1
  | conversion operand _ => operand.nesting
  | load place _ => place.nesting
  | glue fields _ => fieldsNesting fields + 1
  | dot base _ _ _ => base.nesting
  | index base _ _ => base.nesting

/-- The deepest nesting among the fields of a struct literal. -/
def fieldsNesting : GlueFields → Nat
  | [] => 0
  | (_, value) :: rest => max value.nesting (fieldsNesting rest)

end

end Expr

/-- How a binding introduces its name. -/
inductive BindingForm where
  /-- The form `x : T = e`, which binds in the current scope. -/
  | declaration
  /-- The form `x = e`, which writes the nearest visible `x` or declares one. -/
  | assignment
deriving DecidableEq, Repr

/-- A statement. -/
inductive Stmt where
  | bind (form : BindingForm) (name : String) (ascription : Option Ascription) (value : Option Expr)
    (symbol : Option SymbolId)
  /-- Output of a value, `output(0, e);`. -/
  | print (value : Expr)
  /-- An expression evaluated for its effect. -/
  | evaluate (value : Expr)
  | branch (condition : Expr) (yes : List Stmt) (no : Option (List Stmt))
  | whileLoop (condition : Expr) (body : List Stmt)
  | forLoop (name : String) (symbol : Option SymbolId) (bounds : List Expr) (body : List Stmt)
  | block (body : List Stmt)
deriving Repr

/-- A program is a list of statements. -/
abbrev Program := List Stmt

/-- The two kinds of binary operators. -/
inductive OperatorClass where
  /-- The result has the operands' type. -/
  | arithmetic
  /-- The result is a truth value. -/
  | relational
deriving DecidableEq, Repr

/-- The class of a binary operator, if it is one. -/
def OperatorClass.of? (operator : String) : Option OperatorClass :=
  match operator with
  | "+" | "-" | "*" | "/" | "&&" | "||" => some arithmetic
  | "<" | ">" | "<=" | ">=" | "==" | "!=" => some relational
  | _ => none

end FlexWidth
