import FlexWidth.Text.Quoted

/-!
# Diagnostics

Why a program is refused. A diagnostic is its cause and the pieces of the
program that the cause speaks of; its wording is given by `Diagnostic.name`,
`Diagnostic.message` and `Diagnostic.tip?`.
-/

namespace FlexWidth

open Text (quoted)

/-- The cause for which a program is refused. -/
inductive Diagnostic where
  /-- No token starts with this character. -/
  | unrecognisedToken (token : String)
  /-- The token stands where the grammar asks for something else. -/
  | syntaxError (token message : String)
  /-- The token is no number of the range wanted. -/
  | numberParseError (token : String)
  /-- The name is used where no binding of it is visible. -/
  | unresolvedName (name : String)
  /-- The variable is used, or declared, without ever getting a type. -/
  | unboundSymbolType (name : String)
  /-- The variable gets a type although it has one. -/
  | duplicateDeclaration (name : String)
  /-- A struct literal has two fields of one name. -/
  | duplicateField (field : String)
  /-- A value of one type stands where another is wanted. -/
  | typeMismatch (expected received : String)
  /-- The literal lies outside the range of its type. -/
  | literalOutOfRange (value type : String)
  /-- An integer type has no bits. -/
  | invalidWidth (width : Nat)
  /-- The operator has no typing rule. -/
  | unknownOperator (operator : String)
  /-- The struct has no such field. -/
  | unknownField (field type : String)
  /-- A field is taken of something that is no struct. -/
  | invalidFieldAccess (type : String)
  /-- A typed program cannot be lowered. -/
  | loweringError (message : String)
  /-- The lowered module is malformed. -/
  | verificationFailure (message : String)
deriving DecidableEq, Repr

namespace Diagnostic

/-- The short name of the cause. -/
def name : Diagnostic → String
  | unrecognisedToken _ => "UnrecognisedToken"
  | syntaxError _ _ => "SyntaxError"
  | numberParseError _ => "NumberParseError"
  | unresolvedName _ => "UnresolvedName"
  | unboundSymbolType _ => "UnboundSymbolType"
  | duplicateDeclaration _ => "DuplicateDeclaration"
  | duplicateField _ => "DuplicateField"
  | typeMismatch _ _ => "TypeMismatch"
  | literalOutOfRange _ _ => "LiteralOutOfRange"
  | invalidWidth _ => "InvalidWidth"
  | unknownOperator _ => "UnknownOperator"
  | unknownField _ _ => "UnknownField"
  | invalidFieldAccess _ => "InvalidFieldAccess"
  | loweringError _ => "LoweringError"
  | verificationFailure _ => "InternalVerificationFailure"

/-- The full message. Pieces of the program stand in quotes, types do not. -/
def message : Diagnostic → String
  | unrecognisedToken token => "unrecognised token: " ++ quoted token
  | syntaxError token message => "syntax error (" ++ message ++ "): " ++ quoted token
  | numberParseError token => "error parsing number: " ++ quoted token
  | unresolvedName name => "unresolved name " ++ quoted name
  | unboundSymbolType name => "symbol " ++ quoted name ++ " has no type"
  | duplicateDeclaration name => "variable " ++ quoted name ++ " already declared with a type"
  | duplicateField field => "field " ++ quoted field ++ " written twice in struct literal"
  | typeMismatch expected received =>
    "types do not match: expected " ++ expected ++ ", received " ++ received
  | literalOutOfRange value type => "literal " ++ value ++ " does not fit in " ++ type
  | invalidWidth width => "invalid integer width " ++ toString width
  | unknownOperator operator => "unknown operator " ++ quoted operator
  | unknownField field type => "unknown field " ++ quoted field ++ " on " ++ type
  | invalidFieldAccess type => "field access on non-struct type " ++ type
  | loweringError message => "lowering error: " ++ message
  | verificationFailure message => "module verification failed: " ++ message

/-- The advice given to the programmer; an unrecognised token comes without any. -/
def tip? : Diagnostic → Option String
  | unrecognisedToken _ => none
  | syntaxError token message => some s!"Unexpected token: `{token}`, {message}"
  | numberParseError token => some s!"Invalid number: `{token}`, is it above the integer limit?"
  | unresolvedName name => some s!"Variable `{name}` is used before it is assigned"
  | unboundSymbolType name =>
    some s!"Variable `{name}` has no type yet, give it a value or a type annotation"
  | duplicateDeclaration name => some s!"Variable `{name}` already has a type in this scope"
  | duplicateField field => some s!"Field `{field}` is written twice"
  | typeMismatch expected received => some s!"Expected type `{expected}`, received `{received}`"
  | literalOutOfRange value type => some s!"Literal `{value}` does not fit in `{type}`"
  | invalidWidth width => some s!"Integer width must be at least 1, found {width}"
  | unknownOperator operator => some s!"Operator `{operator}` is not supported"
  | unknownField field type => some s!"Type `{type}` has no field `{field}`"
  | invalidFieldAccess type => some s!"Fields can only be accessed on structs, found `{type}`"
  | loweringError message => some message
  | verificationFailure _ => some "The generated module is malformed, this is a compiler bug"

/-- One line on the diagnostic: its name, and the advice in parentheses if there
is any. -/
def summary (diagnostic : Diagnostic) : String :=
  match diagnostic.tip? with
  | some tip => diagnostic.name ++ " (" ++ tip ++ ")"
  | none => diagnostic.name

end Diagnostic

end FlexWidth
