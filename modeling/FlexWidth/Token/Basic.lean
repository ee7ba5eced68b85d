/-!
# Tokens

A token is a kind and the text it was read from.
-/

namespace FlexWidth

/-- The kinds of tokens. -/
inductive TokenKind where
  | endOfInput
  | number
  | identifier
  | openCurly
  | closeCurly
  | openParen
  | closeParen
  | assignment
  | equals
  | notEquals
  | less
  | lessEquals
  | greater
  | greaterEquals
  | or
  | and
  | dot
  | semicolon
  | colon
  | comma
  | plus
  | dash
  | slash
  | star
  | ifWord
  | elseWord
  | whileWord
  | forWord
  | inWord
  | outputWord
  | inputWord
  | intWord
  | boolWord
deriving DecidableEq, Repr

namespace TokenKind

/-- Every kind, in the order of declaration. -/
def all : List TokenKind :=
  [endOfInput, number, identifier, openCurly, closeCurly, openParen, closeParen, assignment, equals,
    notEquals, less, lessEquals, greater, greaterEquals, or, and, dot, semicolon, colon, comma, plus,
    dash, slash, star, ifWord, elseWord, whileWord, forWord, inWord, outputWord, inputWord, intWord,
    boolWord]

/-- The name of a kind, as diagnostics show it. -/
def name : TokenKind → String
  | endOfInput => "EOF"
  | number => "Number"
  | identifier => "Identifier"
  | openCurly => "OpenCurly"
  | closeCurly => "CloseCurly"
  | openParen => "OpenParen"
  | closeParen => "CloseParen"
  | assignment => "Assignment"
  | equals => "Equals"
  | notEquals => "NotEquals"
  | less => "Less"
  | lessEquals => "LessEquals"
  | greater => "Greater"
  | greaterEquals => "GreaterEquals"
  | or => "Or"
  | and => "And"
  | dot => "Dot"
  | semicolon => "Semicolon"
  | colon => "Colon"
  | comma => "Comma"
  | plus => "Plus"
  | dash => "Dash"
  | slash => "Slash"
  | star => "Star"
  | ifWord => "If"
  | elseWord => "Else"
  | whileWord => "While"
  | forWord => "For"
  | inWord => "In"
  | outputWord => "Output"
  | inputWord => "Input"
  | intWord => "Int"
  | boolWord => "Bool"

/-- The kind of a given name. -/
def ofName? (name : String) : Option TokenKind := all.find? fun kind => kind.name == name

/-- A word is reserved, or else an identifier. -/
def ofWord (word : String) : TokenKind :=
  match word with
  | "if" => ifWord
  | "else" => elseWord
  | "while" => whileWord
  | "for" => forWord
  | "in" => inWord
  | "output" => outputWord
  | "input" => inputWord
  | "int" => intWord
  | "bool" => boolWord
  | _ => identifier

end TokenKind

/-- A token: its kind and its text. -/
structure Token where
  kind : TokenKind
  text : String
deriving DecidableEq, Repr

namespace Token

/-- The token that closes every token list. -/
def endOfInput : Token := ⟨.endOfInput, "EOF"⟩

/-- How a token is shown: identifiers and numbers with their text, all others by
kind alone. -/
def describe (token : Token) : String :=
  match token.kind with
  | .identifier | .number => token.kind.name ++ " (" ++ token.text ++ ")"
  | kind => kind.name

/-- Whether the token's kind is among the given ones. -/
def isOneOf (token : Token) (kinds : List TokenKind) : Bool := kinds.contains token.kind

end Token

end FlexWidth
