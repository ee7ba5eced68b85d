import FlexWidth.Proofs.Token.Lexed
import FlexWidth.Tree.Basic

/-!
# The surface grammar

Which token lists spell which trees, given by the productions of the language and
without reference to the parser's tables.  In the usual notation:

```text
program   := stmt*
stmt      := ID ':' type '=' expr ';'  |  ID ':' '=' expr ';'  |  ID ':' type ';'
           | ID '=' expr ';'
           | 'output' '(' 0 ',' expr ')' ';'
           | branch
           | 'while' '(' expr ')' block
           | 'for' '(' ID 'in' expr (':' expr)* ')' block
           | block
           | expr ';'
branch    := 'if' '(' expr ')' block ('else' (block | branch))?
block     := '{' stmt* '}'
type      := 'int' ('(' INT ')')?  |  'bool'
expr      := disjunction
disjunction, conjunction, comparison, sum, product
          := itself, an operator of its own, the next  |  the next
signed    := '-' signed  |  access
access    := access '.' ID  |  access '.' INT
           | INT  |  ID  |  'input' '(' 0 ')'  |  '(' expr ')'
           | '(' field (',' field)* ','? ')'      with a comma or a named field
field     := (ID ':')? expr
```

A binary operator takes its left operand from its own stratum and its right
operand from the next tighter one, so every stratum associates to the left.
-/

namespace FlexWidth

open TokenKind (token spelling)

/-! ## Expressions -/

/-- The strata of expressions, from the loosest operators to no operator. -/
inductive Stratum where
  | disjunction
  | conjunction
  | comparison
  | sum
  | product
  /-- Signs before an operand. -/
  | signed
  /-- Fields of an operand, and operands. -/
  | access
deriving DecidableEq, Repr

namespace Stratum

/-- The binary operators of a stratum. -/
def operators : Stratum → List TokenKind
  | disjunction => [.or]
  | conjunction => [.and]
  | comparison => [.less, .greater, .lessEquals, .greaterEquals, .equals, .notEquals]
  | sum => [.plus, .dash]
  | product => [.star, .slash]
  | signed | access => []

/-- The next tighter stratum. -/
def tighter : Stratum → Stratum
  | disjunction => conjunction
  | conjunction => comparison
  | comparison => sum
  | sum => product
  | product => signed
  | signed | access => access

end Stratum

/-- The text is the numeral of a literal or a position. -/
abbrev IsWord (text : String) (value : Nat) : Prop := Text.IsNumeral Text.wordLimit text value

/-- The text is the numeral of a bit width. -/
abbrev IsWidth (text : String) (width : Nat) : Prop := Text.IsNumeral Text.widthLimit text width

mutual

/-- The tokens spell an expression of a stratum. -/
inductive SpellsExpr : Stratum → List Token → Expr → Prop where
  | tighter {stratum : Stratum} {tokens : List Token} {value : Expr} :
      SpellsExpr stratum.tighter tokens value → SpellsExpr stratum tokens value
  | binary {stratum : Stratum} {operator : TokenKind} {left right : List Token} {l r : Expr} :
      operator ∈ stratum.operators → SpellsExpr stratum left l →
      SpellsExpr stratum.tighter right r →
      SpellsExpr stratum (left ++ token operator :: right) (.binary (spelling operator) l r none)
  | sign {tokens : List Token} {operand : Expr} : SpellsExpr .signed tokens operand →
      SpellsExpr .signed (token .dash :: tokens) (.unary "-" operand none)
  | dot {tokens : List Token} {base : Expr} {field : String} : SpellsExpr .access tokens base →
      SpellsExpr .access (tokens ++ [token .dot, ⟨.identifier, field⟩]) (.dot base field none none)
  | index {tokens : List Token} {base : Expr} {text : String} {position : Nat} :
      SpellsExpr .access tokens base → IsWord text position →
      SpellsExpr .access (tokens ++ [token .dot, ⟨.number, text⟩]) (.index base position none)
  | literal {text : String} {value : Nat} : IsWord text value →
      SpellsExpr .access [⟨.number, text⟩] (.literal value none)
  | var {name : String} : SpellsExpr .access [⟨.identifier, name⟩] (.var name none none)
  | read {stream : String} : IsWord stream 0 →
      SpellsExpr .access
        [token .inputWord, token .openParen, ⟨.number, stream⟩, token .closeParen] (.read none)
  | group {tokens : List Token} {value : Expr} : SpellsExpr .disjunction tokens value →
      SpellsExpr .access (token .openParen :: tokens ++ [token .closeParen]) value
  | glue {tokens more : List Token} {first : Option String × Expr} {rest : GlueFields} :
      SpellsField tokens first → SpellsFields more rest → first.1.isSome ∨ more ≠ [] →
      SpellsExpr .access (token .openParen :: tokens ++ more ++ [token .closeParen])
        (.glue (first :: rest) none)

/-- The tokens spell a field of a struct literal. -/
inductive SpellsField : List Token → Option String × Expr → Prop where
  | named {name : String} {tokens : List Token} {value : Expr} :
      SpellsExpr .disjunction tokens value →
      SpellsField (⟨.identifier, name⟩ :: token .colon :: tokens) (some name, value)
  | positional {tokens : List Token} {value : Expr} : SpellsExpr .disjunction tokens value →
      SpellsField tokens (none, value)

/-- The tokens spell the fields of a struct literal after its first, each after a
comma, and perhaps one comma more. -/
inductive SpellsFields : List Token → GlueFields → Prop where
  | none : SpellsFields [] []
  | trailing : SpellsFields [token .comma] []
  | more {tokens more : List Token} {first : Option String × Expr} {rest : GlueFields} :
      SpellsField tokens first → SpellsFields more rest →
      SpellsFields (token .comma :: tokens ++ more) (first :: rest)

end

/-! ## Statements -/

/-- The tokens spell a written type. -/
inductive SpellsAscription : List Token → Ascription → Prop where
  | int : SpellsAscription [token .intWord] (.int Ascription.defaultWidth)
  | sized {text : String} {width : Nat} : IsWidth text width →
      SpellsAscription
        [token .intWord, token .openParen, ⟨.number, text⟩, token .closeParen] (.int width)
  | bool : SpellsAscription [token .boolWord] .bool

/-- The tokens spell the bounds of a loop after its first, each after a colon. -/
inductive SpellsBounds : List Token → List Expr → Prop where
  | none : SpellsBounds [] []
  | more {tokens more : List Token} {bound : Expr} {rest : List Expr} :
      SpellsExpr .disjunction tokens bound → SpellsBounds more rest →
      SpellsBounds (token .colon :: tokens ++ more) (bound :: rest)

mutual

/-- The tokens spell a statement. -/
inductive SpellsStmt : List Token → Stmt → Prop where
  | declareTyped {name : String} {written tokens : List Token} {ascription : Ascription}
      {value : Expr} :
      SpellsAscription written ascription → SpellsExpr .disjunction tokens value →
      SpellsStmt
        (⟨.identifier, name⟩ :: token .colon :: written ++ token .assignment :: tokens ++
          [token .semicolon])
        (.bind .declaration name (some ascription) (some value) none)
  | declareInferred {name : String} {tokens : List Token} {value : Expr} :
      SpellsExpr .disjunction tokens value →
      SpellsStmt
        (⟨.identifier, name⟩ :: token .colon :: token .assignment :: tokens ++ [token .semicolon])
        (.bind .declaration name none (some value) none)
  | declareOnly {name : String} {written : List Token} {ascription : Ascription} :
      SpellsAscription written ascription →
      SpellsStmt (⟨.identifier, name⟩ :: token .colon :: written ++ [token .semicolon])
        (.bind .declaration name (some ascription) none none)
  | assign {name : String} {tokens : List Token} {value : Expr} :
      SpellsExpr .disjunction tokens value →
      SpellsStmt (⟨.identifier, name⟩ :: token .assignment :: tokens ++ [token .semicolon])
        (.bind .assignment name none (some value) none)
  | print {stream : String} {tokens : List Token} {value : Expr} :
      IsWord stream 0 → SpellsExpr .disjunction tokens value →
      SpellsStmt
        (token .outputWord :: token .openParen :: ⟨.number, stream⟩ :: token .comma :: tokens ++
          [token .closeParen, token .semicolon])
        (.print value)
  | branch {tokens : List Token} {st : Stmt} : SpellsBranch tokens st → SpellsStmt tokens st
  | whileLoop {test body : List Token} {condition : Expr} {stmts : List Stmt} :
      SpellsExpr .disjunction test condition → SpellsBlock body stmts →
      SpellsStmt
        (token .whileWord :: token .openParen :: test ++ token .closeParen :: body)
        (.whileLoop condition stmts)
  | forLoop {name : String} {first more body : List Token} {bound : Expr} {rest : List Expr}
      {stmts : List Stmt} :
      SpellsExpr .disjunction first bound → SpellsBounds more rest → SpellsBlock body stmts →
      SpellsStmt
        (token .forWord :: token .openParen :: ⟨.identifier, name⟩ :: token .inWord :: first ++
          more ++ token .closeParen :: body)
        (.forLoop name none (bound :: rest) stmts)
  | block {tokens : List Token} {body : List Stmt} : SpellsBlock tokens body →
      SpellsStmt tokens (.block body)
  | evaluate {tokens : List Token} {value : Expr} : SpellsExpr .disjunction tokens value →
      SpellsStmt (tokens ++ [token .semicolon]) (.evaluate value)

/-- The tokens spell an `if` statement.  An `else if` is the only statement of the
`else` block. -/
inductive SpellsBranch : List Token → Stmt → Prop where
  | plain {test first : List Token} {condition : Expr} {yes : List Stmt} :
      SpellsExpr .disjunction test condition → SpellsBlock first yes →
      SpellsBranch (token .ifWord :: token .openParen :: test ++ token .closeParen :: first)
        (.branch condition yes none)
  | otherwise {test first second : List Token} {condition : Expr} {yes no : List Stmt} :
      SpellsExpr .disjunction test condition → SpellsBlock first yes → SpellsBlock second no →
      SpellsBranch
        (token .ifWord :: token .openParen :: test ++ token .closeParen :: first ++
          token .elseWord :: second)
        (.branch condition yes (some no))
  | chained {test first second : List Token} {condition : Expr} {yes : List Stmt} {next : Stmt} :
      SpellsExpr .disjunction test condition → SpellsBlock first yes → SpellsBranch second next →
      SpellsBranch
        (token .ifWord :: token .openParen :: test ++ token .closeParen :: first ++
          token .elseWord :: second)
        (.branch condition yes (some [next]))

/-- The tokens spell statements in braces. -/
inductive SpellsBlock : List Token → List Stmt → Prop where
  | braces {tokens : List Token} {body : List Stmt} : SpellsStmts tokens body →
      SpellsBlock (token .openCurly :: tokens ++ [token .closeCurly]) body

/-- The tokens spell statements in a row. -/
inductive SpellsStmts : List Token → List Stmt → Prop where
  | nil : SpellsStmts [] []
  | cons {tokens more : List Token} {first : Stmt} {rest : List Stmt} :
      SpellsStmt tokens first → SpellsStmts more rest → SpellsStmts (tokens ++ more) (first :: rest)

end

end FlexWidth
