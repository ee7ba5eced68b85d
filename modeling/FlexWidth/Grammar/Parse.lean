import FlexWidth.Grammar.Expr
import FlexWidth.Grammar.Stmt

/-!
# Parsing

The rules refer to one another through `Nested`; here the knot is tied.
`parseWithin` bounds how deeply phrases may nest, and `allowance` is a bound
that the language's own rules never reach, since at most three nested phrases
start at one token. Rules that recur without reading, which only a caller's own
tables can hold, end in a fault.
-/

namespace FlexWidth

namespace Parser

/-- One phrase, given parsers for those inside it. -/
def phrase (rules : Rules) (nested : Nested) : {α : Type} → Nonterminal α → Parser α
  | _, .expr above => expr rules nested above
  | _, .extension above left => extension rules nested above left
  | _, .fields => fields nested
  | _, .bounds => bounds nested
  | _, .stmt => stmt rules nested
  | _, .stmts stop => stmts nested stop
  | _, .branch => branch nested
  | _, .ascription => ascription rules nested

/-- One phrase in which phrases nest at most `depth` deep. -/
def parseWithin (rules : Rules) : Nat → {α : Type} → Nonterminal α → Parser α
  | 0, _, _ => fault .recursionDepth
  | depth + 1, _, nonterminal => phrase rules (parseWithin rules depth) nonterminal

/-- How deeply phrases can nest in a stream. -/
def allowance (stream : TokenStream) : Nat := 4 * (stream.size + 1)

/-- Parsers for all nonterminals that nest as deeply as the stream at hand
allows. -/
def nested (rules : Rules) : Nested := fun nonterminal stream =>
  parseWithin rules (allowance stream) nonterminal stream

end Parser

/-- The program that a token list spells. -/
def parse (tokens : List Token) : Except Failure Program :=
  outcome (Parser.nested Rules.standard (.stmts [.endOfInput]) (TokenStream.ofTokens tokens))

end FlexWidth
