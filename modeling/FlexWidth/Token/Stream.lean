import FlexWidth.Text.Numeral
import FlexWidth.Token.Basic

/-!
# Token streams

What a parser has yet to read: the current token and those after it. A stream is
never empty. Its last token closes the program, so moving past it has no effect.
-/

namespace FlexWidth

/-- The unread tokens. -/
structure TokenStream where
  current : Token
  later : List Token
deriving DecidableEq, Repr

namespace TokenStream

/-- A token list with the end of input added, unless it is there. -/
def closed (tokens : List Token) : List Token :=
  if (tokens.getLast?.map Token.kind) = some .endOfInput then tokens
  else tokens ++ [Token.endOfInput]

/-- The stream of a token list, closed by the end of input. -/
def ofTokens (tokens : List Token) : TokenStream :=
  match closed tokens with
  | [] => ⟨Token.endOfInput, []⟩
  | first :: rest => ⟨first, rest⟩

/-- The number of unread tokens. -/
def size (stream : TokenStream) : Nat := stream.later.length + 1

/-- The stream after the current token, or the same stream on its last token. -/
def advance (stream : TokenStream) : TokenStream :=
  match stream.later with
  | [] => stream
  | next :: rest => ⟨next, rest⟩

/-- The token some places after the current one, or the last token if there are
not so many. -/
def peek (stream : TokenStream) (distance : Nat) : Token :=
  (stream.current :: stream.later)[distance]?.getD (stream.later.getLast?.getD stream.current)

/-- How many tokens of `start` were read to arrive at `stream`. -/
def position (start stream : TokenStream) : Nat := start.size - stream.size

/-- The token some places after the current one of a stream that began as
`start`. Places are counted from the start by 64-bit words, so there is no token
at a place beyond them; every nearer place past the end shows the last token. -/
def lookAhead? (start stream : TokenStream) (distance : Nat) : Option Token :=
  if position start stream + distance < Text.wordLimit then some (stream.peek distance) else none

end TokenStream

end FlexWidth
