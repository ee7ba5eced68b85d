import FlexWidth.Failure
import FlexWidth.Text.Blank
import FlexWidth.Token.Basic

/-!
# Lexemes

A source text is cut into *lexemes*: stretches of characters that each match a
pattern. The patterns are tried in a fixed order and the first that matches
decides. Longer marks stand before the marks they start with, and comments
before the slash, so the first match is also a longest one.

Blanks and comments are lexemes without a token; every other lexeme is one
token.
-/

namespace FlexWidth

/-- Whether a character can start a word. -/
def startsWord (c : Char) : Bool := c.isAlpha || c == '_'

/-- Whether a character can continue a word. -/
def continuesWord (c : Char) : Bool := startsWord c || c.isDigit

/-- The shapes of lexemes. -/
inductive Pattern where
  /-- A letter or underscore and the letters, digits and underscores after it. -/
  | word
  /-- A run of decimal digits. -/
  | digits
  /-- A run of blanks. -/
  | blank
  /-- Two slashes and the rest of the line. -/
  | comment
  /-- One fixed mark, given by its first character and those after it. -/
  | mark (kind : TokenKind) (first : Char) (later : List Char)
deriving DecidableEq, Repr

namespace Pattern

/-- A run of characters of a class, at least one, and what follows it. -/
def splitRun? (first later : Char → Bool) : List Char → Option (List Char × List Char)
  | [] => none
  | c :: rest => if first c then some (c :: rest.takeWhile later, rest.dropWhile later) else none

/-- Cuts the longest stretch that matches the pattern off the front of a text. -/
def split? : Pattern → List Char → Option (List Char × List Char)
  | word, text => splitRun? startsWord continuesWord text
  | digits, text => splitRun? Char.isDigit Char.isDigit text
  | blank, text => splitRun? Text.isBlank Text.isBlank text
  | comment, '/' :: '/' :: rest =>
    some ('/' :: '/' :: rest.takeWhile (· != '\n'), rest.dropWhile (· != '\n'))
  | comment, _ => none
  | mark _ first later, text =>
    ((first :: later).isPrefixOf? text).map fun rest => (first :: later, rest)

/-- The patterns in the order in which they are tried. -/
def table : List Pattern :=
  [word, digits, blank, comment,
    mark .openCurly '{' [], mark .closeCurly '}' [],
    mark .openParen '(' [], mark .closeParen ')' [],
    mark .equals '=' ['='], mark .notEquals '!' ['='], mark .assignment '=' [],
    mark .lessEquals '<' ['='], mark .less '<' [],
    mark .greaterEquals '>' ['='], mark .greater '>' [],
    mark .or '|' ['|'], mark .and '&' ['&'],
    mark .dot '.' [], mark .semicolon ';' [], mark .colon ':' [], mark .comma ',' [],
    mark .plus '+' [], mark .dash '-' [], mark .slash '/' [], mark .star '*' []]

theorem length_dropWhile_le (p : Char → Bool) (text : List Char) :
    (text.dropWhile p).length ≤ text.length :=
  (List.dropWhile_sublist p).length_le

theorem length_lt_of_splitRun? {first later : Char → Bool} {text run rest : List Char}
    (h : splitRun? first later text = some (run, rest)) : rest.length < text.length := by
  cases text with
  | nil => simp [splitRun?] at h
  | cons c tail =>
      simp only [splitRun?] at h
      split at h
      · obtain ⟨-, rfl⟩ := by simpa using h
        exact Nat.lt_succ_of_le (length_dropWhile_le later tail)
      · simp at h

theorem append_eq_of_isPrefixOf? {fixed text rest : List Char}
    (h : fixed.isPrefixOf? text = some rest) : fixed ++ rest = text := by
  induction fixed generalizing text with
  | nil => exact (Option.some.inj h).symm
  | cons c later ih =>
      cases text with
      | nil => cases h
      | cons d tail =>
          change (if c == d then later.isPrefixOf? tail else none) = some rest at h
          split at h
          · rename_i hcd
            rw [eq_of_beq hcd, List.cons_append, ih h]
          · cases h

/-- No pattern matches the empty stretch, so what follows a match is shorter. -/
theorem length_lt_of_split? {pattern : Pattern} {text run rest : List Char}
    (h : pattern.split? text = some (run, rest)) : rest.length < text.length := by
  cases pattern with
  | word | digits | blank => exact length_lt_of_splitRun? h
  | comment =>
      unfold split? at h
      split at h <;> simp_all
      obtain ⟨-, rfl⟩ := h
      have := length_dropWhile_le (· != '\n') ‹List Char›
      omega
  | mark kind first later =>
      obtain ⟨after, hprefix, heq⟩ := Option.map_eq_some_iff.mp h
      obtain ⟨-, rfl⟩ := by simpa using heq
      have happend := congrArg List.length (append_eq_of_isPrefixOf? hprefix)
      simp only [List.length_append, List.length_cons] at happend
      omega

end Pattern

/-- A stretch of the source and the pattern it matches. -/
structure Lexeme where
  pattern : Pattern
  text : List Char
deriving DecidableEq, Repr

namespace Lexeme

/-- The token that a lexeme stands for, if any. -/
def token? (lexeme : Lexeme) : Option Token :=
  let text := String.ofList lexeme.text
  match lexeme.pattern with
  | .word => some ⟨.ofWord text, text⟩
  | .digits => some ⟨.number, text⟩
  | .blank | .comment => none
  | .mark kind _ _ => some ⟨kind, text⟩

/-- The first lexeme of a text and what follows it. -/
def next? (text : List Char) : Option (Lexeme × List Char) :=
  Pattern.table.findSome? fun pattern =>
    (pattern.split? text).map fun (run, rest) => (⟨pattern, run⟩, rest)

theorem length_lt_of_next? {text rest : List Char} {lexeme : Lexeme}
    (h : next? text = some (lexeme, rest)) : rest.length < text.length := by
  obtain ⟨pattern, -, hpattern⟩ := List.exists_of_findSome?_eq_some h
  obtain ⟨⟨run, after⟩, hsplit, heq⟩ := Option.map_eq_some_iff.mp hpattern
  obtain ⟨-, rfl⟩ := by simpa using heq
  exact Pattern.length_lt_of_split? hsplit

/-- Cuts a text into its lexemes, or stops at the first character that starts
none. -/
def ofText (text : List Char) : Except Diagnostic (List Lexeme) :=
  match text with
  | [] => .ok []
  | c :: tail =>
    match h : next? (c :: tail) with
    | none => .error (.unrecognisedToken (String.singleton c))
    | some (lexeme, rest) =>
      have := length_lt_of_next? h
      match ofText rest with
      | .ok later => .ok (lexeme :: later)
      | .error diagnostic => .error diagnostic
termination_by text.length
decreasing_by assumption

end Lexeme

/-- The tokens of a source text, closed by the end of input. -/
def tokenize (source : String) : Except Diagnostic (List Token) :=
  (Lexeme.ofText source.toList).map fun lexemes =>
    lexemes.filterMap Lexeme.token? ++ [Token.endOfInput]

end FlexWidth
