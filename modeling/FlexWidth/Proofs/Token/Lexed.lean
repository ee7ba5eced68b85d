import FlexWidth.Text.Numeral
import FlexWidth.Token.Lexeme

/-!
# The tokens that occur in source texts

The kind of a token nearly determines its text.  A token that some source text
contains is a number with a run of digits for its text, an identifier, or the one
token of its kind: `kind.token`, whose text is `kind.spelling`.
-/

namespace FlexWidth

/-- The text of the tokens of a kind.  Numbers and identifiers, whose texts vary,
have none. -/
def TokenKind.spelling : TokenKind → String
  | .endOfInput => "EOF"
  | .number | .identifier => ""
  | .openCurly => "\x7b"
  | .closeCurly => "\x7d"
  | .openParen => "("
  | .closeParen => ")"
  | .assignment => "="
  | .equals => "=="
  | .notEquals => "!="
  | .less => "<"
  | .lessEquals => "<="
  | .greater => ">"
  | .greaterEquals => ">="
  | .or => "||"
  | .and => "&&"
  | .dot => "."
  | .semicolon => ";"
  | .colon => ":"
  | .comma => ","
  | .plus => "+"
  | .dash => "-"
  | .slash => "/"
  | .star => "*"
  | .ifWord => "if"
  | .elseWord => "else"
  | .whileWord => "while"
  | .forWord => "for"
  | .inWord => "in"
  | .outputWord => "output"
  | .inputWord => "input"
  | .intWord => "int"
  | .boolWord => "bool"

/-- The token of a kind that has only one. -/
def TokenKind.token (kind : TokenKind) : Token := ⟨kind, kind.spelling⟩

@[simp] theorem TokenKind.kind_token (kind : TokenKind) : kind.token.kind = kind := rfl

@[simp] theorem TokenKind.text_token (kind : TokenKind) : kind.token.text = kind.spelling := rfl

/-- A token, other than the end of input, that some source text contains. -/
def Token.Lexed (token : Token) : Prop :=
  token.kind ≠ .endOfInput ∧ ∃ source tokens, tokenize source = .ok tokens ∧ token ∈ tokens

/-! ## Lexemes are cut by patterns of the table -/

theorem Lexeme.next?_eq_some {text rest : List Char} {lexeme : Lexeme}
    (h : next? text = some (lexeme, rest)) :
    lexeme.pattern ∈ Pattern.table ∧ lexeme.pattern.split? text = some (lexeme.text, rest) := by
  obtain ⟨pattern, hmem, hpattern⟩ := List.exists_of_findSome?_eq_some h
  obtain ⟨⟨run, after⟩, hsplit, heq⟩ := Option.map_eq_some_iff.mp hpattern
  cases heq
  exact ⟨hmem, hsplit⟩

theorem Lexeme.split?_of_mem_ofText {text : List Char} {lexemes : List Lexeme}
    (h : ofText text = .ok lexemes) {lexeme : Lexeme} (hmem : lexeme ∈ lexemes) :
    lexeme.pattern ∈ Pattern.table ∧
      ∃ before after, lexeme.pattern.split? before = some (lexeme.text, after) := by
  fun_induction ofText text generalizing lexemes with
  | case1 =>
      cases h
      cases hmem
  | case2 => cases h
  | case3 c tail first rest hnext _ later hrest ih =>
      cases h
      rcases List.mem_cons.mp hmem with rfl | hmem
      · obtain ⟨htable, hsplit⟩ := next?_eq_some hnext
        exact ⟨htable, _, _, hsplit⟩
      · exact ih hrest hmem
  | case4 => cases h

theorem Pattern.splitRun?_eq_some {first later : Char → Bool} {text run rest : List Char}
    (h : splitRun? first later text = some (run, rest)) :
    ∃ c, ∃ tail : List Char, first c = true ∧ run = c :: tail.takeWhile later := by
  cases text with
  | nil => cases h
  | cons c tail =>
      simp only [splitRun?] at h
      split at h
      · rename_i hfirst
        cases h
        exact ⟨c, tail, hfirst, rfl⟩
      · cases h

/-! ## The texts of tokens -/

/-- Whether a pattern that is one mark is the spelling of its kind. -/
def Pattern.spellsKind : Pattern → Bool
  | .mark kind first later =>
    kind.spelling == String.ofList (first :: later) && kind != .number && kind != .endOfInput
  | _ => true

theorem Pattern.spellsKind_of_mem_table {pattern : Pattern} (h : pattern ∈ table) :
    pattern.spellsKind = true :=
  List.all_eq_true.mp (show table.all spellsKind = true by decide +kernel) pattern h

/-- A reserved word is spelled as itself. -/
theorem TokenKind.spelling_ofWord (word : String) :
    ofWord word = .identifier ∨
      (ofWord word).spelling = word ∧ ofWord word ≠ .number ∧ ofWord word ≠ .endOfInput := by
  unfold ofWord
  split <;> simp [spelling]

theorem Token.kind_ne_endOfInput_of_token? {lexeme : Lexeme} {token : Token}
    (h : lexeme.token? = some token) (htable : lexeme.pattern ∈ Pattern.table) :
    token.kind ≠ .endOfInput := by
  obtain ⟨pattern, text⟩ := lexeme
  cases pattern with
  | word =>
      cases h
      rcases TokenKind.spelling_ofWord (String.ofList text) with hword | ⟨-, -, hend⟩
      · simp [hword]
      · exact hend
  | digits =>
      cases h
      simp
  | blank => cases h
  | comment => cases h
  | mark kind first later =>
      cases h
      have hspells := Pattern.spellsKind_of_mem_table htable
      simp only [Pattern.spellsKind, Bool.and_eq_true, bne_iff_ne] at hspells
      exact hspells.2

theorem Token.text_of_token? {lexeme : Lexeme} {token : Token} (h : lexeme.token? = some token)
    (htable : lexeme.pattern ∈ Pattern.table)
    (hcut : ∃ before after, lexeme.pattern.split? before = some (lexeme.text, after)) :
    (token.kind ≠ .number → token.kind ≠ .identifier → token.text = token.kind.spelling) ∧
      (token.kind = .number → token.text.toList ≠ [] ∧ token.text.toList.all Char.isDigit) := by
  obtain ⟨pattern, text⟩ := lexeme
  obtain ⟨before, after, hsplit⟩ := hcut
  cases pattern with
  | word =>
      cases h
      rcases TokenKind.spelling_ofWord (String.ofList text) with hword | ⟨hword, hnumber, -⟩
      · simp [hword]
      · simp [hword, hnumber]
  | digits =>
      cases h
      refine ⟨fun hnumber => absurd rfl hnumber, fun _ => ?_⟩
      obtain ⟨first, rest, hfirst, rfl⟩ := Pattern.splitRun?_eq_some hsplit
      rw [String.toList_ofList]
      refine ⟨List.cons_ne_nil _ _, ?_⟩
      simp only [List.all_cons, hfirst, Bool.true_and]
      exact List.all_takeWhile
  | blank => cases h
  | comment => cases h
  | mark kind first later =>
      cases h
      have hspells := Pattern.spellsKind_of_mem_table htable
      simp only [Pattern.spellsKind, Bool.and_eq_true, beq_iff_eq, bne_iff_ne] at hspells
      obtain ⟨_, -, heq⟩ := Option.map_eq_some_iff.mp hsplit
      cases heq
      exact ⟨fun _ _ => hspells.1.1.symm, fun hnumber => absurd hnumber hspells.1.2⟩

theorem tokenize_eq_ok {source : String} {tokens : List Token} (h : tokenize source = .ok tokens) :
    ∃ lexemes, Lexeme.ofText source.toList = .ok lexemes ∧
      tokens = lexemes.filterMap Lexeme.token? ++ [Token.endOfInput] := by
  unfold tokenize at h
  cases hlexemes : Lexeme.ofText source.toList with
  | error diagnostic =>
      rw [hlexemes] at h
      cases h
  | ok lexemes =>
      rw [hlexemes] at h
      cases h
      exact ⟨lexemes, rfl, rfl⟩

/-- Every token but the end of input comes from a lexeme of the source. -/
theorem Token.Lexed.text {token : Token} (h : token.Lexed) :
    (token.kind ≠ .number → token.kind ≠ .identifier → token.text = token.kind.spelling) ∧
      (token.kind = .number → token.text.toList ≠ [] ∧ token.text.toList.all Char.isDigit) := by
  obtain ⟨hend, source, tokens, htokens, hmem⟩ := h
  obtain ⟨lexemes, hlexemes, rfl⟩ := tokenize_eq_ok htokens
  rcases List.mem_append.mp hmem with hmem | hmem
  · obtain ⟨lexeme, hlexeme, htoken⟩ := List.mem_filterMap.mp hmem
    obtain ⟨htable, hcut⟩ := Lexeme.split?_of_mem_ofText hlexemes hlexeme
    exact text_of_token? htoken htable hcut
  · rw [List.mem_singleton.mp hmem] at hend
    exact absurd rfl hend

/-- The end of input closes the tokens of a source text and does not occur before. -/
theorem exists_lexed_of_tokenize {source : String} {tokens : List Token}
    (h : tokenize source = .ok tokens) :
    ∃ body, tokens = body ++ [Token.endOfInput] ∧ ∀ item ∈ body, item.Lexed := by
  obtain ⟨lexemes, hlexemes, rfl⟩ := tokenize_eq_ok h
  refine ⟨_, rfl, fun item hitem => ?_⟩
  obtain ⟨lexeme, hlexeme, htoken⟩ := List.mem_filterMap.mp hitem
  have htable := (Lexeme.split?_of_mem_ofText hlexemes hlexeme).1
  exact ⟨Token.kind_ne_endOfInput_of_token? htoken htable, source, _, h,
    List.mem_append_left _ hitem⟩

/-- A token that is neither a number nor an identifier is the only one of its
kind. -/
theorem Token.Lexed.eq_token {token : Token} (h : token.Lexed) (hnumber : token.kind ≠ .number)
    (hidentifier : token.kind ≠ .identifier) : token = token.kind.token := by
  have htext := h.text.1 hnumber hidentifier
  obtain ⟨kind, text⟩ := token
  exact congrArg (Token.mk kind) htext

/-! ## Numerals -/

/-- The text is a run of decimal digits whose value is `value`, below `limit`. -/
structure Text.IsNumeral (limit : Nat) (text : String) (value : Nat) : Prop where
  nonempty : text.toList ≠ []
  digits : text.toList.all Char.isDigit
  value_eq : value = Nat.ofDigitChars 10 text.toList 0
  value_lt : value < limit

/-- A run of digits has no sign to strip. -/
theorem Text.unsigned_eq_self {digits : List Char} (h : digits.all Char.isDigit) :
    unsigned digits = digits := by
  unfold unsigned
  split
  · simp at h
  · rfl

/-- On runs of digits reading a numeral is what it should be. -/
theorem Text.numeral?_eq_some_iff {limit value : Nat} {text : String}
    (hnonempty : text.toList ≠ []) (hdigits : text.toList.all Char.isDigit) :
    numeral? limit text = some value ↔ IsNumeral limit text value := by
  have hchecks : ¬ (text.toList.isEmpty || !text.toList.all Char.isDigit) = true := by
    simp [hnonempty, hdigits]
  unfold numeral?
  simp only [unsigned_eq_self hdigits, if_neg hchecks]
  constructor
  · intro h
    split at h
    · rename_i hlt
      cases h
      exact ⟨hnonempty, hdigits, rfl, hlt⟩
    · cases h
  · intro h
    rw [← h.value_eq, if_pos h.value_lt]

end FlexWidth
