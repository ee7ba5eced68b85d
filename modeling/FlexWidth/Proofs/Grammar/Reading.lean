import FlexWidth.Grammar.Parse
import FlexWidth.Proofs.Grammar.Derivation
import FlexWidth.Proofs.Stage
import FlexWidth.Proofs.Token.Spacing

/-!
# Reading from a token list

The stream of a token list `tokens ++ [end of input]` is written `.feed tokens`.
As long as tokens of `tokens` are read, a parser moves from `.feed tokens` to
`.feed rest` for a tail `rest`: this file says so for each elementary parser, once
as an equation (for parsers that must succeed) and once as a fact about what a
success has read.
-/

namespace FlexWidth

open TokenKind (token spelling)

variable {α β : Type}

/-! ## Streams of lists -/

/-- The stream of some tokens and the end of input. -/
def TokenStream.feed : List Token → TokenStream
  | [] => ⟨Token.endOfInput, []⟩
  | first :: rest => ⟨first, rest ++ [Token.endOfInput]⟩

/-- The kind of the first token of a list, or of the end of input. -/
def nextKind : List Token → TokenKind
  | [] => .endOfInput
  | first :: _ => first.kind

@[simp] theorem nextKind_nil : nextKind [] = .endOfInput := rfl

@[simp] theorem nextKind_cons (first : Token) (rest : List Token) :
    nextKind (first :: rest) = first.kind := rfl

theorem exists_of_nextKind {tokens : List Token} {kind : TokenKind} (h : nextKind tokens = kind)
    (hend : kind ≠ .endOfInput) : ∃ first rest, tokens = first :: rest ∧ first.kind = kind := by
  cases tokens with
  | nil => exact absurd h.symm hend
  | cons first rest => exact ⟨first, rest, rfl, h⟩

namespace TokenStream

theorem ofTokens_append (tokens : List Token) :
    ofTokens (tokens ++ [Token.endOfInput]) = feed tokens := by
  have hclosed : closed (tokens ++ [Token.endOfInput]) = tokens ++ [Token.endOfInput] := by
    rw [closed, if_pos (by simp [Token.endOfInput])]
  rw [ofTokens, hclosed]
  cases tokens <;> rfl

theorem current_feed (tokens : List Token) : (feed tokens).current.kind = nextKind tokens := by
  cases tokens <;> rfl

theorem advance_feed (first : Token) (rest : List Token) :
    (feed (first :: rest)).advance = feed rest := by
  cases rest <;> rfl

theorem peek_feed (first : Token) (rest : List Token) :
    ((feed (first :: rest)).peek 1).kind = nextKind rest := by
  cases rest <;> rfl

theorem size_feed (tokens : List Token) : (feed tokens).size = tokens.length + 1 := by
  cases tokens with
  | nil => rfl
  | cons first rest => simp [feed, size]

end TokenStream

/-! ## Elementary parsers that succeed -/

namespace Parser

open TokenStream (feed)

theorem run_currentKind (tokens : List Token) :
    currentKind (feed tokens) = .ok (nextKind tokens) (feed tokens) := by
  rw [← TokenStream.current_feed]
  rfl

theorem run_peekKind (first : Token) (rest : List Token) :
    peekKind 1 (feed (first :: rest)) = .ok (nextKind rest) (feed (first :: rest)) := by
  rw [← TokenStream.peek_feed first rest]
  rfl

theorem run_advance (first : Token) (rest : List Token) :
    advance (feed (first :: rest)) = .ok first (feed rest) := by
  rw [← TokenStream.advance_feed first rest]
  rfl

theorem run_expect (kind : TokenKind) (text : String) (rest : List Token) :
    expect kind (feed (⟨kind, text⟩ :: rest)) = .ok ⟨kind, text⟩ (feed rest) := by
  rw [expect, run_bind_ok (run_currentKind _), nextKind_cons, if_pos rfl, run_advance]

theorem run_skip_token (kind : TokenKind) (rest : List Token) :
    skip kind (feed (token kind :: rest)) = .ok () (feed rest) := by
  rw [skip, token, run_bind_ok (run_expect kind _ rest)]
  rfl

theorem run_numberBelow {limit value : Nat} {text : String} {kind : TokenKind}
    (h : Text.IsNumeral limit text value) (stream : TokenStream) :
    numberBelow limit ⟨kind, text⟩ stream = .ok value stream := by
  rw [numberBelow, (Text.numeral?_eq_some_iff h.nonempty h.digits).mpr h]
  rfl

theorem run_number {value : Nat} {text : String} {kind : TokenKind} (h : IsWord text value)
    (stream : TokenStream) : number ⟨kind, text⟩ stream = .ok value stream :=
  run_numberBelow h stream

/-- There is only the stream `0`. -/
theorem isWord_zero : IsWord "0" 0 := ⟨by decide, by decide, rfl, by decide⟩

theorem run_streamNumber {text : String} (h : IsWord text 0) (rest : List Token) :
    streamNumber (feed (⟨.number, text⟩ :: rest)) = .ok () (feed rest) := by
  have hcurrent : current (feed (⟨.number, text⟩ :: rest)) =
      .ok ⟨.number, text⟩ (feed (⟨.number, text⟩ :: rest)) := rfl
  rw [streamNumber, run_bind_ok (run_currentKind _), nextKind_cons, if_pos rfl,
    run_bind_ok hcurrent, run_bind_ok (run_number h _), if_pos rfl,
    run_bind_ok (run_advance _ rest)]
  rfl

/-! ## What a success has read -/

/-- If the parser succeeds on `tokens` it has read a part of them, and `rel` holds
of that part, of the result and of the tokens that are left. -/
def Reads (parser : Parser α) (tokens : List Token)
    (rel : List Token → α → List Token → Prop) : Prop :=
  ∀ value final, parser (feed tokens) = .ok value final →
    ∃ read left, tokens = read ++ left ∧ final = feed left ∧ rel read value left

theorem reads_pure {value : α} {tokens : List Token} {rel : List Token → α → List Token → Prop}
    (h : rel [] value tokens) : Reads (pure value) tokens rel := by
  intro result final hrun
  cases hrun
  exact ⟨[], tokens, rfl, rfl, h⟩

theorem reads_reject {message : String} {tokens : List Token}
    {rel : List Token → α → List Token → Prop} : Reads (reject message) tokens rel := by
  intro result final hrun
  cases hrun

theorem Reads.bind {parser : Parser α} {next : α → Parser β} {tokens : List Token}
    {rel : List Token → α → List Token → Prop} {rel' : List Token → β → List Token → Prop}
    (hparser : Reads parser tokens rel)
    (hnext : ∀ read value left, tokens = read ++ left → rel read value left →
      Reads (next value) left fun more => rel' (read ++ more)) :
    Reads (parser >>= next) tokens rel' := by
  intro result final hrun
  obtain ⟨value, middle, hfirst, hrest⟩ := bind_eq_ok_iff.mp hrun
  obtain ⟨read, left, htokens, rfl, hrel⟩ := hparser value middle hfirst
  obtain ⟨more, rest, hleft, hfinal, hrel'⟩ := hnext read value left htokens hrel result final hrest
  refine ⟨read ++ more, rest, ?_, hfinal, hrel'⟩
  rw [htokens, hleft, List.append_assoc]

theorem Reads.weaken {parser : Parser α} {tokens : List Token}
    {rel rel' : List Token → α → List Token → Prop} (hparser : Reads parser tokens rel)
    (hrel : ∀ read value left, tokens = read ++ left → rel read value left →
      rel' read value left) : Reads parser tokens rel' := by
  intro value final hrun
  obtain ⟨read, left, htokens, hfinal, h⟩ := hparser value final hrun
  exact ⟨read, left, htokens, hfinal, hrel read value left htokens h⟩

theorem Reads.currentKind {next : TokenKind → Parser β} {tokens : List Token}
    {rel : List Token → β → List Token → Prop} (h : Reads (next (nextKind tokens)) tokens rel) :
    Reads (Parser.currentKind >>= next) tokens rel := by
  intro result final hrun
  rw [run_bind_ok (run_currentKind tokens)] at hrun
  exact h result final hrun

theorem reads_advance {tokens : List Token} (h : nextKind tokens ≠ .endOfInput) :
    Reads advance tokens fun read value _ => read = [value] ∧ value.kind = nextKind tokens := by
  intro value final hrun
  obtain ⟨first, rest, rfl, -⟩ := exists_of_nextKind rfl h
  rw [run_advance] at hrun
  cases hrun
  exact ⟨[_], rest, rfl, rfl, rfl, rfl⟩

theorem reads_expect {tokens : List Token} {kind : TokenKind} (hend : kind ≠ .endOfInput) :
    Reads (expect kind) tokens fun read value _ => read = [value] ∧ value.kind = kind := by
  refine Reads.currentKind ?_
  split
  · rename_i hkind
    exact hkind ▸ reads_advance (hkind ▸ hend)
  · exact reads_reject

/-- All tokens occur in source texts. -/
abbrev AllLexed (tokens : List Token) : Prop := ∀ item ∈ tokens, item.Lexed

theorem AllLexed.left {read left : List Token} (h : AllLexed (read ++ left)) : AllLexed left :=
  fun item hitem => h item (List.mem_append_right read hitem)

/-- The kinds whose tokens have only one text, the end of input apart. -/
def isFixed : TokenKind → Bool
  | .endOfInput | .number | .identifier => false
  | _ => true

theorem eq_token_of_isFixed {item : Token} (hlexed : item.Lexed)
    (hfixed : isFixed item.kind = true) : item = token item.kind := by
  refine hlexed.eq_token ?_ ?_
  · intro hkind
    rw [hkind] at hfixed
    cases hfixed
  · intro hkind
    rw [hkind] at hfixed
    cases hfixed

theorem lexed_token {kind : TokenKind} (h : isFixed kind = true) : (token kind).Lexed := by
  refine TokenKind.lexed_token ?_ ?_ ?_ <;>
    · rintro rfl
      cases h

theorem allLexed_token {kind : TokenKind} (h : isFixed kind = true) : AllLexed [token kind] :=
  List.forall_mem_singleton.mpr (lexed_token h)

theorem allLexed_identifier {name : String} (h : isName name = true) :
    AllLexed [⟨.identifier, name⟩] :=
  List.forall_mem_singleton.mpr (Token.lexed_identifier h)

theorem allLexed_number {limit value : Nat} {text : String} (h : Text.IsNumeral limit text value) :
    AllLexed [⟨.number, text⟩] :=
  List.forall_mem_singleton.mpr h.lexed

theorem AllLexed.append {first second : List Token} (hfirst : AllLexed first)
    (hsecond : AllLexed second) : AllLexed (first ++ second) :=
  List.forall_mem_append.mpr ⟨hfirst, hsecond⟩

theorem reads_advance_token {tokens : List Token} (hlexed : AllLexed tokens) {kind : TokenKind}
    (hkind : nextKind tokens = kind) (hfixed : isFixed kind = true) :
    Reads advance tokens fun read value _ => read = [token kind] ∧ value = token kind := by
  have hend : kind ≠ .endOfInput := by
    rintro rfl
    cases hfixed
  obtain ⟨first, rest, rfl, rfl⟩ := exists_of_nextKind hkind hend
  have hfirst := eq_token_of_isFixed (hlexed first List.mem_cons_self) hfixed
  have hadvance : nextKind (first :: rest) ≠ .endOfInput := hend
  refine (reads_advance hadvance).weaken ?_
  rintro _ item left heq ⟨rfl, -⟩
  cases heq
  exact ⟨congrArg (fun item => [item]) hfirst, hfirst⟩

theorem reads_skip {tokens : List Token} (hlexed : AllLexed tokens) {kind : TokenKind}
    (hfixed : isFixed kind = true) :
    Reads (skip kind) tokens fun read _ _ => read = [token kind] := by
  have hexpect : Reads (expect kind) tokens fun read _ _ => read = [token kind] := by
    refine Reads.currentKind ?_
    split
    · rename_i hkind
      exact (reads_advance_token hlexed hkind hfixed).weaken fun _ _ _ _ h => h.1
    · exact reads_reject
  refine hexpect.bind ?_
  rintro _ item left rfl rfl
  exact reads_pure rfl

/-- A numeral that was read is the numeral of its value. -/
theorem reads_numberBelow {item : Token} (hlexed : item.Lexed) (hkind : item.kind = .number)
    (limit : Nat) (tokens : List Token) :
    Reads (numberBelow limit item) tokens fun read value _ =>
      read = [] ∧ Text.IsNumeral limit item.text value := by
  intro value final hrun
  obtain ⟨hnonempty, hdigits⟩ := hlexed.text.2 hkind
  unfold numberBelow at hrun
  cases hnumeral : Text.numeral? limit item.text with
  | none =>
      rw [hnumeral] at hrun
      cases hrun
  | some number =>
      rw [hnumeral] at hrun
      cases hrun
      exact ⟨[], tokens, rfl, rfl, rfl, (Text.numeral?_eq_some_iff hnonempty hdigits).mp hnumeral⟩

theorem reads_number {item : Token} (hlexed : item.Lexed) (hkind : item.kind = .number)
    (tokens : List Token) :
    Reads (number item) tokens fun read value _ => read = [] ∧ IsWord item.text value :=
  reads_numberBelow hlexed hkind Text.wordLimit tokens

theorem reads_streamNumber {tokens : List Token} (hlexed : AllLexed tokens) :
    Reads streamNumber tokens fun read _ _ =>
      ∃ stream, read = [⟨.number, stream⟩] ∧ IsWord stream 0 := by
  refine Reads.currentKind ?_
  split
  · rename_i hkind
    obtain ⟨first, rest, rfl, hfirst⟩ := exists_of_nextKind hkind (by decide)
    have hcurrent : Reads current (first :: rest) fun read value _ =>
        read = [] ∧ value = first := by
      intro value final hrun
      cases hrun
      exact ⟨[], first :: rest, rfl, rfl, rfl, rfl⟩
    refine hcurrent.bind ?_
    rintro _ item _ heq ⟨rfl, rfl⟩
    cases heq
    refine (reads_number (hlexed item List.mem_cons_self) hfirst _).bind ?_
    rintro _ value _ heq ⟨rfl, hnumeral⟩
    cases heq
    split
    · rename_i hzero
      refine (reads_advance (hkind ▸ by decide)).bind ?_
      rintro _ _ left heq ⟨rfl, -⟩
      cases heq
      refine reads_pure ⟨item.text, ?_, hzero ▸ hnumeral⟩
      rw [← hfirst]
      rfl
    · exact reads_reject
  · exact reads_reject

end Parser

end FlexWidth
