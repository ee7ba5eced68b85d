import FlexWidth.Proofs.Grammar.Locality
import FlexWidth.Proofs.Grammar.StmtCompleteness
import FlexWidth.Proofs.Grammar.StmtViability

/-!
# Syntax errors come as early as they can

When the parser refuses a token, two things hold of the place where it stands
(`parse_syntaxError_earliest`).

* **Not too early.**  The tokens before that place are viable (`viable_of_syntaxError`):
  with other tokens behind them they make a program.
* **Not too late.**  Nothing behind the refused token had a part in the answer
  (`Verdict.Holds.parse_eq`): every token list that goes on in another way ends in the
  same error at the same place.
-/

namespace FlexWidth

open TokenKind (token)

theorem TokenStream.unread_feed (tokens : List Token) :
    (feed tokens).unread = tokens ++ [Token.endOfInput] := by
  cases tokens <;> rfl

namespace Parser

open TokenStream (feed)

/-! ## Not too early -/

/-- What was read before a token was refused can be completed. -/
theorem viable_of_syntaxError {read : List Token} {next : Token} {text message : String}
    (hfinal : Verdict.IsFinal ⟨read, next, .error (.refused (.syntaxError text message))⟩)
    (hread : AllLexed read) (hnext : next.Lexed ∨ next = Token.endOfInput) :
    Viable SpellsStmts read := by
  -- the refused token, and behind it only the end of input
  obtain ⟨tokens, later, hlexed, htokens⟩ : ∃ tokens later, AllLexed tokens ∧
      tokens ++ [Token.endOfInput] = read ++ next :: later := by
    rcases hnext with hnext | hnext
    · refine ⟨read ++ [next], [Token.endOfInput], ?_, List.append_assoc _ _ _⟩
      exact List.forall_mem_append.mpr ⟨hread, List.forall_mem_singleton.mpr hnext⟩
    · exact ⟨read, [], hread, by rw [hnext]⟩
  have hstart : feed tokens = TokenStream.prepend ⟨next, later⟩ read := by
    apply TokenStream.eq_of_unread_eq
    rw [TokenStream.unread_feed, htokens, TokenStream.unread_prepend]
    rfl
  have hrun : nested Rules.standard (.stmts [.endOfInput]) (feed tokens) =
      .error (.refused (.syntaxError text message)) ⟨next, later⟩ := by
    rw [hstart]
    exact hfinal.nested_eq later
  obtain ⟨before, left, hbefore, hleft, hviable⟩ :=
    ((viableNested_parseWithin _).stmts [.endOfInput]).stops hlexed text message _ hrun
  have hrest : left ++ [Token.endOfInput] = next :: later := by
    rw [← TokenStream.unread_feed, ← hleft]
    rfl
  have hsame : before = read := by
    rw [hbefore, List.append_assoc, hrest] at htokens
    exact List.append_cancel_right htokens
  rwa [List.nil_append, hsame] at hviable

/-! ## Errors and the tokens around them -/

/-- A syntax error splits the tokens into those read, the refused one, which it names,
and those that had no part in it. -/
theorem exists_split_of_syntaxError {tokens : List Token} {text message : String}
    (herror : parse (tokens ++ [Token.endOfInput]) =
      .error (.refused (.syntaxError text message))) :
    ∃ read next later, tokens ++ [Token.endOfInput] = read ++ next :: later ∧
      stopIndex (tokens ++ [Token.endOfInput]) = read.length ∧ next.text = text ∧
      Verdict.IsFinal ⟨read, next, .error (.refused (.syntaxError text message))⟩ := by
  obtain ⟨⟨read, next, result⟩, later, hstart, hfinal⟩ :=
    exists_isFinal (tokens ++ [Token.endOfInput])
  obtain ⟨hparse, hstop⟩ := hfinal.parse_eq hstart
  obtain rfl : result = .error (.refused (.syntaxError text message)) := hparse.symm.trans herror
  refine ⟨read, next, later, ?_, hstop, ?_, hfinal⟩
  · rw [← TokenStream.unread_feed, ← TokenStream.ofTokens_append, hstart, Verdict.start,
      TokenStream.unread_prepend]
    rfl
  · rcases hfinal.refused _ rfl with ⟨_, hrefused⟩ | ⟨_, hrefused⟩
    · injection hrefused with hdiagnostic
      injection hdiagnostic with htext
      exact htext.symm
    · cases hrefused

end Parser

/-- Lists that agree up to an index start with the same tokens. -/
theorem exists_eq_append_cons {read later other : List Token} {next : Token}
    (h : ∀ i ≤ read.length, other[i]? = (read ++ next :: later)[i]?) :
    ∃ rest, other = read ++ next :: rest := by
  have hstarts : read ++ [next] <+: other := by
    rw [List.prefix_iff_getElem?]
    intro i hi
    rw [h i (by simpa using hi), ← List.singleton_append, ← List.append_assoc]
    exact (List.getElem?_append_left hi).trans (List.getElem?_eq_getElem hi)
  obtain ⟨rest, rfl⟩ := hstarts
  exact ⟨rest, List.append_assoc _ _ _⟩

/-- **Syntax errors come as early as they can.**  If a syntax error ends the parsing of
tokens of the language, it names the token at which the parser stands; every token list
that agrees with this one up to and including that token ends in the same error at the
same place; and the tokens before it can be completed to a program. -/
theorem parse_syntaxError_earliest (tokens : List Token) (text message : String)
    (hlexed : ∀ item ∈ tokens, item.Lexed ∨ item = Token.endOfInput)
    (herror : parse (tokens ++ [Token.endOfInput]) =
      .error (.refused (.syntaxError text message))) :
    let all := tokens ++ [Token.endOfInput]
    let k := Parser.stopIndex all
    (∃ item, all[k]? = some item ∧ item.text = text) ∧
      (∀ other : List Token, (∀ i ≤ k, other[i]? = all[i]?) →
        parse other = .error (.refused (.syntaxError text message)) ∧
          Parser.stopIndex other = k) ∧
      ∃ (more : List Token) (body : Program), (∀ item ∈ more, item.Lexed) ∧
        parse (all.take k ++ more ++ [Token.endOfInput]) = .ok body := by
  intro all k
  obtain ⟨read, next, later, hall, hstop, htext, hfinal⟩ :=
    Parser.exists_split_of_syntaxError herror
  have hkinds : ∀ item ∈ read ++ next :: later, item.Lexed ∨ item = Token.endOfInput := by
    rw [← hall]
    intro item hitem
    rcases List.mem_append.mp hitem with hitem | hitem
    · exact hlexed item hitem
    · exact .inr (List.mem_singleton.mp hitem)
  simp only [all, k, hstop, hall]
  refine ⟨⟨next, by simp, htext⟩, ?_, ?_⟩
  · intro other hagree
    obtain ⟨rest, rfl⟩ := exists_eq_append_cons hagree
    obtain ⟨last, hother⟩ := TokenStream.exists_ofTokens_eq_prepend read next rest
    exact hfinal.parse_eq hother
  · have hread : Parser.AllLexed read := by
      intro item hitem
      rcases hkinds item (List.mem_append_left _ hitem) with hlexed | hend
      · exact hlexed
      · exact absurd (congrArg Token.kind hend) (hfinal.ne_endOfInput item hitem)
    have hnext := hkinds next (List.mem_append_right _ List.mem_cons_self)
    obtain ⟨more, body, hmore, hspells⟩ := Parser.viable_of_syntaxError hfinal hread hnext
    refine ⟨more, body, hmore, ?_⟩
    rw [List.take_left]
    exact parse_eq_ok_of_spellsStmts hspells

/-- A declaration needs a type or a value.  Whatever follows the semicolon, it is the
token that is refused. -/
theorem parse_syntaxError_earliest_declaration :
    let tokens : List Token :=
      [token .whileWord, token .openParen, ⟨.identifier, "a"⟩, token .closeParen,
        token .openCurly, ⟨.identifier, "x"⟩, token .colon, token .semicolon,
        token .closeCurly]
    tokenize "while (a) \x7bx : ;\x7d" = .ok (tokens ++ [Token.endOfInput]) ∧
      (∀ other : List Token,
        (∀ i ≤ 7, other[i]? = (tokens ++ [Token.endOfInput])[i]?) →
          parse other = .error (.refused (.syntaxError ";" "expected type or initializer"))) ∧
      ∃ (more : List Token) (body : Program), (∀ item ∈ more, item.Lexed) ∧
        parse (tokens.take 7 ++ more ++ [Token.endOfInput]) = .ok body := by
  intro tokens
  have htokenize : tokenize "while (a) \x7bx : ;\x7d" = .ok (tokens ++ [Token.endOfInput]) := by
    cbv
  have hlexed : ∀ item ∈ tokens, item.Lexed ∨ item = Token.endOfInput := by
    obtain ⟨items, hitems, hlexed⟩ := exists_lexed_of_tokenize htokenize
    rw [List.append_cancel_right hitems]
    exact fun item hitem => .inl (hlexed item hitem)
  have herror : parse (tokens ++ [Token.endOfInput]) =
      .error (.refused (.syntaxError ";" "expected type or initializer")) := by
    cbv
  have hstop : Parser.stopIndex (tokens ++ [Token.endOfInput]) = 7 := by
    cbv
  obtain ⟨-, hsame, hviable⟩ := parse_syntaxError_earliest tokens _ _ hlexed herror
  rw [hstop] at hsame hviable
  exact ⟨htokenize, fun other hagree => (hsame other hagree).1, hviable⟩

end FlexWidth
