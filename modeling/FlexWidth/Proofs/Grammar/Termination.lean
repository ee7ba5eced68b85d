import FlexWidth.Proofs.Grammar.Locality
import FlexWidth.Proofs.Grammar.Room

/-!
# Parsing ends and moves on

The parser stays where it is on the last token, so a loop that reads at the end of input
would never end.  That no loop does so has two sides.

* **Every call is answered** (`Decides.answered_nested`), with a value, a syntax error or a
  number out of range.  The room for nested phrases never runs out.
* **Every call that succeeds has moved** (`Decides.progresses`), by at least one token and
  over no end of input.  The verdicts say so of a call with enough room, and more room keeps
  an answer, so it holds of every call, whatever room it is given.

The tokens behind the first end of input are therefore never seen (`parse_append_end`).
-/

namespace FlexWidth

/-! ## Streams as places in a token list -/

namespace TokenStream

/-- Looking ahead shows the token at that place of the list, or the last one. -/
theorem getElem?_closed {tokens before : List Token} {stream : TokenStream}
    (h : ofTokens tokens = stream.prepend before) (distance : Nat) :
    (closed tokens)[min (before.length + distance) ((closed tokens).length - 1)]? =
      some (stream.peek distance) := by
  have hclosed : closed tokens = before ++ stream.unread := by
    rw [← unread_ofTokens, h, unread_prepend]
  have hlength : stream.unread.length = stream.later.length + 1 := rfl
  rw [hclosed, List.length_append, hlength]
  by_cases hnear : distance < stream.unread.length
  · have hindex : min (before.length + distance) (before.length + (stream.later.length + 1) - 1) =
        before.length + distance := by omega
    have hpeek : stream.unread[distance]? = some (stream.peek distance) := by
      have hsome := List.getElem?_eq_getElem hnear
      rw [peek, ← unread, hsome, Option.getD_some]
    rw [hindex, List.getElem?_append_right (Nat.le_add_right _ _), Nat.add_sub_cancel_left, hpeek]
  · have hindex : min (before.length + distance) (before.length + (stream.later.length + 1) - 1) =
        before.length + stream.later.length := by omega
    have hpeek : stream.peek distance = stream.later.getLast?.getD stream.current := by
      have hnone : (stream.current :: stream.later)[distance]? = none :=
        List.getElem?_eq_none (Nat.le_of_not_lt hnear)
      rw [peek, hnone, Option.getD_none]
    have hlast : stream.unread[stream.later.length]? = stream.unread.getLast? := by
      rw [List.getLast?_eq_getElem?, hlength, Nat.add_sub_cancel]
    rw [hindex, List.getElem?_append_right (Nat.le_add_right _ _), Nat.add_sub_cancel_left, hlast,
      hpeek, unread, List.getLast?_cons]

/-- Every place in a token list is closed by the end of input. -/
theorem within_of_ofTokens {tokens before : List Token} {stream : TokenStream}
    (h : ofTokens tokens = stream.prepend before) : stream.Within stream.size :=
  ⟨closed_of_prepend (h ▸ closed_ofTokens tokens), Nat.le_refl _⟩

end TokenStream

namespace Parser

open TokenStream (ofTokens closed)

variable {α : Type}

/-! ## Answers -/

/-- A value, a syntax error, or a number that is out of range. -/
def Answered (answer : Except Failure α) : Prop :=
  (∃ value, answer = .ok value) ∨
    (∃ text message, answer = .error (.refused (.syntaxError text message))) ∨
      ∃ text, answer = .error (.refused (.numberParseError text))

theorem Verdict.Holds.answered {verdict : Verdict α} {cost : Nat} {parser : Nat → Parser α}
    (h : verdict.Holds cost parser) : Answered verdict.result := by
  cases hresult : verdict.result with
  | ok value => exact .inl ⟨value, rfl⟩
  | error failure =>
      rcases h.refused failure hresult with ⟨message, rfl⟩ | ⟨text, rfl⟩
      · exact .inr (.inl ⟨_, message, rfl⟩)
      · exact .inr (.inr ⟨text, rfl⟩)

theorem Verdict.outcome_finish (verdict : Verdict α) (later : List Token) :
    outcome (verdict.finish later) = verdict.result := by
  obtain ⟨read, next, result⟩ := verdict
  cases result <;> rfl

/-- The room that a call gives itself suffices. -/
theorem Decides.answered_nested {cost : Nat} {nonterminal : Nonterminal α} {stream : TokenStream}
    {post : List Token → Except Failure α → Prop} (hcost : cost ≤ 4)
    (h : Decides cost (fun room => Parser.parseWithin Rules.standard room nonterminal) stream
      post) :
    Answered (outcome (nested Rules.standard nonterminal stream)) := by
  obtain ⟨verdict, later, rfl, hholds, -⟩ := h
  have hroom : cost + 4 * verdict.read.length ≤ allowance (verdict.start later) := by
    rw [allowance, verdict.size_start]
    omega
  rw [nested, hholds.run _ hroom later, verdict.outcome_finish later]
  exact hholds.answered

/-! ## Progress -/

/-- From the stream, the parser yields a value only after it has read: at least one token,
and none that is the end of input. -/
def Progresses (parser : Parser α) (stream : TokenStream) : Prop :=
  ∀ value final, parser stream = .ok value final →
    ∃ read, stream = final.prepend read ∧ read ≠ [] ∧ ∀ item ∈ read, item.kind ≠ .endOfInput

/-- A phrase that reads or fails makes progress, with whatever room it succeeds. -/
theorem Decides.progresses {cost : Nat} {nonterminal : Nonterminal α} {stream : TokenStream}
    {otherwise : Prop}
    (h : Decides cost (fun room => Parser.parseWithin Rules.standard room nonterminal) stream
      (Moves otherwise)) (room : Nat) :
    Progresses (Parser.parseWithin Rules.standard room nonterminal) stream := by
  intro value final hrun
  obtain ⟨⟨read, next, result⟩, later, rfl, hholds, hmoves⟩ := h
  -- with more room the same value is found, and there the verdict says what was read
  have hmore := parseWithin_eq_ok_of_le (Nat.le_max_left room (cost + 4 * read.length)) hrun
  rw [hholds.run _ (Nat.le_max_right _ _) later] at hmore
  cases result with
  | error failure => cases hmore
  | ok found =>
      cases hmore
      refine ⟨read, rfl, fun hread => ?_, hholds.ne_endOfInput⟩
      obtain ⟨-, failure, hfailure⟩ := hmoves hread
      cases hfailure

/-! ## Whole token lists -/

theorem answered_parse (tokens : List Token) : Answered (parse tokens) := by
  obtain ⟨verdict, later, hstart, hfinal⟩ := exists_isFinal tokens
  rw [(hfinal.parse_eq hstart).1]
  exact hfinal.answered

/-- What follows an end of input is never seen. -/
theorem parse_append_end {before after : List Token} {last : Token}
    (hlast : last.kind = .endOfInput) :
    parse (before ++ last :: after) = parse (before ++ [last]) := by
  obtain ⟨⟨read, next, result⟩, later, hstart, hfinal⟩ := exists_isFinal (before ++ [last])
  have htokens : before ++ [last] = read ++ next :: later := by
    have hclosed : closed (before ++ [last]) = before ++ [last] := by
      simp [closed, hlast]
    rw [← hclosed, ← TokenStream.unread_ofTokens, hstart, Verdict.start,
      TokenStream.unread_prepend]
    rfl
  -- the end of input was not read, so it is at hand or still to come
  obtain ⟨rest, hrest⟩ : ∃ rest, before ++ last :: after = read ++ next :: rest := by
    rcases List.append_eq_append_iff.mp htokens with ⟨more, hread, hmore⟩ | ⟨more, hbefore', hmore⟩
    · cases more with
      | nil =>
          cases hmore
          exact ⟨after, by rw [hread, List.append_nil]⟩
      | cons item more =>
          obtain ⟨rfl, -⟩ := List.cons.inj hmore
          exact absurd hlast (hfinal.ne_endOfInput last (by simp [hread]))
    · cases more with
      | nil =>
          cases hmore
          exact ⟨after, by rw [hbefore', List.append_nil]⟩
      | cons item more =>
          cases hmore
          exact ⟨more ++ last :: after, by simp [hbefore']⟩
  obtain ⟨other, hother⟩ := TokenStream.exists_ofTokens_eq_prepend read next rest
  rw [← hrest] at hother
  exact (hfinal.parse_eq hother).1.trans (hfinal.parse_eq hstart).1.symm

end Parser

open FlexWidth.TokenStream (ofTokens closed)
open FlexWidth.Parser (Answered Progresses parseWithin nested)

/-- **Parsing ends and moves on**, on every list of tokens.  It is answered by a program, a
syntax error or a number out of range.  At every place in the list, looking ahead stays
within the list, calls for an expression or a statement are answered too, and those that
succeed have read at least one token and no end of input, whatever room they were given.
Hence nothing behind the first end of input has a part in the answer. -/
theorem parse_terminates (tokens : List Token) :
    Answered (parse tokens) ∧
      (∀ (before : List Token) (stream : TokenStream),
        ofTokens tokens = stream.prepend before →
          (∀ distance, (closed tokens)[min (before.length + distance)
            ((closed tokens).length - 1)]? = some (stream.peek distance)) ∧
          (∀ power, Answered (outcome (nested Rules.standard (.expr power) stream)) ∧
            ∀ room, Progresses (parseWithin Rules.standard room (.expr power)) stream) ∧
          Answered (outcome (nested Rules.standard .stmt stream)) ∧
            ∀ room, Progresses (parseWithin Rules.standard room .stmt) stream) ∧
      ∀ (before after : List Token) (last : Token), tokens = before ++ [last] ++ after →
        last.kind = .endOfInput → parse tokens = parse (before ++ [last]) := by
  refine ⟨Parser.answered_parse tokens, ?_, ?_⟩
  · intro before stream hstream
    have hdecides := Parser.decidesAt_within _ _ (TokenStream.within_of_ofTokens hstream)
    refine ⟨TokenStream.getElem?_closed hstream, fun power => ?_, ?_⟩
    · exact ⟨(hdecides.expr power).answered_nested (by decide), (hdecides.expr power).progresses⟩
    · exact ⟨hdecides.stmt.answered_nested (by decide), hdecides.stmt.progresses⟩
  · rintro before after last rfl hlast
    rw [List.append_assoc]
    exact Parser.parse_append_end hlast

/-- An end of input of its own text in the middle of a list that has none at its end.  The
call for the value of the assignment reads one name and stops before the semicolon. -/
theorem parse_terminates_endInside :
    let before : List Token :=
      [⟨.identifier, "x"⟩, ⟨.assignment, "="⟩, ⟨.identifier, "y"⟩, ⟨.semicolon, ";"⟩]
    let last : Token := ⟨.endOfInput, "?"⟩
    let after : List Token := [⟨.openCurly, "\x7b"⟩, ⟨.number, "x"⟩]
    let stream : TokenStream :=
      ⟨⟨.identifier, "y"⟩, [⟨.semicolon, ";"⟩, last] ++ after ++ [Token.endOfInput]⟩
    let final : TokenStream := ⟨⟨.semicolon, ";"⟩, [last] ++ after ++ [Token.endOfInput]⟩
    last.kind = .endOfInput ∧ parse (before ++ [last] ++ after) = parse (before ++ [last]) ∧
      ofTokens (before ++ [last] ++ after) = stream.prepend (before.take 2) ∧
      parseWithin Rules.standard 9 (.expr .least) stream = .ok (.var "y" none none) final ∧
      ∃ read, stream = final.prepend read ∧ read ≠ [] ∧
        ∀ item ∈ read, item.kind ≠ .endOfInput := by
  intro before last after stream final
  have hlast : last.kind = .endOfInput := rfl
  have hstream : ofTokens (before ++ [last] ++ after) = stream.prepend (before.take 2) := by
    decide
  have hrun : parseWithin Rules.standard 9 (.expr .least) stream =
      .ok (.var "y" none none) final := rfl
  obtain ⟨-, hplaces, hend⟩ := parse_terminates (before ++ [last] ++ after)
  obtain ⟨-, hexpr, -⟩ := hplaces _ _ hstream
  exact ⟨hlast, hend before after last rfl hlast, hstream, hrun,
    (hexpr .least).2 9 _ final hrun⟩

end FlexWidth
