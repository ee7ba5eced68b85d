import FlexWidth.Proofs.Token.LongestMatch
import Mathlib

/-!
# Texts put together

Lexemes are cut off greedily, so what a text is cut into may change once another text
follows it.  Where a blank stands between the two it does not.

* Token texts with blanks between them are cut into these tokens again
  (`tokenize_joinTexts`).  So the texts of tokens say what their kinds are.
* Two texts with a line break between them are cut as each of them is by itself
  (`tokenize_lines`).  The line break ends every lexeme of the first text but a run of blanks,
  which takes it up (`Lexeme.next?_append_newline`), and where nothing can be cut off the first
  text, nothing can with the line break either (`Lexeme.next?_append_newline_eq_none`).
-/

namespace FlexWidth

/-! ## Tokens with separators between them -/

/-- The texts of the tokens in order.  The text `separator n` stands after the token of number
`n`, if another one follows. -/
def joinTexts (separator : Nat → String) : List Token → String
  | [] => ""
  | [item] => item.text
  | item :: next :: rest =>
    item.text ++ (separator 0 ++ joinTexts (fun n => separator (n + 1)) (next :: rest))

theorem Spaces.append_blanks {tokens : List Token} {blanks text : List Char}
    (hblanks : ∀ c ∈ blanks, Text.isBlank c = true) (h : Spaces tokens text) :
    Spaces tokens (blanks ++ text) := by
  induction blanks with
  | nil => exact h
  | cons c rest ih =>
      obtain ⟨hfirst, hrest⟩ := List.forall_mem_cons.mp hblanks
      exact .blank hfirst (ih hrest)

/-- Tokens with blanks between them are set apart. -/
theorem spaces_joinTexts {separator : Nat → String}
    (h : ∀ n, Pattern.blank.Matches (separator n).toList) (tokens : List Token) :
    Spaces tokens (joinTexts separator tokens).toList := by
  induction tokens generalizing separator with
  | nil => exact .nil
  | cons item rest ih =>
      cases rest with
      | nil =>
          have hlast : Spaces [item] (item.text.toList ++ []) := .token startsBlank_nil .nil
          rwa [List.append_nil] at hlast
      | cons next rest =>
          obtain ⟨c, blanks, hseparator, hfirst, hblanks⟩ := h 0
          have hrest := (ih fun n => h (n + 1)).append_blanks hblanks
          rw [joinTexts, String.toList_append, String.toList_append, hseparator, List.cons_append]
          refine .token (fun d hd => ?_) (.blank hfirst hrest)
          cases hd
          exact hfirst

theorem joinTexts_eq_of_map_text_eq (separator : Nat → String) {tokens others : List Token}
    (h : tokens.map Token.text = others.map Token.text) :
    joinTexts separator tokens = joinTexts separator others := by
  induction tokens generalizing separator others with
  | nil => rw [List.map_eq_nil_iff.mp h.symm]
  | cons item rest ih =>
      cases others with
      | nil => cases h
      | cons other others =>
          obtain ⟨htext, hrest⟩ := List.cons.inj h
          cases rest with
          | nil =>
              rw [List.map_eq_nil_iff.mp hrest.symm]
              exact htext
          | cons next rest =>
              cases others with
              | nil => cases hrest
              | cons other' others =>
                  rw [joinTexts, joinTexts, htext, ih (fun n => separator (n + 1)) hrest]

/-- **The texts of tokens determine the tokens.**  Whatever runs of blanks stand between the
texts of tokens that occur in source texts, the joined text is cut into exactly these tokens.
So the tokens of a source can be had again from their texts, whatever blanks and comments the
source has, and tokens with the same texts are the same tokens. -/
theorem tokenize_joinTexts {separator : Nat → String}
    (hblank : ∀ n, Pattern.blank.Matches (separator n).toList) :
    (∀ item : Token, item.Lexed ↔
        ∃ source tokens, tokenize source = .ok (tokens ++ [Token.endOfInput]) ∧ item ∈ tokens) ∧
      (∀ tokens : List Token, (∀ item ∈ tokens, item.Lexed) →
        tokenize (joinTexts separator tokens) = .ok (tokens ++ [Token.endOfInput])) ∧
      (∀ source tokens, tokenize source = .ok tokens →
        tokenize (joinTexts separator tokens.dropLast) = .ok tokens) ∧
      ∀ tokens others : List Token, (∀ item ∈ tokens, item.Lexed) →
        (∀ item ∈ others, item.Lexed) → tokens.map Token.text = others.map Token.text →
        tokens = others := by
  have hjoined : ∀ tokens : List Token, (∀ item ∈ tokens, item.Lexed) →
      tokenize (joinTexts separator tokens) = .ok (tokens ++ [Token.endOfInput]) :=
    fun tokens => tokenize_of_spaces (spaces_joinTexts hblank tokens)
  refine ⟨fun item => ⟨fun hitem => ?_, ?_⟩, hjoined, ?_, ?_⟩
  · have halone := hjoined [item] (List.forall_mem_singleton.mpr hitem)
    exact ⟨_, [item], halone, List.mem_singleton_self item⟩
  · rintro ⟨source, tokens, htokens, hitem⟩
    obtain ⟨body, heq, hlexed⟩ := exists_lexed_of_tokenize htokens
    rw [List.append_cancel_right heq] at hitem
    exact hlexed item hitem
  · intro source tokens htokens
    obtain ⟨body, rfl, hlexed⟩ := exists_lexed_of_tokenize htokens
    rw [List.dropLast_concat]
    exact hjoined body hlexed
  · intro tokens others htokens hothers htexts
    have heq := hjoined tokens htokens
    rw [joinTexts_eq_of_map_text_eq separator htexts, hjoined others hothers] at heq
    exact (List.append_cancel_right (Except.ok.inj heq)).symm

/-- A comment and the missing blanks of a source do not matter, nor do unusual blanks between
the texts of its tokens. -/
theorem tokenize_joinTexts_comment :
    ∃ tokens,
      (tokenize "a<=12// if\n;=if" = .ok tokens ∧
        ∀ n, Pattern.blank.Matches (if n = 1 then "\u3000" else "\t\n").toList) ∧
      joinTexts (fun n => if n = 1 then "\u3000" else "\t\n") tokens.dropLast =
        "a\t\n<=\u300012\t\n;\t\n=\t\nif" ∧
      tokenize "a\t\n<=\u300012\t\n;\t\n=\t\nif" = .ok tokens := by
  have hblank : ∀ n, Pattern.blank.Matches (if n = 1 then "\u3000" else "\t\n").toList := by
    intro n
    split
    · exact ⟨'\u3000', [], rfl, rfl, by simp⟩
    · exact ⟨'\t', ['\n'], rfl, rfl, by simp [Text.isBlank]⟩
  have htokens : ∃ tokens, tokenize "a<=12// if\n;=if" = .ok tokens ∧
      joinTexts (fun n => if n = 1 then "\u3000" else "\t\n") tokens.dropLast =
        "a\t\n<=\u300012\t\n;\t\n=\t\nif" := ⟨_, by cbv, by cbv⟩
  obtain ⟨tokens, htokens, hjoined⟩ := htokens
  have hagain := (tokenize_joinTexts hblank).2.2.1 _ tokens htokens
  exact ⟨tokens, ⟨htokens, hblank⟩, hjoined, hjoined ▸ hagain⟩

/-! ## A line break ends a lexeme -/

namespace Pattern

/-- A text is cut by a pattern in one way. -/
theorem Cuts.split?_eq {pattern : Pattern} {text run rest : List Char}
    (h : pattern.Cuts text run rest) : pattern.split? text = some (run, rest) := by
  cases hsplit : pattern.split? text with
  | none => exact absurd h.matched (split?_eq_none_iff.mp hsplit run rest h.text_eq)
  | some found =>
      obtain ⟨run', rest'⟩ := found
      have hcuts := cuts_of_split? hsplit
      have hlength : run'.length = run.length :=
        Nat.le_antisymm (h.length_le hcuts.text_eq hcuts.matched)
          (hcuts.length_le h.text_eq h.matched)
      obtain ⟨rfl, rfl⟩ := List.append_inj (hcuts.text_eq.symm.trans h.text_eq) hlength
      rfl

/-- A line break stops every pattern but that of blanks. -/
theorem StopsBefore.append_newline {pattern : Pattern} {rest : List Char}
    (h : pattern.StopsBefore rest) (hblank : pattern = blank → rest ≠ []) (tail : List Char) :
    pattern.StopsBefore (rest ++ '\n' :: tail) := by
  cases rest with
  | cons c rest => cases pattern <;> exact h
  | nil =>
      have hhead {p : Char → Prop} (hp : p '\n') : ∀ c ∈ ('\n' :: tail).head?, p c := by
        intro c hc
        cases hc
        exact hp
      cases pattern with
      | word => exact hhead rfl
      | digits => exact hhead rfl
      | blank => exact absurd rfl (hblank rfl)
      | comment => exact hhead rfl
      | mark => trivial

/-- What is cut off a text is cut off it before a line break too, unless it is all of the text
and blank. -/
theorem split?_append_newline {pattern : Pattern} {text run rest : List Char}
    (h : pattern.split? text = some (run, rest)) (hblank : pattern = blank → rest ≠ [])
    (tail : List Char) :
    pattern.split? (text ++ '\n' :: tail) = some (run, rest ++ '\n' :: tail) := by
  have hcuts := cuts_of_split? h
  refine Cuts.split?_eq ⟨?_, hcuts.matched, hcuts.stops.append_newline hblank tail⟩
  rw [hcuts.text_eq, List.append_assoc]

/-- Whether no text of the pattern holds a line break, as far as the pattern is one mark. -/
def onOneLine : Pattern → Bool
  | mark _ first later => '\n' ∉ first :: later
  | _ => true

theorem onOneLine_of_mem_table {pattern : Pattern} (h : pattern ∈ table) :
    pattern.onOneLine = true :=
  List.all_eq_true.mp (show table.all onOneLine = true by decide +kernel) pattern h

theorem IsRun.newline_notMem {first later : Char → Bool} {text : List Char}
    (h : IsRun first later text) (hfirst : first '\n' = false) (hlater : later '\n' = false) :
    '\n' ∉ text := by
  obtain ⟨c, rest, rfl, hc, hrest⟩ := h
  intro hmem
  rcases List.mem_cons.mp hmem with rfl | hmem
  · cases hc.symm.trans hfirst
  · cases (hrest _ hmem).symm.trans hlater

/-- Only blanks hold line breaks. -/
theorem Matches.newline_notMem {pattern : Pattern} {text : List Char}
    (h : pattern.Matches text) (hmem : pattern ∈ table) (hne : pattern ≠ blank) :
    '\n' ∉ text := by
  cases pattern with
  | word => exact IsRun.newline_notMem h rfl rfl
  | digits => exact IsRun.newline_notMem h rfl rfl
  | blank => exact absurd rfl hne
  | comment =>
      obtain ⟨line, rfl, hline⟩ := h
      simpa using hline
  | mark kind first later =>
      obtain rfl : text = first :: later := h
      exact of_decide_eq_true (onOneLine_of_mem_table hmem)

/-- A pattern that matches no front of a text matches none with a line break after it. -/
theorem split?_append_newline_eq_none {pattern : Pattern} {text : List Char}
    (h : pattern.split? text = none) (hmem : pattern ∈ table) (htext : text ≠ [])
    (tail : List Char) : pattern.split? (text ++ '\n' :: tail) = none := by
  rw [split?_eq_none_iff] at h ⊢
  intro run rest heq hmatches
  rcases List.append_eq_append_iff.mp heq with ⟨more, rfl, hmore⟩ | ⟨more, hfront, -⟩
  · cases more with
    | nil => exact h text [] (by simp) (by simpa using hmatches)
    | cons c more =>
        -- the match takes the line break in, so it is one of blanks, and the text starts with one
        obtain rfl : '\n' = c := (List.cons.inj hmore).1
        have hblank : pattern = blank := by
          by_contra hne
          exact hmatches.newline_notMem hmem hne (by simp)
        subst hblank
        obtain ⟨first, later, rfl⟩ := List.exists_cons_of_ne_nil htext
        obtain ⟨d, _, hcons, hd, -⟩ := hmatches
        obtain rfl : first = d := (List.cons.inj hcons).1
        exact h [first] later rfl ⟨first, [], rfl, hd, by simp⟩
  · exact h run more hfront hmatches

end Pattern

namespace Lexeme

/-- A line break ends every lexeme but a run of blanks. -/
theorem next?_append_newline {text rest : List Char} {lexeme : Lexeme}
    (h : next? text = some (lexeme, rest)) (hblank : lexeme.pattern = .blank → rest ≠ [])
    (tail : List Char) :
    next? (text ++ '\n' :: tail) = some (lexeme, rest ++ '\n' :: tail) := by
  have htext : text ≠ [] := by
    rintro rfl
    exact absurd (length_lt_of_next? h) (Nat.not_lt_zero _)
  obtain ⟨hsplit, before, after, htable, hbefore⟩ := next?_eq_some_iff.mp h
  refine next?_eq_some_iff.mpr
    ⟨Pattern.split?_append_newline hsplit hblank tail, before, after, htable, ?_⟩
  intro earlier hearlier
  have hmem : earlier ∈ Pattern.table := htable ▸ List.mem_append_left _ hearlier
  exact Pattern.split?_append_newline_eq_none (hbefore earlier hearlier) hmem htext tail

/-- Where no lexeme starts, none starts with a line break behind it. -/
theorem next?_append_newline_eq_none {text : List Char} (h : next? text = none)
    (htext : text ≠ []) (tail : List Char) : next? (text ++ '\n' :: tail) = none := by
  rw [next?_eq_none_iff] at h ⊢
  exact fun pattern hmem => Pattern.split?_append_newline_eq_none (h pattern hmem) hmem htext tail

/-! ## Lines -/

theorem collect_append_blanks {β : Type} {f : Lexeme → Option β}
    (hf : ∀ run, f ⟨.blank, run⟩ = none) {blanks : List Char} (text : List Char)
    (hblanks : ∀ c ∈ blanks, Text.isBlank c = true) :
    collect f (blanks ++ text) = collect f text := by
  induction blanks with
  | nil => rfl
  | cons c rest ih =>
      obtain ⟨hfirst, hrest⟩ := List.forall_mem_cons.mp hblanks
      rw [List.cons_append, collect_cons_blank hf _ hfirst, ih hrest]

/-- A text that is one run of blanks. -/
theorem forall_isBlank_of_next? {text : List Char} {lexeme : Lexeme}
    (h : next? text = some (lexeme, [])) (hblank : lexeme.pattern = .blank) :
    ∀ c ∈ text, Text.isBlank c = true := by
  have hcuts := Pattern.cuts_of_split? (next?_eq_some h).2
  rw [hblank] at hcuts
  obtain ⟨first, rest, hrun, hfirst, hrest⟩ := hcuts.matched
  rw [hcuts.text_eq, List.append_nil, hrun]
  exact List.forall_mem_cons.mpr ⟨hfirst, hrest⟩

theorem ofText_of_next?_eq_none {c : Char} {tail : List Char} (h : next? (c :: tail) = none) :
    ofText (c :: tail) = .error (.unrecognisedToken (String.singleton c)) := by
  rw [ofText]
  split
  · rfl
  · rename_i hsome
    rw [h] at hsome
    cases hsome

/-- What passes blanks over sees the lexemes of the text before a line break and then those of
the text after it. -/
theorem collect_append_newline {β : Type} {f : Lexeme → Option β}
    (hf : ∀ run, f ⟨.blank, run⟩ = none) (text tail : List Char) :
    collect f (text ++ '\n' :: tail) = do
      let found ← collect f text
      let others ← collect f tail
      return found ++ others := by
  induction hlength : text.length using Nat.strong_induction_on generalizing text with
  | h length ih =>
    cases text with
    | nil =>
        rw [List.nil_append, collect_cons_blank hf tail rfl, collect_nil]
        cases collect f tail <;> rfl
    | cons c later =>
        cases hnext : next? (c :: later) with
        | none =>
            have hjoined := next?_append_newline_eq_none hnext (List.cons_ne_nil c later) tail
            rw [List.cons_append] at hjoined ⊢
            rw [collect, collect, ofText_of_next?_eq_none hnext, ofText_of_next?_eq_none hjoined]
            rfl
        | some found =>
            obtain ⟨lexeme, rest⟩ := found
            by_cases hblank : lexeme.pattern = .blank → rest ≠ []
            · have hlt := length_lt_of_next? hnext
              rw [collect_of_next? f (next?_append_newline hnext hblank tail),
                collect_of_next? f hnext, ih _ (hlength ▸ hlt) rest rfl]
              cases collect f rest <;> cases collect f tail <;>
                simp [Except.map, bind, Except.bind, pure, Except.pure]
            · obtain ⟨hpattern, rfl⟩ : lexeme.pattern = .blank ∧ rest = [] := by simpa using hblank
              have hblanks := forall_isBlank_of_next? hnext hpattern
              have hnothing : collect f (c :: later) = .ok [] := by
                simpa using collect_append_blanks hf [] hblanks
              rw [collect_append_blanks hf _ hblanks, collect_cons_blank hf tail rfl, hnothing]
              cases collect f tail <;> rfl

end Lexeme

/-- Every lexeme but a blank one. -/
def Lexeme.visible? (lexeme : Lexeme) : Option Lexeme :=
  if lexeme.pattern = .blank then none else some lexeme

/-- **Lines are cut independently.**  A text with a line break in it is refused as what stands
before the line break is, or else as what stands after it is, and otherwise it has the tokens
of both, one after the other, with one end of input.  And so it is with all that is not blank,
comments included: each part is cut as if the other were not there. -/
theorem tokenize_lines (first second : String) :
    tokenize (first ++ "\n" ++ second) = (do
        let tokens ← tokenize first
        let others ← tokenize second
        return tokens.dropLast ++ others) ∧
      Lexeme.collect Lexeme.visible? (first ++ "\n" ++ second).toList = (do
        let lexemes ← Lexeme.collect Lexeme.visible? first.toList
        let others ← Lexeme.collect Lexeme.visible? second.toList
        return lexemes ++ others) := by
  have hjoined : (first ++ "\n" ++ second).toList = first.toList ++ '\n' :: second.toList := by
    simp
  rw [hjoined]
  refine ⟨?_, Lexeme.collect_append_newline (fun _ => rfl) _ _⟩
  have htokens : Lexeme.tokensOf (first.toList ++ '\n' :: second.toList) = do
      let found ← Lexeme.tokensOf first.toList
      let others ← Lexeme.tokensOf second.toList
      return found ++ others :=
    Lexeme.collect_append_newline (fun _ => rfl) _ _
  rw [tokenize_eq_map_tokensOf, tokenize_eq_map_tokensOf, tokenize_eq_map_tokensOf, hjoined,
    htokens]
  cases Lexeme.tokensOf first.toList with
  | error diagnostic => rfl
  | ok tokens =>
      cases Lexeme.tokensOf second.toList with
      | error diagnostic => rfl
      | ok others => simp [Except.map, bind, Except.bind, pure, Except.pure]

end FlexWidth
