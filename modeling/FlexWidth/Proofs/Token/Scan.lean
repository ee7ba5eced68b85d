import FlexWidth.Proofs.Token.LongestMatch
import FlexWidth.Text.Cursor
import Mathlib

/-!
# Scanning a source from place to place

The lexer stands at a byte of the source.  As long as it is not at the end it cuts off what
the first matching pattern takes, and moves on by the bytes of that.  `Scan.Reached` lists
the places that it comes to in this way, with the tokens found on the way there.

At every such place the cursor stands between two characters (`Scan.At.rest?`), and cutting
the source into lexemes is what the scan does: it ends at the end of the source with the
tokens (`Scan.tokenize_eq_ok_iff`), or where no pattern matches, with the character found
there (`Scan.tokenize_eq_error_iff`).

`Transcribes` says, without patterns, what a source consists of if it has tokens: their
texts in order, and between them blanks and comments.
-/

namespace FlexWidth

/-! ## Bytes -/

/-- The number of bytes of a text. -/
def byteSize (text : List Char) : Nat := (String.ofList text).utf8ByteSize

@[simp] theorem byteSize_nil : byteSize [] = 0 := rfl

theorem byteSize_append (text more : List Char) :
    byteSize (text ++ more) = byteSize text + byteSize more := by
  rw [byteSize, String.ofList_append, String.utf8ByteSize_append]
  rfl

theorem byteSize_cons (c : Char) (text : List Char) :
    byteSize (c :: text) = c.utf8Size + byteSize text := by
  rw [byteSize, String.ofList_cons, String.utf8ByteSize_append, String.utf8ByteSize_singleton]
  rfl

theorem byteSize_toList (source : String) : byteSize source.toList = source.utf8ByteSize := by
  rw [byteSize, String.ofList_toList]

theorem byteSize_eq_zero_iff {text : List Char} : byteSize text = 0 ↔ text = [] := by
  cases text with
  | nil => simp
  | cons c rest =>
      have hpositive := c.utf8Size_pos
      simp only [byteSize_cons, reduceCtorEq, iff_false]
      omega

/-- Behind the bytes of a front of the text stands the rest of it. -/
theorem dropBytes?_byteSize (before after : List Char) :
    Text.dropBytes? (byteSize before) (before ++ after) = some after := by
  induction before with
  | nil => rw [byteSize_nil, List.nil_append, Text.dropBytes?]
  | cons c rest ih =>
      have hpositive := c.utf8Size_pos
      obtain ⟨bytes, hbytes⟩ : ∃ bytes, byteSize (c :: rest) = bytes + 1 :=
        ⟨byteSize (c :: rest) - 1, by rw [byteSize_cons]; omega⟩
      have hsize := byteSize_cons c rest
      have hleft : bytes + 1 - c.utf8Size = byteSize rest := by omega
      rw [hbytes, List.cons_append, Text.dropBytes?, if_pos (by omega), hleft, ih]

/-! ## Places -/

/-- How far a match moves the cursor: a mark by its own bytes, any other pattern by those of
the text that it has matched. -/
def Pattern.stride : Pattern → List Char → Nat
  | .mark _ first later, _ => byteSize (first :: later)
  | _, run => byteSize run

/-- A mark is all that is cut off by it. -/
theorem Pattern.stride_eq {pattern : Pattern} {run : List Char} (h : pattern.Matches run) :
    pattern.stride run = byteSize run := by
  cases pattern with
  | word | digits | blank | comment => rfl
  | mark kind first later =>
      obtain rfl : run = first :: later := h
      rfl

/-- Where a scan stands: the cursor, and the tokens found so far. -/
structure Scan where
  cursor : Text.Cursor
  tokens : List Token

namespace Scan

/-- The places that the scan of a source comes to. -/
inductive Reached (source : String) : Scan → Prop where
  | start : Reached source ⟨.start source, []⟩
  | step {cursor : Text.Cursor} {tokens : List Token} {text run rest : List Char}
      {pattern : Pattern} : Reached source ⟨cursor, tokens⟩ → cursor.atEnd = false →
      cursor.rest? = some text → pattern.IsFirst text run rest →
      Reached source ⟨⟨cursor.text, cursor.offset + pattern.stride run⟩,
        tokens ++ (Lexeme.mk pattern run).token?.toList⟩

/-- The scan stands behind some lexemes of the source, before `rest`. -/
structure At (source : String) (scan : Scan) (lexemes : List Lexeme) (rest : List Char) :
    Prop where
  text : scan.cursor.text = source
  source_eq : source.toList = lexemes.flatMap Lexeme.text ++ rest
  offset : scan.cursor.offset = byteSize (lexemes.flatMap Lexeme.text)
  tokens : scan.tokens = lexemes.filterMap Lexeme.token?
  ofText : Lexeme.ofText source.toList = (Lexeme.ofText rest).map (lexemes ++ ·)

section At

variable {source : String} {scan : Scan} {lexemes : List Lexeme} {rest : List Char}

/-- The cursor stands between two characters. -/
theorem At.rest? (h : At source scan lexemes rest) : scan.cursor.rest? = some rest := by
  rw [Text.Cursor.rest?, h.text, h.offset, h.source_eq]
  exact dropBytes?_byteSize _ _

theorem At.utf8ByteSize (h : At source scan lexemes rest) :
    source.utf8ByteSize = scan.cursor.offset + byteSize rest := by
  rw [← byteSize_toList, h.source_eq, byteSize_append, h.offset]

theorem At.atEnd_iff (h : At source scan lexemes rest) : scan.cursor.atEnd = true ↔ rest = [] := by
  rw [Text.Cursor.atEnd, decide_eq_true_eq, h.text, h.utf8ByteSize, ← byteSize_eq_zero_iff]
  omega

theorem at_start (source : String) : At source ⟨.start source, []⟩ [] source.toList where
  text := rfl
  source_eq := rfl
  offset := rfl
  tokens := rfl
  ofText := by cases Lexeme.ofText source.toList <;> rfl

/-- One more lexeme. -/
theorem At.step {cursor : Text.Cursor} {tokens : List Token} {run after : List Char}
    {pattern : Pattern} (h : At source ⟨cursor, tokens⟩ lexemes rest)
    (hfirst : pattern.IsFirst rest run after) :
    At source ⟨⟨cursor.text, cursor.offset + pattern.stride run⟩,
      tokens ++ (Lexeme.mk pattern run).token?.toList⟩ (lexemes ++ [⟨pattern, run⟩]) after := by
  have hcuts := Pattern.cuts_of_split? hfirst.split
  have hnext : Lexeme.next? rest = some (⟨pattern, run⟩, after) :=
    Lexeme.next?_eq_some_iff.mpr hfirst
  refine ⟨h.text, ?_, ?_, ?_, ?_⟩
  · rw [h.source_eq, hcuts.text_eq]
    simp
  · have hoffset : cursor.offset = byteSize (lexemes.flatMap Lexeme.text) := h.offset
    simp [hoffset, Pattern.stride_eq hcuts.matched, byteSize_append]
  · have htokens : tokens = lexemes.filterMap Lexeme.token? := h.tokens
    cases htoken : (Lexeme.mk pattern run).token? <;> simp [htokens, htoken]
  · rw [h.ofText, Lexeme.ofText_of_next? hnext]
    cases Lexeme.ofText after <;> simp [Except.map]

/-- Wherever the scan comes to, it stands behind some lexemes of the source. -/
theorem Reached.exists_at (h : Reached source scan) :
    ∃ lexemes rest, At source scan lexemes rest := by
  induction h with
  | start => exact ⟨[], source.toList, at_start source⟩
  | step _ _ htext hfirst ih =>
      obtain ⟨lexemes, rest, hat⟩ := ih
      obtain rfl := Option.some.inj (hat.rest?.symm.trans htext)
      exact ⟨_, _, hat.step hfirst⟩

end At

/-! ## Where a scan ends -/

/-- The scan of the source comes to its end, with these tokens. -/
def Finishes (source : String) (tokens : List Token) : Prop :=
  ∃ scan, Reached source scan ∧ scan.cursor.atEnd = true ∧ tokens = scan.tokens

/-- The scan of the source comes to a place before the end where no pattern matches, and this
character stands there. -/
def StopsAt (source : String) (c : Char) : Prop :=
  ∃ scan text, Reached source scan ∧ scan.cursor.rest? = some (c :: text) ∧
    ∀ pattern ∈ Pattern.table, ∀ run rest, c :: text = run ++ rest → ¬ pattern.Matches run

theorem no_match_iff {text : List Char} :
    (∀ pattern ∈ Pattern.table, ∀ run rest, text = run ++ rest → ¬ pattern.Matches run) ↔
      Lexeme.next? text = none := by
  rw [Lexeme.next?_eq_none_iff]
  exact forall₂_congr fun pattern _ => Pattern.split?_eq_none_iff.symm

/-- From every place that it comes to, the scan goes on to the outcome of the rest of the
source. -/
theorem Reached.goesOn {source : String} {scan : Scan} {lexemes : List Lexeme} {rest : List Char}
    (h : Reached source scan) (hat : At source scan lexemes rest) :
    (∀ later, Lexeme.ofText rest = .ok later →
      Finishes source (scan.tokens ++ later.filterMap Lexeme.token?)) ∧
    ∀ diagnostic, Lexeme.ofText rest = .error diagnostic →
      ∃ c, StopsAt source c ∧ diagnostic = .unrecognisedToken (String.singleton c) := by
  fun_induction Lexeme.ofText rest generalizing scan lexemes with
  | case1 =>
      refine ⟨?_, fun _ hrest => (by cases hrest)⟩
      rintro _ ⟨⟩
      exact ⟨scan, h, hat.atEnd_iff.mpr rfl, by simp⟩
  | case2 c tail hnone =>
      refine ⟨fun _ hrest => (by cases hrest), ?_⟩
      rintro _ ⟨⟩
      exact ⟨c, ⟨scan, tail, h, hat.rest?, no_match_iff.mpr hnone⟩, rfl⟩
  | case3 c tail lexeme after hnext _ later hlater ih =>
      obtain ⟨cursor, tokens⟩ := scan
      have hopen : cursor.atEnd = false := Bool.eq_false_iff.mpr fun hend => by
        cases hat.atEnd_iff.mp hend
      have hfirst := Lexeme.next?_eq_some_iff.mp hnext
      obtain ⟨hdone, -⟩ := ih (h.step hopen hat.rest? hfirst) (hat.step hfirst)
      refine ⟨?_, fun _ hrest => (by cases hrest)⟩
      rintro _ ⟨⟩
      have hfinish := hdone later hlater
      rw [List.append_assoc] at hfinish
      cases htoken : lexeme.token? <;> simpa [htoken] using hfinish
  | case4 c tail lexeme after hnext _ diagnostic hlater ih =>
      obtain ⟨cursor, tokens⟩ := scan
      have hopen : cursor.atEnd = false := Bool.eq_false_iff.mpr fun hend => by
        cases hat.atEnd_iff.mp hend
      have hfirst := Lexeme.next?_eq_some_iff.mp hnext
      obtain ⟨-, hstops⟩ := ih (h.step hopen hat.rest? hfirst) (hat.step hfirst)
      refine ⟨fun _ hrest => (by cases hrest), ?_⟩
      rintro _ ⟨⟩
      exact hstops diagnostic hlater

theorem Finishes.ofText {source : String} {tokens : List Token} (h : Finishes source tokens) :
    ∃ lexemes, Lexeme.ofText source.toList = .ok lexemes ∧
      tokens = lexemes.filterMap Lexeme.token? := by
  obtain ⟨scan, hreached, hend, rfl⟩ := h
  obtain ⟨lexemes, rest, hat⟩ := hreached.exists_at
  obtain rfl := hat.atEnd_iff.mp hend
  refine ⟨lexemes, ?_, hat.tokens⟩
  rw [hat.ofText, Lexeme.ofText]
  simp [Except.map]

theorem StopsAt.ofText {source : String} {c : Char} (h : StopsAt source c) :
    Lexeme.ofText source.toList = .error (.unrecognisedToken (String.singleton c)) := by
  obtain ⟨scan, text, hreached, hrest, hnone⟩ := h
  obtain ⟨lexemes, rest, hat⟩ := hreached.exists_at
  obtain rfl := Option.some.inj (hat.rest?.symm.trans hrest)
  have herror : Lexeme.ofText (c :: text) =
      .error (.unrecognisedToken (String.singleton c)) := by
    rw [Lexeme.ofText]
    split
    · rfl
    · rename_i hsome
      rw [no_match_iff.mp hnone] at hsome
      cases hsome
  rw [hat.ofText, herror]
  rfl

/-- The tokens of a source are those with which its scan comes to the end. -/
theorem tokenize_eq_ok_iff {source : String} {tokens : List Token} :
    tokenize source = .ok tokens ↔
      ∃ body, Finishes source body ∧ tokens = body ++ [Token.endOfInput] := by
  constructor
  · intro h
    obtain ⟨lexemes, hlexemes, rfl⟩ := FlexWidth.tokenize_eq_ok h
    exact ⟨_, (Reached.start.goesOn (at_start source)).1 lexemes hlexemes, rfl⟩
  · rintro ⟨body, hfinishes, rfl⟩
    obtain ⟨lexemes, hlexemes, rfl⟩ := hfinishes.ofText
    rw [tokenize, hlexemes]
    rfl

/-- A source has no tokens exactly if its scan stops before the end. -/
theorem tokenize_eq_error_iff {source : String} {diagnostic : Diagnostic} :
    tokenize source = .error diagnostic ↔
      ∃ c, StopsAt source c ∧ diagnostic = .unrecognisedToken (String.singleton c) := by
  constructor
  · intro h
    refine (Reached.start.goesOn (at_start source)).2 diagnostic ?_
    cases hlexemes : Lexeme.ofText source.toList with
    | ok lexemes =>
        rw [tokenize, hlexemes] at h
        cases h
    | error found =>
        rw [tokenize, hlexemes] at h
        cases h
        rfl
  · rintro ⟨c, hstops, rfl⟩
    rw [tokenize, hstops.ofText]
    rfl

end Scan

/-! ## What a source consists of -/

/-- The kinds of the reserved words. -/
def TokenKind.reserved : List TokenKind :=
  [.ifWord, .elseWord, .whileWord, .forWord, .inWord, .outputWord, .inputWord, .intWord, .boolWord]

/-- The text consists of the texts of the tokens, in order, with runs of blanks and comments
between them.  A word, a number or a comment goes on for as long as it can; a word is the
token of a reserved word if all of it is one, and else an identifier. -/
inductive Transcribes : List Token → List Char → Prop where
  | done : Transcribes [] []
  | blanks {tokens : List Token} {run text : List Char} : run ≠ [] →
      (∀ c ∈ run, Text.isBlank c = true) → Transcribes tokens text →
      Transcribes tokens (run ++ text)
  | comment {tokens : List Token} {line text : List Char} : '\n' ∉ line →
      (∀ c ∈ text.head?, c = '\n') → Transcribes tokens text →
      Transcribes tokens ('/' :: '/' :: line ++ text)
  | keyword {tokens : List Token} {kind : TokenKind} {text : List Char} :
      kind ∈ TokenKind.reserved → (∀ c ∈ text.head?, continuesWord c = false) →
      Transcribes tokens text →
      Transcribes (⟨kind, kind.spelling⟩ :: tokens) (kind.spelling.toList ++ text)
  | identifier {tokens : List Token} {name : String} {text : List Char} :
      formsWord name.toList = true → (∀ kind ∈ TokenKind.reserved, kind.spelling ≠ name) →
      (∀ c ∈ text.head?, continuesWord c = false) → Transcribes tokens text →
      Transcribes (⟨.identifier, name⟩ :: tokens) (name.toList ++ text)
  | number {tokens : List Token} {digits : String} {text : List Char} : digits.toList ≠ [] →
      (∀ c ∈ digits.toList, c.isDigit = true) → (∀ c ∈ text.head?, c.isDigit = false) →
      Transcribes tokens text →
      Transcribes (⟨.number, digits⟩ :: tokens) (digits.toList ++ text)
  | mark {tokens : List Token} {kind : TokenKind} {first : Char} {later text : List Char} :
      Pattern.mark kind first later ∈ Pattern.table → Transcribes tokens text →
      Transcribes (⟨kind, String.ofList (first :: later)⟩ :: tokens) (first :: later ++ text)

theorem TokenKind.ofWord_spelling : ∀ kind ∈ reserved, ofWord kind.spelling ≠ .identifier := by
  decide

/-- A word that is not reserved is an identifier; a reserved one is spelled as its kind is. -/
theorem TokenKind.ofWord_cases (word : String) :
    (ofWord word = .identifier ∧ ∀ kind ∈ reserved, kind.spelling ≠ word) ∨
      ofWord word ∈ reserved ∧ (ofWord word).spelling = word := by
  by_cases hidentifier : ofWord word = .identifier
  · refine .inl ⟨hidentifier, fun kind hkind heq => ?_⟩
    exact ofWord_spelling kind hkind (heq ▸ hidentifier)
  · refine .inr ⟨?_, ?_⟩
    · revert hidentifier
      unfold ofWord
      split <;> simp [reserved]
    · exact ((spelling_ofWord word).resolve_left hidentifier).1

theorem formsWord_of_isRun {text : List Char}
    (h : Pattern.IsRun startsWord continuesWord text) : formsWord text = true := by
  obtain ⟨c, rest, rfl, hfirst, hrest⟩ := h
  rw [formsWord, hfirst, List.all_eq_true.mpr hrest]
  rfl

/-- A run of one class is not empty and holds that class only. -/
theorem Pattern.IsRun.forall {belongs : Char → Bool} {text : List Char}
    (h : IsRun belongs belongs text) : text ≠ [] ∧ ∀ c ∈ text, belongs c = true := by
  obtain ⟨c, rest, rfl, hfirst, hrest⟩ := h
  exact ⟨List.cons_ne_nil c rest, List.forall_mem_cons.mpr ⟨hfirst, hrest⟩⟩

/-- A lexeme put before a text adds its token, if it has one. -/
theorem Transcribes.cons {tokens : List Token} {lexeme : Lexeme} {text rest : List Char}
    (h : Transcribes tokens rest) (hmem : lexeme.pattern ∈ Pattern.table)
    (hcuts : lexeme.pattern.Cuts text lexeme.text rest) :
    Transcribes (lexeme.token?.toList ++ tokens) text := by
  obtain ⟨pattern, run⟩ := lexeme
  obtain ⟨htext, hmatched, hstops⟩ := hcuts
  subst htext
  have hrun : (String.ofList run).toList = run := String.toList_ofList
  cases pattern with
  | word =>
      rcases TokenKind.ofWord_cases (String.ofList run) with ⟨hkind, hword⟩ | ⟨hkind, hword⟩
      · have hforms : formsWord (String.ofList run).toList = true := by
          rw [hrun]
          exact formsWord_of_isRun hmatched
        have htranscribes := h.identifier hforms hword hstops
        rw [hrun] at htranscribes
        simpa [Lexeme.token?, hkind] using htranscribes
      · have htranscribes := h.keyword hkind hstops
        rw [hword, hrun] at htranscribes
        simpa [Lexeme.token?] using htranscribes
  | digits =>
      obtain ⟨hne, hdigits⟩ := hmatched.forall
      rw [← hrun] at hne hdigits
      have htranscribes := h.number hne hdigits hstops
      rw [hrun] at htranscribes
      exact htranscribes
  | blank =>
      obtain ⟨hne, hblanks⟩ := hmatched.forall
      exact h.blanks hne hblanks
  | comment =>
      obtain ⟨line, rfl, hline⟩ := hmatched
      exact h.comment hline hstops
  | mark kind first later =>
      obtain rfl : run = first :: later := hmatched
      exact h.mark hmem

theorem transcribes_of_ofText {text : List Char} {lexemes : List Lexeme}
    (h : Lexeme.ofText text = .ok lexemes) :
    Transcribes (lexemes.filterMap Lexeme.token?) text := by
  fun_induction Lexeme.ofText text generalizing lexemes with
  | case1 =>
      cases h
      exact .done
  | case2 => cases h
  | case3 c tail lexeme rest hnext _ later hlater ih =>
      cases h
      have hfirst := Lexeme.next?_eq_some_iff.mp hnext
      have htranscribes := (ih hlater).cons hfirst.mem_table (Pattern.cuts_of_split? hfirst.split)
      cases htoken : lexeme.token? <;> simpa [htoken] using htranscribes
  | case4 => cases h

/-- **The lexer takes the longest match and loses nothing.**  Wherever it comes to in a
source, the cursor stands between two characters, and the first pattern that matches there
matches more than any other.  It comes to the end exactly if the source has tokens; then the
source is transcribed by them, and one end of input is added.  Otherwise it comes to a place
where no pattern matches, and the character there is the error. -/
theorem tokenize_longest_match (source : String) :
    (∀ scan, Scan.Reached source scan →
      scan.cursor.offset ≤ source.utf8ByteSize ∧ ∃ text, scan.cursor.rest? = some text ∧
        ∀ pattern run rest, pattern.IsFirst text run rest →
          ∀ other ∈ Pattern.table, ∀ run' rest', text = run' ++ rest' → other.Matches run' →
            run'.length ≤ run.length ∧ (other ≠ pattern → run'.length < run.length)) ∧
      (∀ tokens, tokenize source = .ok tokens ↔
        ∃ body, Scan.Finishes source body ∧ tokens = body ++ [Token.endOfInput]) ∧
      (∀ body, Scan.Finishes source body →
        Transcribes body source.toList ∧ ∀ item ∈ body, item.kind ≠ .endOfInput) ∧
      ∀ diagnostic, tokenize source = .error diagnostic ↔
        ∃ c, Scan.StopsAt source c ∧ diagnostic = .unrecognisedToken (String.singleton c) := by
  refine ⟨?_, fun _ => Scan.tokenize_eq_ok_iff, ?_, fun _ => Scan.tokenize_eq_error_iff⟩
  · intro scan hreached
    obtain ⟨lexemes, text, hat⟩ := hreached.exists_at
    refine ⟨hat.utf8ByteSize ▸ Nat.le_add_right _ _, text, hat.rest?, ?_⟩
    intro pattern run rest hfirst other hmem run' rest' htext hmatches
    have hlt : other ≠ pattern → run'.length < run.length :=
      fun hne => hfirst.length_lt hmem hne hmatches htext
    refine ⟨?_, hlt⟩
    by_cases hsame : other = pattern
    · subst hsame
      exact (Pattern.cuts_of_split? hfirst.split).length_le htext hmatches
    · exact Nat.le_of_lt (hlt hsame)
  · intro body hfinishes
    obtain ⟨lexemes, hlexemes, rfl⟩ := hfinishes.ofText
    refine ⟨transcribes_of_ofText hlexemes, fun item hitem => ?_⟩
    obtain ⟨lexeme, hlexeme, htoken⟩ := List.mem_filterMap.mp hitem
    exact Token.kind_ne_endOfInput_of_token? htoken
      (Lexeme.split?_of_mem_ofText hlexemes hlexeme).1

/-- The second place in a source with a mark that another mark starts with, and with a
comment that holds a character of two bytes. -/
theorem tokenize_longest_match_lessEquals :
    let source := "x<=//é\n1"
    let tokens : List Token :=
      [⟨.identifier, "x"⟩, ⟨.lessEquals, "<="⟩, ⟨.number, "1"⟩, Token.endOfInput]
    let text := ['<', '=', '/', '/', 'é', '\n', '1']
    let place : Scan := ⟨⟨source, 1⟩, [⟨.identifier, "x"⟩]⟩
    tokenize source = .ok tokens ∧ Transcribes tokens.dropLast source.toList ∧
      Scan.Reached source place ∧ place.cursor.rest? = some text ∧
      (∀ other ∈ Pattern.table, ∀ run' rest', text = run' ++ rest' → other.Matches run' →
        run'.length ≤ 2) ∧
      ∃ c, Scan.StopsAt "é" c ∧
        tokenize "é" = .error (.unrecognisedToken (String.singleton c)) := by
  intro source tokens text place
  have htokenize : tokenize source = .ok tokens := by
    cbv
  have hword : Pattern.word.IsFirst source.toList ['x'] text :=
    ⟨by cbv, [], Pattern.table.tail, rfl, by simp⟩
  have hopen : (Text.Cursor.start source).atEnd = false := by
    cbv
  have hreached : Scan.Reached source place :=
    Scan.Reached.start.step hopen (Scan.at_start source).rest? hword
  have hrest : place.cursor.rest? = some text := by
    cbv
  have hfirst : (Pattern.mark .lessEquals '<' ['=']).IsFirst text ['<', '='] (text.drop 2) :=
    ⟨by decide, Pattern.table.take 11, Pattern.table.drop 12, by decide, by decide⟩
  have herror : tokenize "é" = .error (.unrecognisedToken "é") := by
    cbv
  obtain ⟨hplaces, hok, hbody, -⟩ := tokenize_longest_match source
  obtain ⟨body, hfinishes, hadded⟩ := (hok tokens).mp htokenize
  obtain ⟨c, hstops, hc⟩ := ((tokenize_longest_match "é").2.2.2 _).mp herror
  obtain ⟨-, found, hfound, hlongest⟩ := hplaces place hreached
  obtain rfl := Option.some.inj (hrest.symm.trans hfound)
  refine ⟨htokenize, ?_, hreached, hrest, ?_, c, hstops, hc ▸ herror⟩
  · rw [hadded, List.dropLast_concat]
    exact (hbody body hfinishes).1
  · intro other hmem run' rest' htext hmatches
    exact (hlongest _ _ _ hfirst other hmem run' rest' htext hmatches).1

end FlexWidth
