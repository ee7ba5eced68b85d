import FlexWidth.Proofs.Token.Lexed

/-!
# Tokens set apart by blanks

A text *spaces* a list of tokens if it holds their texts in order, any two of them
with a blank between.  Whatever the blanks are, tokenizing such a text gives back the
tokens (`tokenize_of_spaces`): a blank ends the lexeme before it
(`Lexeme.next?_append`), and blanks give no token (`Lexeme.tokensOf_cons_blank`).
-/

namespace FlexWidth

/-- The text is at its end or goes on with a blank. -/
def StartsBlank (text : List Char) : Prop := ∀ c ∈ text.head?, Text.isBlank c = true

/-- The text holds the tokens in order, set apart by blanks. -/
inductive Spaces : List Token → List Char → Prop where
  | nil : Spaces [] []
  | blank {tokens : List Token} {c : Char} {text : List Char} : Text.isBlank c = true →
      Spaces tokens text → Spaces tokens (c :: text)
  | token {item : Token} {tokens : List Token} {text : List Char} : StartsBlank text →
      Spaces tokens text → Spaces (item :: tokens) (item.text.toList ++ text)

/-- The texts of the tokens, each before a space. -/
def spacedText (tokens : List Token) : List Char :=
  tokens.flatMap fun item => item.text.toList ++ [' ']

theorem spaces_spacedText (tokens : List Token) : Spaces tokens (spacedText tokens) := by
  induction tokens with
  | nil => exact .nil
  | cons item rest ih =>
      have hblank : Text.isBlank ' ' = true := rfl
      have hstarts : StartsBlank (' ' :: spacedText rest) := by
        intro c hc
        cases hc
        exact hblank
      have htext : spacedText (item :: rest) = item.text.toList ++ ' ' :: spacedText rest := by
        simp [spacedText]
      rw [htext]
      exact .token hstarts (.blank hblank ih)

/-! ## A blank ends a lexeme -/

theorem code_of_isDigit {c : Char} (h : c.isDigit = true) : 48 ≤ c.toNat ∧ c.toNat ≤ 57 := by
  simp only [Char.isDigit, Bool.and_eq_true, decide_eq_true_eq, UInt32.le_iff_toNat_le,
    ge_iff_le] at h
  exact h

theorem code_of_startsWord {c : Char} (h : startsWord c = true) :
    65 ≤ c.toNat ∧ c.toNat ≤ 90 ∨ c.toNat = 95 ∨ 97 ≤ c.toNat ∧ c.toNat ≤ 122 := by
  rcases Bool.or_eq_true_iff.mp h with hletter | hunderscore
  · rcases Bool.or_eq_true_iff.mp hletter with hupper | hlower
    · exact .inl (of_decide_eq_true hupper)
    · have hrange := Bool.and_eq_true_iff.mp hlower
      exact .inr (.inr ⟨of_decide_eq_true hrange.1, of_decide_eq_true hrange.2⟩)
  · rw [eq_of_beq hunderscore]
    exact .inr (.inl rfl)

theorem startsWord_of_isDigit {c : Char} (h : c.isDigit = true) : startsWord c = false := by
  have hdigit := code_of_isDigit h
  apply Bool.eq_false_iff.mpr
  intro hword
  have hcode := code_of_startsWord hword
  omega

theorem continuesWord_of_isBlank {c : Char} (h : Text.isBlank c = true) :
    continuesWord c = false := by
  simp only [Text.isBlank, Bool.or_eq_true, Bool.and_eq_true, decide_eq_true_eq, beq_iff_eq] at h
  apply Bool.eq_false_iff.mpr
  intro hcontinues
  rcases Bool.or_eq_true_iff.mp hcontinues with hword | hdigit
  · have hcode := code_of_startsWord hword
    omega
  · have hcode := code_of_isDigit hdigit
    omega

theorem isDigit_of_isBlank {c : Char} (h : Text.isBlank c = true) : c.isDigit = false :=
  (Bool.or_eq_false_iff.mp (continuesWord_of_isBlank h)).2

theorem startsWord_of_isBlank {c : Char} (h : Text.isBlank c = true) : startsWord c = false :=
  (Bool.or_eq_false_iff.mp (continuesWord_of_isBlank h)).1

/-- A run of characters of a class ends where the class does. -/
theorem Pattern.splitRun?_append {first later : Char → Bool} {c : Char} {run text : List Char}
    (hfirst : first c = true) (hrun : ∀ d ∈ run, later d = true)
    (htext : ∀ d ∈ text.head?, later d = false) :
    splitRun? first later (c :: run ++ text) = some (c :: run, text) := by
  have hstop : text.takeWhile later = [] ∧ text.dropWhile later = text := by
    cases text with
    | nil => exact ⟨rfl, rfl⟩
    | cons d rest =>
        have hd := htext d rfl
        simp [hd]
  simp only [List.cons_append, splitRun?, hfirst, if_true]
  rw [List.takeWhile_append_of_pos hrun, List.dropWhile_append_of_pos hrun, hstop.1, hstop.2,
    List.append_nil]

theorem Pattern.splitRun?_of_first {first later : Char → Bool} {c : Char} (text : List Char)
    (h : first c = false) : splitRun? first later (c :: text) = none := by
  simp [splitRun?, h]

/-- A text starts with a mark if it does so character by character. -/
theorem isPrefixOf?_cons (c d : Char) (later text : List Char) :
    (c :: later).isPrefixOf? (d :: text) = if c == d then later.isPrefixOf? text else none := rfl

theorem isPrefixOf?_nil (text : List Char) : [].isPrefixOf? text = some text := rfl

/-- A mark before a blank is cut off whole: no pattern before it in the table takes
less, and a longer mark does not go on with a blank. -/
theorem Lexeme.next?_mark {kind : TokenKind} {first : Char} {later text : List Char}
    (hmem : Pattern.mark kind first later ∈ Pattern.table) (htext : StartsBlank text) :
    next? (first :: later ++ text) = some (⟨.mark kind first later, first :: later⟩, text) := by
  simp only [Pattern.table, List.mem_cons, reduceCtorEq, Pattern.mark.injEq, List.not_mem_nil,
    false_or] at hmem
  cases text with
  | nil =>
      repeat' rcases hmem with ⟨rfl, rfl, rfl⟩ | hmem
      all_goals decide
  | cons c rest =>
      have hc := htext c rfl
      have hequals : '=' ≠ c := by
        rintro rfl
        simp [Text.isBlank] at hc
      have hslash : c ≠ '/' := by
        rintro rfl
        simp [Text.isBlank] at hc
      repeat' rcases hmem with ⟨rfl, rfl, rfl⟩ | hmem
      all_goals
        simp [next?, Pattern.table, Pattern.split?, Pattern.splitRun?, startsWord, Text.isBlank,
          isPrefixOf?_cons, isPrefixOf?_nil, List.findSome?, hequals, hslash]

theorem Lexeme.next?_word {c : Char} {run text : List Char} (hfirst : startsWord c = true)
    (hrun : ∀ d ∈ run, continuesWord d = true) (htext : StartsBlank text) :
    next? (c :: run ++ text) = some (⟨.word, c :: run⟩, text) := by
  have hsplit : Pattern.word.split? (c :: run ++ text) = some (c :: run, text) :=
    Pattern.splitRun?_append hfirst hrun fun d hd => continuesWord_of_isBlank (htext d hd)
  rw [next?, Pattern.table, List.findSome?_cons, hsplit]
  rfl

theorem Lexeme.next?_digits {c : Char} {run text : List Char} (hfirst : c.isDigit = true)
    (hrun : ∀ d ∈ run, d.isDigit = true) (htext : StartsBlank text) :
    next? (c :: run ++ text) = some (⟨.digits, c :: run⟩, text) := by
  have hword : Pattern.word.split? (c :: run ++ text) = none :=
    Pattern.splitRun?_of_first _ (startsWord_of_isDigit hfirst)
  have hsplit : Pattern.digits.split? (c :: run ++ text) = some (c :: run, text) :=
    Pattern.splitRun?_append hfirst hrun fun d hd => isDigit_of_isBlank (htext d hd)
  rw [next?, Pattern.table, List.findSome?_cons, hword, Option.map_none, List.findSome?_cons,
    hsplit]
  rfl

/-- A lexeme of a token is cut off again wherever it stands before a blank. -/
theorem Lexeme.next?_append {lexeme : Lexeme} {item : Token} (htoken : lexeme.token? = some item)
    (htable : lexeme.pattern ∈ Pattern.table)
    (hcut : ∃ before after, lexeme.pattern.split? before = some (lexeme.text, after))
    {text : List Char} (htext : StartsBlank text) :
    next? (lexeme.text ++ text) = some (lexeme, text) := by
  obtain ⟨pattern, run⟩ := lexeme
  obtain ⟨before, after, hsplit⟩ := hcut
  cases pattern with
  | word =>
      obtain ⟨first, rest, hfirst, rfl⟩ := Pattern.splitRun?_eq_some hsplit
      exact next?_word hfirst (List.all_eq_true.mp List.all_takeWhile) htext
  | digits =>
      obtain ⟨first, rest, hfirst, rfl⟩ := Pattern.splitRun?_eq_some hsplit
      exact next?_digits hfirst (List.all_eq_true.mp List.all_takeWhile) htext
  | blank => cases htoken
  | comment => cases htoken
  | mark kind first later =>
      obtain ⟨_, -, heq⟩ := Option.map_eq_some_iff.mp hsplit
      cases heq
      exact next?_mark htable htext

/-! ## The tokens of a text -/

/-- What `f` makes of the lexemes of a text, in order. -/
def Lexeme.collect {β : Type} (f : Lexeme → Option β) (text : List Char) :
    Except Diagnostic (List β) :=
  (ofText text).map (List.filterMap f)

/-- The tokens of a text, without the end of input. -/
def Lexeme.tokensOf (text : List Char) : Except Diagnostic (List Token) :=
  (ofText text).map (List.filterMap token?)

@[simp] theorem Lexeme.collect_nil {β : Type} (f : Lexeme → Option β) : collect f [] = .ok [] := by
  rw [collect, ofText]
  rfl

@[simp] theorem Lexeme.tokensOf_nil : tokensOf [] = .ok [] := collect_nil token?

/-- A text is cut into its first lexeme and the lexemes of what follows. -/
theorem Lexeme.ofText_of_next? {text rest : List Char} {lexeme : Lexeme}
    (h : next? text = some (lexeme, rest)) :
    ofText text = (ofText rest).map (lexeme :: ·) := by
  have hne : text ≠ [] := by
    rintro rfl
    exact absurd (length_lt_of_next? h) (Nat.not_lt_zero _)
  obtain ⟨c, tail, rfl⟩ := List.exists_cons_of_ne_nil hne
  rw [ofText]
  split
  · rename_i hnone
    rw [h] at hnone
    cases hnone
  · rename_i hsome
    rw [h] at hsome
    cases hsome
    cases ofText rest <;> rfl

theorem Lexeme.collect_of_next? {β : Type} (f : Lexeme → Option β) {text rest : List Char}
    {lexeme : Lexeme} (h : next? text = some (lexeme, rest)) :
    collect f text = (collect f rest).map ((f lexeme).toList ++ ·) := by
  rw [collect, collect, ofText_of_next? h]
  cases ofText rest with
  | error diagnostic => rfl
  | ok later =>
      cases hfound : f lexeme <;> simp [Except.map, hfound]

theorem Lexeme.tokensOf_of_next? {text rest : List Char} {lexeme : Lexeme}
    (h : next? text = some (lexeme, rest)) :
    tokensOf text = (tokensOf rest).map (lexeme.token?.toList ++ ·) :=
  collect_of_next? token? h

theorem tokenize_eq_map_tokensOf (source : String) :
    tokenize source = (Lexeme.tokensOf source.toList).map (· ++ [Token.endOfInput]) := by
  rw [tokenize, Lexeme.tokensOf]
  cases Lexeme.ofText source.toList <;> rfl

theorem Lexeme.next?_blank {c : Char} (text : List Char) (h : Text.isBlank c = true) :
    next? (c :: text) =
      some (⟨.blank, c :: text.takeWhile Text.isBlank⟩, text.dropWhile Text.isBlank) := by
  have hword : Pattern.word.split? (c :: text) = none :=
    Pattern.splitRun?_of_first _ (startsWord_of_isBlank h)
  have hdigits : Pattern.digits.split? (c :: text) = none :=
    Pattern.splitRun?_of_first _ (isDigit_of_isBlank h)
  have hsplit : Pattern.blank.split? (c :: text) =
      some (c :: text.takeWhile Text.isBlank, text.dropWhile Text.isBlank) := by
    simp [Pattern.split?, Pattern.splitRun?, h]
  rw [next?, Pattern.table, List.findSome?_cons, hword, Option.map_none, List.findSome?_cons,
    hdigits, Option.map_none, List.findSome?_cons, hsplit]
  rfl

/-- A blank in front does not matter to what passes blanks over, whether it joins a run of
blanks or starts one. -/
theorem Lexeme.collect_cons_blank {β : Type} {f : Lexeme → Option β}
    (hf : ∀ run, f ⟨.blank, run⟩ = none) {c : Char} (text : List Char)
    (h : Text.isBlank c = true) : collect f (c :: text) = collect f text := by
  have hskip : ∀ {d : Char} (rest : List Char), Text.isBlank d = true →
      collect f (d :: rest) = collect f (rest.dropWhile Text.isBlank) := by
    intro d rest hd
    rw [collect_of_next? f (next?_blank rest hd), hf]
    cases collect f (rest.dropWhile Text.isBlank) <;> rfl
  rw [hskip text h]
  cases text with
  | nil => rfl
  | cons d rest =>
      by_cases hd : Text.isBlank d = true
      · rw [List.dropWhile_cons_of_pos hd, hskip rest hd]
      · rw [List.dropWhile_cons_of_neg hd]

/-- A blank in front adds no token. -/
theorem Lexeme.tokensOf_cons_blank {c : Char} (text : List Char) (h : Text.isBlank c = true) :
    tokensOf (c :: text) = tokensOf text :=
  collect_cons_blank (fun _ => rfl) text h

/-! ## Tokens set apart are tokenized as they stand -/

theorem Lexeme.text_of_token? {lexeme : Lexeme} {item : Token} (h : lexeme.token? = some item) :
    item.text.toList = lexeme.text := by
  obtain ⟨pattern, text⟩ := lexeme
  cases pattern with
  | blank | comment => cases h
  | word | digits | mark =>
      cases h
      exact String.toList_ofList

/-- A token of some text is read wherever its text stands before a blank. -/
theorem Token.Lexed.tokensOf_append {item : Token} (h : item.Lexed) {text : List Char}
    (htext : StartsBlank text) :
    Lexeme.tokensOf (item.text.toList ++ text) =
      (Lexeme.tokensOf text).map (item :: ·) := by
  obtain ⟨hend, source, tokens, htokens, hmem⟩ := h
  obtain ⟨lexemes, hlexemes, rfl⟩ := tokenize_eq_ok htokens
  rcases List.mem_append.mp hmem with hmem | hmem
  · obtain ⟨lexeme, hlexeme, htoken⟩ := List.mem_filterMap.mp hmem
    obtain ⟨htable, hcut⟩ := Lexeme.split?_of_mem_ofText hlexemes hlexeme
    rw [Lexeme.text_of_token? htoken,
      Lexeme.tokensOf_of_next? (Lexeme.next?_append htoken htable hcut htext), htoken]
    rfl
  · rw [List.mem_singleton.mp hmem] at hend
    exact absurd rfl hend

/-- Tokens set apart by blanks, in whatever number, are what the text is cut into. -/
theorem tokenize_of_spaces {tokens : List Token} {source : String}
    (h : Spaces tokens source.toList) (hlexed : ∀ item ∈ tokens, item.Lexed) :
    tokenize source = .ok (tokens ++ [Token.endOfInput]) := by
  suffices hsuffices : ∀ text, Spaces tokens text → Lexeme.tokensOf text = .ok tokens by
    rw [tokenize_eq_map_tokensOf, hsuffices _ h]
    rfl
  intro text htext
  clear h
  induction htext with
  | nil => exact Lexeme.tokensOf_nil
  | blank hc _ ih => rw [Lexeme.tokensOf_cons_blank _ hc, ih hlexed]
  | token hblank _ ih =>
      obtain ⟨hitem, hlater⟩ := List.forall_mem_cons.mp hlexed
      rw [hitem.tokensOf_append hblank, ih hlater]
      rfl

/-! ## Which tokens occur in source texts -/

/-- A text that is one lexeme of a token is the source of that token. -/
theorem Lexeme.lexed_of_next? {text : List Char} {lexeme : Lexeme} {item : Token}
    (hnext : next? text = some (lexeme, [])) (htoken : lexeme.token? = some item) :
    item.Lexed := by
  refine ⟨Token.kind_ne_endOfInput_of_token? htoken (next?_eq_some hnext).1,
    String.ofList text, [item, Token.endOfInput], ?_, List.mem_cons_self⟩
  rw [tokenize_eq_map_tokensOf, String.toList_ofList, tokensOf_of_next? hnext, htoken,
    tokensOf_nil]
  rfl

theorem startsBlank_nil : StartsBlank [] := fun c hc => by simp at hc

/-- Whether a text has the form of a word. -/
def formsWord : List Char → Bool
  | [] => false
  | c :: run => startsWord c && run.all continuesWord

theorem Token.lexed_word (text : String) (h : formsWord text.toList = true) :
    (⟨.ofWord text, text⟩ : Token).Lexed := by
  cases htext : text.toList with
  | nil =>
      rw [htext] at h
      cases h
  | cons c run =>
      rw [htext] at h
      obtain ⟨hfirst, hrun⟩ := Bool.and_eq_true_iff.mp h
      have hnext := Lexeme.next?_word hfirst (List.all_eq_true.mp hrun) startsBlank_nil
      rw [List.append_nil, ← htext] at hnext
      refine Lexeme.lexed_of_next? hnext ?_
      simp [Lexeme.token?]

theorem TokenKind.lexed_mark {kind : TokenKind} {first : Char} {later : List Char}
    (hmem : Pattern.mark kind first later ∈ Pattern.table) : kind.token.Lexed := by
  have hnext := Lexeme.next?_mark hmem startsBlank_nil
  rw [List.append_nil] at hnext
  refine Lexeme.lexed_of_next? hnext ?_
  have hspells := Pattern.spellsKind_of_mem_table hmem
  simp only [Pattern.spellsKind, Bool.and_eq_true, beq_iff_eq] at hspells
  rw [Lexeme.token?, token, hspells.1.1]

/-- Every kind whose tokens have only one text has that token in some source. -/
theorem TokenKind.lexed_token {kind : TokenKind} (hend : kind ≠ .endOfInput)
    (hnumber : kind ≠ .number) (hidentifier : kind ≠ .identifier) : kind.token.Lexed := by
  -- a mark of the table, or else a reserved word
  have hmark : ∀ first later, Pattern.mark kind first later ∈ Pattern.table → kind.token.Lexed :=
    fun first later => lexed_mark
  cases kind with
  | endOfInput => exact absurd rfl hend
  | number => exact absurd rfl hnumber
  | identifier => exact absurd rfl hidentifier
  | openCurly => exact hmark '{' [] (by decide)
  | closeCurly => exact hmark '}' [] (by decide)
  | openParen => exact hmark '(' [] (by decide)
  | closeParen => exact hmark ')' [] (by decide)
  | assignment => exact hmark '=' [] (by decide)
  | equals => exact hmark '=' ['='] (by decide)
  | notEquals => exact hmark '!' ['='] (by decide)
  | less => exact hmark '<' [] (by decide)
  | lessEquals => exact hmark '<' ['='] (by decide)
  | greater => exact hmark '>' [] (by decide)
  | greaterEquals => exact hmark '>' ['='] (by decide)
  | or => exact hmark '|' ['|'] (by decide)
  | and => exact hmark '&' ['&'] (by decide)
  | dot => exact hmark '.' [] (by decide)
  | semicolon => exact hmark ';' [] (by decide)
  | colon => exact hmark ':' [] (by decide)
  | comma => exact hmark ',' [] (by decide)
  | plus => exact hmark '+' [] (by decide)
  | dash => exact hmark '-' [] (by decide)
  | slash => exact hmark '/' [] (by decide)
  | star => exact hmark '*' [] (by decide)
  | ifWord => exact Token.lexed_word "if" (by decide)
  | elseWord => exact Token.lexed_word "else" (by decide)
  | whileWord => exact Token.lexed_word "while" (by decide)
  | forWord => exact Token.lexed_word "for" (by decide)
  | inWord => exact Token.lexed_word "in" (by decide)
  | outputWord => exact Token.lexed_word "output" (by decide)
  | inputWord => exact Token.lexed_word "input" (by decide)
  | intWord => exact Token.lexed_word "int" (by decide)
  | boolWord => exact Token.lexed_word "bool" (by decide)

/-- Whether a text is a name: a word that is not reserved. -/
def isName (text : String) : Bool :=
  formsWord text.toList && decide (TokenKind.ofWord text = .identifier)

theorem Token.lexed_identifier {name : String} (h : isName name = true) :
    (⟨.identifier, name⟩ : Token).Lexed := by
  simp only [isName, Bool.and_eq_true, decide_eq_true_eq] at h
  have hword := lexed_word name h.1
  rwa [h.2] at hword

theorem Token.lexed_number {text : String} (hnonempty : text.toList ≠ [])
    (hdigits : text.toList.all Char.isDigit) : (⟨.number, text⟩ : Token).Lexed := by
  obtain ⟨c, run, htext⟩ := List.exists_cons_of_ne_nil hnonempty
  rw [htext] at hdigits
  obtain ⟨hfirst, hrun⟩ := List.forall_mem_cons.mp (List.all_eq_true.mp hdigits)
  have hnext := Lexeme.next?_digits hfirst hrun startsBlank_nil
  rw [List.append_nil, ← htext] at hnext
  refine Lexeme.lexed_of_next? hnext ?_
  simp [Lexeme.token?]

theorem Text.IsNumeral.lexed {limit value : Nat} {text : String} (h : IsNumeral limit text value) :
    (⟨.number, text⟩ : Token).Lexed :=
  Token.lexed_number h.nonempty h.digits

end FlexWidth
