import FlexWidth.Proofs.Grammar.StmtSoundness

/-!
# Viable tokens

A parser that fails with a syntax error has read tokens that still could have become a
phrase: they are *viable*.  `Steers` says so of a parser that goes on after tokens
`before`, and also that `before` itself is viable.  The second half is what makes the
first compose: if every continuation of a rule steers, then whatever the rule has read
is viable, since some phrase can take the place of what is missing.
-/

namespace FlexWidth

open TokenKind (token spelling)

namespace Parser

open TokenStream (feed)

variable {α β γ : Type}

/-! ## Viable tokens -/

/-- The tokens can be completed to a phrase, by tokens of the language. -/
def Viable (spells : List Token → α → Prop) (read : List Token) : Prop :=
  ∃ more value, AllLexed more ∧ spells (read ++ more) value

theorem Viable.of_spells {spells : List Token → α → Prop} {read : List Token} {value : α}
    (h : spells read value) : Viable spells read := by
  refine ⟨[], value, List.forall_mem_nil _, ?_⟩
  rwa [List.append_nil]

theorem Viable.of_append {spells : List Token → α → Prop} {read more : List Token}
    (h : Viable spells (read ++ more)) (hmore : AllLexed more) : Viable spells read := by
  obtain ⟨rest, value, hrest, hspells⟩ := h
  refine ⟨more ++ rest, value, hmore.append hrest, ?_⟩
  rwa [← List.append_assoc]

/-- What is viable as a part of a phrase is viable in the phrase, if all such parts
are. -/
theorem Viable.within {spells : List Token → α → Prop} {outer : List Token → β → Prop}
    {before read : List Token} (h : Viable spells read)
    (houter : ∀ part value, spells part value → Viable outer (before ++ part)) :
    Viable outer (before ++ read) := by
  obtain ⟨more, value, hmore, hspells⟩ := h
  have hwhole := houter (read ++ more) value hspells
  rw [← List.append_assoc] at hwhole
  exact hwhole.of_append hmore

/-! ## Parsers that stop in time -/

/-- If the parser fails on `tokens` with a syntax error, then what it has read is
viable after `before`. -/
def Stops (parser : Parser α) (tokens before : List Token) (spells : List Token → β → Prop) :
    Prop :=
  ∀ text message final,
    parser (feed tokens) = .error (.refused (.syntaxError text message)) final →
      ∃ read left, tokens = read ++ left ∧ final = feed left ∧ Viable spells (before ++ read)

/-- The tokens `before` are viable, and they stay so with all that the parser reads
before it fails. -/
structure Steers (parser : Parser α) (before : List Token) (spells : List Token → β → Prop) :
    Prop where
  viable : Viable spells before
  stops {tokens : List Token} (hlexed : AllLexed tokens) : Stops parser tokens before spells

theorem AllLexed.tail {item : Token} {left : List Token} (h : AllLexed (item :: left)) :
    AllLexed left :=
  (List.forall_mem_cons.mp h).2

section Steps

variable {spells : List Token → β → Prop} {tokens before : List Token}

theorem stops_pure (value : α) : Stops (pure value) tokens before spells := by
  intro text message final hrun
  cases hrun

theorem stops_reject (message : String) (h : Viable spells before) :
    Stops (reject message : Parser α) tokens before spells := by
  intro text message final hrun
  cases hrun
  refine ⟨[], tokens, rfl, rfl, ?_⟩
  rwa [List.append_nil]

theorem Stops.of_run {parser first : Parser α} (hsame : parser (feed tokens) = first (feed tokens))
    (h : Stops first tokens before spells) : Stops parser tokens before spells := by
  intro text message final hrun
  exact h text message final (hsame.symm.trans hrun)

theorem Stops.currentKind {next : TokenKind → Parser α}
    (h : Stops (next (nextKind tokens)) tokens before spells) :
    Stops (Parser.currentKind >>= next) tokens before spells :=
  h.of_run (run_bind_ok (run_currentKind tokens) next)

theorem Stops.startsNamedField {next : Bool → Parser α}
    (h : Stops (next (namedAt tokens)) tokens before spells) :
    Stops (Parser.startsNamedField >>= next) tokens before spells :=
  h.of_run (run_bind_ok (run_startsNamedField tokens) next)

/-- After a token has been read the rest must stop in time behind it. -/
theorem Stops.of_run_cons {parser next : Parser α} {item : Token} {left : List Token}
    (hrun : parser (feed (item :: left)) = next (feed left))
    (h : Stops next left (before ++ [item]) spells) :
    Stops parser (item :: left) before spells := by
  intro text message final herror
  obtain ⟨read, rest, hleft, hfinal, hviable⟩ := h text message final (hrun.symm.trans herror)
  refine ⟨item :: read, rest, ?_, hfinal, ?_⟩
  · rw [hleft, List.cons_append]
  · rwa [List.append_assoc] at hviable

theorem Stops.advance {next : Token → Parser α} {item : Token} {left : List Token}
    (h : Stops (next item) left (before ++ [item]) spells) :
    Stops (Parser.advance >>= next) (item :: left) before spells :=
  h.of_run_cons (run_bind_ok (run_advance item left) next)

theorem Stops.expect {kind : TokenKind} {next : Token → Parser α} (hend : kind ≠ .endOfInput)
    (hviable : Viable spells before)
    (h : ∀ item left, tokens = item :: left → item.kind = kind →
      Stops (next item) left (before ++ [item]) spells) :
    Stops (Parser.expect kind >>= next) tokens before spells := by
  by_cases hkind : nextKind tokens = kind
  · obtain ⟨item, left, rfl, hitem⟩ := exists_of_nextKind hkind hend
    have hrun : Parser.expect kind (feed (item :: left)) = .ok item (feed left) := by
      obtain ⟨itemKind, text⟩ := item
      cases hitem
      exact run_expect itemKind text left
    exact (h item left rfl hitem).of_run_cons (run_bind_ok hrun next)
  · have hrun : Parser.expect kind (feed tokens) =
        (reject ("expected " ++ kind.name) : Parser Token) (feed tokens) := by
      rw [Parser.expect, run_bind_ok (run_currentKind tokens), if_neg hkind]
    refine (stops_reject ("expected " ++ kind.name) hviable).of_run ?_
    exact run_bind_error hrun next

/-- A numeral out of range is not a syntax error. -/
theorem Stops.numberBelow {limit : Nat} {item : Token} {next : Nat → Parser α}
    (hlexed : item.Lexed) (hkind : item.kind = .number)
    (h : ∀ value, Text.IsNumeral limit item.text value → Stops (next value) tokens before spells) :
    Stops (Parser.numberBelow limit item >>= next) tokens before spells := by
  obtain ⟨hnonempty, hdigits⟩ := hlexed.text.2 hkind
  cases hnumeral : Text.numeral? limit item.text with
  | none =>
      intro text message final hrun
      have herror : Parser.numberBelow limit item (feed tokens) =
          .error (.refused (.numberParseError item.text)) (feed tokens) := by
        rw [Parser.numberBelow, hnumeral]
        rfl
      rw [run_bind_error herror] at hrun
      cases hrun
  | some value =>
      have hvalue := (Text.numeral?_eq_some_iff hnonempty hdigits).mp hnumeral
      have hrun : Parser.numberBelow limit item (feed tokens) = .ok value (feed tokens) := by
        rw [Parser.numberBelow, hnumeral]
        rfl
      exact (h value hvalue).of_run (run_bind_ok hrun next)

/-! ## Steering step by step -/

theorem steers_pure {value : α} (result : β) (h : spells before result) :
    Steers (pure value) before spells where
  viable := .of_spells h
  stops _ := stops_pure value

theorem steers_reject {message : String} (h : Viable spells before) :
    Steers (reject message : Parser α) before spells where
  viable := h
  stops _ := stops_reject message h

theorem Steers.currentKind {next : TokenKind → Parser α}
    (h : ∀ kind, Steers (next kind) before spells) :
    Steers (Parser.currentKind >>= next) before spells where
  viable := (h .endOfInput).viable
  stops hlexed := .currentKind ((h _).stops hlexed)

theorem Steers.startsNamedField {next : Bool → Parser α}
    (h : ∀ named, Steers (next named) before spells) :
    Steers (Parser.startsNamedField >>= next) before spells where
  viable := (h false).viable
  stops hlexed := .startsNamedField ((h _).stops hlexed)

theorem Steers.skip {kind : TokenKind} {next : Unit → Parser α} (hfixed : isFixed kind = true)
    (h : Steers (next ()) (before ++ [token kind]) spells) :
    Steers (Parser.skip kind >>= next) before spells where
  viable := h.viable.of_append (allLexed_token hfixed)
  stops {tokens} hlexed := by
    have hend : kind ≠ .endOfInput := by
      intro hkind
      rw [hkind] at hfixed
      cases hfixed
    have hexpect : Stops (Parser.expect kind >>= fun _ => next ()) tokens before spells := by
      refine .expect hend (h.viable.of_append (allLexed_token hfixed)) ?_
      intro item left htokens hitem
      subst htokens
      obtain rfl : item = token kind := by
        rw [← hitem]
        exact eq_token_of_isFixed (hlexed item List.mem_cons_self) (by rwa [hitem])
      exact h.stops hlexed.tail
    refine hexpect.of_run ?_
    rw [Parser.skip, bind_assoc]
    rfl

/-- An optional part that starts with a token of its own. -/
theorem Steers.ifKind {kind : TokenKind} {yes : Token → Parser α} {no : Parser α}
    (hfixed : isFixed kind = true)
    (hyes : Steers (yes (token kind)) (before ++ [token kind]) spells)
    (hno : Steers no before spells) :
    Steers (Parser.currentKind >>= fun next =>
      if next = kind then Parser.advance >>= yes else no) before spells where
  viable := hno.viable
  stops {tokens} hlexed := by
    apply Stops.currentKind
    by_cases hkind : nextKind tokens = kind
    · rw [if_pos hkind]
      have hend : kind ≠ .endOfInput := by
        intro hkind
        rw [hkind] at hfixed
        cases hfixed
      obtain ⟨item, left, rfl, hitem⟩ := exists_of_nextKind hkind hend
      obtain rfl : item = token kind := by
        rw [← hitem]
        exact eq_token_of_isFixed (hlexed item List.mem_cons_self) (by rwa [hitem])
      apply Stops.advance
      exact hyes.stops hlexed.tail
    · rw [if_neg hkind]
      exact hno.stops hlexed

theorem Steers.expectName {next : Token → Parser α}
    (h : ∀ name, Steers (next ⟨.identifier, name⟩) (before ++ [⟨.identifier, name⟩]) spells) :
    Steers (Parser.expect .identifier >>= next) before spells where
  viable := (h "x").viable.of_append (allLexed_identifier (by decide))
  stops {tokens} hlexed := by
    refine .expect (by decide) ((h "x").viable.of_append (allLexed_identifier (by decide))) ?_
    intro item left htokens hitem
    subst htokens
    obtain ⟨kind, name⟩ := item
    cases hitem
    exact (h name).stops hlexed.tail

theorem Steers.expectNumber {limit : Nat} {next : Nat → Parser α} (hlimit : 0 < limit)
    (h : ∀ text value, Text.IsNumeral limit text value →
      Steers (next value) (before ++ [⟨.number, text⟩]) spells) :
    Steers (Parser.expect .number >>= fun item => Parser.numberBelow limit item >>= next)
      before spells := by
  have hzero : Text.IsNumeral limit "0" 0 := ⟨by decide, by decide, rfl, hlimit⟩
  have hviable := (h "0" 0 hzero).viable.of_append (allLexed_number hzero)
  refine ⟨hviable, fun hlexed => .expect (by decide) hviable ?_⟩
  intro item left htokens hitem
  subst htokens
  refine .numberBelow (hlexed item List.mem_cons_self) hitem ?_
  intro value hvalue
  obtain ⟨kind, text⟩ := item
  cases hitem
  exact (h text value hvalue).stops hlexed.tail

end Steps

/-! ## Phrases in a row -/

/-- What a parser reads spells a phrase of its own, whether it succeeds or could
still have done so. -/
structure Guides (parser : Parser α) (spells : List Token → α → Prop) : Prop where
  steers : Steers parser [] spells
  reads {tokens : List Token} (hlexed : AllLexed tokens) :
    Reads parser tokens fun read value _ => spells read value

/-- A parser stops in time if its first part does, and its second part does from where
the first succeeds. -/
theorem Stops.bind {parser : Parser α} {next : α → Parser γ} {tokens before : List Token}
    {spells : List Token → β → Prop} {rel : List Token → α → List Token → Prop}
    (hparser : Stops parser tokens before spells) (hreads : Reads parser tokens rel)
    (hnext : ∀ read value left, tokens = read ++ left → rel read value left →
      Stops (next value) left (before ++ read) spells) :
    Stops (parser >>= next) tokens before spells := by
  intro text message final hrun
  rw [run_bind] at hrun
  cases hfirst : parser (feed tokens) with
  | error failure middle =>
      rw [hfirst] at hrun
      cases hrun
      exact hparser text message final hfirst
  | ok value middle =>
      rw [hfirst] at hrun
      obtain ⟨read, left, rfl, rfl, hrel⟩ := hreads value middle hfirst
      obtain ⟨more, rest, rfl, hfinal, hviable⟩ :=
        hnext read value left rfl hrel text message final hrun
      refine ⟨read ++ more, rest, (List.append_assoc read more rest).symm, hfinal, ?_⟩
      rwa [List.append_assoc] at hviable

theorem Stops.weaken {parser : Parser α} {tokens before before' : List Token}
    {spells : List Token → β → Prop} {outer : List Token → γ → Prop}
    (h : Stops parser tokens before spells)
    (hviable : ∀ read, Viable spells (before ++ read) → Viable outer (before' ++ read)) :
    Stops parser tokens before' outer := by
  intro text message final hrun
  obtain ⟨read, left, htokens, hfinal, hread⟩ := h text message final hrun
  exact ⟨read, left, htokens, hfinal, hviable read hread⟩

/-- If the parser fails it leaves a part of a phrase, and if not a whole one; what
comes next makes both viable. -/
theorem Guides.bind {parser : Parser α} {inner : List Token → α → Prop} {next : α → Parser γ}
    {before : List Token} {spells : List Token → β → Prop} (hparser : Guides parser inner)
    (hnext : ∀ read value, inner read value → Steers (next value) (before ++ read) spells) :
    Steers (parser >>= next) before spells := by
  have hpart : ∀ {read : List Token}, Viable inner read → Viable spells (before ++ read) :=
    fun hread => hread.within fun part value hspells => (hnext part value hspells).viable
  constructor
  · have hstart := hpart hparser.steers.viable
    rwa [List.append_nil] at hstart
  · intro tokens hlexed
    have hstops : Stops parser tokens before spells :=
      (hparser.steers.stops hlexed).weaken fun read hread => hpart hread
    refine hstops.bind (hparser.reads hlexed) ?_
    intro read value left htokens hspells
    subst htokens
    exact (hnext read value hspells).stops hlexed.left

end Parser

end FlexWidth
