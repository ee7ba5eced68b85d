import FlexWidth.Proofs.Grammar.Reading

/-!
# What is parsed as an expression is spelled

A parser of expressions is given a power, and reads an expression whose operators
bind tighter than it.  Powers and strata of the grammar correspond: an expression
that is read above a power belongs to the stratum `Stratum.above` of that power.

The parsers of phrases call each other through `Nested`.  `SoundNested` states what
each of them promises about a success; this file shows that the phrases of
expressions keep these promises if the phrases inside them do.
-/

namespace FlexWidth

open TokenKind (token spelling)

/-! ## Strata and powers -/

namespace Stratum

/-- The power of the operators of a stratum. -/
def power : Stratum → Power
  | disjunction => .logicalOr
  | conjunction => .logicalAnd
  | comparison => .relational
  | sum => .additive
  | product => .multiplicative
  | signed => .unary
  | access => .member

/-- The place of a stratum in the order, the loosest first. -/
def rank (stratum : Stratum) : Nat := stratum.power.rank

/-- The stratum of the expressions whose operators bind tighter than a power.
Signs are heads of expressions, so they occur above every power. -/
def above : Power → Stratum
  | .least => disjunction
  | .logicalOr => conjunction
  | .logicalAnd => comparison
  | .relational => sum
  | .additive => product
  | .multiplicative | .unary | .member => signed

theorem rank_above_le (power : Power) : (above power).rank ≤ power.rank + 1 := by
  cases power <;> decide

theorem rank_above_le_signed (power : Power) : (above power).rank ≤ signed.rank := by
  cases power <;> decide

theorem eq_access_of_le {stratum : Stratum} (h : Power.member.rank ≤ stratum.rank) :
    stratum = access := by
  cases stratum <;> first | rfl | exact absurd h (by decide)

theorem rank_tighter {loose stratum : Stratum} (h : loose.rank < stratum.rank) :
    loose.tighter.rank = loose.rank + 1 := by
  cases loose <;> first | rfl | (cases stratum <;> exact absurd h (by decide))

theorem eq_of_rank_eq {first second : Stratum} (h : first.rank = second.rank) : first = second := by
  cases first <;> cases second <;> first | rfl | exact absurd h (by decide)

end Stratum

/-- An expression of a stratum is one of every looser stratum. -/
theorem SpellsExpr.loosen {stratum : Stratum} {tokens : List Token} {value : Expr}
    (h : SpellsExpr stratum tokens value) {loose : Stratum} (hle : loose.rank ≤ stratum.rank) :
    SpellsExpr loose tokens value := by
  -- climb from the loose stratum to the given one, one stratum at a time
  obtain ⟨distance, hdistance⟩ := Nat.exists_eq_add_of_le hle
  induction distance generalizing loose with
  | zero =>
      have heq : stratum = loose := Stratum.eq_of_rank_eq hdistance
      exact heq ▸ h
  | succ distance ih =>
      have hlt : loose.rank < stratum.rank := by omega
      have htighter := Stratum.rank_tighter hlt
      exact SpellsExpr.tighter (ih (by omega) (by omega))

namespace Rules

/-- The power with which the first token of a list would continue an expression. -/
def powerAt (tokens : List Token) : Power := standard.power (nextKind tokens)

theorem power_eq_of_tail {kind : TokenKind} {power : Power} {rule : TailRule}
    (h : standard.tail kind = some (power, rule)) : standard.power kind = power := by
  rw [Rules.power, h]

theorem power_eq_least_of_tail {kind : TokenKind} (h : standard.tail kind = none) :
    standard.power kind = .least := by
  rw [Rules.power, h]

theorem rank_powerAt_le (tokens : List Token) : (powerAt tokens).rank ≤ Power.member.rank := by
  cases powerAt tokens <;> decide

/-- The binary operators of the table are those of the strata. -/
theorem tail_binary {kind : TokenKind} {power : Power}
    (h : standard.tail kind = some (power, .binary)) :
    ∃ stratum : Stratum, kind ∈ stratum.operators ∧ stratum.power = power ∧
      Stratum.above power = stratum.tighter ∧ Parser.isFixed kind = true := by
  cases kind <;> cases h
  case or => exact ⟨.disjunction, by decide⟩
  case and => exact ⟨.conjunction, by decide⟩
  case less => exact ⟨.comparison, by decide⟩
  case lessEquals => exact ⟨.comparison, by decide⟩
  case greater => exact ⟨.comparison, by decide⟩
  case greaterEquals => exact ⟨.comparison, by decide⟩
  case equals => exact ⟨.comparison, by decide⟩
  case notEquals => exact ⟨.comparison, by decide⟩
  case plus => exact ⟨.sum, by decide⟩
  case dash => exact ⟨.sum, by decide⟩
  case star => exact ⟨.product, by decide⟩
  case slash => exact ⟨.product, by decide⟩

theorem tail_member {kind : TokenKind} {power : Power}
    (h : standard.tail kind = some (power, .member)) : kind = .dot ∧ power = .member := by
  cases kind <;> cases h
  exact ⟨rfl, rfl⟩

end Rules

open Rules (powerAt)

namespace Parser

/-! ## What the nonterminals promise -/

/-- The tokens spell an expression whose operators bind tighter than `power`, and
the next token does not continue it. -/
def ReadsExpr (power : Power) (read : List Token) (value : Expr) (left : List Token) : Prop :=
  SpellsExpr (.above power) read value ∧ (powerAt left).rank ≤ power.rank

/-- Every success of the parsers has read what its nonterminal spells.  An
extension completes a spelling of what it extends, provided that the next token
can take that as its left operand. -/
structure SoundNested (nested : Nested) : Prop where
  expr {tokens : List Token} (hlexed : AllLexed tokens) (power : Power) :
    Reads (nested (.expr power)) tokens (ReadsExpr power)
  extension {tokens : List Token} (hlexed : AllLexed tokens) (power : Power) {start : Expr}
    {stratum : Stratum} {before : List Token} (hstart : SpellsExpr stratum before start)
    (hpower : (Stratum.above power).rank ≤ stratum.rank)
    (hnext : (powerAt tokens).rank ≤ stratum.rank) :
    Reads (nested (.extension power start)) tokens fun read => ReadsExpr power (before ++ read)
  fields {tokens : List Token} (hlexed : AllLexed tokens) :
    Reads (nested .fields) tokens fun read value _ => SpellsFields read value
  bounds {tokens : List Token} (hlexed : AllLexed tokens) :
    Reads (nested .bounds) tokens fun read value _ => SpellsBounds read value
  stmt {tokens : List Token} (hlexed : AllLexed tokens) :
    Reads (nested .stmt) tokens fun read value _ => SpellsStmt read value
  stmts {tokens : List Token} (hlexed : AllLexed tokens) (stop : List TokenKind) :
    Reads (nested (.stmts stop)) tokens fun read value left =>
      SpellsStmts read value ∧ nextKind left ∈ stop
  branch {tokens : List Token} (hlexed : AllLexed tokens) :
    Reads (nested .branch) tokens fun read value _ => SpellsBranch read value
  ascription {tokens : List Token} (hlexed : AllLexed tokens) :
    Reads (nested .ascription) tokens fun read value _ => SpellsAscription read value

section Rules

variable {nested : Nested} (hnested : SoundNested nested)

/-! ## Heads -/

theorem reads_primary {tokens : List Token} (hlexed : AllLexed tokens) :
    Reads primary tokens fun read value _ => SpellsExpr .access read value := by
  refine Reads.currentKind ?_
  split
  · rename_i hkind
    refine (reads_advance (hkind ▸ by decide)).bind ?_
    rintro _ item left rfl ⟨rfl, hitem⟩
    have hnumber : item.kind = .number := hkind ▸ hitem
    refine (reads_number (hlexed item (by simp)) hnumber left).bind ?_
    rintro _ value left' rfl ⟨rfl, hvalue⟩
    refine reads_pure ?_
    obtain ⟨kind, text⟩ := item
    cases hnumber
    exact .literal hvalue
  · split
    · rename_i hkind
      refine (reads_advance (hkind ▸ by decide)).bind ?_
      rintro _ item left rfl ⟨rfl, hitem⟩
      refine reads_pure ?_
      obtain ⟨kind, text⟩ := item
      cases hkind ▸ hitem
      exact .var
    · exact reads_reject

include hnested in
theorem reads_sign {tokens : List Token} (hlexed : AllLexed tokens)
    (hdash : nextKind tokens = .dash) :
    Reads (sign nested) tokens fun read value left =>
      SpellsExpr .signed read value ∧ (powerAt left).rank ≤ Stratum.signed.rank := by
  refine (reads_advance_token hlexed hdash rfl).bind ?_
  rintro _ _ left rfl ⟨rfl, rfl⟩
  refine (hnested.expr hlexed.left .unary).bind ?_
  rintro read operand left' rfl ⟨hoperand, hstop⟩
  refine reads_pure ⟨?_, hstop⟩
  rw [List.append_nil]
  exact .sign hoperand

/-- Whether the tokens start with the name of a field. -/
def namedAt (tokens : List Token) : Bool :=
  nextKind tokens = .identifier ∧ nextKind tokens.tail = .colon

theorem run_startsNamedField (tokens : List Token) :
    startsNamedField (.feed tokens) = .ok (namedAt tokens) (.feed tokens) := by
  cases tokens with
  | nil => rfl
  | cons first rest =>
      rw [startsNamedField, run_bind_ok (run_currentKind _), run_bind_ok (run_peekKind first rest)]
      rfl

theorem Reads.startsNamedField {β : Type} {next : Bool → Parser β} {tokens : List Token}
    {rel : List Token → β → List Token → Prop} (h : Reads (next (namedAt tokens)) tokens rel) :
    Reads (Parser.startsNamedField >>= next) tokens rel := by
  intro result final hrun
  rw [run_bind_ok (run_startsNamedField tokens)] at hrun
  exact h result final hrun

include hnested in
theorem reads_field {tokens : List Token} (hlexed : AllLexed tokens) :
    Reads (field nested) tokens fun read value _ =>
      SpellsField read value ∧ value.1.isSome = namedAt tokens := by
  refine Reads.startsNamedField ?_
  split
  · rename_i hnamed
    have hname : nextKind tokens = .identifier := by simp_all [namedAt]
    refine (reads_advance (hname ▸ by decide)).bind ?_
    rintro _ item left rfl ⟨rfl, hitem⟩
    refine (reads_skip hlexed.left rfl).bind ?_
    rintro _ _ left rfl rfl
    refine (hnested.expr hlexed.left.left .least).bind ?_
    rintro read value left rfl ⟨hvalue, -⟩
    refine reads_pure ⟨?_, hnamed.symm⟩
    obtain ⟨kind, text⟩ := item
    cases hname ▸ hitem
    simpa using @SpellsField.named text _ _ hvalue
  · rename_i hnamed
    refine (hnested.expr hlexed .least).bind ?_
    rintro read value left rfl ⟨hvalue, -⟩
    refine reads_pure ⟨?_, by simp_all⟩
    simpa using SpellsField.positional hvalue

include hnested in
theorem reads_fields {tokens : List Token} (hlexed : AllLexed tokens) :
    Reads (fields nested) tokens fun read value _ => SpellsFields read value := by
  refine Reads.currentKind ?_
  split
  · rename_i hcomma
    refine (reads_advance_token hlexed hcomma rfl).bind ?_
    rintro _ _ left rfl ⟨rfl, -⟩
    refine Reads.currentKind ?_
    split
    · exact reads_pure .trailing
    · refine (reads_field hnested hlexed.left).bind ?_
      rintro read first left rfl ⟨hfirst, -⟩
      refine (hnested.fields hlexed.left.left).bind ?_
      rintro more rest left rfl hrest
      refine reads_pure ?_
      simpa using SpellsFields.more hfirst hrest
  · exact reads_pure .none

include hnested in
theorem reads_parens {tokens : List Token} (hlexed : AllLexed tokens) :
    Reads (parens nested) tokens fun read value _ => SpellsExpr .access read value := by
  refine (reads_skip hlexed rfl).bind ?_
  rintro _ _ tokens rfl rfl
  refine Reads.startsNamedField ?_
  refine (reads_field hnested hlexed.left).bind ?_
  rintro read first left rfl ⟨hfirst, hnamed⟩
  refine Reads.currentKind ?_
  split
  · rename_i hglue
    refine (hnested.fields hlexed.left.left).bind ?_
    rintro more rest left rfl hrest
    refine (reads_skip hlexed.left.left.left rfl).bind ?_
    rintro _ _ left rfl rfl
    refine reads_pure ?_
    -- a struct literal has a named field, or a comma after its first field
    have hcondition : first.1.isSome ∨ more ≠ [] := by
      rcases hglue with hglue | hglue
      · exact Or.inl (hnamed.trans hglue)
      · refine Or.inr ?_
        rintro rfl
        cases hglue
    simpa using SpellsExpr.glue hfirst hrest hcondition
  · rename_i hgroup
    refine (reads_skip hlexed.left.left rfl).bind ?_
    rintro _ _ left rfl rfl
    refine reads_pure ?_
    cases hfirst with
    | named => exact absurd (Or.inl hnamed.symm) hgroup
    | positional hvalue => simpa using SpellsExpr.group hvalue

theorem reads_read {tokens : List Token} (hlexed : AllLexed tokens) :
    Reads read tokens fun read value _ => SpellsExpr .access read value := by
  refine (reads_skip hlexed rfl).bind ?_
  rintro _ _ tokens rfl rfl
  refine (reads_skip hlexed.left rfl).bind ?_
  rintro _ _ tokens rfl rfl
  refine (reads_streamNumber hlexed.left.left).bind ?_
  rintro _ _ tokens rfl ⟨stream, rfl, hstream⟩
  refine (reads_skip hlexed.left.left.left rfl).bind ?_
  rintro _ _ tokens rfl rfl
  exact reads_pure (SpellsExpr.read hstream)

include hnested in
/-- A head is a signed expression that nothing tighter follows, or a plain one. -/
theorem reads_head {tokens : List Token} (hlexed : AllLexed tokens) {rule : HeadRule}
    (hrule : Rules.standard.head (nextKind tokens) = some rule) :
    Reads (head nested rule) tokens fun read value left =>
      ∃ stratum, SpellsExpr stratum read value ∧ Stratum.signed.rank ≤ stratum.rank ∧
        (powerAt left).rank ≤ stratum.rank := by
  have hplain : ∀ {parser : Parser Expr}, Reads parser tokens
      (fun read value _ => SpellsExpr .access read value) →
      Reads parser tokens fun read value left =>
        ∃ stratum, SpellsExpr stratum read value ∧ Stratum.signed.rank ≤ stratum.rank ∧
          (powerAt left).rank ≤ stratum.rank := by
    intro parser h
    refine h.weaken fun read value left _ hvalue => ?_
    exact ⟨.access, hvalue, by decide, Rules.rank_powerAt_le left⟩
  cases rule with
  | primary => exact hplain (reads_primary hlexed)
  | parens => exact hplain (reads_parens hnested hlexed)
  | read => exact hplain (reads_read hlexed)
  | sign =>
      have hdash : nextKind tokens = .dash := by
        generalize nextKind tokens = kind at hrule
        cases kind <;> cases hrule
        rfl
      refine (reads_sign hnested hlexed hdash).weaken fun read value left _ hvalue => ?_
      exact ⟨.signed, hvalue.1, Nat.le_refl _, hvalue.2⟩

/-! ## Tails -/

include hnested in
theorem reads_binary {tokens : List Token} (hlexed : AllLexed tokens) {power : Power} {left : Expr}
    (hrule : Rules.standard.tail (nextKind tokens) = some (power, .binary)) {stratum : Stratum}
    {before : List Token} (hleft : SpellsExpr stratum before left)
    (hpower : power.rank ≤ stratum.rank) :
    Reads (binary nested left power) tokens fun read value rest =>
      ∃ longer : Stratum, longer.power = power ∧ SpellsExpr longer (before ++ read) value ∧
        (powerAt rest).rank ≤ longer.rank := by
  obtain ⟨longer, hoperator, rfl, htighter, hfixed⟩ := Rules.tail_binary hrule
  generalize hkind : nextKind tokens = kind at hoperator hfixed
  refine (reads_advance_token hlexed hkind hfixed).bind ?_
  rintro _ _ left' rfl ⟨rfl, rfl⟩
  refine (hnested.expr hlexed.left longer.power).bind ?_
  rintro read right rest rfl ⟨hright, hstop⟩
  refine reads_pure ⟨longer, rfl, ?_, hstop⟩
  rw [htighter] at hright
  simpa using SpellsExpr.binary hoperator (hleft.loosen hpower) hright

theorem reads_member {tokens : List Token} (hlexed : AllLexed tokens) {left : Expr}
    {before : List Token} (hleft : SpellsExpr .access before left) :
    Reads (member left) tokens fun read value _ => SpellsExpr .access (before ++ read) value := by
  refine (reads_skip hlexed rfl).bind ?_
  rintro _ _ tokens rfl rfl
  refine Reads.currentKind ?_
  split
  · rename_i hkind
    refine (reads_advance (hkind ▸ by decide)).bind ?_
    rintro _ item rest rfl ⟨rfl, hitem⟩
    refine reads_pure ?_
    obtain ⟨kind, text⟩ := item
    cases hkind ▸ hitem
    exact .dot hleft
  · split
    · rename_i hkind
      refine (reads_advance (hkind ▸ by decide)).bind ?_
      rintro _ item rest rfl ⟨rfl, hitem⟩
      have hnumber : item.kind = .number := hkind ▸ hitem
      refine (reads_number (hlexed item (by simp)) hnumber rest).bind ?_
      rintro _ value left' rfl ⟨rfl, hvalue⟩
      refine reads_pure ?_
      obtain ⟨kind, text⟩ := item
      cases hnumber
      exact .index hleft hvalue
    · exact reads_reject

include hnested in
/-- A tail extends an operand of its own stratum or a tighter one to an expression
of its stratum that nothing tighter follows. -/
theorem reads_tail {tokens : List Token} (hlexed : AllLexed tokens) {power : Power}
    {rule : TailRule} {left : Expr}
    (hrule : Rules.standard.tail (nextKind tokens) = some (power, rule)) {stratum : Stratum}
    {before : List Token} (hleft : SpellsExpr stratum before left)
    (hpower : power.rank ≤ stratum.rank) :
    Reads (tail nested left power rule) tokens fun read value rest =>
      ∃ longer : Stratum, longer.power = power ∧ SpellsExpr longer (before ++ read) value ∧
        (powerAt rest).rank ≤ longer.rank := by
  cases rule with
  | binary => exact reads_binary hnested hlexed hrule hleft hpower
  | member =>
      obtain ⟨-, rfl⟩ := Rules.tail_member hrule
      cases Stratum.eq_access_of_le hpower
      refine (reads_member hlexed hleft).weaken fun read value rest _ hvalue => ?_
      exact ⟨.access, rfl, hvalue, Rules.rank_powerAt_le rest⟩

/-! ## Expressions -/

include hnested in
theorem reads_expr {tokens : List Token} (hlexed : AllLexed tokens) (power : Power) :
    Reads (expr Rules.standard nested power) tokens (ReadsExpr power) := by
  refine Reads.currentKind ?_
  split
  · rename_i rule hrule
    refine (reads_head hnested hlexed hrule).bind ?_
    rintro read left rest rfl ⟨stratum, hleft, hsigned, hnext⟩
    have hpower := Nat.le_trans (Stratum.rank_above_le_signed power) hsigned
    exact hnested.extension hlexed.left power hleft hpower hnext
  · exact reads_reject

include hnested in
theorem reads_extension {tokens : List Token} (hlexed : AllLexed tokens) (power : Power)
    {start : Expr} {stratum : Stratum} {before : List Token}
    (hstart : SpellsExpr stratum before start)
    (hpower : (Stratum.above power).rank ≤ stratum.rank)
    (hnext : (powerAt tokens).rank ≤ stratum.rank) :
    Reads (extension Rules.standard nested power start) tokens fun read =>
      ReadsExpr power (before ++ read) := by
  refine Reads.currentKind ?_
  -- where the loop stops, the expression is complete
  have hdone (hstop : (powerAt tokens).rank ≤ power.rank) :
      Reads (pure start) tokens fun read => ReadsExpr power (before ++ read) := by
    refine reads_pure ⟨?_, hstop⟩
    rw [List.append_nil]
    exact hstart.loosen hpower
  split
  · rename_i tailPower rule hrule
    have heq : powerAt tokens = tailPower := Rules.power_eq_of_tail hrule
    split
    · rename_i hless
      refine (reads_tail hnested hlexed hrule hstart (heq ▸ hnext)).bind ?_
      rintro read value rest rfl ⟨longer, rfl, hvalue, hrest⟩
      -- the longer expression is again one that can be extended
      have hlonger : (Stratum.above power).rank ≤ longer.rank :=
        Nat.le_trans (Stratum.rank_above_le power) hless
      refine (hnested.extension hlexed.left power hvalue hlonger hrest).weaken ?_
      intro more value rest _ hresult
      rwa [← List.append_assoc]
    · rename_i hless
      exact hdone (heq ▸ Nat.le_of_not_lt hless)
  · rename_i hrule
    refine hdone ?_
    rw [powerAt, Rules.power_eq_least_of_tail hrule]
    exact Nat.zero_le _

end Rules

end Parser

end FlexWidth
