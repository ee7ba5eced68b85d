import FlexWidth.Proofs.Grammar.ExprSoundness

/-!
# Every spelling of an expression is parsed

The converse of the soundness of expressions.  A parser of expressions does not
stop where a spelling does: it goes on as long as the next token binds tightly
enough.  So the induction over spellings is in continuation form.  If extending the
spelled expression over the tokens that follow it gives some result, then parsing
the spelling and these tokens gives that result (`parses_expr_of_extension`).  A
spelling in its own right is the case where nothing extends it.

Every token of a spelling costs at most four nested phrases, which is how the
allowance of the parser is counted.
-/

namespace FlexWidth

open TokenKind (token spelling)
open Rules (powerAt)

/-! ## Strata and powers -/

/-- The operators of a stratum are binary operators of its power, and their right
operands belong to the next tighter stratum. -/
theorem Rules.tail_of_mem_operators {stratum : Stratum} {operator : TokenKind}
    (h : operator ∈ stratum.operators) :
    standard.tail operator = some (stratum.power, .binary) ∧
      Stratum.above stratum.power = stratum.tighter ∧ stratum.power ≠ .member := by
  cases stratum <;> cases operator <;> first | decide | exact absurd h (by decide)

theorem Stratum.rank_le_rank_tighter (stratum : Stratum) : stratum.rank ≤ stratum.tighter.rank := by
  cases stratum <;> decide

theorem Stratum.power_lt_of_above_le {power : Power} {stratum : Stratum}
    (h : (above power).rank ≤ stratum.rank) (hstratum : stratum.rank < signed.rank) :
    power < stratum.power := by
  cases power <;> cases stratum <;> first | decide | exact absurd h (by decide) |
    exact absurd hstratum (by decide)

theorem Power.lt_member {power : Power} (h : power ≠ .member) : power < .member := by
  cases power <;> first | decide | exact absurd rfl h

/-! ## How a spelling starts -/

/-- An expression starts with a token that has a head rule. -/
theorem SpellsExpr.exists_head {stratum : Stratum} {tokens : List Token} {value : Expr}
    (h : SpellsExpr stratum tokens value) :
    ∃ first rest rule, tokens = first :: rest ∧ Rules.standard.head first.kind = some rule := by
  match h with
  | .tighter h => exact h.exists_head
  | .binary _ hleft _ =>
      obtain ⟨first, rest, rule, rfl, hrule⟩ := hleft.exists_head
      exact ⟨first, _, rule, rfl, hrule⟩
  | .sign _ => exact ⟨_, _, .sign, rfl, rfl⟩
  | .dot hbase =>
      obtain ⟨first, rest, rule, rfl, hrule⟩ := hbase.exists_head
      exact ⟨first, _, rule, rfl, hrule⟩
  | .index hbase _ =>
      obtain ⟨first, rest, rule, rfl, hrule⟩ := hbase.exists_head
      exact ⟨first, _, rule, rfl, hrule⟩
  | .literal _ => exact ⟨_, _, .primary, rfl, rfl⟩
  | .var => exact ⟨_, _, .primary, rfl, rfl⟩
  | .read _ => exact ⟨_, _, .read, rfl, rfl⟩
  | .group _ => exact ⟨_, _, .parens, rfl, rfl⟩
  | .glue _ _ _ => exact ⟨_, _, .parens, rfl, rfl⟩

/-- After a leading name comes an operator, or what follows the expression. -/
theorem SpellsExpr.tail_of_identifier {stratum : Stratum} {tokens : List Token} {value : Expr}
    (h : SpellsExpr stratum tokens value) (rest : List Token)
    (hname : nextKind (tokens ++ rest) = .identifier) :
    nextKind (tokens ++ rest).tail = nextKind rest ∨
      (Rules.standard.tail (nextKind (tokens ++ rest).tail)).isSome := by
  -- an operand is followed by its operator, so one of the two holds of the operand
  -- exactly if the second holds of the expression
  have hoperand {operand : List Token} {operator : Token} {more : List Token}
      (hrec : nextKind (operand ++ (operator :: more ++ rest)) = .identifier →
        nextKind (operand ++ (operator :: more ++ rest)).tail = operator.kind ∨
          (Rules.standard.tail (nextKind (operand ++ (operator :: more ++ rest)).tail)).isSome)
      (hoperator : (Rules.standard.tail operator.kind).isSome)
      (hname : nextKind (operand ++ operator :: more ++ rest) = .identifier) :
      (Rules.standard.tail (nextKind (operand ++ operator :: more ++ rest).tail)).isSome := by
    rw [List.append_assoc] at hname ⊢
    rcases hrec hname with hnext | hnext
    · rwa [hnext]
    · exact hnext
  match h with
  | .tighter h => exact h.tail_of_identifier rest hname
  | .binary hoperator hleft _ =>
      refine Or.inr (hoperand (hleft.tail_of_identifier _) ?_ hname)
      rw [TokenKind.kind_token, (Rules.tail_of_mem_operators hoperator).1]
      rfl
  | .sign _ => cases hname
  | .dot hbase => exact Or.inr (hoperand (hbase.tail_of_identifier _) rfl hname)
  | .index hbase _ => exact Or.inr (hoperand (hbase.tail_of_identifier _) rfl hname)
  | .literal _ => cases hname
  | .var => exact Or.inl rfl
  | .read _ => cases hname
  | .group _ => cases hname
  | .glue _ _ _ => cases hname

/-- A name at the start of an expression is followed by no token but an operator or
what follows the expression. -/
theorem SpellsExpr.nextKind_tail_ne {tokens rest : List Token} {value : Expr}
    (h : SpellsExpr .disjunction tokens value) (kind : TokenKind)
    (hname : nextKind (tokens ++ rest) = .identifier) (hrest : nextKind rest ≠ kind)
    (hkind : Rules.standard.tail kind = none) : nextKind (tokens ++ rest).tail ≠ kind := by
  rintro rfl
  rcases h.tail_of_identifier rest hname with hnext | hnext
  · exact hrest hnext.symm
  · rw [hkind] at hnext
    cases hnext

/-- A field starts with a name or an expression. -/
theorem SpellsField.nextKind_ne_closeParen {tokens rest : List Token} {value : Option String × Expr}
    (h : SpellsField tokens value) : nextKind (tokens ++ rest) ≠ .closeParen := by
  cases h with
  | named => simp
  | positional hvalue =>
      obtain ⟨first, more, rule, rfl, hrule⟩ := hvalue.exists_head
      intro hclose
      rw [List.cons_append, nextKind_cons] at hclose
      rw [hclose] at hrule
      cases hrule

/-- A comma or the closing parenthesis follows a field. -/
theorem SpellsFields.nextKind_append {tokens : List Token} {fields : GlueFields}
    (h : SpellsFields tokens fields) (rest : List Token) :
    nextKind (tokens ++ token .closeParen :: rest) = .comma ∨
      nextKind (tokens ++ token .closeParen :: rest) = .closeParen := by
  cases h with
  | none => exact Or.inr rfl
  | trailing => exact Or.inl rfl
  | more => exact Or.inl rfl

namespace Parser

open TokenStream (feed)

variable {α : Type}

/-- An expression does not start like a named field, unless what follows it makes
it so. -/
theorem namedAt_eq_false {tokens rest : List Token} {value : Expr}
    (h : SpellsExpr .disjunction tokens value) (hrest : nextKind rest ≠ .colon) :
    namedAt (tokens ++ rest) = false := by
  by_cases hname : nextKind (tokens ++ rest) = .identifier
  · have hcolon := h.nextKind_tail_ne .colon hname hrest rfl
    simp [namedAt, hcolon]
  · simp [namedAt, hname]

/-- The parser sees from the first field whether parentheses hold a struct literal. -/
theorem isGlue_of_spells {tokens more : List Token} {first : Option String × Expr}
    {others : GlueFields} (hfirst : SpellsField tokens first) (hmore : SpellsFields more others)
    (hglue : first.1.isSome ∨ more ≠ []) (rest : List Token) :
    namedAt (tokens ++ (more ++ token .closeParen :: rest)) = true ∨
      nextKind (more ++ token .closeParen :: rest) = .comma := by
  cases hfirst with
  | named => exact Or.inl rfl
  | positional =>
      refine Or.inr ?_
      cases hmore with
      | none => simp at hglue
      | trailing => rfl
      | more => rfl

/-! ## Rules that succeed -/

section Rules

variable {nested : Nested} {rest : List Token}

theorem run_literal {text : String} {value : Nat} (h : IsWord text value) :
    primary (feed (⟨.number, text⟩ :: rest)) = .ok (.literal value none) (feed rest) := by
  rw [primary, run_bind_ok (run_currentKind _), nextKind_cons, if_pos rfl,
    run_bind_ok (run_advance _ rest), run_bind_ok (run_number h _)]
  rfl

theorem run_var (name : String) :
    primary (feed (⟨.identifier, name⟩ :: rest)) = .ok (.var name none none) (feed rest) := by
  rw [primary, run_bind_ok (run_currentKind _), nextKind_cons, if_neg (by simp), if_pos rfl,
    run_bind_ok (run_advance _ rest)]
  rfl

theorem run_sign {tokens : List Token} {operand : Expr}
    (h : nested (.expr .unary) (feed tokens) = .ok operand (feed rest)) :
    sign nested (feed (token .dash :: tokens)) = .ok (.unary "-" operand none) (feed rest) := by
  rw [sign, run_bind_ok (run_advance _ tokens), run_bind_ok h]
  rfl

theorem run_read {stream : String} (h : IsWord stream 0) :
    read (feed (token .inputWord :: token .openParen :: ⟨.number, stream⟩ :: token .closeParen ::
      rest)) = .ok (.read none) (feed rest) := by
  rw [read, run_bind_ok (run_skip_token _ _), run_bind_ok (run_skip_token _ _),
    run_bind_ok (run_streamNumber h _), run_bind_ok (run_skip_token _ _)]
  rfl

theorem run_namedField {name : String} {tokens : List Token} {value : Expr}
    (h : nested (.expr .least) (feed tokens) = .ok value (feed rest)) :
    field nested (feed (⟨.identifier, name⟩ :: token .colon :: tokens)) =
      .ok (some name, value) (feed rest) := by
  have hnamed : namedAt (⟨.identifier, name⟩ :: token .colon :: tokens) = true := rfl
  rw [field, run_bind_ok (run_startsNamedField _), if_pos hnamed, run_bind_ok (run_advance _ _),
    run_bind_ok (run_skip_token _ _), run_bind_ok h]
  rfl

theorem run_positionalField {tokens : List Token} {value : Expr} (hnamed : namedAt tokens = false)
    (h : nested (.expr .least) (feed tokens) = .ok value (feed rest)) :
    field nested (feed tokens) = .ok (none, value) (feed rest) := by
  rw [field, run_bind_ok (run_startsNamedField _), hnamed, if_neg (by decide), run_bind_ok h]
  rfl

theorem run_trailingComma :
    fields nested (feed (token .comma :: token .closeParen :: rest)) =
      .ok [] (feed (token .closeParen :: rest)) := by
  rw [fields, run_bind_ok (run_currentKind _), nextKind_cons,
    TokenKind.kind_token, if_pos rfl, run_bind_ok (run_advance _ _),
    run_bind_ok (run_currentKind _), nextKind_cons, TokenKind.kind_token, if_pos rfl]
  rfl

theorem run_moreFields {tokens left : List Token} {first : Option String × Expr}
    {more : GlueFields} (hclose : nextKind tokens ≠ .closeParen)
    (hfirst : field nested (feed tokens) = .ok first (feed left))
    (hmore : nested .fields (feed left) = .ok more (feed rest)) :
    fields nested (feed (token .comma :: tokens)) = .ok (first :: more) (feed rest) := by
  rw [fields, run_bind_ok (run_currentKind _), nextKind_cons, TokenKind.kind_token, if_pos rfl,
    run_bind_ok (run_advance _ _), run_bind_ok (run_currentKind _), if_neg hclose,
    run_bind_ok hfirst, run_bind_ok hmore]
  rfl

theorem run_group {tokens : List Token} {value : Expr} (hnamed : namedAt tokens = false)
    (h : nested (.expr .least) (feed tokens) = .ok value (feed (token .closeParen :: rest))) :
    parens nested (feed (token .openParen :: tokens)) = .ok value (feed rest) := by
  rw [parens, run_bind_ok (run_skip_token _ _), run_bind_ok (run_startsNamedField _),
    run_bind_ok (run_positionalField hnamed h), run_bind_ok (run_currentKind _), hnamed,
    if_neg (by simp), run_bind_ok (run_skip_token _ _)]
  rfl

theorem run_glue {tokens left : List Token} {first : Option String × Expr} {more : GlueFields}
    (hglue : namedAt tokens = true ∨ nextKind left = .comma)
    (hfirst : field nested (feed tokens) = .ok first (feed left))
    (hmore : nested .fields (feed left) = .ok more (feed (token .closeParen :: rest))) :
    parens nested (feed (token .openParen :: tokens)) =
      .ok (.glue (first :: more) none) (feed rest) := by
  rw [parens, run_bind_ok (run_skip_token _ _), run_bind_ok (run_startsNamedField _),
    run_bind_ok hfirst, run_bind_ok (run_currentKind _), if_pos hglue, run_bind_ok hmore,
    run_bind_ok (run_skip_token _ _)]
  rfl

theorem run_binary {operator : TokenKind} {power : Power} {tokens : List Token} {left right : Expr}
    (h : nested (.expr power) (feed tokens) = .ok right (feed rest)) :
    binary nested left power (feed (token operator :: tokens)) =
      .ok (.binary (spelling operator) left right none) (feed rest) := by
  rw [binary, run_bind_ok (run_advance _ _), run_bind_ok h]
  rfl

theorem run_dot {field : String} {left : Expr} :
    member left (feed (token .dot :: ⟨.identifier, field⟩ :: rest)) =
      .ok (.dot left field none none) (feed rest) := by
  rw [member, run_bind_ok (run_skip_token _ _), run_bind_ok (run_currentKind _), nextKind_cons,
    if_pos rfl, run_bind_ok (run_advance _ _)]
  rfl

theorem run_index {text : String} {position : Nat} {left : Expr} (h : IsWord text position) :
    member left (feed (token .dot :: ⟨.number, text⟩ :: rest)) =
      .ok (.index left position none) (feed rest) := by
  rw [member, run_bind_ok (run_skip_token _ _), run_bind_ok (run_currentKind _), nextKind_cons,
    if_neg (by simp), if_pos rfl, run_bind_ok (run_advance _ _), run_bind_ok (run_number h _)]
  rfl

end Rules

/-! ## Nonterminals that succeed -/

/-- With room for `depth` nested phrases, or for more, the nonterminal reads `value`
and leaves the tokens `left`. -/
def Parses (depth : Nat) (nonterminal : Nonterminal α) (tokens : List Token) (value : α)
    (left : List Token) : Prop :=
  ∀ room, depth ≤ room →
    parseWithin Rules.standard room nonterminal (feed tokens) = .ok value (feed left)

theorem Parses.mono {depth bound : Nat} {nonterminal : Nonterminal α} {tokens left : List Token}
    {value : α} (h : Parses depth nonterminal tokens value left) (hle : depth ≤ bound) :
    Parses bound nonterminal tokens value left :=
  fun room hroom => h room (Nat.le_trans hle hroom)

theorem parses_of_phrase (depth : Nat) {bound : Nat} {nonterminal : Nonterminal α}
    {tokens left : List Token} {value : α} (hbound : depth < bound)
    (h : ∀ room, depth ≤ room →
      phrase Rules.standard (parseWithin Rules.standard room) nonterminal (feed tokens) =
        .ok value (feed left)) :
    Parses bound nonterminal tokens value left := by
  intro room hroom
  cases room with
  | zero => omega
  | succ room => exact h room (by omega)

/-- A head and what extends it. -/
theorem parses_expr_of_head (depth : Nat) {bound : Nat} {above : Power} {first : Token}
    {tokens middle left : List Token} {value result : Expr} {rule : HeadRule}
    (hbound : depth < bound) (hrule : Rules.standard.head first.kind = some rule)
    (hhead : ∀ room, depth ≤ room →
      head (parseWithin Rules.standard room) rule (feed (first :: tokens)) =
        .ok value (feed middle))
    (hextension : Parses depth (.extension above value) middle result left) :
    Parses bound (.expr above) (first :: tokens) result left := by
  refine parses_of_phrase depth hbound fun room hroom => ?_
  change expr Rules.standard _ above _ = _
  rw [expr, run_bind_ok (run_currentKind _), nextKind_cons, hrule]
  change (head _ rule >>= _) _ = _
  rw [run_bind_ok (hhead room hroom)]
  exact hextension room hroom

/-- A tail and what extends its result. -/
theorem parses_extension_of_tail (depth : Nat) {bound : Nat} {above power : Power}
    {operator : Token} {tokens middle left : List Token} {value longer result : Expr}
    {rule : TailRule} (hbound : depth < bound)
    (hrule : Rules.standard.tail operator.kind = some (power, rule))
    (hpower : above < power)
    (htail : ∀ room, depth ≤ room →
      tail (parseWithin Rules.standard room) value power rule (feed (operator :: tokens)) =
        .ok longer (feed middle))
    (hextension : Parses depth (.extension above longer) middle result left) :
    Parses bound (.extension above value) (operator :: tokens) result left := by
  refine parses_of_phrase depth hbound fun room hroom => ?_
  change extension Rules.standard _ above value _ = _
  rw [extension, run_bind_ok (run_currentKind _), nextKind_cons, hrule]
  change (if above < power then tail _ value power rule >>= _ else _ : Parser Expr) _ = _
  rw [if_pos hpower, run_bind_ok (htail room hroom)]
  exact hextension room hroom

/-- A field access and what extends it. -/
theorem parses_extension_of_member {depth : Nat} {above : Power} {name : Token}
    {rest left : List Token} {value longer result : Expr} (hmember : above ≠ .member)
    (htail : ∀ room, tail (parseWithin Rules.standard room) value .member .member
      (feed (token .dot :: name :: rest)) = .ok longer (feed rest))
    (hextension : Parses depth (.extension above longer) rest result left) :
    Parses (depth + 1) (.extension above value) (token .dot :: name :: rest) result left :=
  parses_extension_of_tail depth (Nat.lt_succ_self depth) rfl (Power.lt_member hmember)
    (fun room _ => htail room) hextension

/-- Nothing extends an expression before a token that binds no tighter. -/
theorem parses_extension_nil {above : Power} {tokens : List Token} (value : Expr)
    (h : (powerAt tokens).rank ≤ above.rank) :
    Parses 1 (.extension above value) tokens value tokens := by
  refine parses_of_phrase 0 Nat.zero_lt_one fun room _ => ?_
  change extension Rules.standard _ above value _ = _
  rw [extension, run_bind_ok (run_currentKind _)]
  cases hrule : Rules.standard.tail (nextKind tokens) with
  | none => rfl
  | some entry =>
      have heq : powerAt tokens = entry.1 := Rules.power_eq_of_tail hrule
      have hstop : ¬ above < entry.1 := heq ▸ Nat.not_lt.mpr h
      change (if above < entry.1 then _ else pure value : Parser Expr) _ = _
      rw [if_neg hstop]
      rfl

/-! ## Spellings are parsed -/

mutual

/-- **The continuation form of completeness.**  If extending an expression over the
tokens after its spelling has a result, parsing the spelling has that result. -/
theorem parses_expr_of_extension {stratum : Stratum} {tokens : List Token} {value : Expr}
    (h : SpellsExpr stratum tokens value) {above : Power} {depth : Nat} {rest left : List Token}
    {result : Expr} (hmember : above ≠ .member)
    (habove : (Stratum.above above).rank ≤ stratum.rank)
    (hstop : (powerAt rest).rank ≤ stratum.rank)
    (hextension : Parses depth (.extension above value) rest result left) :
    Parses (depth + 4 * tokens.length) (.expr above) (tokens ++ rest) result left := by
  match h with
  | .tighter h =>
      have hle := stratum.rank_le_rank_tighter
      exact parses_expr_of_extension h hmember (by omega) (by omega) hextension
  | @SpellsExpr.binary _ operator first second l r hoperator hleft hright =>
      obtain ⟨hrule, htighter, hpower⟩ := Rules.tail_of_mem_operators hoperator
      have hless : above < stratum.power := by
        refine Stratum.power_lt_of_above_le habove ?_
        cases stratum <;> first | decide | cases hoperator
      -- the right operand ends before the rest, since the rest binds no tighter than
      -- the operator
      have hsecond : Parses (1 + 4 * second.length) (.expr stratum.power) (second ++ rest) r rest :=
        parses_expr_of_extension hright hpower (Nat.le_of_eq (congrArg _ htighter))
          (Nat.le_trans hstop stratum.rank_le_rank_tighter) (parses_extension_nil r hstop)
      have hfirst : Parses (depth + 4 * second.length + 2) (.extension above l)
          (token operator :: (second ++ rest)) result left := by
        refine parses_extension_of_tail _ (Nat.lt_succ_self _) hrule hless (fun room hroom => ?_)
          (hextension.mono (by omega))
        exact run_binary (hsecond room (by omega))
      have hnext : (powerAt (token operator :: (second ++ rest))).rank ≤ stratum.rank :=
        Nat.le_of_eq (congrArg Power.rank (Rules.power_eq_of_tail hrule))
      rw [List.append_assoc]
      refine (parses_expr_of_extension hleft hmember habove hnext hfirst).mono ?_
      simp only [List.length_append, List.length_cons]
      omega
  | @SpellsExpr.sign inner operand hinner =>
      have hoperand : Parses (1 + 4 * inner.length) (.expr .unary) (inner ++ rest) operand rest :=
        parses_expr_of_extension hinner (by decide) (Nat.le_refl _) hstop
          (parses_extension_nil operand hstop)
      refine parses_expr_of_head (depth + 4 * inner.length + 1) ?_ rfl
        (fun room hroom => ?_) (hextension.mono (by omega))
      · simp only [List.length_cons]
        omega
      · exact run_sign (hoperand room (by omega))
  | @SpellsExpr.dot inner base field hbase =>
      have hfirst := parses_extension_of_member hmember (fun room => run_dot) hextension
      rw [List.append_assoc]
      have hwhole := parses_expr_of_extension hbase hmember habove (Rules.rank_powerAt_le _) hfirst
      refine hwhole.mono ?_
      simp only [List.length_append, List.length_cons]
      omega
  | @SpellsExpr.index inner base text position hbase hposition =>
      have hfirst := parses_extension_of_member hmember (fun room => run_index hposition) hextension
      rw [List.append_assoc]
      have hwhole := parses_expr_of_extension hbase hmember habove (Rules.rank_powerAt_le _) hfirst
      refine hwhole.mono ?_
      simp only [List.length_append, List.length_cons]
      omega
  | .literal hvalue =>
      exact parses_expr_of_head depth (by simp) rfl (fun room _ => run_literal hvalue) hextension
  | .var => exact parses_expr_of_head depth (by simp) rfl (fun room _ => run_var _) hextension
  | .read hstream =>
      exact parses_expr_of_head depth (by simp) rfl (fun room _ => run_read hstream) hextension
  | @SpellsExpr.group inner _ hinner =>
      have hvalue : Parses (1 + 4 * inner.length) (.expr .least)
          (inner ++ token .closeParen :: rest) value (token .closeParen :: rest) :=
        parses_expr_of_extension hinner (by decide) (by decide) (Nat.zero_le _)
          (parses_extension_nil value (Nat.le_refl _))
      have htokens : token .openParen :: inner ++ [token .closeParen] ++ rest =
          token .openParen :: (inner ++ token .closeParen :: rest) := by simp
      rw [htokens]
      refine parses_expr_of_head (depth + 4 * inner.length + 1) ?_ rfl
        (fun room hroom => ?_) (hextension.mono (by omega))
      · simp only [List.length_append, List.length_cons]
        omega
      · exact run_group (namedAt_eq_false hinner (by simp)) (hvalue room (by omega))
  | @SpellsExpr.glue inner more first fields hfirst hfields hglue =>
      have htokens : token .openParen :: inner ++ more ++ [token .closeParen] ++ rest =
          token .openParen :: (inner ++ (more ++ token .closeParen :: rest)) := by simp
      rw [htokens]
      refine parses_expr_of_head (depth + 4 * inner.length + 4 * more.length + 1) ?_ rfl
        (fun room hroom => ?_) (hextension.mono (by omega))
      · simp only [List.length_append, List.length_cons]
        omega
      · refine run_glue ?_ (run_field hfirst (hfields.nextKind_append rest) (by omega))
          (parses_fields hfields rest room (by omega))
        exact isGlue_of_spells hfirst hfields hglue rest

theorem run_field {tokens : List Token} {value : Option String × Expr}
    (h : SpellsField tokens value) {rest : List Token}
    (hstop : nextKind rest = .comma ∨ nextKind rest = .closeParen) {room : Nat}
    (hroom : 4 * tokens.length + 1 ≤ room) :
    field (parseWithin Rules.standard room) (feed (tokens ++ rest)) = .ok value (feed rest) := by
  have hpower : (powerAt rest).rank ≤ Power.least.rank := by
    rcases hstop with hstop | hstop <;> rw [powerAt, hstop] <;> decide
  match h with
  | @SpellsField.named name inner value hvalue =>
      simp only [List.length_cons] at hroom
      have hinner : Parses (1 + 4 * inner.length) (.expr .least) (inner ++ rest) value rest :=
        parses_expr_of_extension hvalue (by decide) (by decide) (Nat.le_trans hpower (by decide))
          (parses_extension_nil value hpower)
      exact run_namedField (hinner room (by omega))
  | .positional hvalue =>
      have hinner : Parses (1 + 4 * tokens.length) (.expr .least) (tokens ++ rest) _ rest :=
        parses_expr_of_extension hvalue (by decide) (by decide) (Nat.le_trans hpower (by decide))
          (parses_extension_nil _ hpower)
      have hcolon : nextKind rest ≠ .colon := by
        rcases hstop with hstop | hstop <;> rw [hstop] <;> decide
      exact run_positionalField (namedAt_eq_false hvalue hcolon) (hinner room (by omega))

theorem parses_fields {tokens : List Token} {fields : GlueFields} (h : SpellsFields tokens fields)
    (rest : List Token) :
    Parses (4 * tokens.length + 1) .fields (tokens ++ token .closeParen :: rest) fields
      (token .closeParen :: rest) := by
  match h with
  | .none => exact parses_of_phrase _ (Nat.lt_succ_self _) fun room _ => rfl
  | .trailing => exact parses_of_phrase _ (Nat.lt_succ_self _) fun room _ => run_trailingComma
  | @SpellsFields.more inner more first others hfirst hmore =>
      have htokens : token .comma :: inner ++ more ++ token .closeParen :: rest =
          token .comma :: (inner ++ (more ++ token .closeParen :: rest)) := by simp
      rw [htokens]
      refine parses_of_phrase (4 * inner.length + 4 * more.length + 1) ?_
        fun room hroom => ?_
      · simp only [List.length_append, List.length_cons]
        omega
      · exact run_moreFields hfirst.nextKind_ne_closeParen
          (run_field hfirst (hmore.nextKind_append rest) (by omega))
          (parses_fields hmore rest room (by omega))

end

/-- **Every spelling of an expression is parsed**, before a token that continues no
expression. -/
theorem parses_expr {tokens rest : List Token} {value : Expr}
    (h : SpellsExpr .disjunction tokens value) (hstop : powerAt rest = .least) :
    Parses (4 * tokens.length + 1) (.expr .least) (tokens ++ rest) value rest := by
  have hextension := parses_extension_nil value (Nat.le_of_eq (congrArg Power.rank hstop))
  intro room hroom
  refine parses_expr_of_extension h (by decide) (by decide) ?_ hextension room (by omega)
  rw [hstop]
  decide

end Parser

end FlexWidth
