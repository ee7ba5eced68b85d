import FlexWidth.Proofs.Grammar.ExprViability

/-!
# Statements stop in time

The statements keep their promise if the phrases inside them do.  With the expressions
this makes what any parser has read before a syntax error viable, however deeply
phrases nest.
-/

namespace FlexWidth

open TokenKind (token spelling)

namespace Parser

open TokenStream (feed)

variable {α : Type}

/-! ## Parts of statements -/

/-- The tokens spell something, or there are none. -/
def SpellsOption (spells : List Token → α → Prop) (read : List Token) : Option α → Prop
  | some value => spells read value
  | none => read = []

theorem SpellsOption.some {spells : List Token → α → Prop} {read : List Token} {value : α}
    (h : spells read value) : SpellsOption spells read (some value) := h

theorem SpellsOption.none {spells : List Token → α → Prop} : SpellsOption spells [] none := rfl

/-- The tokens spell the value of a binding, after its sign. -/
def SpellsValue (read : List Token) (value : Expr) : Prop :=
  ∃ rest, read = token .assignment :: rest ∧ SpellsExpr .disjunction rest value

/-- The tokens spell a condition in parentheses. -/
def SpellsCondition (read : List Token) (value : Expr) : Prop :=
  ∃ test, read = token .openParen :: test ++ [token .closeParen] ∧
    SpellsExpr .disjunction test value

/-- The tokens spell the other branch of an `if`. -/
def SpellsElse (read : List Token) (no : List Stmt) : Prop :=
  ∃ rest, read = token .elseWord :: rest ∧
    (SpellsBlock rest no ∨ ∃ next, no = [next] ∧ SpellsBranch rest next)

section Rules

variable {nested : Nested} (hsound : SoundNested nested) (hviable : ViableNested nested)

include hsound hviable

/-! ## Written types -/

omit hsound hviable in
theorem steers_intAscription : Steers intAscription [] SpellsAscription := by
  refine .skip rfl (.ifKind rfl ?_ (steers_pure _ .int))
  refine .expectNumber (by decide) ?_
  intro text width hwidth
  exact .skip rfl (steers_pure _ (.sized hwidth))

omit hsound in
theorem steers_ascription :
    Steers (ascription Rules.standard nested) [] SpellsAscription := by
  apply Steers.currentKind
  intro kind
  split
  · rename_i rule _
    cases rule with
    | any => exact hviable.ascription
    | int => exact steers_intAscription
    | bool => exact .skip rfl (steers_pure _ .bool)
  · exact steers_reject (viable_nil (allLexed_token rfl) .bool)

/-! ## Statements -/

theorem steers_expressionStmt : Steers (expressionStmt nested) [] SpellsStmt := by
  apply (guides_expr hsound hviable .least).bind
  intro read value hread
  exact .skip rfl (steers_pure _ (.evaluate hread))

theorem guides_block : Guides (block nested) SpellsBlock where
  reads hlexed := reads_block hsound hlexed
  steers := by
    refine .skip rfl ?_
    apply (guides_stmts hsound hviable _).bind
    intro read body hread
    exact .skip rfl (steers_pure _ (.braces hread))

theorem guides_optionalAscription :
    Guides (optionalAscription Rules.standard nested) (SpellsOption SpellsAscription) where
  reads hlexed := (reads_optionalAscription hsound hlexed).weaken fun _ value _ _ h => by
    cases value <;> exact h
  steers := by
    apply Steers.currentKind
    intro kind
    split
    · apply (guides_ascription hsound hviable).bind
      intro read written hwritten
      exact steers_pure _ (SpellsOption.some hwritten)
    · exact steers_pure _ SpellsOption.none

theorem guides_optionalValue :
    Guides (optionalValue nested) (SpellsOption SpellsValue) where
  reads hlexed := (reads_optionalValue hsound hlexed).weaken fun _ value _ _ h => by
    cases value <;> exact h
  steers := by
    refine .ifKind rfl ?_ (steers_pure _ SpellsOption.none)
    apply (guides_expr hsound hviable .least).bind
    intro read value hvalue
    exact steers_pure _ (SpellsOption.some ⟨read, rfl, hvalue⟩)

omit hsound hviable in
/-- What follows the name and the colon of a declaration, up to its semicolon. -/
theorem spellsStmt_declaration (name : String) {written read : List Token}
    {ascription : Option Ascription} {value : Option Expr}
    (hwritten : SpellsOption SpellsAscription written ascription)
    (hread : SpellsOption SpellsValue read value)
    (hsome : ¬ (ascription.isNone && value.isNone) = true) :
    SpellsStmt (⟨.identifier, name⟩ :: token .colon :: (written ++ (read ++ [token .semicolon])))
      (.bind .declaration name ascription value none) := by
  cases ascription with
  | some ascription =>
      cases value with
      | some value =>
          obtain ⟨rest, rfl, hvalue⟩ := hread
          simpa using @SpellsStmt.declareTyped name _ _ _ _ hwritten hvalue
      | none =>
          cases hread
          simpa using @SpellsStmt.declareOnly name _ _ hwritten
  | none =>
      cases hwritten
      cases value with
      | some value =>
          obtain ⟨rest, rfl, hvalue⟩ := hread
          simpa using @SpellsStmt.declareInferred name _ _ hvalue
      | none => exact absurd rfl hsome

theorem steers_declaration :
    Steers (declaration Rules.standard nested) [] SpellsStmt := by
  refine .expectName fun name => .skip rfl ?_
  apply (guides_optionalAscription hsound hviable).bind
  intro written ascription hwritten
  apply (guides_optionalValue hsound hviable).bind
  intro read value hread
  split
  · rename_i hnone
    -- neither a type nor a value so far, but a value may follow
    obtain ⟨hascription, hvalue⟩ := Bool.and_eq_true_iff.mp hnone
    obtain rfl := Option.isNone_iff_eq_none.mp hascription
    obtain rfl := Option.isNone_iff_eq_none.mp hvalue
    cases hwritten
    cases hread
    refine steers_reject ⟨[token .assignment, ⟨.number, "0"⟩, token .semicolon], _,
      ((allLexed_token rfl).append allLexed_zero).append (allLexed_token rfl),
      .declareInferred (spellsExpr_zero _)⟩
  · rename_i hsome
    have hspells := spellsStmt_declaration name hwritten hread hsome
    refine .skip rfl (steers_pure (.bind .declaration name ascription value none) ?_)
    simpa using hspells

theorem stops_assignment {tokens : List Token} (hlexed : AllLexed tokens)
    (hname : nextKind tokens = .identifier) :
    Stops (assignment nested) tokens [] SpellsStmt := by
  obtain ⟨⟨kind, name⟩, left, rfl, hitem⟩ := exists_of_nextKind hname (by decide)
  cases hitem
  apply Stops.advance
  refine Steers.stops (.skip rfl ?_) hlexed.tail
  apply (guides_expr hsound hviable .least).bind
  intro read value hread
  exact .skip rfl (steers_pure _ (.assign hread))

theorem stops_named {tokens : List Token} (hlexed : AllLexed tokens)
    (hname : nextKind tokens = .identifier) :
    Stops (named Rules.standard nested) tokens [] SpellsStmt := by
  obtain ⟨first, rest, rfl, -⟩ := exists_of_nextKind hname (by decide)
  refine Stops.of_run (run_bind_ok (run_peekKind first rest) _) ?_
  split
  · exact (steers_declaration hsound hviable).stops hlexed
  · split
    · exact stops_assignment hsound hviable hlexed hname
    · exact (steers_expressionStmt hsound hviable).stops hlexed

theorem steers_print : Steers (print nested) [] SpellsStmt := by
  refine .skip rfl (.skip rfl ?_)
  apply guides_streamNumber.bind
  intro number _ hnumber
  obtain ⟨stream, rfl, hstream⟩ := hnumber
  refine .skip rfl ?_
  apply (guides_expr hsound hviable .least).bind
  intro read value hread
  refine .skip rfl (.skip rfl (steers_pure (.print value) ?_))
  simpa using SpellsStmt.print hstream hread

theorem guides_condition : Guides (condition nested) SpellsCondition where
  reads hlexed := reads_condition hsound hlexed
  steers := by
    refine .skip rfl ?_
    apply (guides_expr hsound hviable .least).bind
    intro read value hread
    exact .skip rfl (steers_pure _ ⟨read, rfl, hread⟩)

theorem guides_otherwise : Guides (otherwise nested) (SpellsOption SpellsElse) where
  reads hlexed := (reads_otherwise hsound hlexed).weaken fun _ value _ _ h => by
    cases value <;> exact h
  steers := by
    refine .ifKind rfl ?_ (steers_pure _ SpellsOption.none)
    apply Steers.currentKind
    intro kind
    split
    · apply (guides_branch hsound hviable).bind
      intro read next hnext
      exact steers_pure _ (SpellsOption.some ⟨read, rfl, .inr ⟨next, rfl, hnext⟩⟩)
    · apply (guides_block hsound hviable).bind
      intro read no hno
      exact steers_pure _ (SpellsOption.some ⟨read, rfl, .inl hno⟩)

theorem steers_branch : Steers (branch nested) [] SpellsBranch := by
  refine .skip rfl ?_
  apply (guides_condition hsound hviable).bind
  intro _ condition hcondition
  obtain ⟨test, rfl, htest⟩ := hcondition
  apply (guides_block hsound hviable).bind
  intro first yes hyes
  apply (guides_otherwise hsound hviable).bind
  intro read no hno
  cases no with
  | none =>
      cases hno
      refine steers_pure (.branch condition yes none) ?_
      simpa using SpellsBranch.plain htest hyes
  | some no =>
      obtain ⟨second, rfl, hno | ⟨next, rfl, hnext⟩⟩ := hno
      · refine steers_pure (.branch condition yes (some no)) ?_
        simpa using SpellsBranch.otherwise htest hyes hno
      · refine steers_pure (.branch condition yes (some [next])) ?_
        simpa using SpellsBranch.chained htest hyes hnext

theorem steers_whileLoop : Steers (whileLoop nested) [] SpellsStmt := by
  refine .skip rfl ?_
  apply (guides_condition hsound hviable).bind
  intro _ condition hcondition
  obtain ⟨test, rfl, htest⟩ := hcondition
  apply (guides_block hsound hviable).bind
  intro read body hread
  refine steers_pure (.whileLoop condition body) ?_
  simpa using SpellsStmt.whileLoop htest hread

theorem steers_bounds : Steers (bounds nested) [] SpellsBounds := by
  refine .ifKind rfl ?_ (steers_pure _ .none)
  apply (guides_expr hsound hviable .least).bind
  intro read bound hbound
  apply (guides_bounds hsound hviable).bind
  intro more rest hrest
  exact steers_pure _ (.more hbound hrest)

theorem steers_forLoop : Steers (forLoop nested) [] SpellsStmt := by
  refine .skip rfl (.skip rfl (.expectName fun name => .skip rfl ?_))
  apply (guides_expr hsound hviable .least).bind
  intro first bound hbound
  apply (guides_bounds hsound hviable).bind
  intro more rest hrest
  refine .skip rfl ?_
  apply (guides_block hsound hviable).bind
  intro read body hread
  refine steers_pure (.forLoop name none (bound :: rest) body) ?_
  simpa using @SpellsStmt.forLoop name _ _ _ _ _ _ hbound hrest hread

theorem steers_stmt : Steers (stmt Rules.standard nested) [] SpellsStmt := by
  have hexpression := steers_expressionStmt hsound hviable
  refine ⟨hexpression.viable, fun {tokens} hlexed => ?_⟩
  apply Stops.currentKind
  split
  · rename_i rule hrule
    cases rule with
    | any => exact hviable.stmt.stops hlexed
    | expression => exact hexpression.stops hlexed
    | block =>
        refine Steers.stops ?_ hlexed
        apply (guides_block hsound hviable).bind
        intro read body hread
        exact steers_pure _ (.block hread)
    | named =>
        have hname : nextKind tokens = .identifier := by
          generalize nextKind tokens = kind at hrule
          cases kind <;> cases hrule
          rfl
        exact stops_named hsound hviable hlexed hname
    | print => exact (steers_print hsound hviable).stops hlexed
    | branch =>
        refine (hviable.branch.stops hlexed).weaken fun read hread => ?_
        exact hread.within fun part value hpart => .of_spells (.branch hpart)
    | whileLoop => exact (steers_whileLoop hsound hviable).stops hlexed
    | forLoop => exact (steers_forLoop hsound hviable).stops hlexed
  · exact hexpression.stops hlexed

theorem steers_stmts (stop : List TokenKind) : Steers (stmts nested stop) [] SpellsStmts := by
  apply Steers.currentKind
  intro kind
  split
  · exact steers_pure _ .nil
  · apply (guides_stmt hsound hviable).bind
    intro read first hfirst
    apply (guides_stmts hsound hviable stop).bind
    intro more rest hrest
    exact steers_pure _ (.cons hfirst hrest)

/-- If the parsers inside a phrase keep their promises, so do the phrases. -/
theorem viableNested_phrase : ViableNested (phrase Rules.standard nested) where
  expr power := steers_expr hsound hviable power
  extension hlexed power _ _ _ hstart hnext :=
    stops_extension hsound hviable hlexed power hstart hnext
  fields := steers_fields hsound hviable
  bounds := steers_bounds hsound hviable
  stmt := steers_stmt hsound hviable
  stmts stop := steers_stmts hsound hviable stop
  branch := steers_branch hsound hviable
  ascription := steers_ascription hviable

end Rules

/-- However deep phrases may nest, a parser fails on viable tokens only. -/
theorem viableNested_parseWithin (depth : Nat) :
    ViableNested (parseWithin Rules.standard depth) := by
  induction depth with
  | zero =>
      -- without depth there is no syntax error, and every phrase has a spelling
      have hfault : ∀ {α β : Type} (tokens before : List Token) (spells : List Token → β → Prop),
          Stops (fault .recursionDepth : Parser α) tokens before spells := by
        intro α β tokens before spells text message final hrun
        cases hrun
      exact {
        expr := fun power => ⟨viable_nil allLexed_zero (spellsExpr_zero _), fun _ => hfault _ _ _⟩
        extension := fun _ _ _ _ _ _ _ => hfault _ _ _
        fields := ⟨.of_spells .none, fun _ => hfault _ _ _⟩
        bounds := ⟨.of_spells .none, fun _ => hfault _ _ _⟩
        stmt := ⟨viable_stmt, fun _ => hfault _ _ _⟩
        stmts := fun _ => ⟨.of_spells .nil, fun _ => hfault _ _ _⟩
        branch := ⟨viable_branch, fun _ => hfault _ _ _⟩
        ascription := ⟨viable_nil (allLexed_token rfl) .bool, fun _ => hfault _ _ _⟩ }
  | succ depth ih => exact viableNested_phrase (soundNested_parseWithin depth) ih

end Parser

end FlexWidth
