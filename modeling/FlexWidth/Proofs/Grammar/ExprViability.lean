import FlexWidth.Proofs.Grammar.Viability

/-!
# Expressions stop in time

`ViableNested` states what each nonterminal promises of a failure.  The rules for
expressions keep the promise if the phrases inside them do.
-/

namespace FlexWidth

open TokenKind (token spelling)

namespace Parser

open TokenStream (feed)

variable {α : Type}

/-! ## What the nonterminals promise -/

/-- The expression that completes what lacks one. -/
theorem spellsExpr_zero (stratum : Stratum) :
    SpellsExpr stratum [⟨.number, "0"⟩] (.literal 0 none) :=
  (SpellsExpr.literal isWord_zero).loosen (by cases stratum <;> decide)

theorem allLexed_zero : AllLexed [⟨.number, "0"⟩] := allLexed_number isWord_zero

/-- Some tokens of the language spell the phrase. -/
theorem viable_nil {spells : List Token → α → Prop} {tokens : List Token} {value : α}
    (hlexed : AllLexed tokens) (h : spells tokens value) : Viable spells [] :=
  ⟨tokens, value, hlexed, h⟩

theorem viable_block : Viable SpellsBlock [] :=
  viable_nil ((allLexed_token rfl).append (allLexed_token rfl)) (.braces .nil)

theorem viable_stmt : Viable SpellsStmt [] := by
  obtain ⟨tokens, body, hlexed, hblock⟩ := viable_block
  exact viable_nil hlexed (.block hblock)

theorem viable_branch : Viable SpellsBranch [] := by
  have hhead : AllLexed [token .ifWord, token .openParen, ⟨.number, "0"⟩, token .closeParen] :=
    ((allLexed_token rfl).append (allLexed_token rfl)).append
      (allLexed_zero.append (allLexed_token rfl))
  obtain ⟨block, body, hlexed, hblock⟩ := viable_block
  exact viable_nil (hhead.append hlexed) (.plain (spellsExpr_zero _) hblock)

/-- What each nonterminal promises of a failure.  An extension goes on after a spelling of
what it extends, provided that the next token can take that as its left operand. -/
structure ViableNested (nested : Nested) : Prop where
  expr (power : Power) : Steers (nested (.expr power)) [] (SpellsExpr (.above power))
  extension {tokens : List Token} (hlexed : AllLexed tokens) (power : Power) {start : Expr}
    {stratum : Stratum} {before : List Token} (hstart : SpellsExpr stratum before start)
    (hnext : (Rules.powerAt tokens).rank ≤ stratum.rank) :
    Stops (nested (.extension power start)) tokens before (SpellsExpr (.above power))
  fields : Steers (nested .fields) [] SpellsFields
  bounds : Steers (nested .bounds) [] SpellsBounds
  stmt : Steers (nested .stmt) [] SpellsStmt
  stmts (stop : List TokenKind) : Steers (nested (.stmts stop)) [] SpellsStmts
  branch : Steers (nested .branch) [] SpellsBranch
  ascription : Steers (nested .ascription) [] SpellsAscription

section Rules

variable {nested : Nested} (hsound : SoundNested nested) (hviable : ViableNested nested)

include hsound hviable

theorem guides_expr (power : Power) :
    Guides (nested (.expr power)) (SpellsExpr (.above power)) where
  steers := hviable.expr power
  reads hlexed := (hsound.expr hlexed power).weaken fun _ _ _ _ h => h.1

theorem guides_fields : Guides (nested .fields) SpellsFields where
  steers := hviable.fields
  reads hlexed := hsound.fields hlexed

theorem guides_bounds : Guides (nested .bounds) SpellsBounds where
  steers := hviable.bounds
  reads hlexed := hsound.bounds hlexed

theorem guides_stmt : Guides (nested .stmt) SpellsStmt where
  steers := hviable.stmt
  reads hlexed := hsound.stmt hlexed

theorem guides_stmts (stop : List TokenKind) : Guides (nested (.stmts stop)) SpellsStmts where
  steers := hviable.stmts stop
  reads hlexed := (hsound.stmts hlexed stop).weaken fun _ _ _ _ h => h.1

theorem guides_branch : Guides (nested .branch) SpellsBranch where
  steers := hviable.branch
  reads hlexed := hsound.branch hlexed

theorem guides_ascription : Guides (nested .ascription) SpellsAscription where
  steers := hviable.ascription
  reads hlexed := hsound.ascription hlexed

/-! ## Heads -/

omit hsound hviable in
theorem stops_primary {tokens : List Token} (hlexed : AllLexed tokens) :
    Stops primary tokens [] (SpellsExpr .access) := by
  apply Stops.currentKind
  split
  · rename_i hkind
    obtain ⟨item, left, rfl, hitem⟩ := exists_of_nextKind hkind (by decide)
    apply Stops.advance
    refine .numberBelow (hlexed item List.mem_cons_self) hitem fun value _ => ?_
    exact stops_pure _
  · split
    · rename_i hkind
      obtain ⟨item, left, rfl, -⟩ := exists_of_nextKind hkind (by decide)
      apply Stops.advance
      exact stops_pure _
    · exact stops_reject _ (viable_nil allLexed_zero (spellsExpr_zero _))

theorem stops_sign {tokens : List Token} (hlexed : AllLexed tokens)
    (hdash : nextKind tokens = .dash) :
    Stops (sign nested) tokens [] (SpellsExpr .signed) := by
  obtain ⟨item, left, rfl, hitem⟩ := exists_of_nextKind hdash (by decide)
  obtain rfl : item = token .dash := by
    rw [← hitem]
    exact eq_token_of_isFixed (hlexed item List.mem_cons_self) (by rw [hitem]; rfl)
  have hoperand : Steers (nested (.expr .unary) >>= fun operand =>
      (pure (.unary (token .dash).text operand none) : Parser Expr)) [token .dash]
      (SpellsExpr .signed) := by
    apply (guides_expr hsound hviable .unary).bind
    intro read operand hread
    exact steers_pure _ (SpellsExpr.sign hread)
  apply Stops.advance
  exact hoperand.stops hlexed.tail

theorem guides_field : Guides (field nested) SpellsField where
  reads hlexed := (reads_field hsound hlexed).weaken fun _ _ _ _ h => h.1
  steers := by
    refine ⟨viable_nil allLexed_zero (.positional (spellsExpr_zero _)), ?_⟩
    intro tokens hlexed
    apply Stops.startsNamedField
    split
    · rename_i hnamed
      have hname : nextKind tokens = .identifier := by simp_all [namedAt]
      obtain ⟨⟨kind, name⟩, left, rfl, hitem⟩ := exists_of_nextKind hname (by decide)
      cases hitem
      apply Stops.advance
      refine Steers.stops (.skip rfl ?_) hlexed.tail
      apply (guides_expr hsound hviable .least).bind
      intro read value hread
      exact steers_pure _ (.named hread)
    · refine Steers.stops ?_ hlexed
      apply (guides_expr hsound hviable .least).bind
      intro read value hread
      exact steers_pure _ (.positional hread)

theorem steers_fields : Steers (fields nested) [] SpellsFields := by
  refine .ifKind rfl ?_ (steers_pure _ .none)
  apply Steers.currentKind
  intro kind
  split
  · exact steers_pure _ .trailing
  · apply (guides_field hsound hviable).bind
    intro read first hfirst
    apply (guides_fields hsound hviable).bind
    intro more rest hrest
    exact steers_pure _ (.more hfirst hrest)

omit hsound hviable in
/-- In parentheses fields spell a struct literal, or else they are a group. -/
theorem exists_spellsExpr_parens {tokens more : List Token} {first : Option String × Expr}
    {rest : GlueFields} (hfirst : SpellsField tokens first) (hrest : SpellsFields more rest) :
    ∃ value, SpellsExpr .access
      (token .openParen :: tokens ++ more ++ [token .closeParen]) value := by
  by_cases hglue : first.1.isSome ∨ more ≠ []
  · exact ⟨_, .glue hfirst hrest hglue⟩
  · obtain ⟨hlabel, hmore⟩ := not_or.mp hglue
    obtain rfl : more = [] := Decidable.not_not.mp hmore
    cases hfirst with
    | named => exact absurd rfl hlabel
    | positional hvalue => exact ⟨_, by simpa using SpellsExpr.group hvalue⟩

theorem steers_parens : Steers (parens nested) [] (SpellsExpr .access) := by
  refine .skip rfl (.startsNamedField fun named => ?_)
  apply (guides_field hsound hviable).bind
  intro read first hfirst
  apply Steers.currentKind
  intro kind
  split
  · apply (guides_fields hsound hviable).bind
    intro more rest hrest
    obtain ⟨value, hvalue⟩ := exists_spellsExpr_parens hfirst hrest
    exact .skip rfl (steers_pure _ hvalue)
  · obtain ⟨value, hvalue⟩ := exists_spellsExpr_parens hfirst .none
    rw [List.append_nil] at hvalue
    exact .skip rfl (steers_pure _ hvalue)

omit hsound hviable in
theorem guides_streamNumber : Guides streamNumber fun read _ =>
    ∃ stream, read = [⟨.number, stream⟩] ∧ IsWord stream 0 where
  reads hlexed := reads_streamNumber hlexed
  steers := by
    have hzero : Viable (fun read (_ : Unit) =>
        ∃ stream, read = [⟨.number, stream⟩] ∧ IsWord stream 0) [] :=
      ⟨[⟨.number, "0"⟩], (), allLexed_zero, "0", rfl, isWord_zero⟩
    refine ⟨hzero, ?_⟩
    intro tokens hlexed
    apply Stops.currentKind
    split
    · rename_i hkind
      obtain ⟨item, left, rfl, hitem⟩ := exists_of_nextKind hkind (by decide)
      have hcurrent : current (feed (item :: left)) = .ok item (feed (item :: left)) := rfl
      refine Stops.of_run (run_bind_ok hcurrent _) ?_
      refine .numberBelow (hlexed item List.mem_cons_self) hitem fun value _ => ?_
      split
      · apply Stops.advance
        exact stops_pure _
      · exact stops_reject _ hzero
    · exact stops_reject _ hzero

omit hsound hviable in
theorem steers_read : Steers read [] (SpellsExpr .access) := by
  refine .skip rfl (.skip rfl ?_)
  apply guides_streamNumber.bind
  intro number _ hnumber
  obtain ⟨stream, rfl, hstream⟩ := hnumber
  exact .skip rfl (steers_pure _ (.read hstream))

omit hsound hviable in
theorem Viable.loosen {stratum loose : Stratum} {read : List Token}
    (h : Viable (SpellsExpr stratum) read) (hle : loose.rank ≤ stratum.rank) :
    Viable (SpellsExpr loose) read := by
  obtain ⟨more, value, hmore, hspells⟩ := h
  exact ⟨more, value, hmore, hspells.loosen hle⟩

theorem stops_head {tokens : List Token} (hlexed : AllLexed tokens) {rule : HeadRule}
    (hrule : Rules.standard.head (nextKind tokens) = some rule) :
    Stops (head nested rule) tokens [] (SpellsExpr .signed) := by
  have hplain : ∀ {parser : Parser Expr}, Stops parser tokens [] (SpellsExpr .access) →
      Stops parser tokens [] (SpellsExpr .signed) :=
    fun h => h.weaken fun read hread => hread.loosen (by decide)
  cases rule with
  | primary => exact hplain (stops_primary hlexed)
  | parens => exact hplain ((steers_parens hsound hviable).stops hlexed)
  | read => exact hplain (steers_read.stops hlexed)
  | sign =>
      have hdash : nextKind tokens = .dash := by
        generalize nextKind tokens = kind at hrule
        cases kind <;> cases hrule
        rfl
      exact stops_sign hsound hviable hlexed hdash

/-! ## Tails -/

theorem stops_binary {tokens : List Token} (hlexed : AllLexed tokens) {power : Power} {left : Expr}
    (hrule : Rules.standard.tail (nextKind tokens) = some (power, .binary))
    {stratum target : Stratum} {before : List Token} (hleft : SpellsExpr stratum before left)
    (hpower : power.rank ≤ stratum.rank) (htarget : target.rank ≤ power.rank) :
    Stops (binary nested left power) tokens before (SpellsExpr target) := by
  obtain ⟨longer, hoperator, rfl, htighter, hfixed⟩ := Rules.tail_binary hrule
  have hend : nextKind tokens ≠ .endOfInput := by
    intro hend
    rw [hend] at hfixed
    cases hfixed
  obtain ⟨item, rest, rfl, -⟩ := exists_of_nextKind rfl hend
  have hitem : item = token item.kind :=
    eq_token_of_isFixed (hlexed item List.mem_cons_self) hfixed
  have hright : Steers (nested (.expr longer.power) >>= fun right =>
      (pure (.binary item.text left right none) : Parser Expr)) (before ++ [item])
      (SpellsExpr target) := by
    apply (guides_expr hsound hviable longer.power).bind
    intro read right hread
    rw [htighter] at hread
    have hspells := (SpellsExpr.binary hoperator (hleft.loosen hpower) hread).loosen htarget
    rw [hitem]
    exact steers_pure _ (by simpa using hspells)
  apply Stops.advance
  exact hright.stops hlexed.tail

omit hsound hviable in
theorem stops_member {tokens : List Token} (hlexed : AllLexed tokens) {left : Expr}
    {before : List Token} (hleft : SpellsExpr .access before left) {target : Stratum} :
    Stops (member left) tokens before (SpellsExpr target) := by
  have haccess : ∀ stratum : Stratum, stratum.rank ≤ Stratum.access.rank := by
    intro stratum
    cases stratum <;> decide
  have hdot : Viable (SpellsExpr target) (before ++ [token .dot]) := by
    have hfield : SpellsExpr target (before ++ [token .dot, ⟨.identifier, "x"⟩])
        (.dot left "x" none none) := (SpellsExpr.dot hleft).loosen (haccess target)
    refine ⟨[⟨.identifier, "x"⟩], .dot left "x" none none, allLexed_identifier (by decide), ?_⟩
    rwa [List.append_assoc]
  have hrest : Steers (currentKind >>= fun kind =>
      if kind = .identifier then do
        let token ← advance
        return Expr.dot left token.text none none
      else if kind = .number then do
        let position ← number (← advance)
        return .index left position none
      else reject "expected field name or index") (before ++ [token .dot])
      (SpellsExpr target) := by
    refine ⟨hdot, fun {tokens} hlexed => ?_⟩
    apply Stops.currentKind
    split
    · rename_i hkind
      obtain ⟨item, rest, rfl, -⟩ := exists_of_nextKind hkind (by decide)
      apply Stops.advance
      exact stops_pure _
    · split
      · rename_i hkind
        obtain ⟨item, rest, rfl, hitem⟩ := exists_of_nextKind hkind (by decide)
        apply Stops.advance
        refine .numberBelow (hlexed item List.mem_cons_self) hitem fun value _ => ?_
        exact stops_pure _
      · exact stops_reject _ hdot
  exact (Steers.skip rfl hrest).stops hlexed

theorem stops_tail {tokens : List Token} (hlexed : AllLexed tokens) {power : Power}
    {rule : TailRule} {left : Expr}
    (hrule : Rules.standard.tail (nextKind tokens) = some (power, rule))
    {stratum target : Stratum} {before : List Token} (hleft : SpellsExpr stratum before left)
    (hpower : power.rank ≤ stratum.rank) (htarget : target.rank ≤ power.rank) :
    Stops (tail nested left power rule) tokens before (SpellsExpr target) := by
  cases rule with
  | binary => exact stops_binary hsound hviable hlexed hrule hleft hpower htarget
  | member =>
      obtain ⟨-, rfl⟩ := Rules.tail_member hrule
      cases Stratum.eq_access_of_le hpower
      exact stops_member hlexed hleft

/-! ## Expressions -/

theorem steers_expr (power : Power) :
    Steers (expr Rules.standard nested power) [] (SpellsExpr (.above power)) := by
  have hzero : Viable (SpellsExpr (.above power)) [] :=
    viable_nil allLexed_zero (spellsExpr_zero _)
  refine ⟨hzero, fun {tokens} hlexed => ?_⟩
  apply Stops.currentKind
  split
  · rename_i rule hrule
    have hsigned := Stratum.rank_above_le_signed power
    have hhead : Stops (head nested rule) tokens [] (SpellsExpr (.above power)) :=
      (stops_head hsound hviable hlexed hrule).weaken fun read hread => hread.loosen hsigned
    refine hhead.bind (reads_head hsound hlexed hrule) ?_
    intro read left rest htokens hleft
    subst htokens
    obtain ⟨stratum, hspells, -, hnext⟩ := hleft
    exact hviable.extension hlexed.left power hspells hnext
  · exact stops_reject _ hzero

theorem stops_extension {tokens : List Token} (hlexed : AllLexed tokens) (power : Power)
    {start : Expr} {stratum : Stratum} {before : List Token}
    (hstart : SpellsExpr stratum before start)
    (hnext : (Rules.powerAt tokens).rank ≤ stratum.rank) :
    Stops (extension Rules.standard nested power start) tokens before
      (SpellsExpr (.above power)) := by
  apply Stops.currentKind
  split
  · rename_i tailPower rule hrule
    have heq : Rules.powerAt tokens = tailPower := Rules.power_eq_of_tail hrule
    split
    · rename_i hless
      have htarget : (Stratum.above power).rank ≤ tailPower.rank :=
        Nat.le_trans (Stratum.rank_above_le power) hless
      refine (stops_tail hsound hviable hlexed hrule hstart (heq ▸ hnext) htarget).bind
        (reads_tail hsound hlexed hrule hstart (heq ▸ hnext)) ?_
      intro read value rest htokens hvalue
      subst htokens
      obtain ⟨longer, rfl, hspells, hrest⟩ := hvalue
      exact hviable.extension hlexed.left power hspells hrest
    · exact stops_pure _
  · exact stops_pure _

end Rules

end Parser

end FlexWidth
