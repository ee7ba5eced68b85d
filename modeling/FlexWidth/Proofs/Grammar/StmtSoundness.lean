import FlexWidth.Proofs.Grammar.ExprSoundness

/-!
# What is parsed is spelled

The statements keep their promises if the phrases inside them do.  Together with
the expressions this makes every success of the parser, however deeply phrases
nest, a spelling of the tokens that it has read.
-/

namespace FlexWidth

open TokenKind (token spelling)

namespace Parser

section Rules

variable {nested : Nested} (hnested : SoundNested nested)

/-! ## Written types -/

theorem reads_intAscription {tokens : List Token} (hlexed : AllLexed tokens) :
    Reads intAscription tokens fun read value _ => SpellsAscription read value := by
  refine (reads_skip hlexed rfl).bind ?_
  rintro _ _ tokens rfl rfl
  refine Reads.currentKind ?_
  split
  · rename_i hparen
    refine (reads_advance_token hlexed.left hparen rfl).bind ?_
    rintro _ _ tokens rfl ⟨rfl, -⟩
    refine (reads_expect (by decide)).bind ?_
    rintro _ item tokens rfl ⟨rfl, hnumber⟩
    refine (reads_numberBelow (hlexed item (by simp)) hnumber Text.widthLimit tokens).bind ?_
    rintro _ width tokens rfl ⟨rfl, hwidth⟩
    refine (reads_skip hlexed.left.left.left.left rfl).bind ?_
    rintro _ _ tokens rfl rfl
    refine reads_pure ?_
    obtain ⟨kind, text⟩ := item
    cases hnumber
    exact .sized hwidth
  · exact reads_pure .int

theorem reads_boolAscription {tokens : List Token} (hlexed : AllLexed tokens) :
    Reads boolAscription tokens fun read value _ => SpellsAscription read value := by
  refine (reads_skip hlexed rfl).bind ?_
  rintro _ _ tokens rfl rfl
  exact reads_pure .bool

include hnested in
theorem reads_ascription {tokens : List Token} (hlexed : AllLexed tokens) :
    Reads (ascription Rules.standard nested) tokens fun read value _ =>
      SpellsAscription read value := by
  refine Reads.currentKind ?_
  split
  · rename_i rule hrule
    cases rule with
    | any => exact hnested.ascription hlexed
    | int => exact reads_intAscription hlexed
    | bool => exact reads_boolAscription hlexed
  · exact reads_reject

/-! ## Statements -/

include hnested in
theorem reads_expressionStmt {tokens : List Token} (hlexed : AllLexed tokens) :
    Reads (expressionStmt nested) tokens fun read value _ => SpellsStmt read value := by
  refine (hnested.expr hlexed .least).bind ?_
  rintro read value tokens rfl ⟨hvalue, -⟩
  refine (reads_skip hlexed.left rfl).bind ?_
  rintro _ _ tokens rfl rfl
  exact reads_pure (.evaluate hvalue)

include hnested in
theorem reads_block {tokens : List Token} (hlexed : AllLexed tokens) :
    Reads (block nested) tokens fun read value _ => SpellsBlock read value := by
  refine (reads_skip hlexed rfl).bind ?_
  rintro _ _ tokens rfl rfl
  refine (hnested.stmts hlexed.left _).bind ?_
  rintro read body tokens rfl ⟨hbody, -⟩
  refine (reads_skip hlexed.left.left rfl).bind ?_
  rintro _ _ tokens rfl rfl
  refine reads_pure ?_
  simpa using SpellsBlock.braces hbody

include hnested in
theorem reads_optionalAscription {tokens : List Token} (hlexed : AllLexed tokens) :
    Reads (optionalAscription Rules.standard nested) tokens fun read value _ =>
      match value with
      | some ascription => SpellsAscription read ascription
      | none => read = [] := by
  refine Reads.currentKind ?_
  split
  · refine (hnested.ascription hlexed).bind ?_
    rintro read value tokens rfl hvalue
    refine reads_pure ?_
    simpa using hvalue
  · exact reads_pure rfl

include hnested in
theorem reads_optionalValue {tokens : List Token} (hlexed : AllLexed tokens) :
    Reads (optionalValue nested) tokens fun read value _ =>
      match value with
      | some value => ∃ rest, read = token .assignment :: rest ∧ SpellsExpr .disjunction rest value
      | none => read = [] := by
  refine Reads.currentKind ?_
  split
  · rename_i hequals
    refine (reads_advance_token hlexed hequals rfl).bind ?_
    rintro _ _ tokens rfl ⟨rfl, -⟩
    refine (hnested.expr hlexed.left .least).bind ?_
    rintro read value tokens rfl ⟨hvalue, -⟩
    refine reads_pure ⟨read, ?_, hvalue⟩
    simp
  · exact reads_pure rfl

theorem reads_name {tokens : List Token} :
    Reads (expect .identifier) tokens fun read value _ =>
      ∃ name, value = ⟨.identifier, name⟩ ∧ read = [value] := by
  refine (reads_expect (by decide)).weaken ?_
  rintro _ ⟨kind, text⟩ left - ⟨rfl, rfl⟩
  exact ⟨text, rfl, rfl⟩

include hnested in
theorem reads_declaration {tokens : List Token} (hlexed : AllLexed tokens) :
    Reads (declaration Rules.standard nested) tokens fun read value _ => SpellsStmt read value := by
  refine reads_name.bind ?_
  rintro _ _ tokens rfl ⟨name, rfl, rfl⟩
  refine (reads_skip hlexed.left rfl).bind ?_
  rintro _ _ tokens rfl rfl
  refine (reads_optionalAscription hnested hlexed.left.left).bind ?_
  rintro written ascription tokens rfl hascription
  refine (reads_optionalValue hnested hlexed.left.left.left).bind ?_
  rintro read value tokens rfl hvalue
  split
  · exact reads_reject
  · rename_i hneither
    refine (reads_skip hlexed.left.left.left.left rfl).bind ?_
    rintro _ _ tokens rfl rfl
    refine reads_pure ?_
    cases ascription with
    | some ascription =>
        cases value with
        | some value =>
            obtain ⟨rest, rfl, hvalue⟩ := hvalue
            simpa using @SpellsStmt.declareTyped name _ _ _ _ hascription hvalue
        | none =>
            cases hvalue
            simpa using @SpellsStmt.declareOnly name _ _ hascription
    | none =>
        cases hascription
        cases value with
        | some value =>
            obtain ⟨rest, rfl, hvalue⟩ := hvalue
            simpa using @SpellsStmt.declareInferred name _ _ hvalue
        | none => exact absurd rfl hneither

include hnested in
theorem reads_assignment {tokens : List Token} (hlexed : AllLexed tokens)
    (hname : nextKind tokens = .identifier) :
    Reads (assignment nested) tokens fun read value _ => SpellsStmt read value := by
  refine (reads_advance (hname ▸ by decide)).bind ?_
  rintro _ ⟨kind, name⟩ tokens rfl ⟨rfl, -⟩
  cases hname
  refine (reads_skip hlexed.left rfl).bind ?_
  rintro _ _ tokens rfl rfl
  refine (hnested.expr hlexed.left.left .least).bind ?_
  rintro read value tokens rfl ⟨hvalue, -⟩
  refine (reads_skip hlexed.left.left.left rfl).bind ?_
  rintro _ _ tokens rfl rfl
  refine reads_pure ?_
  simpa using @SpellsStmt.assign name _ _ hvalue

include hnested in
theorem reads_named {tokens : List Token} (hlexed : AllLexed tokens)
    (hname : nextKind tokens = .identifier) :
    Reads (named Rules.standard nested) tokens fun read value _ => SpellsStmt read value := by
  obtain ⟨first, rest, rfl, -⟩ := exists_of_nextKind hname (by decide)
  intro value final hrun
  rw [named, run_bind_ok (run_peekKind first rest)] at hrun
  split at hrun
  · exact reads_declaration hnested hlexed value final hrun
  · split at hrun
    · exact reads_assignment hnested hlexed hname value final hrun
    · exact reads_expressionStmt hnested hlexed value final hrun

include hnested in
theorem reads_print {tokens : List Token} (hlexed : AllLexed tokens) :
    Reads (print nested) tokens fun read value _ => SpellsStmt read value := by
  refine (reads_skip hlexed rfl).bind ?_
  rintro _ _ tokens rfl rfl
  refine (reads_skip hlexed.left rfl).bind ?_
  rintro _ _ tokens rfl rfl
  refine (reads_streamNumber hlexed.left.left).bind ?_
  rintro _ _ tokens rfl ⟨stream, rfl, hstream⟩
  refine (reads_skip hlexed.left.left.left rfl).bind ?_
  rintro _ _ tokens rfl rfl
  refine (hnested.expr hlexed.left.left.left.left .least).bind ?_
  rintro read value tokens rfl ⟨hvalue, -⟩
  refine (reads_skip hlexed.left.left.left.left.left rfl).bind ?_
  rintro _ _ tokens rfl rfl
  refine (reads_skip hlexed.left.left.left.left.left.left rfl).bind ?_
  rintro _ _ tokens rfl rfl
  refine reads_pure ?_
  simpa using SpellsStmt.print hstream hvalue

include hnested in
theorem reads_condition {tokens : List Token} (hlexed : AllLexed tokens) :
    Reads (condition nested) tokens fun read value _ =>
      ∃ test, read = token .openParen :: test ++ [token .closeParen] ∧
        SpellsExpr .disjunction test value := by
  refine (reads_skip hlexed rfl).bind ?_
  rintro _ _ tokens rfl rfl
  refine (hnested.expr hlexed.left .least).bind ?_
  rintro test value tokens rfl ⟨hvalue, -⟩
  refine (reads_skip hlexed.left.left rfl).bind ?_
  rintro _ _ tokens rfl rfl
  refine reads_pure ⟨test, ?_, hvalue⟩
  simp

include hnested in
theorem reads_otherwise {tokens : List Token} (hlexed : AllLexed tokens) :
    Reads (otherwise nested) tokens fun read value _ =>
      match value with
      | some no => ∃ rest, read = token .elseWord :: rest ∧
          (SpellsBlock rest no ∨ ∃ next, no = [next] ∧ SpellsBranch rest next)
      | none => read = [] := by
  refine Reads.currentKind ?_
  split
  · rename_i helse
    refine (reads_advance_token hlexed helse rfl).bind ?_
    rintro _ _ tokens rfl ⟨rfl, -⟩
    refine Reads.currentKind ?_
    split
    · refine (hnested.branch hlexed.left).bind ?_
      rintro read next tokens rfl hnext
      refine reads_pure ⟨read, ?_, Or.inr ⟨next, rfl, hnext⟩⟩
      simp
    · refine (reads_block hnested hlexed.left).bind ?_
      rintro read no tokens rfl hno
      refine reads_pure ⟨read, ?_, Or.inl hno⟩
      simp
  · exact reads_pure rfl

include hnested in
theorem reads_branch {tokens : List Token} (hlexed : AllLexed tokens) :
    Reads (branch nested) tokens fun read value _ => SpellsBranch read value := by
  refine (reads_skip hlexed rfl).bind ?_
  rintro _ _ tokens rfl rfl
  refine (reads_condition hnested hlexed.left).bind ?_
  rintro _ condition tokens rfl ⟨test, rfl, hcondition⟩
  refine (reads_block hnested hlexed.left.left).bind ?_
  rintro first yes tokens rfl hyes
  refine (reads_otherwise hnested hlexed.left.left.left).bind ?_
  rintro read no tokens rfl hno
  refine reads_pure ?_
  cases no with
  | none =>
      cases hno
      simpa using SpellsBranch.plain hcondition hyes
  | some no =>
      obtain ⟨second, rfl, hno | ⟨next, rfl, hnext⟩⟩ := hno
      · simpa using SpellsBranch.otherwise hcondition hyes hno
      · simpa using SpellsBranch.chained hcondition hyes hnext

include hnested in
theorem reads_whileLoop {tokens : List Token} (hlexed : AllLexed tokens) :
    Reads (whileLoop nested) tokens fun read value _ => SpellsStmt read value := by
  refine (reads_skip hlexed rfl).bind ?_
  rintro _ _ tokens rfl rfl
  refine (reads_condition hnested hlexed.left).bind ?_
  rintro _ condition tokens rfl ⟨test, rfl, hcondition⟩
  refine (reads_block hnested hlexed.left.left).bind ?_
  rintro read body tokens rfl hbody
  refine reads_pure ?_
  simpa using SpellsStmt.whileLoop hcondition hbody

include hnested in
theorem reads_bounds {tokens : List Token} (hlexed : AllLexed tokens) :
    Reads (bounds nested) tokens fun read value _ => SpellsBounds read value := by
  refine Reads.currentKind ?_
  split
  · rename_i hcolon
    refine (reads_advance_token hlexed hcolon rfl).bind ?_
    rintro _ _ tokens rfl ⟨rfl, -⟩
    refine (hnested.expr hlexed.left .least).bind ?_
    rintro read bound tokens rfl ⟨hbound, -⟩
    refine (hnested.bounds hlexed.left.left).bind ?_
    rintro more rest tokens rfl hrest
    refine reads_pure ?_
    simpa using SpellsBounds.more hbound hrest
  · exact reads_pure .none

include hnested in
theorem reads_forLoop {tokens : List Token} (hlexed : AllLexed tokens) :
    Reads (forLoop nested) tokens fun read value _ => SpellsStmt read value := by
  refine (reads_skip hlexed rfl).bind ?_
  rintro _ _ tokens rfl rfl
  refine (reads_skip hlexed.left rfl).bind ?_
  rintro _ _ tokens rfl rfl
  refine reads_name.bind ?_
  rintro _ _ tokens rfl ⟨name, rfl, rfl⟩
  refine (reads_skip hlexed.left.left.left rfl).bind ?_
  rintro _ _ tokens rfl rfl
  refine (hnested.expr hlexed.left.left.left.left .least).bind ?_
  rintro first bound tokens rfl ⟨hbound, -⟩
  refine (hnested.bounds hlexed.left.left.left.left.left).bind ?_
  rintro more rest tokens rfl hrest
  refine (reads_skip hlexed.left.left.left.left.left.left rfl).bind ?_
  rintro _ _ tokens rfl rfl
  refine (reads_block hnested hlexed.left.left.left.left.left.left.left).bind ?_
  rintro read body tokens rfl hbody
  refine reads_pure ?_
  simpa using @SpellsStmt.forLoop name _ _ _ _ _ _ hbound hrest hbody

include hnested in
theorem reads_stmt {tokens : List Token} (hlexed : AllLexed tokens) :
    Reads (stmt Rules.standard nested) tokens fun read value _ => SpellsStmt read value := by
  refine Reads.currentKind ?_
  split
  · rename_i rule hrule
    cases rule with
    | any => exact hnested.stmt hlexed
    | expression => exact reads_expressionStmt hnested hlexed
    | block =>
        refine (reads_block hnested hlexed).bind ?_
        rintro read body tokens rfl hbody
        refine reads_pure ?_
        simpa using SpellsStmt.block hbody
    | named =>
        have hname : nextKind tokens = .identifier := by
          generalize nextKind tokens = kind at hrule
          cases kind <;> cases hrule
          rfl
        exact reads_named hnested hlexed hname
    | print => exact reads_print hnested hlexed
    | branch => exact (hnested.branch hlexed).weaken fun _ _ _ _ h => .branch h
    | whileLoop => exact reads_whileLoop hnested hlexed
    | forLoop => exact reads_forLoop hnested hlexed
  · exact reads_expressionStmt hnested hlexed

include hnested in
theorem reads_stmts {tokens : List Token} (hlexed : AllLexed tokens) (stop : List TokenKind) :
    Reads (stmts nested stop) tokens fun read value left =>
      SpellsStmts read value ∧ nextKind left ∈ stop := by
  refine Reads.currentKind ?_
  split
  · rename_i hstop
    exact reads_pure ⟨.nil, List.contains_iff_mem.mp hstop⟩
  · refine (hnested.stmt hlexed).bind ?_
    rintro read first tokens rfl hfirst
    refine (hnested.stmts hlexed.left stop).bind ?_
    rintro more rest tokens rfl ⟨hrest, hstop⟩
    refine reads_pure ⟨?_, hstop⟩
    simpa using SpellsStmts.cons hfirst hrest

include hnested in
/-- If the parsers inside a phrase keep their promises, so do the phrases. -/
theorem soundNested_phrase : SoundNested (phrase Rules.standard nested) where
  expr hlexed power := reads_expr hnested hlexed power
  extension hlexed power _ _ _ hstart hpower hnext :=
    reads_extension hnested hlexed power hstart hpower hnext
  fields hlexed := reads_fields hnested hlexed
  bounds hlexed := reads_bounds hnested hlexed
  stmt hlexed := reads_stmt hnested hlexed
  stmts hlexed stop := reads_stmts hnested hlexed stop
  branch hlexed := reads_branch hnested hlexed
  ascription hlexed := reads_ascription hnested hlexed

end Rules

/-- However deep phrases may nest, what is parsed is spelled. -/
theorem soundNested_parseWithin (depth : Nat) :
    SoundNested (parseWithin Rules.standard depth) := by
  induction depth with
  | zero =>
      constructor <;>
      · intros
        rintro _ _ ⟨⟩
  | succ depth ih => exact soundNested_phrase ih

end Parser

/-- **What is parsed is spelled.** -/
theorem spellsStmts_of_parse_eq_ok {tokens : List Token} (hlexed : Parser.AllLexed tokens)
    {body : Program} (h : parse (tokens ++ [Token.endOfInput]) = .ok body) :
    SpellsStmts tokens body := by
  rw [parse, TokenStream.ofTokens_append] at h
  cases hrun : Parser.nested Rules.standard (.stmts [.endOfInput]) (.feed tokens) with
  | error failure final =>
      rw [hrun] at h
      cases h
  | ok value final =>
      rw [hrun] at h
      cases h
      obtain ⟨read, left, rfl, -, hbody, hstop⟩ :=
        (Parser.soundNested_parseWithin _).stmts hlexed _ _ _ hrun
      -- only the end of input stops a program
      have hleft : left = [] := by
        cases left with
        | nil => rfl
        | cons first rest =>
            exact absurd (List.mem_singleton.mp hstop) (hlexed first (by simp)).1
      rwa [hleft, List.append_nil]

end FlexWidth
