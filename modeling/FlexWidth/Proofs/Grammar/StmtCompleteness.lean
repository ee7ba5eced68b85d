import FlexWidth.Proofs.Grammar.ExprCompleteness
import FlexWidth.Proofs.Grammar.StmtSoundness
import Mathlib

/-!
# The parser accepts exactly the grammar

Every spelling of a statement is parsed: its first token chooses the rule, and the
second one where the first is a name.  Two facts about spellings make the choice
come out right.  A name that starts an expression is followed by an operator or by
the end of the expression, so it is not taken for a declaration or an assignment.
And no statement starts with `else`, so an `if` without one is not continued.

With the soundness of the parser this gives `parse_eq_ok_iff`.
-/

namespace FlexWidth

open TokenKind (token spelling)
open Rules (powerAt)

/-! ## How a statement starts -/

/-- The kinds that end statements in a row, or continue an `if`. -/
def afterStmts : List TokenKind := [.elseWord, .closeCurly, .endOfInput]

theorem Rules.not_mem_afterStmts_of_head {kind : TokenKind} {rule : HeadRule}
    (h : standard.head kind = some rule) : kind ∉ afterStmts := by
  cases kind <;> first | decide | cases h

theorem SpellsBranch.exists_first {tokens : List Token} {st : Stmt} (h : SpellsBranch tokens st) :
    ∃ rest, tokens = token .ifWord :: rest := by
  cases h <;> exact ⟨_, rfl⟩

theorem SpellsBlock.exists_first {tokens : List Token} {body : List Stmt}
    (h : SpellsBlock tokens body) : ∃ rest, tokens = token .openCurly :: rest := by
  cases h
  exact ⟨_, rfl⟩

theorem SpellsStmt.exists_first {tokens : List Token} {st : Stmt} (h : SpellsStmt tokens st) :
    ∃ first rest, tokens = first :: rest ∧ first.kind ∉ afterStmts := by
  have hcons {first : Token} {rest : List Token} (hfirst : first.kind ∉ afterStmts) :
      ∃ first' rest', first :: rest = first' :: rest' ∧ first'.kind ∉ afterStmts :=
    ⟨first, rest, rfl, hfirst⟩
  have hname (name : String) : (Token.mk .identifier name).kind ∉ afterStmts := by
    change TokenKind.identifier ∉ afterStmts
    decide
  cases h with
  | declareTyped => exact hcons (hname _)
  | declareInferred => exact hcons (hname _)
  | declareOnly => exact hcons (hname _)
  | assign => exact hcons (hname _)
  | print => exact hcons (by decide)
  | branch hbranch =>
      obtain ⟨rest, rfl⟩ := hbranch.exists_first
      exact hcons (by decide)
  | whileLoop => exact hcons (by decide)
  | forLoop => exact hcons (by decide)
  | block hbody =>
      obtain ⟨rest, rfl⟩ := hbody.exists_first
      exact hcons (by decide)
  | evaluate hvalue =>
      obtain ⟨first, rest, rule, rfl, hrule⟩ := hvalue.exists_head
      exact hcons (Rules.not_mem_afterStmts_of_head hrule)

/-- What follows a statement in a row does not continue an `if`. -/
theorem SpellsStmts.nextKind_ne_elseWord {tokens : List Token} {body : List Stmt}
    (h : SpellsStmts tokens body) {rest : List Token} (hrest : nextKind rest ≠ .elseWord) :
    nextKind (tokens ++ rest) ≠ .elseWord := by
  cases h with
  | nil => exact hrest
  | cons hfirst =>
      obtain ⟨first, more, rfl, hstart⟩ := hfirst.exists_first
      rintro (helse : first.kind = .elseWord)
      exact hstart (helse ▸ by decide)

namespace Parser

open TokenStream (feed)

/-! ## Written types -/

theorem parses_ascription {written : List Token} {ascription : Ascription}
    (h : SpellsAscription written ascription) {rest : List Token}
    (hrest : nextKind rest ≠ .openParen) :
    Parses 1 .ascription (written ++ rest) ascription rest := by
  refine parses_of_phrase 0 Nat.zero_lt_one fun room _ => ?_
  cases h with
  | int =>
      change intAscription (feed (token .intWord :: rest)) = _
      rw [intAscription, run_bind_ok (run_skip_token _ _), run_bind_ok (run_currentKind _),
        if_neg hrest]
      rfl
  | @sized text width hwidth =>
      change intAscription (feed (token .intWord :: token .openParen :: ⟨.number, text⟩ ::
        token .closeParen :: rest)) = _
      rw [intAscription, run_bind_ok (run_skip_token _ _), run_bind_ok (run_currentKind _),
        nextKind_cons, TokenKind.kind_token, if_pos rfl, run_bind_ok (run_advance _ _),
        run_bind_ok (run_expect _ _ _), run_bind_ok (run_numberBelow hwidth _),
        run_bind_ok (run_skip_token _ _)]
      rfl
  | bool =>
      change boolAscription (feed (token .boolWord :: rest)) = _
      rw [boolAscription, run_bind_ok (run_skip_token _ _)]
      rfl

/-! ## Rules that succeed -/

section Rules

variable {nested : Nested} {tokens middle rest : List Token}

theorem run_expressionStmt {value : Expr}
    (h : nested (.expr .least) (feed tokens) = .ok value (feed (token .semicolon :: rest))) :
    expressionStmt nested (feed tokens) = .ok (.evaluate value) (feed rest) := by
  rw [expressionStmt, run_bind_ok h, run_bind_ok (run_skip_token _ _)]
  rfl

theorem run_block {body : List Stmt}
    (h : nested (.stmts [.closeCurly, .endOfInput]) (feed tokens) =
      .ok body (feed (token .closeCurly :: rest))) :
    block nested (feed (token .openCurly :: tokens)) = .ok body (feed rest) := by
  rw [block, run_bind_ok (run_skip_token _ _), run_bind_ok h, run_bind_ok (run_skip_token _ _)]
  rfl

theorem run_blockStmt {body : List Stmt}
    (h : block nested (feed tokens) = .ok body (feed rest)) :
    blockStmt nested (feed tokens) = .ok (.block body) (feed rest) := by
  rw [blockStmt, run_bind_ok h]
  rfl

theorem run_optionalAscription {written : List Token} {ascription : Ascription}
    (hwritten : SpellsAscription written ascription)
    (h : nested .ascription (feed (written ++ rest)) = .ok ascription (feed rest)) :
    optionalAscription Rules.standard nested (feed (written ++ rest)) =
      .ok (some ascription) (feed rest) := by
  have hrule : ∃ rule, Rules.standard.ascription (nextKind (written ++ rest)) = some rule := by
    cases hwritten <;> exact ⟨_, rfl⟩
  obtain ⟨rule, hrule⟩ := hrule
  rw [optionalAscription, run_bind_ok (run_currentKind _), hrule]
  change (nested .ascription >>= _) _ = _
  rw [run_bind_ok h]
  rfl

theorem run_noAscription (h : Rules.standard.ascription (nextKind tokens) = none) :
    optionalAscription Rules.standard nested (feed tokens) = .ok none (feed tokens) := by
  rw [optionalAscription, run_bind_ok (run_currentKind _), h]
  rfl

theorem run_optionalValue {value : Expr}
    (h : nested (.expr .least) (feed tokens) = .ok value (feed rest)) :
    optionalValue nested (feed (token .assignment :: tokens)) = .ok (some value) (feed rest) := by
  rw [optionalValue, run_bind_ok (run_currentKind _), nextKind_cons, TokenKind.kind_token,
    if_pos rfl, run_bind_ok (run_advance _ _), run_bind_ok h]
  rfl

theorem run_noValue (h : nextKind tokens ≠ .assignment) :
    optionalValue nested (feed tokens) = .ok none (feed tokens) := by
  rw [optionalValue, run_bind_ok (run_currentKind _), if_neg h]
  rfl

theorem run_declaration {name : String} {written : Option Ascription} {value : Option Expr}
    (hsome : (written.isNone && value.isNone) = false)
    (hwritten : optionalAscription Rules.standard nested (feed tokens) = .ok written (feed middle))
    (hvalue : optionalValue nested (feed middle) = .ok value (feed (token .semicolon :: rest))) :
    named Rules.standard nested (feed (⟨.identifier, name⟩ :: token .colon :: tokens)) =
      .ok (.bind .declaration name written value none) (feed rest) := by
  rw [named, run_bind_ok (run_peekKind _ _), nextKind_cons, TokenKind.kind_token, if_pos rfl,
    declaration, run_bind_ok (run_expect _ _ _), run_bind_ok (run_skip_token _ _),
    run_bind_ok hwritten, run_bind_ok hvalue, hsome, if_neg (by decide),
    run_bind_ok (run_skip_token _ _)]
  rfl

theorem run_assignment {name : String} {value : Expr}
    (h : nested (.expr .least) (feed tokens) = .ok value (feed (token .semicolon :: rest))) :
    named Rules.standard nested (feed (⟨.identifier, name⟩ :: token .assignment :: tokens)) =
      .ok (.bind .assignment name none (some value) none) (feed rest) := by
  rw [named, run_bind_ok (run_peekKind _ _), nextKind_cons, TokenKind.kind_token,
    if_neg (by decide), if_pos rfl, assignment, run_bind_ok (run_advance _ _),
    run_bind_ok (run_skip_token _ _), run_bind_ok h, run_bind_ok (run_skip_token _ _)]
  rfl

theorem run_named_expression {first : Token} (hcolon : nextKind tokens ≠ .colon)
    (hequals : nextKind tokens ≠ .assignment) :
    named Rules.standard nested (feed (first :: tokens)) =
      expressionStmt nested (feed (first :: tokens)) := by
  rw [named, run_bind_ok (run_peekKind _ _), if_neg hcolon, if_neg hequals]

theorem run_print {stream : String} {value : Expr} (hstream : IsWord stream 0)
    (h : nested (.expr .least) (feed tokens) =
      .ok value (feed (token .closeParen :: token .semicolon :: rest))) :
    print nested (feed (token .outputWord :: token .openParen :: ⟨.number, stream⟩ ::
      token .comma :: tokens)) = .ok (.print value) (feed rest) := by
  rw [print, run_bind_ok (run_skip_token _ _), run_bind_ok (run_skip_token _ _),
    run_bind_ok (run_streamNumber hstream _), run_bind_ok (run_skip_token _ _), run_bind_ok h,
    run_bind_ok (run_skip_token _ _), run_bind_ok (run_skip_token _ _)]
  rfl

theorem run_condition {value : Expr}
    (h : nested (.expr .least) (feed tokens) = .ok value (feed (token .closeParen :: rest))) :
    condition nested (feed (token .openParen :: tokens)) = .ok value (feed rest) := by
  rw [condition, run_bind_ok (run_skip_token _ _), run_bind_ok h, run_bind_ok (run_skip_token _ _)]
  rfl

theorem run_noOtherwise (h : nextKind tokens ≠ .elseWord) :
    otherwise nested (feed tokens) = .ok none (feed tokens) := by
  rw [otherwise, run_bind_ok (run_currentKind _), if_neg h]
  rfl

theorem run_otherwise {body : List Stmt} (hfirst : nextKind tokens = .openCurly)
    (h : block nested (feed tokens) = .ok body (feed rest)) :
    otherwise nested (feed (token .elseWord :: tokens)) = .ok (some body) (feed rest) := by
  rw [otherwise, run_bind_ok (run_currentKind _), nextKind_cons, TokenKind.kind_token, if_pos rfl,
    run_bind_ok (run_advance _ _), run_bind_ok (run_currentKind _), hfirst, if_neg (by decide),
    run_bind_ok h]
  rfl

theorem run_chained {next : Stmt} (hfirst : nextKind tokens = .ifWord)
    (h : nested .branch (feed tokens) = .ok next (feed rest)) :
    otherwise nested (feed (token .elseWord :: tokens)) = .ok (some [next]) (feed rest) := by
  rw [otherwise, run_bind_ok (run_currentKind _), nextKind_cons, TokenKind.kind_token, if_pos rfl,
    run_bind_ok (run_advance _ _), run_bind_ok (run_currentKind _), hfirst, if_pos rfl,
    run_bind_ok h]
  rfl

theorem run_branch {test : Expr} {yes : List Stmt} {no : Option (List Stmt)} {after : List Token}
    (htest : condition nested (feed tokens) = .ok test (feed middle))
    (hyes : block nested (feed middle) = .ok yes (feed after))
    (hno : otherwise nested (feed after) = .ok no (feed rest)) :
    branch nested (feed (token .ifWord :: tokens)) = .ok (.branch test yes no) (feed rest) := by
  rw [branch, run_bind_ok (run_skip_token _ _), run_bind_ok htest, run_bind_ok hyes,
    run_bind_ok hno]
  rfl

theorem run_whileLoop {test : Expr} {body : List Stmt}
    (htest : condition nested (feed tokens) = .ok test (feed middle))
    (hbody : block nested (feed middle) = .ok body (feed rest)) :
    whileLoop nested (feed (token .whileWord :: tokens)) =
      .ok (.whileLoop test body) (feed rest) := by
  rw [whileLoop, run_bind_ok (run_skip_token _ _), run_bind_ok htest, run_bind_ok hbody]
  rfl

theorem run_moreBounds {bound : Expr} {others : List Expr}
    (hbound : nested (.expr .least) (feed tokens) = .ok bound (feed middle))
    (hothers : nested .bounds (feed middle) = .ok others (feed rest)) :
    bounds nested (feed (token .colon :: tokens)) = .ok (bound :: others) (feed rest) := by
  rw [bounds, run_bind_ok (run_currentKind _), nextKind_cons, TokenKind.kind_token, if_pos rfl,
    run_bind_ok (run_advance _ _), run_bind_ok hbound, run_bind_ok hothers]
  rfl

theorem run_forLoop {name : String} {bound : Expr} {others : List Expr} {body : List Stmt}
    {after : List Token}
    (hbound : nested (.expr .least) (feed tokens) = .ok bound (feed middle))
    (hothers : nested .bounds (feed middle) = .ok others (feed (token .closeParen :: after)))
    (hbody : block nested (feed after) = .ok body (feed rest)) :
    forLoop nested (feed (token .forWord :: token .openParen :: ⟨.identifier, name⟩ ::
      token .inWord :: tokens)) = .ok (.forLoop name none (bound :: others) body) (feed rest) := by
  rw [forLoop, run_bind_ok (run_skip_token _ _), run_bind_ok (run_skip_token _ _),
    run_bind_ok (run_expect _ _ _), run_bind_ok (run_skip_token _ _), run_bind_ok hbound,
    run_bind_ok hothers, run_bind_ok (run_skip_token _ _), run_bind_ok hbody]
  rfl

theorem run_stmt {first : Token} {rule : StmtRule}
    (hrule : Rules.standard.stmt first.kind = some rule) :
    stmt Rules.standard nested (feed (first :: tokens)) =
      stmtRule Rules.standard nested rule (feed (first :: tokens)) := by
  rw [stmt, run_bind_ok (run_currentKind _), nextKind_cons, hrule]

theorem run_stmts_nil {stop : List TokenKind} (h : nextKind tokens ∈ stop) :
    stmts nested stop (feed tokens) = .ok [] (feed tokens) := by
  rw [stmts, run_bind_ok (run_currentKind _), if_pos (List.contains_iff_mem.mpr h)]
  rfl

theorem run_stmts_cons {stop : List TokenKind} {first : Stmt} {others : List Stmt}
    (hstart : nextKind tokens ∉ stop)
    (hfirst : nested .stmt (feed tokens) = .ok first (feed middle))
    (hothers : nested (.stmts stop) (feed middle) = .ok others (feed rest)) :
    stmts nested stop (feed tokens) = .ok (first :: others) (feed rest) := by
  have hgo : ¬ stop.contains (nextKind tokens) = true := by
    rwa [List.contains_iff_mem]
  rw [stmts, run_bind_ok (run_currentKind _), if_neg hgo, run_bind_ok hfirst, run_bind_ok hothers]
  rfl

end Rules

/-! ## Spellings are parsed -/

theorem parses_bounds {tokens : List Token} {others : List Expr} (h : SpellsBounds tokens others)
    (rest : List Token) :
    Parses (4 * tokens.length + 1) .bounds (tokens ++ token .closeParen :: rest) others
      (token .closeParen :: rest) := by
  induction h with
  | none => exact parses_of_phrase 0 Nat.zero_lt_one fun room _ => rfl
  | @more first more bound others hbound hmore ih =>
      have htokens : token .colon :: first ++ more ++ token .closeParen :: rest =
          token .colon :: (first ++ (more ++ token .closeParen :: rest)) := by simp
      have hstop : powerAt (more ++ token .closeParen :: rest) = .least := by
        cases hmore <;> rfl
      rw [htokens]
      refine parses_of_phrase (4 * first.length + 4 * more.length + 1) ?_ fun room hroom => ?_
      · simp only [List.length_append, List.length_cons]
        omega
      · exact run_moreBounds (parses_expr hbound hstop room (by omega)) (ih room (by omega))

theorem run_condition_of_spells {test : List Token} {condition : Expr}
    (h : SpellsExpr .disjunction test condition) (rest : List Token) {room : Nat}
    (hroom : 4 * test.length + 1 ≤ room) :
    Parser.condition (parseWithin Rules.standard room)
      (feed (token .openParen :: (test ++ token .closeParen :: rest))) =
        .ok condition (feed rest) :=
  run_condition (parses_expr h rfl room hroom)

/-- A statement that is an expression is not taken for any other. -/
theorem parses_evaluate {tokens : List Token} {value : Expr}
    (h : SpellsExpr .disjunction tokens value) (rest : List Token) :
    Parses (4 * tokens.length + 2) .stmt (tokens ++ token .semicolon :: rest) (.evaluate value)
      rest := by
  refine parses_of_phrase (4 * tokens.length + 1) (Nat.lt_succ_self _) fun room hroom => ?_
  have hrun : expressionStmt (parseWithin Rules.standard room)
      (feed (tokens ++ token .semicolon :: rest)) = .ok (.evaluate value) (feed rest) :=
    run_expressionStmt (parses_expr h rfl room hroom)
  change stmt Rules.standard _ _ = _
  obtain ⟨first, more, rule, htokens, hhead⟩ := h.exists_head
  by_cases hname : first.kind = .identifier
  · -- a name, which what follows it does not make a declaration or an assignment
    have hnext : nextKind (tokens ++ token .semicolon :: rest) = .identifier := by
      rw [htokens]
      exact hname
    have hcolon := h.nextKind_tail_ne .colon hnext (by simp) rfl
    have hequals := h.nextKind_tail_ne .assignment hnext (by simp) rfl
    have hrule : Rules.standard.stmt first.kind = some .named := by
      rw [hname]
      rfl
    rw [htokens] at hcolon hequals hrun ⊢
    rw [List.cons_append, run_stmt hrule]
    exact (run_named_expression hcolon hequals).trans hrun
  · have hrule : Rules.standard.stmt (nextKind (tokens ++ token .semicolon :: rest)) = none := by
      rw [htokens, List.cons_append, nextKind_cons]
      generalize first.kind = kind at hhead hname
      cases kind <;> first | rfl | exact absurd rfl hname | cases hhead
    rw [stmt, run_bind_ok (run_currentKind _), hrule]
    exact hrun

theorem parses_stmt_of_rule (depth : Nat) {bound : Nat} {first : Token} {tokens rest : List Token}
    {rule : StmtRule} {st : Stmt} (hbound : depth < bound)
    (hrule : Rules.standard.stmt first.kind = some rule)
    (h : ∀ room, depth ≤ room →
      stmtRule Rules.standard (parseWithin Rules.standard room) rule (feed (first :: tokens)) =
        .ok st (feed rest)) :
    Parses bound .stmt (first :: tokens) st rest := by
  refine parses_of_phrase depth hbound fun room hroom => ?_
  exact (run_stmt hrule).trans (h room hroom)

mutual

theorem parses_stmt {tokens : List Token} {st : Stmt} (h : SpellsStmt tokens st)
    {rest : List Token} (hrest : nextKind rest ≠ .elseWord) :
    Parses (4 * tokens.length + 1) .stmt (tokens ++ rest) st rest := by
  match h with
  | @SpellsStmt.declareTyped name written inner ascription value hwritten hvalue =>
      simp only [List.cons_append, List.append_assoc, List.nil_append]
      refine parses_stmt_of_rule (4 * inner.length + 1) ?_ rfl fun room hroom => ?_
      · simp only [List.length_append, List.length_cons]
        omega
      · exact run_declaration rfl
          (run_optionalAscription hwritten (parses_ascription hwritten (by simp) room (by omega)))
          (run_optionalValue (parses_expr hvalue rfl room hroom))
  | @SpellsStmt.declareInferred name inner value hvalue =>
      simp only [List.cons_append, List.append_assoc, List.nil_append]
      refine parses_stmt_of_rule (4 * inner.length + 1) ?_ rfl fun room hroom => ?_
      · simp only [List.length_append, List.length_cons]
        omega
      · exact run_declaration rfl (run_noAscription rfl)
          (run_optionalValue (parses_expr hvalue rfl room hroom))
  | @SpellsStmt.declareOnly name written ascription hwritten =>
      simp only [List.cons_append, List.append_assoc, List.nil_append]
      refine parses_stmt_of_rule 1 ?_ rfl fun room hroom => ?_
      · simp only [List.length_append, List.length_cons]
        omega
      · exact run_declaration rfl
          (run_optionalAscription hwritten (parses_ascription hwritten (by simp) room hroom))
          (run_noValue (by simp))
  | @SpellsStmt.assign name inner value hvalue =>
      simp only [List.cons_append, List.append_assoc, List.nil_append]
      refine parses_stmt_of_rule (4 * inner.length + 1) ?_ rfl fun room hroom => ?_
      · simp only [List.length_append, List.length_cons]
        omega
      · exact run_assignment (parses_expr hvalue rfl room hroom)
  | @SpellsStmt.print stream inner value hstream hvalue =>
      simp only [List.cons_append, List.append_assoc, List.nil_append]
      refine parses_stmt_of_rule (4 * inner.length + 1) ?_ rfl fun room hroom => ?_
      · simp only [List.length_append, List.length_cons]
        omega
      · exact run_print hstream (parses_expr hvalue rfl room hroom)
  | .branch hbranch =>
      have hrun := parses_branch hbranch hrest
      obtain ⟨inner, htokens⟩ := hbranch.exists_first
      rw [htokens] at hrun ⊢
      exact parses_stmt_of_rule _ (Nat.lt_succ_self _) rfl hrun
  | @SpellsStmt.whileLoop test inner condition body hcondition hbody =>
      simp only [List.cons_append, List.append_assoc]
      refine parses_stmt_of_rule (4 * test.length + 4 * inner.length + 1) ?_ rfl
        fun room hroom => ?_
      · simp only [List.length_append, List.length_cons]
        omega
      · exact run_whileLoop (run_condition_of_spells hcondition _ (by omega))
          (run_block_of_spells hbody rest (by omega))
  | @SpellsStmt.forLoop name first more inner bound others body hbound hothers hbody =>
      -- a colon or a parenthesis follows the first bound
      have hstop : powerAt (more ++ token .closeParen :: (inner ++ rest)) = .least := by
        cases hothers <;> rfl
      simp only [List.cons_append, List.append_assoc]
      refine parses_stmt_of_rule (4 * first.length + 4 * more.length + 4 * inner.length + 1) ?_ rfl
        fun room hroom => ?_
      · simp only [List.length_append, List.length_cons]
        omega
      · exact run_forLoop (parses_expr hbound hstop room (by omega))
          (parses_bounds hothers _ room (by omega)) (run_block_of_spells hbody rest (by omega))
  | @SpellsStmt.block _ body hbody =>
      have hrun (room : Nat) (hroom : 4 * tokens.length ≤ room) :=
        run_block_of_spells hbody rest hroom
      obtain ⟨inner, htokens⟩ := hbody.exists_first
      rw [htokens] at hrun ⊢
      exact parses_stmt_of_rule _ (Nat.lt_succ_self _) rfl fun room hroom =>
        run_blockStmt (hrun room hroom)
  | @SpellsStmt.evaluate inner value hvalue =>
      intro room hroom
      rw [List.append_assoc]
      refine parses_evaluate hvalue rest room ?_
      simp only [List.length_append, List.length_cons] at hroom
      omega

theorem parses_branch {tokens : List Token} {st : Stmt} (h : SpellsBranch tokens st)
    {rest : List Token} (hrest : nextKind rest ≠ .elseWord) :
    Parses (4 * tokens.length) .branch (tokens ++ rest) st rest := by
  match h with
  | @SpellsBranch.plain test first condition yes hcondition hyes =>
      simp only [List.cons_append, List.append_assoc]
      refine parses_of_phrase (4 * test.length + 4 * first.length + 1) ?_ fun room hroom => ?_
      · simp only [List.length_append, List.length_cons]
        omega
      · exact run_branch (run_condition_of_spells hcondition _ (by omega))
          (run_block_of_spells hyes rest (by omega)) (run_noOtherwise hrest)
  | @SpellsBranch.otherwise test first second condition yes no hcondition hyes hno =>
      have hcurly : nextKind (second ++ rest) = .openCurly := by
        obtain ⟨inner, rfl⟩ := hno.exists_first
        rfl
      simp only [List.cons_append, List.append_assoc]
      refine parses_of_phrase (4 * test.length + 4 * first.length + 4 * second.length + 1) ?_
        fun room hroom => ?_
      · simp only [List.length_append, List.length_cons]
        omega
      · exact run_branch (run_condition_of_spells hcondition _ (by omega))
          (run_block_of_spells hyes _ (by omega))
          (run_otherwise hcurly (run_block_of_spells hno rest (by omega)))
  | @SpellsBranch.chained test first second condition yes next hcondition hyes hnext =>
      have hif : nextKind (second ++ rest) = .ifWord := by
        obtain ⟨inner, rfl⟩ := hnext.exists_first
        rfl
      simp only [List.cons_append, List.append_assoc]
      refine parses_of_phrase (4 * test.length + 4 * first.length + 4 * second.length + 1) ?_
        fun room hroom => ?_
      · simp only [List.length_append, List.length_cons]
        omega
      · exact run_branch (run_condition_of_spells hcondition _ (by omega))
          (run_block_of_spells hyes _ (by omega))
          (run_chained hif (parses_branch hnext hrest room (by omega)))

theorem run_block_of_spells {tokens : List Token} {body : List Stmt} (h : SpellsBlock tokens body)
    (rest : List Token) {room : Nat} (hroom : 4 * tokens.length ≤ room) :
    block (parseWithin Rules.standard room) (feed (tokens ++ rest)) = .ok body (feed rest) := by
  match h with
  | @SpellsBlock.braces inner body hbody =>
      have hstmts : Parses (4 * inner.length + 2) (.stmts [.closeCurly, .endOfInput])
          (inner ++ token .closeCurly :: rest) body (token .closeCurly :: rest) :=
        parses_stmts hbody (by decide) List.mem_cons_self (by simp)
      simp only [List.length_append, List.length_cons] at hroom
      simp only [List.cons_append, List.append_assoc, List.nil_append]
      exact run_block (hstmts room (by omega))

theorem parses_stmts {tokens : List Token} {body : List Stmt} (h : SpellsStmts tokens body)
    {stop : List TokenKind} (hstop : ∀ kind ∈ stop, kind ∈ afterStmts) {rest : List Token}
    (hrest : nextKind rest ∈ stop) (helse : nextKind rest ≠ .elseWord) :
    Parses (4 * tokens.length + 2) (.stmts stop) (tokens ++ rest) body rest := by
  match h with
  | .nil => exact parses_of_phrase 0 (by simp) fun room _ => run_stmts_nil hrest
  | @SpellsStmts.cons inner more first others hfirst hothers =>
      obtain ⟨start, others, hinner, hstart⟩ := hfirst.exists_first
      -- no statement starts with a token that ends statements
      have hgo : nextKind (inner ++ (more ++ rest)) ∉ stop := by
        rw [hinner]
        exact fun hmem => hstart (hstop _ hmem)
      have hlength : inner.length = others.length + 1 := by
        rw [hinner, List.length_cons]
      rw [List.append_assoc]
      refine parses_of_phrase (4 * inner.length + 4 * more.length + 1) ?_ fun room hroom => ?_
      · simp only [List.length_append]
        omega
      · exact run_stmts_cons hgo
          (parses_stmt hfirst (hothers.nextKind_ne_elseWord helse) room (by omega))
          (parses_stmts hothers hstop hrest helse room (by omega))

end

end Parser

/-- **Every spelled program is parsed.** -/
theorem parse_eq_ok_of_spellsStmts {tokens : List Token} {body : Program}
    (h : SpellsStmts tokens body) : parse (tokens ++ [Token.endOfInput]) = .ok body := by
  have hparses : Parser.Parses (4 * tokens.length + 2) (.stmts [.endOfInput]) (tokens ++ []) body
      [] := Parser.parses_stmts h (by decide) List.mem_cons_self (by decide)
  have hroom : 4 * tokens.length + 2 ≤ Parser.allowance (.feed tokens) := by
    rw [Parser.allowance, TokenStream.size_feed]
    omega
  have hrun := hparses _ hroom
  rw [List.append_nil] at hrun
  rw [parse, TokenStream.ofTokens_append, Parser.nested, hrun]
  rfl

/-! ## The parser and the grammar agree -/

/-- **The parser accepts exactly the grammar.**  Tokens that occur in source texts,
closed by the end of input, are parsed as a program if and only if they spell it,
all of them; and they spell at most one. -/
theorem parse_eq_ok_iff (tokens : List Token) (hlexed : ∀ item ∈ tokens, item.Lexed) :
    (∀ body, parse (tokens ++ [Token.endOfInput]) = .ok body ↔ SpellsStmts tokens body) ∧
      ∀ body other, SpellsStmts tokens body → SpellsStmts tokens other → body = other := by
  refine ⟨fun body => ⟨spellsStmts_of_parse_eq_ok hlexed, parse_eq_ok_of_spellsStmts⟩, ?_⟩
  intro body other hbody hother
  have hsame := (parse_eq_ok_of_spellsStmts hbody).symm.trans (parse_eq_ok_of_spellsStmts hother)
  exact Except.ok.inj hsame

/-- Subtraction associates to the left, a product binds tighter, a sign tighter
still and a field tightest; a comma makes a struct literal of one field. -/
theorem parse_eq_ok_iff_operators :
    let tokens : List Token :=
      [⟨.identifier, "x"⟩, token .assignment, ⟨.number, "1"⟩, token .dash, ⟨.number, "2"⟩,
        token .dash, token .dash, ⟨.identifier, "a"⟩, token .dot, ⟨.number, "0"⟩, token .star,
        ⟨.number, "3"⟩, token .semicolon, token .openParen, ⟨.identifier, "b"⟩, token .comma,
        token .closeParen, token .semicolon]
    let body : Program :=
      [.bind .assignment "x" none
          (some (.binary "-" (.binary "-" (.literal 1 none) (.literal 2 none) none)
            (.binary "*" (.unary "-" (.index (.var "a" none none) 0 none) none) (.literal 3 none)
              none) none)) none,
        .evaluate (.glue [(none, .var "b" none none)] none)]
    tokenize "x = 1 - 2 - -a.0 * 3; (b, );" = .ok (tokens ++ [Token.endOfInput]) ∧
      (∀ item ∈ tokens, item.Lexed) ∧ SpellsStmts tokens body := by
  intro tokens body
  have htokenize : tokenize "x = 1 - 2 - -a.0 * 3; (b, );" =
      .ok (tokens ++ [Token.endOfInput]) := by
    cbv
  have hlexed : ∀ item ∈ tokens, item.Lexed := by
    obtain ⟨items, hitems, hlexed⟩ := exists_lexed_of_tokenize htokenize
    rwa [List.append_cancel_right hitems]
  have hparse : parse (tokens ++ [Token.endOfInput]) = .ok body := by
    cbv
  exact ⟨htokenize, hlexed, ((parse_eq_ok_iff tokens hlexed).1 body).mp hparse⟩

end FlexWidth
