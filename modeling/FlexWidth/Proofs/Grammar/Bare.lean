import FlexWidth.Grammar.Parse
import FlexWidth.Proofs.Stage
import FlexWidth.Proofs.Tree.Erasure

/-!
# What is read is bare

Whatever the tokens and whatever the tables of rules, the trees that parsing builds have
empty slots for types and positions, no conversions and no loads, and literals that fit
a machine word.

The rules call each other through `Nested`, so each rule is shown to yield bare trees if
the phrases inside it do (`bareNested_phrase`), and the rest is an induction on how
deeply phrases may nest.
-/

namespace FlexWidth

/-- What a phrase yields is bare.  An extension is bare if what it extends is. -/
def Nonterminal.YieldsBare : {α : Type} → Nonterminal α → α → Prop
  | _, .expr _, value => value.Bare
  | _, .extension _ left, value => left.Bare → value.Bare
  | _, .fields, values => ∀ field ∈ values, field.2.Bare
  | _, .bounds, values => ∀ bound ∈ values, bound.Bare
  | _, .stmt, st => ∀ value ∈ st.roots, value.Bare
  | _, .stmts _, body => ∀ value ∈ Stmt.bodyRoots body, value.Bare
  | _, .branch, st => ∀ value ∈ st.roots, value.Bare
  | _, .ascription, _ => True

theorem Text.lt_of_numeral? {limit value : Nat} {text : String}
    (h : numeral? limit text = some value) : value < limit := by
  unfold numeral? at h
  dsimp only at h
  split at h
  · cases h
  · split at h
    · rename_i hlt
      cases h
      exact hlt
    · cases h

namespace Parser

/-- Every phrase yields bare trees. -/
def BareNested (nested : Nested) : Prop :=
  ∀ {α : Type} (phrase : Nonterminal α), Yields (nested phrase) phrase.YieldsBare

theorem yields_reject {α : Type} {post : α → Prop} (message : String) :
    Yields (reject message) post :=
  .of_forall fun _ => yields_refuse _

theorem yields_number (token : Token) : Yields (number token) fun value => value < Text.wordLimit :=
  (yields_orRefuse _ _).weaken fun _ hvalue => Text.lt_of_numeral? hvalue

/-! ## Expressions -/

theorem yields_primary : Yields primary Expr.Bare := by
  refine .of_forall fun kind => ?_
  split
  · refine .of_forall fun token => ?_
    exact (yields_number token).bind fun value hvalue => yields_pure (.literal hvalue)
  · split
    · exact .of_forall fun token => yields_pure .var
    · exact yields_reject _

theorem yields_read : Yields read Expr.Bare :=
  .of_forall fun _ => .of_forall fun _ => .of_forall fun _ => .of_forall fun _ => yields_pure .read

theorem yields_member {left : Expr} (hleft : left.Bare) : Yields (member left) Expr.Bare := by
  refine .of_forall fun _ => .of_forall fun kind => ?_
  split
  · exact .of_forall fun token => yields_pure (.dot hleft)
  · split
    · refine .of_forall fun token => ?_
      exact .of_forall fun position => yields_pure (.index hleft)
    · exact yields_reject _

section Rules

variable {nested : Nested} (hnested : BareNested nested)

include hnested

theorem yields_sign : Yields (sign nested) Expr.Bare := by
  refine .of_forall fun operator => ?_
  exact (hnested (.expr .unary)).bind fun operand hoperand => yields_pure (.unary hoperand)

theorem yields_field : Yields (field nested) fun field => field.2.Bare := by
  refine .of_forall fun named => ?_
  split
  · refine .of_forall fun name => .of_forall fun _ => ?_
    exact (hnested (.expr .least)).bind fun value hvalue => yields_pure hvalue
  · exact (hnested (.expr .least)).bind fun value hvalue => yields_pure hvalue

theorem yields_fields : Yields (fields nested) fun fields => ∀ field ∈ fields, field.2.Bare := by
  refine .of_forall fun kind => ?_
  split
  · refine .of_forall fun _ => .of_forall fun kind => ?_
    split
    · exact yields_pure (by simp)
    · refine (yields_field hnested).bind fun first hfirst => ?_
      refine (hnested .fields).bind fun rest hrest => ?_
      exact yields_pure (List.forall_mem_cons.mpr ⟨hfirst, hrest⟩)
  · exact yields_pure (by simp)

theorem yields_parens : Yields (parens nested) Expr.Bare := by
  refine .of_forall fun _ => .of_forall fun named => ?_
  refine (yields_field hnested).bind fun first hfirst => ?_
  refine .of_forall fun kind => ?_
  split
  · refine (hnested .fields).bind fun rest hrest => ?_
    exact .of_forall fun _ => yields_pure (.glue (List.forall_mem_cons.mpr ⟨hfirst, hrest⟩))
  · exact .of_forall fun _ => yields_pure hfirst

theorem yields_binary {left : Expr} (hleft : left.Bare) (power : Power) :
    Yields (binary nested left power) Expr.Bare := by
  refine .of_forall fun operator => ?_
  exact (hnested (.expr power)).bind fun right hright => yields_pure (.binary hleft hright)

theorem yields_head (rule : HeadRule) : Yields (head nested rule) Expr.Bare := by
  cases rule with
  | primary => exact yields_primary
  | sign => exact yields_sign hnested
  | parens => exact yields_parens hnested
  | read => exact yields_read

theorem yields_tail {left : Expr} (hleft : left.Bare) (power : Power) (rule : TailRule) :
    Yields (tail nested left power rule) Expr.Bare := by
  cases rule with
  | binary => exact yields_binary hnested hleft power
  | member => exact yields_member hleft

theorem yields_expr (rules : Rules) (above : Power) :
    Yields (expr rules nested above) Expr.Bare := by
  refine .of_forall fun kind => ?_
  split
  · refine (yields_head hnested _).bind fun left hleft => ?_
    exact (hnested (.extension above left)).weaken fun value hvalue => hvalue hleft
  · exact yields_reject _

theorem yields_extension (rules : Rules) (above : Power) {left : Expr} (hleft : left.Bare) :
    Yields (extension rules nested above left) Expr.Bare := by
  refine .of_forall fun kind => ?_
  split
  · split
    · refine (yields_tail hnested hleft _ _).bind fun longer hlonger => ?_
      exact (hnested (.extension above longer)).weaken fun value hvalue => hvalue hlonger
    · exact yields_pure hleft
  · exact yields_pure hleft

/-! ## Statements -/

theorem yields_expressionStmt :
    Yields (expressionStmt nested) fun st => ∀ value ∈ st.roots, value.Bare := by
  refine (hnested (.expr .least)).bind fun value hvalue => ?_
  exact .of_forall fun _ => yields_pure (List.forall_mem_singleton.mpr hvalue)

theorem yields_block :
    Yields (block nested) fun body => ∀ value ∈ Stmt.bodyRoots body, value.Bare := by
  refine .of_forall fun _ => ?_
  refine (hnested (.stmts [.closeCurly, .endOfInput])).bind fun body hbody => ?_
  exact .of_forall fun _ => yields_pure hbody

theorem yields_optionalValue : Yields (optionalValue nested) fun value => ∀ e ∈ value, e.Bare := by
  refine .of_forall fun kind => ?_
  split
  · refine .of_forall fun _ => (hnested (.expr .least)).bind fun value hvalue => ?_
    refine yields_pure fun e he => ?_
    cases he
    exact hvalue
  · exact yields_pure (by simp)

theorem yields_declaration (rules : Rules) :
    Yields (declaration rules nested) fun st => ∀ value ∈ st.roots, value.Bare := by
  refine .of_forall fun name => .of_forall fun _ => .of_forall fun written => ?_
  refine (yields_optionalValue hnested).bind fun value hvalue => ?_
  split
  · exact yields_reject _
  · exact .of_forall fun _ => yields_pure (by simpa [Stmt.roots] using hvalue)

theorem yields_assignment :
    Yields (assignment nested) fun st => ∀ value ∈ st.roots, value.Bare := by
  refine .of_forall fun name => .of_forall fun _ => ?_
  refine (hnested (.expr .least)).bind fun value hvalue => ?_
  exact .of_forall fun _ => yields_pure (List.forall_mem_singleton.mpr hvalue)

theorem yields_named (rules : Rules) :
    Yields (named rules nested) fun st => ∀ value ∈ st.roots, value.Bare := by
  refine .of_forall fun next => ?_
  split
  · exact yields_declaration hnested rules
  · split
    · exact yields_assignment hnested
    · exact yields_expressionStmt hnested

theorem yields_print : Yields (print nested) fun st => ∀ value ∈ st.roots, value.Bare := by
  refine .of_forall fun _ => .of_forall fun _ => .of_forall fun _ => .of_forall fun _ => ?_
  refine (hnested (.expr .least)).bind fun value hvalue => ?_
  exact .of_forall fun _ => .of_forall fun _ => yields_pure (List.forall_mem_singleton.mpr hvalue)

theorem yields_condition : Yields (condition nested) Expr.Bare := by
  refine .of_forall fun _ => (hnested (.expr .least)).bind fun value hvalue => ?_
  exact .of_forall fun _ => yields_pure hvalue

theorem yields_otherwise :
    Yields (otherwise nested) fun no => ∀ body ∈ no, ∀ value ∈ Stmt.bodyRoots body, value.Bare := by
  refine .of_forall fun kind => ?_
  split
  · refine .of_forall fun _ => .of_forall fun kind => ?_
    split
    · refine (hnested .branch).bind fun next hnext => ?_
      refine yields_pure fun body hbody => ?_
      cases hbody
      rw [Stmt.bodyRoots, Stmt.bodyRoots, List.append_nil]
      exact hnext
    · refine (yields_block hnested).bind fun body hbody => ?_
      exact yields_pure (by simpa using hbody)
  · exact yields_pure (by simp)

theorem yields_branch : Yields (branch nested) fun st => ∀ value ∈ st.roots, value.Bare := by
  refine .of_forall fun _ => (yields_condition hnested).bind fun test htest => ?_
  refine (yields_block hnested).bind fun yes hyes => ?_
  refine (yields_otherwise hnested).bind fun no hno => ?_
  refine yields_pure ?_
  cases no with
  | none => exact List.forall_mem_cons.mpr ⟨htest, hyes⟩
  | some no =>
      exact List.forall_mem_cons.mpr ⟨htest, List.forall_mem_append.mpr ⟨hyes, hno no rfl⟩⟩

theorem yields_whileLoop : Yields (whileLoop nested) fun st => ∀ value ∈ st.roots, value.Bare := by
  refine .of_forall fun _ => (yields_condition hnested).bind fun test htest => ?_
  refine (yields_block hnested).bind fun body hbody => ?_
  exact yields_pure (List.forall_mem_cons.mpr ⟨htest, hbody⟩)

theorem yields_bounds : Yields (bounds nested) fun bounds => ∀ bound ∈ bounds, bound.Bare := by
  refine .of_forall fun kind => ?_
  split
  · refine .of_forall fun _ => (hnested (.expr .least)).bind fun first hfirst => ?_
    refine (hnested .bounds).bind fun rest hrest => ?_
    exact yields_pure (List.forall_mem_cons.mpr ⟨hfirst, hrest⟩)
  · exact yields_pure (by simp)

theorem yields_forLoop : Yields (forLoop nested) fun st => ∀ value ∈ st.roots, value.Bare := by
  refine .of_forall fun _ => .of_forall fun _ => .of_forall fun name => .of_forall fun _ => ?_
  refine (hnested (.expr .least)).bind fun first hfirst => ?_
  refine (hnested .bounds).bind fun rest hrest => .of_forall fun _ => ?_
  refine (yields_block hnested).bind fun body hbody => ?_
  exact yields_pure (List.forall_mem_append.mpr ⟨List.forall_mem_cons.mpr ⟨hfirst, hrest⟩, hbody⟩)

theorem yields_stmtRule (rules : Rules) (rule : StmtRule) :
    Yields (stmtRule rules nested rule) fun st => ∀ value ∈ st.roots, value.Bare := by
  cases rule with
  | any => exact hnested .stmt
  | expression => exact yields_expressionStmt hnested
  | block => exact (yields_block hnested).bind fun body hbody => yields_pure hbody
  | named => exact yields_named hnested rules
  | print => exact yields_print hnested
  | branch => exact hnested .branch
  | whileLoop => exact yields_whileLoop hnested
  | forLoop => exact yields_forLoop hnested

theorem yields_stmt (rules : Rules) :
    Yields (stmt rules nested) fun st => ∀ value ∈ st.roots, value.Bare := by
  refine .of_forall fun kind => ?_
  split
  · exact yields_stmtRule hnested rules _
  · exact yields_expressionStmt hnested

theorem yields_stmts (stop : List TokenKind) :
    Yields (stmts nested stop) fun body => ∀ value ∈ Stmt.bodyRoots body, value.Bare := by
  refine .of_forall fun kind => ?_
  split
  · exact yields_pure (by simp [Stmt.bodyRoots])
  · refine (hnested .stmt).bind fun first hfirst => ?_
    refine (hnested (.stmts stop)).bind fun rest hrest => ?_
    exact yields_pure (List.forall_mem_append.mpr ⟨hfirst, hrest⟩)

/-! ## Phrases -/

theorem bareNested_phrase (rules : Rules) : BareNested (phrase rules nested) := by
  intro α nonterminal
  cases nonterminal with
  | expr above => exact yields_expr hnested rules above
  | extension above left =>
      intro start value final hrun hleft
      exact yields_extension hnested rules above hleft start value final hrun
  | fields => exact yields_fields hnested
  | bounds => exact yields_bounds hnested
  | stmt => exact yields_stmt hnested rules
  | stmts stop => exact yields_stmts hnested stop
  | branch => exact yields_branch hnested
  | ascription => exact fun _ _ _ _ => trivial

end Rules

theorem bareNested_parseWithin (rules : Rules) (depth : Nat) :
    BareNested (parseWithin rules depth) := by
  induction depth with
  | zero => exact fun _ => yields_fault _
  | succ depth ih => exact bareNested_phrase ih rules

end Parser

/-- **Every program that is parsed is bare**, whatever its tokens. -/
theorem bare_of_parse {tokens : List Token} {body : Program} (h : parse tokens = .ok body) :
    ∀ value ∈ Stmt.bodyRoots body, value.Bare := by
  obtain ⟨final, hrun⟩ := outcome_eq_ok_iff.mp h
  exact Parser.bareNested_parseWithin _ _ (.stmts [.endOfInput]) _ _ _ hrun

end FlexWidth
