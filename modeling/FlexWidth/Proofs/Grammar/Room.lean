import FlexWidth.Grammar.Parse
import FlexWidth.Proofs.Stage

/-!
# More room keeps an answer

Phrases are parsed with a bound on how deeply they nest.  A parser that reaches its bound
ends in a fault; one that does not gives the same answer under every larger bound
(`keptBy_parseWithin`), whatever the rules are.

`KeptBy` compares two parsers in this way.  Sequences are compared part by part, so a rule
is compared through the phrases that it calls and nothing else.
-/

namespace FlexWidth.Parser

variable {α β : Type}

/-- From every stream, the parser runs out of room or `other` comes to the same end. -/
def KeptBy (parser other : Parser α) : Prop :=
  ∀ start, (∃ final, parser start = .error (.broken .recursionDepth) final) ∨
    other start = parser start

theorem KeptBy.refl (parser : Parser α) : KeptBy parser parser := fun _ => .inr rfl

theorem KeptBy.bind {parser other : Parser α} {next next' : α → Parser β}
    (h : KeptBy parser other) (hnext : ∀ value, KeptBy (next value) (next' value)) :
    KeptBy (parser >>= next) (other >>= next') := by
  intro start
  rcases h start with ⟨final, hfault⟩ | hsame
  · exact .inl ⟨final, run_bind_error hfault next⟩
  · cases hrun : parser start with
    | ok value middle =>
        rw [run_bind_ok hrun, run_bind_ok (hsame.trans hrun)]
        exact hnext value middle
    | error failure middle =>
        rw [run_bind_error hrun, run_bind_error (hsame.trans hrun)]
        exact .inr rfl

/-- The first part calls no phrase. -/
theorem KeptBy.after (parser : Parser α) {next next' : α → Parser β}
    (hnext : ∀ value, KeptBy (next value) (next' value)) :
    KeptBy (parser >>= next) (parser >>= next') :=
  (KeptBy.refl parser).bind hnext

/-- The last part calls no phrase. -/
theorem KeptBy.before {parser other : Parser α} (h : KeptBy parser other) (next : α → Parser β) :
    KeptBy (parser >>= next) (other >>= next) :=
  h.bind fun _ => .refl _

theorem KeptBy.ite {p : Prop} [Decidable p] {yes yes' no no' : Parser α} (hyes : KeptBy yes yes')
    (hno : KeptBy no no') : KeptBy (if p then yes else no) (if p then yes' else no') := by
  split
  · exact hyes
  · exact hno

section Rules

variable {nested nested' : Nested}
  (h : ∀ {α : Type} (nonterminal : Nonterminal α),
    KeptBy (nested nonterminal) (nested' nonterminal))

include h

/-! ## Expressions -/

theorem keptBy_sign : KeptBy (sign nested) (sign nested') :=
  .after _ fun _ => (h _).before _

theorem keptBy_field : KeptBy (field nested) (field nested') := by
  refine .after _ fun named => .ite ?_ ?_
  · exact .after _ fun _ => .after _ fun _ => (h _).before _
  · exact (h _).before _

theorem keptBy_fields : KeptBy (fields nested) (fields nested') := by
  refine .after _ fun kind => .ite (.after _ fun _ => .after _ fun kind => ?_) (.refl _)
  exact .ite (.refl _) ((keptBy_field h).bind fun _ => (h _).before _)

theorem keptBy_parens : KeptBy (parens nested) (parens nested') := by
  refine .after _ fun _ => .after _ fun named => (keptBy_field h).bind fun first => ?_
  exact .after _ fun kind => .ite ((h _).before _) (.refl _)

theorem keptBy_binary (left : Expr) (power : Power) :
    KeptBy (binary nested left power) (binary nested' left power) :=
  .after _ fun _ => (h _).before _

theorem keptBy_head (rule : HeadRule) : KeptBy (head nested rule) (head nested' rule) := by
  cases rule with
  | primary => exact .refl _
  | sign => exact keptBy_sign h
  | parens => exact keptBy_parens h
  | read => exact .refl _

theorem keptBy_tail (left : Expr) (power : Power) (rule : TailRule) :
    KeptBy (tail nested left power rule) (tail nested' left power rule) := by
  cases rule with
  | binary => exact keptBy_binary h left power
  | member => exact .refl _

theorem keptBy_expr (rules : Rules) (above : Power) :
    KeptBy (expr rules nested above) (expr rules nested' above) := by
  refine .after _ fun kind => ?_
  cases rules.head kind with
  | some rule => exact (keptBy_head h rule).bind fun _ => h _
  | none => exact .refl _

theorem keptBy_extension (rules : Rules) (above : Power) (left : Expr) :
    KeptBy (extension rules nested above left) (extension rules nested' above left) := by
  refine .after _ fun kind => ?_
  cases rules.tail kind with
  | some found =>
      obtain ⟨power, rule⟩ := found
      exact .ite ((keptBy_tail h left power rule).bind fun _ => h _) (.refl _)
  | none => exact .refl _

/-! ## Statements and written types -/

theorem keptBy_ascription (rules : Rules) :
    KeptBy (ascription rules nested) (ascription rules nested') := by
  refine .after _ fun kind => ?_
  cases rules.ascription kind with
  | none => exact .refl _
  | some rule =>
      cases rule with
      | any => exact h _
      | int => exact .refl _
      | bool => exact .refl _

theorem keptBy_expressionStmt : KeptBy (expressionStmt nested) (expressionStmt nested') :=
  (h _).before _

theorem keptBy_block : KeptBy (block nested) (block nested') :=
  .after _ fun _ => (h _).before _

theorem keptBy_optionalAscription (rules : Rules) :
    KeptBy (optionalAscription rules nested) (optionalAscription rules nested') := by
  refine .after _ fun kind => ?_
  cases rules.ascription kind with
  | some rule => exact (h _).before _
  | none => exact .refl _

theorem keptBy_optionalValue : KeptBy (optionalValue nested) (optionalValue nested') :=
  .after _ fun _ => .ite (.after _ fun _ => (h _).before _) (.refl _)

theorem keptBy_declaration (rules : Rules) :
    KeptBy (declaration rules nested) (declaration rules nested') := by
  refine .after _ fun name => .after _ fun _ => ?_
  exact (keptBy_optionalAscription h rules).bind fun _ => (keptBy_optionalValue h).before _

theorem keptBy_assignment : KeptBy (assignment nested) (assignment nested') :=
  .after _ fun _ => .after _ fun _ => (h _).before _

theorem keptBy_named (rules : Rules) : KeptBy (named rules nested) (named rules nested') :=
  .after _ fun _ =>
    .ite (keptBy_declaration h rules) (.ite (keptBy_assignment h) (keptBy_expressionStmt h))

theorem keptBy_print : KeptBy (print nested) (print nested') :=
  .after _ fun _ => .after _ fun _ => .after _ fun _ => .after _ fun _ => (h _).before _

theorem keptBy_condition : KeptBy (condition nested) (condition nested') :=
  .after _ fun _ => (h _).before _

theorem keptBy_otherwise : KeptBy (otherwise nested) (otherwise nested') := by
  refine .after _ fun kind => .ite (.after _ fun _ => .after _ fun kind => ?_) (.refl _)
  exact .ite ((h _).before _) ((keptBy_block h).before _)

theorem keptBy_branch : KeptBy (branch nested) (branch nested') :=
  .after _ fun _ => (keptBy_condition h).bind fun _ => (keptBy_block h).bind fun _ =>
    (keptBy_otherwise h).before _

theorem keptBy_whileLoop : KeptBy (whileLoop nested) (whileLoop nested') :=
  .after _ fun _ => (keptBy_condition h).bind fun _ => (keptBy_block h).before _

theorem keptBy_bounds : KeptBy (bounds nested) (bounds nested') := by
  refine .after _ fun kind => .ite (.after _ fun _ => ?_) (.refl _)
  exact (h _).bind fun _ => (h _).before _

theorem keptBy_forLoop : KeptBy (forLoop nested) (forLoop nested') := by
  refine .after _ fun _ => .after _ fun _ => .after _ fun name => .after _ fun _ => ?_
  refine (h _).bind fun first => (h _).bind fun rest => .after _ fun _ => ?_
  exact (keptBy_block h).before _

theorem keptBy_stmt (rules : Rules) : KeptBy (stmt rules nested) (stmt rules nested') := by
  refine .after _ fun kind => ?_
  cases rules.stmt kind with
  | none => exact keptBy_expressionStmt h
  | some rule =>
      cases rule with
      | any => exact h _
      | expression => exact keptBy_expressionStmt h
      | block => exact (keptBy_block h).before _
      | named => exact keptBy_named h rules
      | print => exact keptBy_print h
      | branch => exact h _
      | whileLoop => exact keptBy_whileLoop h
      | forLoop => exact keptBy_forLoop h

theorem keptBy_stmts (stop : List TokenKind) : KeptBy (stmts nested stop) (stmts nested' stop) :=
  .after _ fun _ => .ite (.refl _) ((h _).bind fun _ => (h _).before _)

theorem keptBy_phrase (rules : Rules) (nonterminal : Nonterminal α) :
    KeptBy (phrase rules nested nonterminal) (phrase rules nested' nonterminal) := by
  cases nonterminal with
  | expr above => exact keptBy_expr h rules above
  | extension above left => exact keptBy_extension h rules above left
  | fields => exact keptBy_fields h
  | bounds => exact keptBy_bounds h
  | stmt => exact keptBy_stmt h rules
  | stmts stop => exact keptBy_stmts h stop
  | branch => exact keptBy_branch h
  | ascription => exact keptBy_ascription h rules

end Rules

/-- **More room keeps an answer.** -/
theorem keptBy_parseWithin (rules : Rules) {room more : Nat} (hle : room ≤ more)
    (nonterminal : Nonterminal α) :
    KeptBy (parseWithin rules room nonterminal) (parseWithin rules more nonterminal) := by
  induction room generalizing more α with
  | zero => exact fun start => .inl ⟨start, rfl⟩
  | succ room ih =>
      obtain ⟨more, rfl⟩ : ∃ less, more = less + 1 := ⟨more - 1, by omega⟩
      exact keptBy_phrase (fun inner => ih (Nat.le_of_succ_le_succ hle) inner) rules nonterminal

/-- A result that was found within some room is found within more. -/
theorem parseWithin_eq_ok_of_le {rules : Rules} {room more : Nat} {nonterminal : Nonterminal α}
    {start final : TokenStream} {value : α} (hle : room ≤ more)
    (h : parseWithin rules room nonterminal start = .ok value final) :
    parseWithin rules more nonterminal start = .ok value final := by
  rcases keptBy_parseWithin rules hle nonterminal start with ⟨_, hfault⟩ | hsame
  · rw [h] at hfault
    cases hfault
  · exact hsame.trans h

end FlexWidth.Parser
