import FlexWidth.Frontend
import FlexWidth.Proofs.Scope.Reference
import FlexWidth.Proofs.Stage

/-!
# The scope stack implements lexical scoping

Resolution keeps one stack of scopes and one symbol table, and changes both as it
walks the program.  The reference passes environments along and forgets those of a
block when the block ends.

A stack of scopes stands for an environment (`Environment.ofScopes`): pushing a scope
enters the environment and adding to the top scope binds a name in it.  `Mirrors` says
that a run has the outcome of the reference, and `Follows` adds that it ends in the
environment and with the symbols of the reference.  A block follows the reference since
popping its scope leaves the scopes below as they were (`mirrors_inScope`).
-/

namespace FlexWidth

open Reference (ifBound)

variable {α β : Type} {symbolOf : String → Option SymbolId}

/-! ## Expressions -/

theorem ifBound_bind_pure (names : List String) (value : α) (build : α → β) :
    (ifBound symbolOf names value >>= fun result => pure (build result)) =
      ifBound symbolOf names (build value) := by
  unfold ifBound
  cases names.find? fun name => (symbolOf name).isNone <;> rfl

theorem ifBound_bind_bind_pure {γ : Type} (names later : List String) (first : α) (second : β)
    (build : α → β → γ) :
    (ifBound symbolOf names first >>= fun left =>
        ifBound symbolOf later second >>= fun right => pure (build left right)) =
      ifBound symbolOf (names ++ later) (build first second) := by
  unfold ifBound
  rw [List.find?_append]
  cases names.find? fun name => (symbolOf name).isNone with
  | some name => rfl
  | none => cases later.find? fun name => (symbolOf name).isNone <;> rfl

mutual

/-- Walking an expression binds all of its uses, or stops at the first unbound
one. -/
theorem resolve_eq_ifBound : (value : Expr) →
    value.resolve symbolOf = ifBound symbolOf value.uses (value.annotate symbolOf)
  | .literal .. | .read .. => rfl
  | .var name _ _ => by
      simp only [Expr.resolve, Expr.uses, Expr.annotate, ifBound, List.find?_cons, List.find?_nil]
      cases symbolOf name <;> rfl
  | .unary _ operand _ => by
      rw [Expr.resolve, resolve_eq_ifBound operand]
      exact ifBound_bind_pure ..
  | .binary _ left right _ => by
      rw [Expr.resolve, resolve_eq_ifBound left, resolve_eq_ifBound right]
      exact ifBound_bind_bind_pure ..
  | .conversion operand _ => by
      rw [Expr.resolve, resolve_eq_ifBound operand]
      exact ifBound_bind_pure ..
  | .load place _ => by
      rw [Expr.resolve, resolve_eq_ifBound place]
      exact ifBound_bind_pure ..
  | .glue fields _ => by
      rw [Expr.resolve, resolveFields_eq_ifBound fields]
      exact ifBound_bind_pure ..
  | .dot base _ _ _ => by
      rw [Expr.resolve, resolve_eq_ifBound base]
      exact ifBound_bind_pure ..
  | .index base _ _ => by
      rw [Expr.resolve, resolve_eq_ifBound base]
      exact ifBound_bind_pure ..

theorem resolveFields_eq_ifBound : (fields : GlueFields) →
    resolveFields symbolOf fields =
      ifBound symbolOf (fieldUses fields) (annotateFields symbolOf fields)
  | [] => rfl
  | (_, value) :: rest => by
      rw [resolveFields, resolve_eq_ifBound value, resolveFields_eq_ifBound rest]
      exact ifBound_bind_bind_pure ..

end

theorem resolveExprs_eq_ifBound (values : List Expr) :
    resolveExprs symbolOf values =
      ifBound symbolOf (values.flatMap Expr.uses) (values.map (Expr.annotate symbolOf)) := by
  induction values with
  | nil => rfl
  | cons first rest ih =>
      rw [resolveExprs, resolve_eq_ifBound first, ih]
      exact ifBound_bind_bind_pure ..

/-! ## Environments of a stack -/

/-- What a stack of scopes binds: its top scope and the scopes below. -/
def Environment.ofScopes (inner : Scope) (outer : List Scope) : Environment :=
  ⟨fun name => inner.lookup name, findSymbol? outer⟩

theorem visible_ofScopes (inner : Scope) (outer : List Scope) :
    (Environment.ofScopes inner outer).visible = findSymbol? (inner :: outer) := by
  funext name
  simp only [Environment.visible, Environment.ofScopes, findSymbol?, List.findSome?_cons]
  cases inner.lookup name <;> rfl

theorem enter_ofScopes (inner : Scope) (outer : List Scope) :
    (Environment.ofScopes inner outer).enter = .ofScopes [] (inner :: outer) := by
  rw [Environment.enter, visible_ofScopes]
  rfl

theorem bind_ofScopes (inner : Scope) (outer : List Scope) (name : String) (symbol : SymbolId) :
    (Environment.ofScopes inner outer).bind name symbol =
      .ofScopes ((name, symbol) :: inner) outer := by
  simp only [Environment.bind, Environment.ofScopes, Environment.mk.injEq, and_true]
  funext other
  rw [List.lookup_cons]
  by_cases hname : other = name
  · simp [hname]
  · rw [if_neg hname, beq_eq_false_iff_ne.mpr hname]

theorem table_append (ledger : Ledger) (name : String) (origin : Origin) :
    ledger.table.add name origin =
      (⟨ledger.length⟩, Ledger.table (ledger ++ [(name, origin)])) := by
  simp [SymbolTable.add, Ledger.table]

/-! ## Runs that mirror the reference -/

/-- A run has the outcome of the reference: an error for an error, and a result
for a result, related to it by `rel`. -/
def Mirrors {ρ : Type} (reference : Except Diagnostic ρ) (run : EStateM.Result Failure Scoping α)
    (rel : ρ → α → Scoping → Prop) : Prop :=
  match reference with
  | .ok expected => ∃ value scoping, run = .ok value scoping ∧ rel expected value scoping
  | .error diagnostic => ∃ scoping, run = .error (.refused diagnostic) scoping

theorem Mirrors.bind {ρ τ : Type} {reference : Except Diagnostic ρ}
    {next : ρ → Except Diagnostic τ} {step : ResolveM α} {rest : α → ResolveM β}
    {scoping : Scoping} {rel : ρ → α → Scoping → Prop} {rel' : τ → β → Scoping → Prop}
    (hstep : Mirrors reference (step scoping) rel)
    (hrest : ∀ expected value middle, rel expected value middle →
      Mirrors (next expected) (rest value middle) rel') :
    Mirrors (reference >>= next) ((step >>= rest) scoping) rel' := by
  cases reference with
  | ok expected =>
      obtain ⟨value, middle, hrun, hrel⟩ := hstep
      rw [run_bind_ok hrun]
      exact hrest expected value middle hrel
  | error diagnostic =>
      obtain ⟨middle, hrun⟩ := hstep
      exact ⟨middle, run_bind_error hrun rest⟩

theorem mirrors_ofExcept (reference : Except Diagnostic α) (scoping : Scoping) :
    Mirrors reference (ofExcept reference scoping) fun expected value final =>
      value = expected ∧ final = scoping := by
  cases reference with
  | ok expected => exact ⟨expected, scoping, rfl, rfl, rfl⟩
  | error diagnostic => exact ⟨scoping, rfl⟩

/-- The scopes and symbols of a state: a top scope on the scopes `outer`, and the
symbols of a ledger. -/
structure Represents (scoping : Scoping) (inner : Scope) (outer : List Scope) (ledger : Ledger) :
    Prop where
  scopes : scoping.scopes = inner :: outer
  symbols : scoping.symbols = ledger.table

/-- A run on scopes above `outer` follows the reference: it yields the same, and
its state stands for the environment and the ledger that the reference yields. -/
def Follows (outer : List Scope) (reference : Except Diagnostic (α × Environment × Ledger))
    (run : EStateM.Result Failure Scoping α) : Prop :=
  Mirrors reference run fun expected value final =>
    value = expected.1 ∧ ∃ inner, Represents final inner outer expected.2.2 ∧
      expected.2.1 = .ofScopes inner outer

section Steps

variable {scoping : Scoping} {inner : Scope} {outer : List Scope} {ledger : Ledger}

theorem Represents.find? (h : Represents scoping inner outer ledger) :
    scoping.find? = (Environment.ofScopes inner outer).visible := by
  funext name
  rw [Scoping.find?, h.scopes, visible_ofScopes]

theorem mirrors_expr (h : Represents scoping inner outer ledger) (value : Expr) :
    Mirrors (Reference.expr (.ofScopes inner outer) value) (Resolve.expr value scoping)
      fun expected value final => value = expected ∧ final = scoping := by
  rw [Resolve.expr, run_bind_ok (run_get scoping), resolve_eq_ifBound, h.find?]
  exact mirrors_ofExcept ..

theorem mirrors_exprs (h : Represents scoping inner outer ledger) (values : List Expr) :
    Mirrors (Reference.exprs (.ofScopes inner outer) values) (Resolve.exprs values scoping)
      fun expected values final => values = expected ∧ final = scoping := by
  rw [Resolve.exprs, run_bind_ok (run_get scoping), resolveExprs_eq_ifBound, h.find?]
  exact mirrors_ofExcept ..

theorem mirrors_expr? (h : Represents scoping inner outer ledger) (value : Option Expr) :
    Mirrors (Reference.expr? (.ofScopes inner outer) value) (Resolve.expr? value scoping)
      fun expected value final => value = expected ∧ final = scoping := by
  cases value with
  | none => exact ⟨none, scoping, rfl, rfl, rfl⟩
  | some value =>
      refine (mirrors_expr h value).bind ?_
      rintro expected value final ⟨rfl, rfl⟩
      exact ⟨some value, final, rfl, rfl, rfl⟩

/-- Declaring a name reuses or creates the binding that the reference does. -/
theorem follows_declare (h : Represents scoping inner outer ledger) (name : String)
    (origin : Origin) :
    Follows outer (.ok (Reference.declare (.ofScopes inner outer) ledger name origin))
      (Resolve.declare name origin scoping) := by
  have hinner : (Environment.ofScopes inner outer).inner name = inner.lookup name := rfl
  simp only [Resolve.declare, run_modifyGet, Scoping.declare, Reference.declare, h.scopes,
    List.headD_cons, List.tail_cons, hinner]
  cases inner.lookup name with
  | some symbol => exact ⟨symbol, scoping, rfl, rfl, inner, h, rfl⟩
  | none =>
      simp only [h.symbols, table_append]
      exact ⟨_, _, rfl, rfl, _, ⟨rfl, rfl⟩, bind_ofScopes ..⟩

/-- A binding writes to the symbol that the reference finds or creates. -/
theorem follows_target (h : Represents scoping inner outer ledger) (form : BindingForm)
    (name : String) :
    Follows outer (.ok (Reference.target (.ofScopes inner outer) ledger form name))
      (Resolve.target form name scoping) := by
  cases form with
  | declaration => exact follows_declare h name .declaration
  | assignment =>
      simp only [Resolve.target, Reference.target, run_bind, run_get, h.find?]
      cases (Environment.ofScopes inner outer).visible name with
      | some symbol => exact ⟨symbol, scoping, rfl, rfl, inner, h, rfl⟩
      | none => exact follows_declare h name .assignment

theorem Represents.push (h : Represents scoping inner outer ledger) :
    Represents scoping.push [] (inner :: outer) ledger :=
  ⟨congrArg ([] :: ·) h.scopes, h.symbols⟩

/-- A step in a scope of its own: the run pops the scope that it pushed, whatever
the step has bound there, and the scopes are those from before. -/
theorem mirrors_inScope {ρ : Type} {step : ResolveM α} {reference : Except Diagnostic ρ}
    (inner : Scope) (outer : List Scope) (agrees : ρ → α → Prop) (ledgerOf : ρ → Ledger)
    (hstep : Mirrors reference (step scoping.push) fun expected value final =>
      agrees expected value ∧ ∃ top, Represents final top (inner :: outer) (ledgerOf expected)) :
    Mirrors reference (Resolve.inScope step scoping) fun expected value final =>
      agrees expected value ∧ Represents final inner outer (ledgerOf expected) := by
  unfold Resolve.inScope
  rw [run_bind_ok (run_modify Scoping.push scoping)]
  cases reference with
  | ok expected =>
      obtain ⟨value, middle, hrun, hvalue, top, hrep⟩ := hstep
      rw [run_bind_ok hrun, run_bind_ok (run_modify Scoping.pop middle)]
      exact ⟨value, middle.pop, rfl, hvalue, congrArg List.tail hrep.scopes, hrep.symbols⟩
  | error diagnostic =>
      obtain ⟨middle, hrun⟩ := hstep
      exact ⟨middle, run_bind_error hrun _⟩

theorem Mirrors.weaken {ρ : Type} {reference : Except Diagnostic ρ}
    {run : EStateM.Result Failure Scoping α} {rel rel' : ρ → α → Scoping → Prop}
    (h : Mirrors reference run rel)
    (hrel : ∀ expected value final, rel expected value final → rel' expected value final) :
    Mirrors reference run rel' := by
  cases reference with
  | ok expected =>
      obtain ⟨value, final, hrun, hvalue⟩ := h
      exact ⟨value, final, hrun, hrel expected value final hvalue⟩
  | error diagnostic => exact h

end Steps

/-! ## Statements -/

/-- The statements are resolved one after the other as the reference resolves them. -/
def FollowsStmts (body : List Stmt) : Prop :=
  ∀ ⦃outer : List Scope⦄ ⦃scoping : Scoping⦄ ⦃inner : Scope⦄ ⦃ledger : Ledger⦄,
    Represents scoping inner outer ledger →
    Follows outer (Reference.stmts (.ofScopes inner outer) ledger body)
      (Resolve.stmts body scoping)

/-- The statements of a block are resolved in the environment that enters it. -/
def FollowsBlock (body : List Stmt) : Prop :=
  ∀ ⦃outer : List Scope⦄ ⦃scoping : Scoping⦄ ⦃inner : Scope⦄ ⦃ledger : Ledger⦄,
    Represents scoping inner outer ledger →
    Mirrors (Reference.stmts (Environment.ofScopes inner outer).enter ledger body)
      (Resolve.inScope (Resolve.stmts body) scoping) fun expected value final =>
        value = expected.1 ∧ Represents final inner outer expected.2.2

theorem FollowsStmts.block {body : List Stmt} (hbody : FollowsStmts body) : FollowsBlock body := by
  intro outer scoping inner ledger h
  rw [enter_ofScopes]
  refine mirrors_inScope inner outer (fun expected value => value = expected.1)
    (fun expected => expected.2.2) ((hbody h.push).weaken ?_)
  rintro expected value final ⟨hvalue, top, hfinal, -⟩
  exact ⟨hvalue, top, hfinal⟩

section Statements

variable {outer : List Scope} {scoping : Scoping} {inner : Scope} {ledger : Ledger}
  (h : Represents scoping inner outer ledger)

include h

theorem follows_bind (form : BindingForm) (name : String) (ascription : Option Ascription)
    (value : Option Expr) (symbol : Option SymbolId) :
    Follows outer
      (Reference.stmt (.ofScopes inner outer) ledger (.bind form name ascription value symbol))
      (Resolve.stmt (.bind form name ascription value symbol) scoping) := by
  rw [Reference.stmt, Resolve.stmt]
  refine (mirrors_expr? h value).bind ?_
  rintro _ value _ ⟨rfl, rfl⟩
  obtain ⟨_, final, hrun, rfl, hfinal⟩ := follows_target h form name
  exact ⟨_, final, run_bind_ok hrun _, rfl, hfinal⟩

theorem follows_branch (test : Expr) {yes : List Stmt} (hyes : FollowsBlock yes) :
    Follows outer (Reference.stmt (.ofScopes inner outer) ledger (.branch test yes none))
      (Resolve.stmt (.branch test yes none) scoping) := by
  rw [Reference.stmt, Resolve.stmt]
  refine (mirrors_expr h test).bind ?_
  rintro _ test _ ⟨rfl, rfl⟩
  refine (hyes h).bind ?_
  rintro expected yes final ⟨rfl, hfinal⟩
  exact ⟨_, _, rfl, rfl, inner, hfinal, rfl⟩

theorem follows_otherwise (test : Expr) {yes no : List Stmt} (hyes : FollowsBlock yes)
    (hno : FollowsBlock no) :
    Follows outer (Reference.stmt (.ofScopes inner outer) ledger (.branch test yes (some no)))
      (Resolve.stmt (.branch test yes (some no)) scoping) := by
  rw [Reference.stmt, Resolve.stmt]
  refine (mirrors_expr h test).bind ?_
  rintro _ test _ ⟨rfl, rfl⟩
  refine (hyes h).bind ?_
  rintro expected yes middle ⟨rfl, hmiddle⟩
  refine (hno hmiddle).bind ?_
  rintro expected no final ⟨rfl, hfinal⟩
  exact ⟨_, _, rfl, rfl, inner, hfinal, rfl⟩

theorem follows_whileLoop (test : Expr) {body : List Stmt} (hbody : FollowsBlock body) :
    Follows outer (Reference.stmt (.ofScopes inner outer) ledger (.whileLoop test body))
      (Resolve.stmt (.whileLoop test body) scoping) := by
  rw [Reference.stmt, Resolve.stmt]
  refine (mirrors_expr h test).bind ?_
  rintro _ test _ ⟨rfl, rfl⟩
  refine (hbody h).bind ?_
  rintro expected body final ⟨rfl, hfinal⟩
  exact ⟨_, _, rfl, rfl, inner, hfinal, rfl⟩

/-- The scope of a loop holds its variable only; its body has a scope of its own. -/
theorem follows_forLoop (name : String) (symbol : Option SymbolId) (bounds : List Expr)
    {body : List Stmt} (hbody : FollowsBlock body) :
    Follows outer
      (Reference.stmt (.ofScopes inner outer) ledger (.forLoop name symbol bounds body))
      (Resolve.stmt (.forLoop name symbol bounds body) scoping) := by
  rw [Reference.stmt, Resolve.stmt]
  refine (mirrors_inScope inner outer (fun expected value =>
    value = expected.1 ∧ expected.2.1 = .ofScopes inner outer) (fun expected => expected.2.2)
    ?_).weaken ?_
  · rw [enter_ofScopes]
    refine (mirrors_exprs h.push bounds).bind ?_
    rintro _ bounds _ ⟨rfl, rfl⟩
    have hdeclare := follows_declare h.push name .loopVariable
    generalize Reference.declare (.ofScopes [] (inner :: outer)) ledger name .loopVariable =
      declared at hdeclare ⊢
    obtain ⟨symbol, env, ledger'⟩ := declared
    obtain ⟨_, middle, hrun, rfl, loop, hloop, rfl⟩ := hdeclare
    rw [run_bind_ok hrun]
    refine (hbody hloop).bind ?_
    rintro expected body final ⟨rfl, hfinal⟩
    exact ⟨_, _, rfl, ⟨rfl, rfl⟩, loop, hfinal⟩
  · rintro expected value final ⟨⟨hvalue, henv⟩, hfinal⟩
    exact ⟨hvalue, inner, hfinal, henv⟩

theorem follows_blockStmt {body : List Stmt} (hbody : FollowsBlock body) :
    Follows outer (Reference.stmt (.ofScopes inner outer) ledger (.block body))
      (Resolve.stmt (.block body) scoping) := by
  rw [Reference.stmt, Resolve.stmt]
  refine (hbody h).bind ?_
  rintro expected body final ⟨rfl, hfinal⟩
  exact ⟨_, _, rfl, rfl, inner, hfinal, rfl⟩

end Statements

mutual

/-- A statement is resolved as the reference resolves it. -/
theorem follows_stmt {outer : List Scope} {scoping : Scoping} {inner : Scope} {ledger : Ledger}
    (h : Represents scoping inner outer ledger) : (st : Stmt) →
    Follows outer (Reference.stmt (.ofScopes inner outer) ledger st) (Resolve.stmt st scoping)
  | .bind form name ascription value symbol => follows_bind h form name ascription value symbol
  | .print value => by
      rw [Reference.stmt, Resolve.stmt]
      refine (mirrors_expr h value).bind ?_
      rintro _ value _ ⟨rfl, rfl⟩
      exact ⟨_, _, rfl, rfl, inner, h, rfl⟩
  | .evaluate value => by
      rw [Reference.stmt, Resolve.stmt]
      refine (mirrors_expr h value).bind ?_
      rintro _ value _ ⟨rfl, rfl⟩
      exact ⟨_, _, rfl, rfl, inner, h, rfl⟩
  | .branch test yes none => follows_branch h test (followsStmts yes).block
  | .branch test yes (some no) =>
      follows_otherwise h test (followsStmts yes).block (followsStmts no).block
  | .whileLoop test body => follows_whileLoop h test (followsStmts body).block
  | .forLoop name symbol bounds body =>
      follows_forLoop h name symbol bounds (followsStmts body).block
  | .block body => follows_blockStmt h (followsStmts body).block

theorem followsStmts : (body : List Stmt) → FollowsStmts body
  | [] => fun _ _ inner _ h => ⟨_, _, rfl, rfl, inner, h, rfl⟩
  | first :: rest => by
      intro outer scoping inner ledger h
      rw [Reference.stmts, Resolve.stmts]
      refine (follows_stmt h first).bind ?_
      rintro ⟨_, _, ledger'⟩ first middle ⟨rfl, inner', hfirst, rfl⟩
      refine (followsStmts rest hfirst).bind ?_
      rintro ⟨_, _, ledger''⟩ rest final ⟨rfl, inner'', hrest, rfl⟩
      exact ⟨_, _, rfl, rfl, inner'', hrest, rfl⟩

end

/-! ## Programs -/

/-- Resolution starts with one empty scope, no symbol and any log. -/
theorem represents_start (log : Array Event) :
    Represents ({ Scoping.empty with log := log } : Scoping).push [] [] [] := ⟨rfl, rfl⟩

theorem mirrors_program (body : Program) (log : Array Event) :
    Mirrors (Reference.program body) (Resolve.program body { Scoping.empty with log := log })
      fun expected value final => value = expected.1 ∧ final.symbols = expected.2 := by
  have hfollows := followsStmts body (represents_start log)
  unfold Resolve.program Resolve.block Resolve.inScope Reference.program
  rw [run_bind, run_bind, run_modify]
  change Follows [] (Reference.stmts Environment.empty [] body) _ at hfollows
  cases hreference : Reference.stmts Environment.empty [] body with
  | ok expected =>
      rw [hreference] at hfollows
      obtain ⟨_, final, hrun, rfl, inner, hfinal, -⟩ := hfollows
      simp only [run_bind_ok hrun, run_bind, run_modify, run_pure]
      exact ⟨_, _, rfl, rfl, hfinal.symbols⟩
  | error diagnostic =>
      rw [hreference] at hfollows
      obtain ⟨final, hrun⟩ := hfollows
      simp only [run_bind_error hrun]
      exact ⟨final, rfl⟩

/-- **Resolution is lexical scoping.**  The stack of scopes gives every program the
outcome that environments give it: the same annotated tree with the same table of
symbols, or the same first unbound name. -/
theorem resolve_eq_reference (body : Program) (log : Array Event) :
    outcome (Frontend.resolve body log) = (Reference.program body).mapError Failure.refused := by
  have hmirrors := mirrors_program body log
  unfold Frontend.resolve
  cases hreference : Reference.program body with
  | ok expected =>
      rw [hreference] at hmirrors
      obtain ⟨_, final, hrun, rfl, hsymbols⟩ := hmirrors
      rw [hrun]
      exact congrArg (fun symbols => Except.ok (expected.1, symbols)) hsymbols
  | error diagnostic =>
      rw [hreference] at hmirrors
      obtain ⟨final, hrun⟩ := hmirrors
      rw [hrun]
      rfl

end FlexWidth
