import FlexWidth.Frontend
import FlexWidth.Proofs.Renaming.Basic

/-!
# Resolution of a renamed program

Resolution asks of names only whether two of them are equal, when it looks one up in a
scope.  An injective renaming of the program and of the scopes therefore finds the same
symbols, and every step of resolution commutes with it.
-/

namespace FlexWidth

/-- The bindings of a scope with other names. -/
def Scope.rename (f : String → String) (scope : Scope) : Scope := scope.map (Prod.map f id)

/-- The state of resolution with other names for the variables. -/
def Scoping.rename (f : String → String) (scoping : Scoping) : Scoping :=
  { scopes := scoping.scopes.map (Scope.rename f)
    symbols := scoping.symbols.rename f
    log := scoping.log.map (Event.rename f) }

/-! ## Looking names up -/

section Lookup

variable {f : String → String} (hf : Function.Injective f)

include hf

theorem Scope.lookup_rename (scope : Scope) (name : String) :
    (scope.rename f).lookup (f name) = scope.lookup name := by
  induction scope with
  | nil => rfl
  | cons binding rest ih =>
      obtain ⟨other, symbol⟩ := binding
      change List.lookup (f name) ((f other, symbol) :: Scope.rename f rest) = _
      rw [List.lookup_cons, List.lookup_cons, ih]
      by_cases heq : name = other
      · rw [heq, beq_self_eq_true, beq_self_eq_true]
      · have hne : f name ≠ f other := fun h => heq (hf h)
        rw [beq_false_of_ne heq, beq_false_of_ne hne]

theorem Scoping.find?_rename (scoping : Scoping) (name : String) :
    (scoping.rename f).find? (f name) = scoping.find? name := by
  unfold find? findSymbol? rename
  rw [List.findSome?_map]
  exact congrArg (scoping.scopes.findSome? ·) (funext fun scope => scope.lookup_rename hf name)

/-- Binding a renamed name gives the same symbol. -/
theorem Scoping.declare_rename (scoping : Scoping) (name : String) (origin : Origin) :
    (scoping.rename f).declare (f name) origin =
      (scoping.declare name origin).map id (rename f) := by
  obtain ⟨scopes, symbols, log⟩ := scoping
  have hinner : (List.map (Scope.rename f) scopes).headD [] = (scopes.headD []).rename f := by
    cases scopes <;> rfl
  unfold declare
  dsimp only [rename]
  rw [hinner, Scope.lookup_rename hf]
  cases (scopes.headD []).lookup name with
  | some symbol => rfl
  | none =>
      dsimp only
      rw [SymbolTable.add_rename]
      simp [rename, Scope.rename, Event.rename]

end Lookup

/-! ## Expressions -/

section Expressions

variable {f : String → String} {find? find'? : String → Option SymbolId}

/-- The end of a computation without state, renamed. -/
def renameExcept {α : Type} (f : String → String) (onValue : α → α) :
    Except Diagnostic α → Except Diagnostic α
  | .ok value => .ok (onValue value)
  | .error diagnostic => .error (diagnostic.rename f)

mutual

theorem resolve_relabel (hfind : ∀ name, find'? (f name) = find? name) : (value : Expr) →
    (value.relabel (onName f)).resolve find'? =
      renameExcept f (Expr.relabel (onName f)) (value.resolve find?)
  | .literal .. | .read .. => rfl
  | .var name symbol type => by
      change Expr.resolve find'? (.var (f name) symbol type) = _
      rw [Expr.resolve, Expr.resolve, hfind]
      cases find? name <;> rfl
  | .unary operator operand type => by
      rw [Expr.relabel, Expr.resolve, Expr.resolve, resolve_relabel hfind operand]
      cases operand.resolve find? <;> rfl
  | .binary operator left right type => by
      rw [Expr.relabel, Expr.resolve, Expr.resolve, resolve_relabel hfind left,
        resolve_relabel hfind right]
      cases left.resolve find? with
      | error diagnostic => rfl
      | ok left => cases right.resolve find? <;> rfl
  | .conversion operand type => by
      rw [Expr.relabel, Expr.resolve, Expr.resolve, resolve_relabel hfind operand]
      cases operand.resolve find? <;> rfl
  | .load place type => by
      rw [Expr.relabel, Expr.resolve, Expr.resolve, resolve_relabel hfind place]
      cases place.resolve find? <;> rfl
  | .glue fields type => by
      rw [Expr.relabel, Expr.resolve, Expr.resolve, resolveFields_relabelFields hfind fields]
      cases resolveFields find? fields <;> rfl
  | .dot base field position type => by
      rw [Expr.relabel, Expr.resolve, Expr.resolve, resolve_relabel hfind base]
      cases base.resolve find? <;> rfl
  | .index base position type => by
      rw [Expr.relabel, Expr.resolve, Expr.resolve, resolve_relabel hfind base]
      cases base.resolve find? <;> rfl

theorem resolveFields_relabelFields (hfind : ∀ name, find'? (f name) = find? name) :
    (fields : GlueFields) → resolveFields find'? (Expr.relabelFields (onName f) fields) =
      renameExcept f (Expr.relabelFields (onName f)) (resolveFields find? fields)
  | [] => rfl
  | (name, value) :: rest => by
      rw [Expr.relabelFields, resolveFields, resolveFields, resolve_relabel hfind value,
        resolveFields_relabelFields hfind rest]
      cases value.resolve find? with
      | error diagnostic => rfl
      | ok value => cases resolveFields find? rest <;> rfl

end

theorem resolveExprs_map_relabel (hfind : ∀ name, find'? (f name) = find? name)
    (values : List Expr) : resolveExprs find'? (values.map (Expr.relabel (onName f))) =
      renameExcept f (List.map (Expr.relabel (onName f))) (resolveExprs find? values) := by
  induction values with
  | nil => rfl
  | cons value rest ih =>
      rw [List.map_cons, resolveExprs, resolveExprs, resolve_relabel hfind value, ih]
      cases value.resolve find? with
      | error diagnostic => rfl
      | ok value => cases resolveExprs find? rest <;> rfl

end Expressions

/-! ## Statements -/

namespace Resolve

variable {α : Type} {f : String → String}

theorem renames_ofExcept {onValue : α → α} (result : Except Diagnostic α) :
    Renames f (Scoping.rename f) onValue (ofExcept result)
      (ofExcept (renameExcept f onValue result)) := by
  cases result with
  | ok value => exact renames_pure value
  | error diagnostic => exact renames_refuse diagnostic

/-- A step in a scope of its own. -/
theorem renames_inScope {onValue : α → α} {body renamed : ResolveM α}
    (h : Renames f (Scoping.rename f) onValue body renamed) :
    Renames f (Scoping.rename f) onValue (inScope body) (inScope renamed) := by
  have hpush (scoping : Scoping) : (scoping.rename f).push = scoping.push.rename f := rfl
  have hpop (scoping : Scoping) : (scoping.rename f).pop = scoping.pop.rename f := by
    simp [Scoping.pop, Scoping.rename]
  refine (renames_modify hpush).andThen fun _ => h.bind fun result => ?_
  exact (renames_modify hpop).andThen fun _ => renames_pure result

section Steps

variable (hf : Function.Injective f)

include hf

theorem renames_expr (value : Expr) :
    Renames f (Scoping.rename f) (Expr.relabel (onName f)) (expr value)
      (expr (value.relabel (onName f))) := by
  refine renames_get.bind fun scoping => ?_
  rw [resolve_relabel (scoping.find?_rename hf) value]
  exact renames_ofExcept _

theorem renames_exprs (values : List Expr) :
    Renames f (Scoping.rename f) (List.map (Expr.relabel (onName f))) (exprs values)
      (exprs (values.map (Expr.relabel (onName f)))) := by
  refine renames_get.bind fun scoping => ?_
  rw [resolveExprs_map_relabel (scoping.find?_rename hf) values]
  exact renames_ofExcept _

theorem renames_expr? (value : Option Expr) :
    Renames f (Scoping.rename f) (Option.map (Expr.relabel (onName f))) (expr? value)
      (expr? (value.map (Expr.relabel (onName f)))) := by
  cases value with
  | some value => exact (renames_expr hf value).bind fun _ => renames_pure (some _)
  | none => exact renames_pure none

theorem renames_declare (name : String) (origin : Origin) :
    Renames f (Scoping.rename f) id (declare name origin) (declare (f name) origin) :=
  renames_modifyGet fun scoping => scoping.declare_rename hf name origin

theorem renames_target (form : BindingForm) (name : String) :
    Renames f (Scoping.rename f) id (target form name) (target form (f name)) := by
  cases form with
  | declaration => exact renames_declare hf name .declaration
  | assignment =>
      refine renames_get.bind fun scoping => ?_
      rw [scoping.find?_rename hf name]
      cases scoping.find? name with
      | some symbol => exact renames_pure symbol
      | none => exact renames_declare hf name .assignment

end Steps

mutual

/-- Resolution of a renamed statement. -/
theorem renames_stmt (hf : Function.Injective f) : (st : Stmt) →
    Renames f (Scoping.rename f) (Stmt.relabel (onName f)) (stmt st)
      (stmt (st.relabel (onName f)))
  | .bind form name written value symbol => by
      rw [Stmt.relabel, stmt, stmt]
      refine (renames_expr? hf value).bind fun value => ?_
      exact (renames_target hf form name).andThen fun symbol =>
        renames_pure (Stmt.bind form name written value (some symbol))
  | .print value => by
      rw [Stmt.relabel, stmt, stmt]
      exact (renames_expr hf value).bind fun value => renames_pure (Stmt.print value)
  | .evaluate value => by
      rw [Stmt.relabel, stmt, stmt]
      exact (renames_expr hf value).bind fun value => renames_pure (Stmt.evaluate value)
  | .branch test yes none => by
      rw [Stmt.relabel, stmt, stmt]
      refine (renames_expr hf test).bind fun test => ?_
      exact (renames_inScope (renames_stmts hf yes)).bind fun yes =>
        renames_pure (Stmt.branch test yes none)
  | .branch test yes (some no) => by
      rw [Stmt.relabel, stmt, stmt]
      refine (renames_expr hf test).bind fun test => ?_
      refine (renames_inScope (renames_stmts hf yes)).bind fun yes => ?_
      exact (renames_inScope (renames_stmts hf no)).bind fun no =>
        renames_pure (Stmt.branch test yes (some no))
  | .whileLoop test body => by
      rw [Stmt.relabel, stmt, stmt]
      refine (renames_expr hf test).bind fun test => ?_
      exact (renames_inScope (renames_stmts hf body)).bind fun body =>
        renames_pure (Stmt.whileLoop test body)
  | .forLoop name symbol bounds body => by
      rw [Stmt.relabel, stmt, stmt]
      refine renames_inScope ((renames_exprs hf bounds).bind fun bounds => ?_)
      refine (renames_declare hf name .loopVariable).andThen fun symbol => ?_
      exact (renames_inScope (renames_stmts hf body)).bind fun body =>
        renames_pure (Stmt.forLoop name (some symbol) bounds body)
  | .block body => by
      rw [Stmt.relabel, stmt, stmt]
      exact (renames_inScope (renames_stmts hf body)).bind fun body =>
        renames_pure (Stmt.block body)

theorem renames_stmts (hf : Function.Injective f) : (body : List Stmt) →
    Renames f (Scoping.rename f) (Stmt.relabelBody (onName f)) (stmts body)
      (stmts (Stmt.relabelBody (onName f) body))
  | [] => renames_pure []
  | first :: rest => by
      rw [Stmt.relabelBody, stmts, stmts]
      refine (renames_stmt hf first).bind fun first => ?_
      exact (renames_stmts hf rest).bind fun rest => renames_pure (first :: rest)

end

theorem renames_program (hf : Function.Injective f) (body : Program) :
    Renames f (Scoping.rename f) (Stmt.relabelBody (onName f)) (program body)
      (program (Stmt.relabelBody (onName f) body)) := by
  have hlog (scoping : Scoping) :
      { scoping.rename f with log :=
          (scoping.rename f).log.push (.resolved (scoping.rename f).symbols.size) } =
        Scoping.rename f
          { scoping with log := scoping.log.push (.resolved scoping.symbols.size) } := by
    simp [Scoping.rename, SymbolTable.size_rename, Event.rename]
  refine (renames_inScope (renames_stmts hf body)).bind fun body => ?_
  exact (renames_modify hlog).andThen fun _ => renames_pure body

end Resolve

/-- Resolution commutes with every injective renaming. -/
theorem resolve_rename {f : String → String} (hf : Function.Injective f) (body : Program)
    (log : Array Event) :
    Frontend.resolve (Stmt.relabelBody (onName f) body) (log.map (Event.rename f)) =
      renameResult f (Array.map (Event.rename f))
        (Prod.map (Stmt.relabelBody (onName f)) (SymbolTable.rename f))
        (Frontend.resolve body log) := by
  have hstart : ({ Scoping.empty with log := log.map (Event.rename f) } : Scoping) =
      Scoping.rename f { Scoping.empty with log := log } := by
    simp [Scoping.rename, Scoping.empty, SymbolTable.rename, SymbolTable.empty]
  unfold Frontend.resolve
  rw [hstart, Resolve.renames_program hf body]
  cases Resolve.program body { Scoping.empty with log := log } <;> rfl

end FlexWidth
