import FlexWidth.Frontend
import FlexWidth.Proofs.Scope.Simulation

/-!
# What resolution reports

Resolution adds nothing to the log but the names it declares, until it is done, and it fails only
because a name is not bound.  Both are promised of every step (`Announces`), whatever the state.
-/

namespace FlexWidth

/-- The event is that a name got a symbol. -/
def Event.IsDeclaration (event : Event) : Prop :=
  ∃ name symbol depth, event = .declared name symbol depth

/-- The second log is the first one with declarations added. -/
def AddsDeclarations (log later : Array Event) : Prop :=
  ∃ events : Array Event, later = log ++ events ∧ ∀ event ∈ events, event.IsDeclaration

theorem AddsDeclarations.refl (log : Array Event) : AddsDeclarations log log :=
  ⟨#[], by simp, by simp⟩

theorem AddsDeclarations.trans {log middle later : Array Event} (h : AddsDeclarations log middle)
    (h' : AddsDeclarations middle later) : AddsDeclarations log later := by
  obtain ⟨events, rfl, hevents⟩ := h
  obtain ⟨events', rfl, hevents'⟩ := h'
  refine ⟨events ++ events', Array.append_assoc, fun event hevent => ?_⟩
  rcases Array.mem_append.mp hevent with hevent | hevent
  · exact hevents event hevent
  · exact hevents' event hevent

namespace Resolve

variable {α β : Type}

/-- The stage reports declarations only, and fails only because a name is not bound. -/
def Announces (stage : ResolveM α) : Prop :=
  ∀ s, Ends stage s (fun _ final => AddsDeclarations s.log final.log) fun failure _ =>
    ∃ name, failure = .refused (.unresolvedName name)

theorem announces_pure (value : α) : Announces (pure value) := fun s => ends_pure (.refl s.log)

theorem Announces.bind {stage : ResolveM α} {next : α → ResolveM β} (h : Announces stage)
    (hnext : ∀ value, Announces (next value)) : Announces (stage >>= next) := by
  intro s
  refine Ends.bind (h s) fun value middle hmiddle => ?_
  exact (hnext value middle).weaken (fun _ _ hfinal => hmiddle.trans hfinal) fun _ _ h => h

/-- A step on the scopes alone. -/
theorem announces_modify {f : Scoping → Scoping} (h : ∀ s, (f s).log = s.log) :
    Announces (modify f) := by
  intro s
  refine Ends.of_ok (run_modify f s) ?_
  rw [h]
  exact .refl s.log

/-! ## Expressions -/

theorem announces_ofExcept {symbolOf : String → Option SymbolId} {names : List String} (value : α) :
    Announces (ofExcept (Reference.ifBound symbolOf names value)) := by
  intro s
  unfold Reference.ifBound
  split
  · exact ends_refuse ⟨_, rfl⟩
  · exact ends_pure (.refl s.log)

theorem announces_expr (value : Expr) : Announces (expr value) := by
  intro s
  rw [expr]
  refine .of_bind (run_get s) ?_
  rw [resolve_eq_ifBound]
  exact announces_ofExcept _ s

theorem announces_exprs (values : List Expr) : Announces (exprs values) := by
  intro s
  rw [exprs]
  refine .of_bind (run_get s) ?_
  rw [resolveExprs_eq_ifBound]
  exact announces_ofExcept _ s

theorem announces_expr? (value : Option Expr) : Announces (expr? value) := by
  cases value with
  | some value => exact (announces_expr value).bind fun _ => announces_pure _
  | none => exact announces_pure none

/-! ## Names -/

theorem announces_declare (name : String) (origin : Origin) : Announces (declare name origin) := by
  intro s
  refine Ends.of_ok (run_modifyGet _ s) ?_
  unfold Scoping.declare
  dsimp only
  split
  · exact .refl s.log
  · refine ⟨#[.declared name _ _], Array.push_eq_append, fun event hevent => ?_⟩
    exact ⟨_, _, _, by simpa using hevent⟩

theorem announces_target (form : BindingForm) (name : String) : Announces (target form name) := by
  cases form with
  | declaration => exact announces_declare name .declaration
  | assignment =>
      intro s
      refine Ends.of_bind (run_get s) ?_
      split
      · exact announces_pure _ s
      · exact announces_declare name .assignment s

theorem Announces.inScope {body : ResolveM α} (h : Announces body) : Announces (inScope body) := by
  have hpush : Announces (modify Scoping.push) := announces_modify fun _ => rfl
  have hpop : Announces (modify Scoping.pop) := announces_modify fun _ => rfl
  exact hpush.bind fun _ => h.bind fun _ => hpop.bind fun _ => announces_pure _

/-! ## Statements -/

mutual

theorem announces_stmt : (st : Stmt) → Announces (stmt st)
  | .bind form name _ value _ => by
      rw [stmt]
      refine (announces_expr? value).bind fun _ => ?_
      exact (announces_target form name).bind fun _ => announces_pure _
  | .print value => by
      rw [stmt]
      exact (announces_expr value).bind fun _ => announces_pure _
  | .evaluate value => by
      rw [stmt]
      exact (announces_expr value).bind fun _ => announces_pure _
  | .branch test yes none => by
      rw [stmt]
      refine (announces_expr test).bind fun _ => ?_
      exact (announces_stmts yes).inScope.bind fun _ => announces_pure _
  | .branch test yes (some no) => by
      rw [stmt]
      refine (announces_expr test).bind fun _ => (announces_stmts yes).inScope.bind fun _ => ?_
      exact (announces_stmts no).inScope.bind fun _ => announces_pure _
  | .whileLoop test body => by
      rw [stmt]
      refine (announces_expr test).bind fun _ => ?_
      exact (announces_stmts body).inScope.bind fun _ => announces_pure _
  | .forLoop name _ bounds body => by
      rw [stmt]
      refine Announces.inScope ?_
      refine (announces_exprs bounds).bind fun _ => ?_
      refine (announces_declare name .loopVariable).bind fun _ => ?_
      exact (announces_stmts body).inScope.bind fun _ => announces_pure _
  | .block body => by
      rw [stmt]
      exact (announces_stmts body).inScope.bind fun _ => announces_pure _

theorem announces_stmts : (body : List Stmt) → Announces (stmts body)
  | [] => by
      rw [stmts]
      exact announces_pure []
  | first :: rest => by
      rw [stmts]
      refine (announces_stmt first).bind fun _ => ?_
      exact (announces_stmts rest).bind fun _ => announces_pure _

end

end Resolve

/-- **Resolution** reports the names it declares and at last how many there are, or fails because
a name is not bound. -/
theorem Frontend.ends_resolve (body : Program) (log : Array Event) :
    Ends (Frontend.resolve body) log
      (fun result final => ∃ middle, AddsDeclarations log middle ∧
        final = middle.push (.resolved result.2.size))
      fun failure _ => ∃ name, failure = .refused (.unresolvedName name) := by
  have hblock := (Resolve.announces_stmts body).inScope { Scoping.empty with log := log }
  unfold Ends Frontend.resolve Resolve.program Resolve.block
  rw [run_bind]
  unfold Ends at hblock
  cases hrun : Resolve.inScope (Resolve.stmts body) { Scoping.empty with log := log } with
  | ok result scoping =>
      rw [hrun] at hblock
      exact ⟨scoping.log, hblock, rfl⟩
  | error failure scoping =>
      rw [hrun] at hblock
      exact hblock

end FlexWidth
