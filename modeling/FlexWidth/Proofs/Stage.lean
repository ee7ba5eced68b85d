import FlexWidth.Failure

/-!
# Running a stage

Every stage of the front end is a computation `EStateM Failure σ`.  A proof about
a stage either computes, and then rewrites with the equations below one step at a
time, or it states what the stage promises from a given state: `Ends` is such a
promise, with one condition for a result and one for a failure.  `Ends.bind` is
the only rule that later proofs need to take a computation apart.  A promise about the
results alone, whatever the state, is `Yields`.
-/

namespace FlexWidth

variable {σ α β : Type}

/-! ## Single steps -/

theorem run_bind (stage : EStateM Failure σ α) (next : α → EStateM Failure σ β) (start : σ) :
    (stage >>= next) start =
      match stage start with
      | .ok value middle => next value middle
      | .error failure middle => .error failure middle := by
  change EStateM.bind stage next start = _
  unfold EStateM.bind
  cases stage start <;> rfl

theorem run_bind_ok {stage : EStateM Failure σ α} {start middle : σ} {value : α}
    (h : stage start = .ok value middle) (next : α → EStateM Failure σ β) :
    (stage >>= next) start = next value middle := by
  rw [run_bind, h]

theorem run_bind_error {stage : EStateM Failure σ α} {start middle : σ} {failure : Failure}
    (h : stage start = .error failure middle) (next : α → EStateM Failure σ β) :
    (stage >>= next) start = .error failure middle := by
  rw [run_bind, h]

@[simp] theorem run_pure (value : α) (start : σ) :
    (pure value : EStateM Failure σ α) start = .ok value start := rfl

@[simp] theorem run_get (start : σ) : (get : EStateM Failure σ σ) start = .ok start start := rfl

@[simp] theorem run_modify (f : σ → σ) (start : σ) :
    (modify f : EStateM Failure σ PUnit) start = .ok ⟨⟩ (f start) := rfl

@[simp] theorem run_modifyGet (f : σ → α × σ) (start : σ) :
    (modifyGet f : EStateM Failure σ α) start = .ok (f start).1 (f start).2 := rfl

@[simp] theorem run_refuse (diagnostic : Diagnostic) (start : σ) :
    (refuse diagnostic : EStateM Failure σ α) start = .error (.refused diagnostic) start := rfl

@[simp] theorem run_fault (broken : Fault) (start : σ) :
    (fault broken : EStateM Failure σ α) start = .error (.broken broken) start := rfl

@[simp] theorem run_orFault_some (missing : Fault) (value : α) (start : σ) :
    orFault missing (some value) start = .ok value start := rfl

@[simp] theorem run_orRefuse_some (diagnostic : Diagnostic) (value : α) (start : σ) :
    orRefuse diagnostic (some value) start = .ok value start := rfl

@[simp] theorem run_orRefuse_none (diagnostic : Diagnostic) (start : σ) :
    orRefuse diagnostic (none : Option α) start = .error (.refused diagnostic) start := rfl

theorem eq_of_run_orRefuse {diagnostic : Diagnostic} {value : Option α} {found : α}
    {start final : σ} (h : orRefuse diagnostic value start = .ok found final) :
    final = start ∧ value = some found := by
  cases value with
  | some value =>
      cases h
      exact ⟨rfl, rfl⟩
  | none => cases h

/-- A sequence yields a result exactly if its first part does and its second part
does from there. -/
theorem bind_eq_ok_iff {stage : EStateM Failure σ α} {next : α → EStateM Failure σ β}
    {start final : σ} {result : β} :
    (stage >>= next) start = .ok result final ↔
      ∃ value middle, stage start = .ok value middle ∧ next value middle = .ok result final := by
  rw [run_bind]
  cases hstage : stage start with
  | ok value middle =>
      constructor
      · intro hnext
        exact ⟨value, middle, rfl, hnext⟩
      · rintro ⟨value, middle, heq, hnext⟩
        cases heq
        exact hnext
  | error failure middle => simp

/-- A sequence fails where its first part does, or its second part from there. -/
theorem bind_eq_error_iff {stage : EStateM Failure σ α} {next : α → EStateM Failure σ β}
    {start final : σ} {failure : Failure} :
    (stage >>= next) start = .error failure final ↔ stage start = .error failure final ∨
      ∃ value middle, stage start = .ok value middle ∧
        next value middle = .error failure final := by
  rw [run_bind]
  cases hstage : stage start with
  | ok value middle =>
      constructor
      · intro hnext
        exact Or.inr ⟨value, middle, rfl, hnext⟩
      · rintro (heq | ⟨value, middle, heq, hnext⟩)
        · cases heq
        · cases heq
          exact hnext
  | error failure middle => simp

/-- Two sequences run the same if their first parts do, and their second parts from there. -/
theorem run_bind_congr {stage stage' : EStateM Failure σ α} {next next' : α → EStateM Failure σ β}
    {start : σ} (h : stage start = stage' start)
    (hnext : ∀ value middle, stage' start = .ok value middle →
      next value middle = next' value middle) :
    (stage >>= next) start = (stage' >>= next') start := by
  rw [run_bind, run_bind, h]
  cases hrun : stage' start with
  | ok value middle => exact hnext value middle hrun
  | error failure middle => rfl

theorem outcome_eq_ok_iff {σ α : Type} {result : EStateM.Result Failure σ α} {value : α} :
    outcome result = .ok value ↔ ∃ final, result = .ok value final := by
  cases result <;> simp [outcome]

theorem outcome_eq_error_iff {σ α : Type} {result : EStateM.Result Failure σ α}
    {failure : Failure} :
    outcome result = .error failure ↔ ∃ final, result = .error failure final := by
  cases result <;> simp [outcome]

/-! ## Promises -/

/-- Run from `start`, a stage ends with a result that satisfies `post` or with a
failure that satisfies `failed`. -/
def Ends (stage : EStateM Failure σ α) (start : σ) (post : α → σ → Prop)
    (failed : Failure → σ → Prop) : Prop :=
  match stage start with
  | .ok value final => post value final
  | .error failure final => failed failure final

variable {stage : EStateM Failure σ α} {start : σ} {post : α → σ → Prop}
  {failed : Failure → σ → Prop}

theorem Ends.of_ok {value : α} {final : σ} (h : stage start = .ok value final)
    (hpost : post value final) : Ends stage start post failed := by
  rw [Ends, h]
  exact hpost

theorem Ends.of_error {failure : Failure} {final : σ} (h : stage start = .error failure final)
    (hfailed : failed failure final) : Ends stage start post failed := by
  rw [Ends, h]
  exact hfailed

theorem Ends.post_of_ok {value : α} {final : σ} (hends : Ends stage start post failed)
    (h : stage start = .ok value final) : post value final := by
  rwa [Ends, h] at hends

theorem Ends.failed_of_error {failure : Failure} {final : σ} (hends : Ends stage start post failed)
    (h : stage start = .error failure final) : failed failure final := by
  rwa [Ends, h] at hends

theorem ends_pure {value : α} (hpost : post value start) : Ends (pure value) start post failed :=
  hpost

theorem ends_refuse {diagnostic : Diagnostic} (hfailed : failed (.refused diagnostic) start) :
    Ends (refuse diagnostic) start post failed := hfailed

/-- A sequence keeps its promise if its first part promises what its second part
needs. -/
theorem Ends.bind {next : α → EStateM Failure σ β} {middle : α → σ → Prop} {post : β → σ → Prop}
    (hstage : Ends stage start middle failed)
    (hnext : ∀ value state, middle value state → Ends (next value) state post failed) :
    Ends (stage >>= next) start post failed := by
  unfold Ends at hstage ⊢
  rw [run_bind]
  cases hrun : stage start with
  | ok value state =>
      rw [hrun] at hstage
      exact hnext value state hstage
  | error failure state =>
      rw [hrun] at hstage
      exact hstage

/-- A sequence whose first part is known to succeed. -/
theorem Ends.of_bind {next : α → EStateM Failure σ β} {post : β → σ → Prop} {value : α}
    {middle : σ} (h : stage start = .ok value middle)
    (hnext : Ends (next value) middle post failed) : Ends (stage >>= next) start post failed := by
  rw [Ends, run_bind_ok h]
  exact hnext

/-- A promise may be weakened. -/
theorem Ends.weaken {post' : α → σ → Prop} {failed' : Failure → σ → Prop}
    (hends : Ends stage start post failed)
    (hpost : ∀ value final, post value final → post' value final)
    (hfailed : ∀ failure final, failed failure final → failed' failure final) :
    Ends stage start post' failed' := by
  unfold Ends at hends ⊢
  cases hrun : stage start with
  | ok value final =>
      rw [hrun] at hends
      exact hpost value final hends
  | error failure final =>
      rw [hrun] at hends
      exact hfailed failure final hends

/-! ## Results from any state -/

/-- Whatever state it starts in, every result of the stage satisfies `post`. -/
def Yields (stage : EStateM Failure σ α) (post : α → Prop) : Prop :=
  ∀ start value final, stage start = .ok value final → post value

section Yields

variable {post : α → Prop}

theorem yields_pure {value : α} (h : post value) :
    Yields (pure value : EStateM Failure σ α) post := by
  intro start result final hrun
  cases hrun
  exact h

theorem yields_refuse (diagnostic : Diagnostic) :
    Yields (refuse diagnostic : EStateM Failure σ α) post := by
  intro start result final hrun
  cases hrun

theorem yields_fault (broken : Fault) : Yields (fault broken : EStateM Failure σ α) post := by
  intro start result final hrun
  cases hrun

theorem yields_orRefuse (diagnostic : Diagnostic) (value : Option α) :
    Yields (orRefuse diagnostic value : EStateM Failure σ α) fun result => value = some result := by
  cases value with
  | some value => exact yields_pure rfl
  | none => exact yields_refuse diagnostic

theorem Yields.bind {next : α → EStateM Failure σ β} {post' : β → Prop} (h : Yields stage post)
    (hnext : ∀ value, post value → Yields (next value) post') : Yields (stage >>= next) post' := by
  intro start result final hrun
  obtain ⟨value, middle, hstage, hrest⟩ := bind_eq_ok_iff.mp hrun
  exact hnext value (h start value middle hstage) middle result final hrest

/-- The first part of a sequence may yield anything. -/
theorem Yields.of_forall {next : α → EStateM Failure σ β} {post' : β → Prop}
    (hnext : ∀ value, Yields (next value) post') : Yields (stage >>= next) post' := by
  intro start result final hrun
  obtain ⟨value, middle, -, hrest⟩ := bind_eq_ok_iff.mp hrun
  exact hnext value middle result final hrest

/-- The second parts of two sequences need to be the same only after what the first yields. -/
theorem Yields.bind_congr {next next' : α → EStateM Failure σ β} (h : Yields stage post)
    (hnext : ∀ value, post value → next value = next' value) :
    stage >>= next = stage >>= next' := by
  funext start
  refine run_bind_congr rfl fun value middle hstage => ?_
  rw [hnext value (h start value middle hstage)]

theorem Yields.weaken {post' : α → Prop} (h : Yields stage post)
    (hpost : ∀ value, post value → post' value) : Yields stage post' :=
  fun start value final hrun => hpost value (h start value final hrun)

end Yields

end FlexWidth
