import FlexWidth.Proofs.Typing.Calls
import FlexWidth.Proofs.Typing.Frame

/-!
# Sound states

A program whose expressions are bare is walked through from a sound state.  Whatever its
symbols are, every statement that is reached is reached in a sound state (`Arrives.sound`).

The promise of a stage is `Secures`: if it succeeds, the state it leaves is sound and later
than the first.  Some computations are prefixes of what a statement does, up to the point
where it converts a value; for these, `Secures` also says what is known about the value.
-/

namespace FlexWidth.Check

/-! ## Promises -/

/-- If the stage succeeds, it leads to a later state that is sound. -/
def Secures {α : Type} (stage : CheckM α) (s : Checking) (post : α → Checking → Prop) : Prop :=
  Ends stage s (fun value final => final.Sound ∧ s.Advances final ∧ post value final) fun _ _ => True

section Rules

variable {α β : Type} {stage : CheckM α} {s : Checking} {post : α → Checking → Prop}

theorem secures_pure {value : α} (hs : s.Sound) (h : post value s) :
    Secures (pure value) s post :=
  ends_pure ⟨hs, .refl s, h⟩

theorem Secures.bind {next : α → CheckM β} {post' : β → Checking → Prop}
    (h : Secures stage s post)
    (hnext : ∀ value middle, middle.Sound → s.Advances middle → post value middle →
      Secures (next value) middle post') : Secures (stage >>= next) s post' := by
  refine Ends.bind h ?_
  rintro value middle ⟨hs, hadvances, hpost⟩
  refine (hnext value middle hs hadvances hpost).weaken ?_ fun _ _ h => h
  rintro result final ⟨hs', hadvances', hpost'⟩
  exact ⟨hs', hadvances.trans hadvances', hpost'⟩

theorem Secures.of_bind {next : α → CheckM β} {post' : β → Checking → Prop} {value : α}
    (h : stage s = .ok value s) (hnext : Secures (next value) s post') :
    Secures (stage >>= next) s post' :=
  Ends.of_bind h hnext

theorem Secures.weaken {post' : α → Checking → Prop} (h : Secures stage s post)
    (hpost : ∀ value final, post value final → post' value final) : Secures stage s post' :=
  Ends.weaken h (fun value final h => ⟨h.1, h.2.1, hpost value final h.2.2⟩) fun _ _ h => h

theorem ChecksOr.secures {failed : Failure → Prop} (h : ChecksOr failed stage s post) :
    Secures stage s post :=
  Ends.weaken h (fun _ _ h => ⟨h.1.sound, h.1.advances, h.2⟩) fun _ _ _ => trivial

theorem Checks.secures (h : Checks stage s post) : Secures stage s post := ChecksOr.secures h

end Rules

/-! ## Parts of statements -/

section Statements

variable {s : Checking} {symbol : SymbolId} {source value : Expr} {type : TypeId}

theorem secures_symbolType? (hs : s.Sound) (symbol : SymbolId) :
    Secures (symbolType? symbol) s fun found final =>
      final = s ∧ s.symbols.type? symbol = found := by
  rw [symbolType?]
  refine .of_bind (run_get s) ?_
  cases hknown : s.symbols.get? symbol with
  | none => trivial
  | some known =>
      refine .of_bind (run_orFault_some _ _ s) (secures_pure hs ⟨rfl, ?_⟩)
      rw [SymbolTable.type?, hknown, Option.bind_some]

/-- A symbol may receive a concrete type. -/
theorem secures_setSymbolType (hs : s.Sound) (hconcrete : s.types.Concrete type)
    (symbol : SymbolId) :
    Secures (setSymbolType symbol type) s fun _ final => final.types = s.types := by
  cases htype : s.symbols.type? symbol with
  | some old => exact Ends.of_ok (run_setSymbolType_typed htype type) ⟨hs, .refl s, rfl⟩
  | none =>
      rw [setSymbolType]
      refine Ends.of_bind (run_get s) ?_
      cases hset : s.symbols.setType? symbol type with
      | none => trivial
      | some found =>
          obtain ⟨done, symbols⟩ := found
          refine ⟨⟨hs.sound, fun {id other} hid => ?_⟩, advances_of_setType? hset, rfl⟩
          -- only the symbol itself has a type that it did not have
          have hlt : symbol.index < s.symbols.size := by
            by_contra hge
            have hnone : s.symbols.get? symbol = none :=
              Array.getElem?_eq_none (Nat.le_of_not_lt hge)
            simp [SymbolTable.setType?, hnone] at hset
          obtain ⟨later, hlater, -, -, htypes⟩ :=
            SymbolTable.exists_setType?_of_fresh hlt htype type
          cases hlater.symm.trans hset
          rw [htypes] at hid
          split at hid
          · cases hid
            exact hconcrete
          · exact hs.concrete hid

theorem secures_declareType (hs : s.Sound) (name : String) (symbol : SymbolId)
    (written : Option Ascription) :
    Secures (declareType name symbol written) s fun _ _ => True := by
  cases written with
  | none => exact secures_pure hs trivial
  | some written =>
      by_cases hwidth : written = .int 0
      · subst hwidth
        trivial
      · refine (checks_ascription hs hwidth).secures.bind ?_
        intro id middle hmiddle _ hid
        have hconcrete : middle.types.Concrete id :=
          ⟨_, hid, by cases written <;> simp [Ascription.ty]⟩
        refine (secures_setSymbolType hmiddle hconcrete symbol).bind fun done final hfinal _ _ => ?_
        cases done with
        | true => exact secures_pure hfinal trivial
        | false => trivial

/-- A bare expression elaborates to what its check yields, if it does. -/
theorem checksOr_expr (hbare : source.Bare) (hs : s.Sound) :
    ChecksOr (fun _ => True) (expr source) s fun checked final =>
      Elaborates final.types final.symbols source checked :=
  Ends.weaken (infers_expr hbare hs) (fun _ _ h => h) fun _ _ _ => trivial

theorem checksOr_bareExprs {bounds : List Expr} (hbare : ∀ bound ∈ bounds, bound.Bare)
    (hs : s.Sound) :
    ChecksOr (fun _ => True) (exprs bounds) s fun checked final =>
      List.Forall₂ (Elaborates final.types final.symbols) bounds checked :=
  checksOr_exprs (fun bound hbound _ hreaches => checksOr_expr (hbare bound hbound) hreaches.sound)
    hs

theorem secures_bindingValue (hbare : source.Bare) (hs : s.Sound) (name : String)
    (written : Option Ascription) (symbol : SymbolId) :
    Secures (bindingValue name written source symbol) s fun result final =>
      Elaborates final.types final.symbols source result.1 ∧
        final.symbols.type? symbol = result.2 := by
  refine (checksOr_expr hbare hs).secures.bind fun checked middle hmiddle _ hchecked => ?_
  refine (secures_declareType hmiddle name symbol written).bind fun _ later hlater hadvances _ => ?_
  refine (secures_symbolType? hlater symbol).bind ?_
  rintro found _ hsound - ⟨rfl, hfound⟩
  exact secures_pure hsound ⟨hchecked.grow hadvances.grows hadvances.keeps, hfound⟩

/-- The type that a variable takes from its first value, to which the value converts. -/
theorem secures_firstBinding (hs : s.Sound) (h : Elaborates s.types s.symbols source value)
    (name : String) (symbol : SymbolId) :
    Secures (do
      let type ← firstType name (← typeOf value)
      let _ ← setSymbolType symbol type
      return type) s fun type final => Elaborates final.types final.symbols source value ∧
        ∃ ty, final.types.Checked value ty ∧ final.types.get? type = some ty.settled := by
  obtain ⟨ty, hchecked⟩ := h.exists_checked hs
  obtain ⟨id, hid, hty, -⟩ := id hchecked
  refine .of_bind (run_typeOf hid) ?_
  refine (checks_firstType hs hty name).secures.bind fun type middle hmiddle hadvances htype => ?_
  refine (secures_setSymbolType hmiddle ⟨_, htype, ty.settled_ne_flexible⟩ symbol).bind ?_
  intro _ final hfinal hadvances' htypes
  have hpath := hadvances.trans hadvances'
  exact secures_pure hfinal ⟨h.grow hpath.grows hpath.keeps, ty, hchecked.grow hpath.grows,
    htypes ▸ htype⟩

theorem secures_storeFirst (hs : s.Sound) (h : Elaborates s.types s.symbols source value)
    (name : String) (symbol : SymbolId) :
    Secures (storeFirst name symbol value) s fun _ _ => True := by
  have heq : storeFirst name symbol value = (do
      let type ← firstType name (← typeOf value)
      let _ ← setSymbolType symbol type
      return type) >>= convert value := by
    simp only [storeFirst, bind_assoc, pure_bind]
  rw [heq]
  refine (secures_firstBinding hs h name symbol).bind ?_
  rintro type middle hmiddle - ⟨hvalue, ty, hchecked, htype⟩
  refine (checks_convert hmiddle hvalue htype ty.settled_ne_flexible fun hbool => ?_).secures.weaken
    fun _ _ _ => trivial
  exact Ty.eq_bool_of_settled hbool ▸ hchecked.hasTy

theorem stmt_bind_eq (form : BindingForm) (name : String) (written : Option Ascription)
    (value : Expr) (symbol : SymbolId) :
    stmt (.bind form name written (some value) (some symbol)) = (do
      let (value, type) ← bindingValue name written value symbol
      match type with
      | some type =>
        let value ← storeTyped type value
        return .bind form name written (some value) (some symbol)
      | none =>
        let value ← storeFirst name symbol value
        return .bind form name written (some value) (some symbol)) := by
  simp only [stmt, expr?, store, bindingValue, orRefuse, bind_assoc, pure_bind]
  congr 1
  funext checked
  congr 1
  funext _
  congr 1
  funext found
  cases found <;> simp only [bind_assoc, pure_bind]

theorem secures_bind {form : BindingForm} {name : String} {written : Option Ascription}
    {values : Option Expr} (hbare : ∀ value ∈ values, value.Bare) (hs : s.Sound)
    (symbol : Option SymbolId) :
    Secures (stmt (.bind form name written values symbol)) s fun _ _ => True := by
  cases symbol with
  | none =>
      rw [stmt]
      trivial
  | some symbol =>
      cases values with
      | none =>
          rw [stmt]
          refine .of_bind (run_orRefuse_some _ _ s) (.of_bind (run_pure _ s) ?_)
          refine (secures_declareType hs name symbol written).bind fun _ middle hmiddle _ _ => ?_
          have hstore : Secures (store name symbol none) middle fun _ _ => True := by
            refine (secures_symbolType? hmiddle symbol).bind fun found later hlater _ _ => ?_
            cases found with
            | some type => exact secures_pure hlater trivial
            | none => trivial
          exact hstore.bind fun _ later hlater _ _ => secures_pure hlater trivial
      | some value =>
          rw [stmt_bind_eq]
          refine (secures_bindingValue (hbare value rfl) hs name written symbol).bind ?_
          rintro ⟨checked, found⟩ middle hmiddle - ⟨hchecked, hfound⟩
          cases found with
          | some type =>
              refine (checks_storeTyped hmiddle hchecked (hmiddle.concrete hfound)).secures.bind ?_
              exact fun _ later hlater _ _ => secures_pure hlater trivial
          | none =>
              refine Secures.bind (secures_storeFirst hmiddle hchecked name symbol) ?_
              exact fun _ later hlater _ _ => secures_pure hlater trivial

/-- The bounds of a loop and the type of its variable, to which they all convert. -/
theorem secures_boundsType {bounds : List Expr} (hbare : ∀ bound ∈ bounds, bound.Bare)
    (hs : s.Sound) (name : String) (symbol : SymbolId) :
    Secures (boundsType name symbol bounds) s fun result final =>
      List.Forall₂ (Elaborates final.types final.symbols) bounds result.1 ∧
        ∃ width, final.types.get? result.2.1 = some (.int width) ∧ ∀ bound ∈ result.1,
          ∃ boundTy, final.types.HasTy bound boundTy ∧ boundTy.ConvertsTo (.int width) := by
  refine (checksOr_bareExprs hbare hs).secures.bind fun checked middle hmiddle _ hchecked => ?_
  refine (checks_loopType hchecked hmiddle name).secures.bind ?_
  rintro type later hlater hadvances ⟨width, htype, hbounds⟩
  refine (secures_setSymbolType hlater ⟨_, htype, by simp⟩ symbol).bind ?_
  intro done final hfinal hadvances' htypes
  have hpath := hadvances.trans hadvances'
  exact secures_pure hfinal ⟨hchecked.imp fun _ _ h => h.grow hpath.grows hpath.keeps, width,
    htypes ▸ htype, htypes ▸ hbounds⟩

theorem loopBounds_eq (name : String) (symbol : SymbolId) (bounds : List Expr) :
    loopBounds name symbol bounds = (do
      let (bounds, type, done) ← boundsType name symbol bounds
      if done then convertAll type bounds else refuse (.duplicateDeclaration name)) := by
  simp only [loopBounds, boundsType, bind_assoc, pure_bind]

theorem secures_loopBounds {bounds : List Expr} (hbare : ∀ bound ∈ bounds, bound.Bare)
    (hs : s.Sound) (name : String) (symbol : SymbolId) :
    Secures (loopBounds name symbol bounds) s fun _ _ => True := by
  rw [loopBounds_eq]
  refine (secures_boundsType hbare hs name symbol).bind ?_
  rintro ⟨checked, type, done⟩ middle hmiddle - ⟨hchecked, width, htype, -⟩
  cases done with
  | true => exact (checks_convertAll hchecked hmiddle htype).secures.weaken fun _ _ _ => trivial
  | false => trivial

theorem secures_condition (hbare : source.Bare) (hs : s.Sound) :
    Secures (condition source) s fun _ _ => True :=
  (checksOr_condition (fun _ _ => trivial) (checksOr_expr hbare hs)).secures.weaken
    fun _ _ _ => trivial

end Statements

/-! ## Statements -/

mutual

/-- Checking a statement leads from a sound state to a sound one. -/
theorem secures_stmt : (st : Stmt) → (∀ value ∈ st.roots, value.Bare) → {s : Checking} →
    s.Sound → Secures (stmt st) s fun _ _ => True
  | .bind _ _ _ values symbol, hbare, s, hs => by
      refine secures_bind (fun value hvalue => hbare value ?_) hs symbol
      rw [Stmt.roots, Option.mem_toList]
      exact hvalue
  | .print value, hbare, s, hs => by
      have hexpr := checksOr_expr (hbare value (by simp [Stmt.roots])) hs
      rw [stmt]
      refine (checksOr_printed (fun _ _ => trivial) hexpr).secures.bind ?_
      exact fun _ final hfinal _ _ => secures_pure hfinal trivial
  | .evaluate value, hbare, s, hs => by
      have hexpr := checksOr_expr (hbare value (by simp [Stmt.roots])) hs
      rw [stmt]
      refine (checksOr_evaluated (fun _ _ => trivial) hexpr).secures.bind ?_
      exact fun _ final hfinal _ _ => secures_pure hfinal trivial
  | .branch test yes none, hbare, s, hs => by
      obtain ⟨htest, hyes⟩ := List.forall_mem_cons.mp hbare
      rw [stmt]
      refine (secures_condition htest hs).bind fun _ middle hmiddle _ _ => ?_
      exact (secures_stmts yes hyes hmiddle).bind fun _ final hfinal _ _ =>
        secures_pure hfinal trivial
  | .branch test yes (some no), hbare, s, hs => by
      obtain ⟨htest, hbodies⟩ := List.forall_mem_cons.mp hbare
      obtain ⟨hyes, hno⟩ := List.forall_mem_append.mp hbodies
      rw [stmt]
      refine (secures_condition htest hs).bind fun _ middle hmiddle _ _ => ?_
      refine (secures_stmts yes hyes hmiddle).bind fun _ later hlater _ _ => ?_
      exact (secures_stmts no hno hlater).bind fun _ final hfinal _ _ => secures_pure hfinal trivial
  | .whileLoop test body, hbare, s, hs => by
      obtain ⟨htest, hbody⟩ := List.forall_mem_cons.mp hbare
      rw [stmt]
      refine (secures_condition htest hs).bind fun _ middle hmiddle _ _ => ?_
      exact (secures_stmts body hbody hmiddle).bind fun _ final hfinal _ _ =>
        secures_pure hfinal trivial
  | .forLoop name none bounds body, hbare, s, hs => by
      rw [stmt]
      trivial
  | .forLoop name (some symbol) bounds body, hbare, s, hs => by
      obtain ⟨hbounds, hbody⟩ := List.forall_mem_append.mp hbare
      rw [stmt]
      refine .of_bind (run_orRefuse_some _ _ s) ?_
      refine (secures_loopBounds hbounds hs name symbol).bind fun _ middle hmiddle _ _ => ?_
      exact (secures_stmts body hbody hmiddle).bind fun _ final hfinal _ _ =>
        secures_pure hfinal trivial
  | .block body, hbare, s, hs => by
      rw [stmt]
      exact (secures_stmts body hbare hs).bind fun _ final hfinal _ _ => secures_pure hfinal trivial

theorem secures_stmts : (body : List Stmt) → (∀ value ∈ Stmt.bodyRoots body, value.Bare) →
    {s : Checking} → s.Sound → Secures (stmts body) s fun _ _ => True
  | [], _, _, hs => by
      rw [stmts]
      exact secures_pure hs trivial
  | first :: rest, hbare, _, hs => by
      obtain ⟨hfirst, hrest⟩ := List.forall_mem_append.mp hbare
      rw [stmts]
      refine (secures_stmt first hfirst hs).bind fun _ middle hmiddle _ _ => ?_
      exact (secures_stmts rest hrest hmiddle).bind fun _ final hfinal _ _ =>
        secures_pure hfinal trivial

end

/-- Whatever a statement does before it comes to another one leads from a state of `P` to a
state of `P`, if all expressions in it satisfy `Q`. -/
structure Carries (P : Checking → Prop) (Q : Expr → Prop) : Prop where
  stmt : ∀ {st st' : Stmt} {s t : Checking}, (∀ value ∈ st.roots, Q value) → P s →
    stmt st s = .ok st' t → P t
  stmts : ∀ {body body' : List Stmt} {s t : Checking}, (∀ value ∈ Stmt.bodyRoots body, Q value) →
    P s → stmts body s = .ok body' t → P t
  condition : ∀ {test test' : Expr} {s t : Checking}, Q test → P s →
    condition test s = .ok test' t → P t
  loopBounds : ∀ {name : String} {symbol : SymbolId} {bounds bounds' : List Expr}
    {s t : Checking}, (∀ bound ∈ bounds, Q bound) → P s →
    loopBounds name symbol bounds s = .ok bounds' t → P t

/-- The walk comes to statements of the program, in states of `P`. -/
theorem Arrives.carries {P : Checking → Prop} {Q : Expr → Prop} (hcarries : Carries P Q)
    {body : List Stmt} {st : Stmt} {s t : Checking} (h : Arrives body s st t)
    (hroots : ∀ value ∈ Stmt.bodyRoots body, Q value) (hs : P s) :
    P t ∧ ∀ value ∈ st.roots, Q value := by
  induction h with
  | here => exact ⟨hs, (List.forall_mem_append.mp hroots).1⟩
  | later hrun _ ih =>
      obtain ⟨hfirst, hrest⟩ := List.forall_mem_append.mp hroots
      exact ih hrest (hcarries.stmt hfirst hs hrun)
  | @yes _ _ _ _ no _ _ _ _ htest _ ih =>
      obtain ⟨hfirst, -⟩ := List.forall_mem_append.mp hroots
      -- the first branch is walked through whether or not there is a second one
      cases no with
      | none =>
          obtain ⟨hcondition, hyes⟩ := List.forall_mem_cons.mp hfirst
          exact ih hyes (hcarries.condition hcondition hs htest)
      | some no =>
          obtain ⟨hcondition, hbodies⟩ := List.forall_mem_cons.mp hfirst
          exact ih (List.forall_mem_append.mp hbodies).1 (hcarries.condition hcondition hs htest)
  | no htest hrun _ ih =>
      obtain ⟨hfirst, -⟩ := List.forall_mem_append.mp hroots
      obtain ⟨hcondition, hbodies⟩ := List.forall_mem_cons.mp hfirst
      obtain ⟨hyes, hno⟩ := List.forall_mem_append.mp hbodies
      exact ih hno (hcarries.stmts hyes (hcarries.condition hcondition hs htest) hrun)
  | whileLoop htest _ ih =>
      obtain ⟨hfirst, -⟩ := List.forall_mem_append.mp hroots
      obtain ⟨hcondition, hbody⟩ := List.forall_mem_cons.mp hfirst
      exact ih hbody (hcarries.condition hcondition hs htest)
  | forLoop hrun _ ih =>
      obtain ⟨hfirst, -⟩ := List.forall_mem_append.mp hroots
      obtain ⟨hbounds, hbody⟩ := List.forall_mem_append.mp hfirst
      exact ih hbody (hcarries.loopBounds hbounds hs hrun)
  | block _ ih => exact ih (List.forall_mem_append.mp hroots).1 hs

theorem carries_sound : Carries Checking.Sound Expr.Bare where
  stmt hroots hs hrun := ((secures_stmt _ hroots hs).post_of_ok hrun).1
  stmts hroots hs hrun := ((secures_stmts _ hroots hs).post_of_ok hrun).1
  condition htest hs hrun := ((secures_condition htest hs).post_of_ok hrun).1
  loopBounds hbounds hs hrun := ((secures_loopBounds hbounds hs _ _).post_of_ok hrun).1

/-- The walk comes to statements of the program, in sound states. -/
theorem Arrives.sound {body : List Stmt} {st : Stmt} {s t : Checking} (h : Arrives body s st t)
    (hbare : ∀ value ∈ Stmt.bodyRoots body, value.Bare) (hs : s.Sound) :
    t.Sound ∧ ∀ value ∈ st.roots, value.Bare :=
  h.carries carries_sound hbare hs

end FlexWidth.Check
