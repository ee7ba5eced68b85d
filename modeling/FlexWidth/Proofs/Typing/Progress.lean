import FlexWidth.Proofs.Typing.Walk
import Mathlib

/-!
# Checking a resolved program

Each kind of statement is a step of the walk, and with `Walks.bind` so is the program.
Four shapes of bindings are told apart: whether the variable is new, and whether a type
is written.  One of them always fails, a written type for a variable that has one.

The main result, `ends_typecheck_of_resolve`, puts the stages together: what parsing
yields is plain, resolution numbers its symbols in the order of the walk, so the check
finds a type wherever it looks for one.
-/

namespace FlexWidth

namespace Check

variable {s start : Checking} {count : Nat} {symbol : SymbolId} {id : TypeId} {body : List Stmt}
  {form : BindingForm} {name : String} {written : Ascription} {source value : Expr}

/-! ## Bindings -/

theorem fails_invalidWidth (body : List Stmt) (s : Checking) (width : Nat) :
    Fails body s (.refused (.invalidWidth width)) :=
  ⟨_, rfl, rfl, fun _ heq => nomatch heq⟩

theorem checks_expr? {values : Option Expr} (hplain : ∀ e ∈ values, e.BoundBelow count)
    (hat : s.At count) :
    Checks (expr? values) s fun checked final =>
      Option.Rel (Elaborates final.types final.symbols) values checked := by
  cases values with
  | none => exact checks_pure hat.sound .none
  | some value =>
      refine (checks_expr (hplain value rfl) hat.sound hat.typed).bind ?_
      intro checked final hreaches hchecked
      exact checks_pure hreaches.sound (.some hchecked)

/-- A new variable receives its written type. -/
theorem walks_declareType (hat : s.At count) (hlt : count < s.symbols.size) (name : String)
    (written : Ascription) :
    Walks (declareType name ⟨count⟩ (some written)) s (count + 1) (Fails body start)
      fun _ final => ∃ id, final.symbols.type? ⟨count⟩ = some id ∧
        final.types.get? id = some written.ty := by
  by_cases hwidth : written = .int 0
  · subst hwidth
    exact fails_invalidWidth body start 0
  · refine ((checks_ascription hat.sound hwidth).step hat).bind ?_
    intro id middle _ hadvances hat hid
    have hconcrete : middle.types.Concrete id := ⟨_, hid, by cases written <;> simp [Ascription.ty]⟩
    refine (walks_setSymbolType hat (hadvances.size ▸ hlt) hconcrete).bind ?_
    rintro _ final _ - hat ⟨rfl, htypes, hsymbol⟩
    exact walks_pure hat ⟨id, hsymbol, htypes ▸ hid⟩

/-- A variable that has a type keeps it, and no other is accepted. -/
theorem walks_declareType_of_typed (hat : s.At count) (h : s.symbols.type? symbol = some id)
    (name : String) (written : Ascription) :
    Walks (declareType name symbol (some written)) s count
      (fun failure => failure = .refused (.duplicateDeclaration name) ∨ Fails body start failure)
      fun _ _ => False := by
  by_cases hwidth : written = .int 0
  · subst hwidth
    exact Or.inr (fails_invalidWidth body start 0)
  · have hascription := checks_ascription hat.sound hwidth
    refine (hascription.walks hat fun _ h => Or.inr (.of_refusesExpr h)).bind ?_
    intro type middle _ hadvances hat _
    refine .of_bind (run_setSymbolType_typed (hadvances.keeps h) type) ?_
    exact Or.inl rfl

theorem checks_store_of_typed (hs : s.Sound) (h : s.symbols.type? symbol = some id)
    (hvalue : Elaborates s.types s.symbols source value) (name : String) :
    Checks (store name symbol (some value)) s fun result later =>
      ∃ final, result = some final ∧ Converts later.types value id final := by
  rw [store]
  refine .of_bind (run_symbolType? h) ?_
  refine (checks_storeTyped hs hvalue (hs.concrete h)).bind ?_
  intro final later hreaches hfinal
  exact checks_pure hreaches.sound ⟨final, rfl, hfinal⟩

theorem run_symbolType?_of_fresh (hlt : symbol.index < s.symbols.size)
    (h : s.symbols.type? symbol = none) : symbolType? symbol s = .ok none s := by
  obtain ⟨known, hknown⟩ : ∃ known, s.symbols.get? symbol = some known :=
    ⟨_, Array.getElem?_eq_getElem hlt⟩
  rw [SymbolTable.type?, hknown, Option.bind_some] at h
  rw [symbolType?, run_bind_ok (run_get s), hknown]
  change EStateM.Result.ok known.type s = _
  rw [h]

/-- A new variable takes the type of its value, or is a default integer. -/
theorem walks_store_of_fresh (hat : s.At count) (hlt : count < s.symbols.size)
    (hvalue : Elaborates s.types s.symbols source value) (name : String) :
    Walks (store name ⟨count⟩ (some value)) s (count + 1) (Fails body start) fun result later =>
      ∃ final id ty, result = some final ∧ later.symbols.type? ⟨count⟩ = some id ∧
        later.types.HasTy value ty ∧ later.types.get? id = some ty.settled ∧
        Converts later.types value id final := by
  obtain ⟨valueType, ty, hvalueType, hty, hflexible⟩ := hvalue.exists_type hat.sound
  rw [store]
  refine .of_bind (run_symbolType?_of_fresh hlt (hat.fresh ⟨count⟩ (Nat.le_refl count))) ?_
  have hfirst : Walks (storeFirst name ⟨count⟩ value) s (count + 1) (Fails body start)
      fun final later => ∃ id, later.symbols.type? ⟨count⟩ = some id ∧
        later.types.HasTy value ty ∧ later.types.get? id = some ty.settled ∧
        Converts later.types value id final := by
    refine .of_bind (run_typeOf hvalueType) ?_
    refine ((checks_firstType hat.sound hty name).step hat).bind ?_
    intro id middle _ hadvances hat hid
    refine (walks_setSymbolType hat (hadvances.size ▸ hlt) ⟨_, hid, ty.settled_ne_flexible⟩).bind ?_
    rintro _ later _ hadvances' hat ⟨-, htypes, hsymbol⟩
    have hpath := hadvances.trans hadvances'
    -- the variable has the type of the value, so the conversion is to truth values
    -- only if the value is one
    have hchecks : Checks (convert value id) later fun final later' =>
        Converts later'.types value id final := by
      refine checks_convert hat.sound (hvalue.grow hpath.grows hpath.keeps) (htypes ▸ hid)
        ty.settled_ne_flexible fun hbool => ?_
      exact ⟨valueType, hvalueType, Ty.eq_bool_of_settled hbool ▸ hpath.grows.get? hty⟩
    refine (hchecks.step hat).weaken ?_ fun _ h => h
    intro final later' hadvances'' hfinal
    exact ⟨id, hadvances''.keeps hsymbol,
      ⟨valueType, hvalueType, (hpath.trans hadvances'').grows.get? hty⟩,
      hadvances''.grows.get? (htypes ▸ hid), hfinal⟩
  refine hfirst.bind ?_
  rintro final later _ - hat ⟨id, hsymbol, hfinal⟩
  exact walks_pure hat ⟨final, id, ty, rfl, hsymbol, hfinal⟩

section Binding

variable {values : Option Expr} (hplain : ∀ e ∈ values, e.BoundBelow count) (hat : s.At count)

include hplain hat

/-- A written type for a variable that has one is refused. -/
theorem walks_redeclare {next : Nat} {post : Stmt → Checking → Prop} (hlt : symbol.index < count) :
    Walks (stmt (.bind form name (some written) values (some symbol))) s next
      (Fails [.bind form name (some written) values (some symbol)] s) post := by
  obtain ⟨id, hid⟩ := hat.typed symbol hlt
  have hends : Walks (stmt (.bind form name (some written) values (some symbol))) s next
      (fun failure => failure = .refused (.duplicateDeclaration name) ∨
        Fails [.bind form name (some written) values (some symbol)] s failure) post := by
    rw [stmt]
    refine .of_bind (run_orRefuse_some _ _ s) ?_
    refine ((checks_expr? hplain hat).walks hat fun _ h => Or.inr (.of_refusesExpr h)).bind ?_
    intro checked middle _ hadvances hat _
    refine (walks_declareType_of_typed hat (hadvances.keeps hid) name written).bind ?_
    exact fun _ _ _ _ _ hfalse => hfalse.elim
  -- a double declaration is blamed on this very statement, so its run is recorded
  cases hrun : stmt (.bind form name (some written) values (some symbol)) s with
  | ok st final => exact Ends.of_ok hrun (hends.post_of_ok hrun)
  | error failure final =>
      refine Ends.of_error hrun ?_
      rcases hends.failed_of_error hrun with rfl | hfails
      · refine ⟨_, rfl, rfl, fun other heq => ?_⟩
        cases heq
        exact ⟨form, written, values, symbol, s, id, final, .here, hid, hrun⟩
      · exact hfails

/-- A new value for a variable that has a type. -/
theorem walks_reassign (hlt : symbol.index < count) (hvalue : values.isSome) :
    Walks (stmt (.bind form name none values (some symbol))) s count (Fails body start)
      fun st final => ElaboratesStmt final.types final.symbols
        (.bind form name none values (some symbol)) st := by
  obtain ⟨id, hid⟩ := hat.typed symbol hlt
  rw [stmt]
  refine .of_bind (run_orRefuse_some _ _ s) ?_
  refine ((checks_expr? hplain hat).step hat).bind ?_
  intro checked middle _ hadvances hat hchecked
  refine .of_bind (run_pure _ _) ?_
  cases hchecked with
  | none => cases hvalue
  | some hchecked =>
      have hstore := checks_store_of_typed hat.sound (hadvances.keeps hid) hchecked name
      refine (hstore.step hat).bind ?_
      rintro _ later _ hadvances' hat ⟨final, rfl, hfinal⟩
      refine walks_pure hat (.bind ((hadvances.trans hadvances').keeps hid) (by simp) ?_)
      exact ⟨_, hchecked.grow hadvances'.grows hadvances'.keeps, hfinal⟩

/-- The first binding of a variable without a written type. -/
theorem walks_infer (hlt : count < s.symbols.size) (hvalue : values.isSome) :
    Walks (stmt (.bind form name none values (some ⟨count⟩))) s (count + 1) (Fails body start)
      fun st later => ∃ source checked final id ty, values = some source ∧
        st = .bind form name none (some final) (some ⟨count⟩) ∧
        later.symbols.type? ⟨count⟩ = some id ∧
        Elaborates later.types later.symbols source checked ∧ later.types.HasTy checked ty ∧
        later.types.get? id = some ty.settled ∧ Converts later.types checked id final := by
  rw [stmt]
  refine .of_bind (run_orRefuse_some _ _ s) ?_
  refine ((checks_expr? hplain hat).step hat).bind ?_
  intro checked middle _ hadvances hat hchecked
  refine .of_bind (run_pure _ _) ?_
  cases hchecked with
  | none => cases hvalue
  | some hchecked =>
      refine (walks_store_of_fresh hat (hadvances.size ▸ hlt) hchecked name).bind ?_
      rintro _ later _ hadvances' hat ⟨final, id, ty, rfl, hid, hfinal⟩
      exact walks_pure hat ⟨_, _, final, id, ty, rfl, rfl, hid,
        hchecked.grow hadvances'.grows hadvances'.keeps, hfinal⟩

/-- The first binding of a variable with a written type. -/
theorem walks_declare (hlt : count < s.symbols.size) :
    Walks (stmt (.bind form name (some written) values (some ⟨count⟩))) s (count + 1)
      (Fails body start) fun st final => ElaboratesStmt final.types final.symbols
        (.bind form name (some written) values (some ⟨count⟩)) st := by
  rw [stmt]
  refine .of_bind (run_orRefuse_some _ _ s) ?_
  refine ((checks_expr? hplain hat).step hat).bind ?_
  intro checked middle _ hadvances hat hchecked
  refine (walks_declareType hat (hadvances.size ▸ hlt) name written).bind ?_
  rintro _ middle' _ hadvances' hat ⟨id, hid, hwritten⟩
  cases hchecked with
  | none =>
      refine .of_bind (run_bind_ok (run_symbolType? hid) _) ?_
      exact walks_pure hat (.declare hid hwritten)
  | some hchecked =>
      have hchecked' := hchecked.grow hadvances'.grows hadvances'.keeps
      refine ((checks_store_of_typed hat.sound hid hchecked' name).step hat).bind ?_
      rintro _ later _ hadvances'' hat ⟨final, rfl, hfinal⟩
      refine walks_pure hat (.bind (hadvances''.keeps hid) ?_
        ⟨_, hchecked'.grow hadvances''.grows hadvances''.keeps, hfinal⟩)
      simpa using hadvances''.grows.get? hwritten

/-- A further binding of a variable. -/
theorem walks_rebind {written : Option Ascription} (hlt : symbol.index < count)
    (hsome : written.isSome ∨ values.isSome) :
    Walks (stmt (.bind form name written values (some symbol))) s count
      (Fails [.bind form name written values (some symbol)] s) fun st final =>
        ElaboratesStmt final.types final.symbols
          (.bind form name written values (some symbol)) st := by
  cases written with
  | some written => exact walks_redeclare hplain hat hlt
  | none => exact walks_reassign hplain hat hlt (hsome.resolve_left (by simp))

/-- The first binding of a variable. -/
theorem walks_bind {written : Option Ascription} (hlt : count < s.symbols.size)
    (hsome : written.isSome ∨ values.isSome) :
    Walks (stmt (.bind form name written values (some ⟨count⟩))) s (count + 1) (Fails body start)
      fun st final => ElaboratesStmt final.types final.symbols
        (.bind form name written values (some ⟨count⟩)) st := by
  cases written with
  | some written => exact walks_declare hplain hat hlt
  | none =>
      refine (walks_infer hplain hat hlt (hsome.resolve_left (by simp))).weaken ?_ fun _ h => h
      rintro _ later - ⟨source, checked, final, id, ty, rfl, rfl, hid, hchecked, -, -, hfinal⟩
      exact .bind hid (by simp) ⟨checked, hchecked, hfinal⟩

end Binding

/-! ## Loops -/

/-- The variable of a loop has no type before the loop, and takes that of the
bounds. -/
theorem walks_loopBounds {bounds : List Expr} (hplain : ∀ bound ∈ bounds, bound.BoundBelow count)
    (hat : s.At count) (hlt : count < s.symbols.size) (name : String) :
    Walks (loopBounds name ⟨count⟩ bounds) s (count + 1) RefusesExpr fun finals later =>
      ∃ id width, later.symbols.type? ⟨count⟩ = some id ∧
        later.types.get? id = some (.int width) ∧
        List.Forall₂ (ElaboratesTo later.types later.symbols id) bounds finals := by
  refine ((checks_exprs hplain hat.sound hat.typed).walks hat fun _ h => h).bind ?_
  intro checked middle _ hadvances hat hchecked
  refine ((checks_loopType hchecked hat.sound name).walks hat fun _ h => h).bind ?_
  rintro id middle' _ hadvances' hat ⟨width, hid, -⟩
  -- the variable receives its type only now, after the bounds have theirs
  have hsize : count < middle'.symbols.size := (hadvances.trans hadvances').size ▸ hlt
  refine (walks_setSymbolType hat hsize ⟨_, hid, by simp⟩).bind ?_
  rintro _ later _ hadvances'' hat ⟨rfl, htypes, hsymbol⟩
  have hpath := hadvances'.trans hadvances''
  have hchecked' := hchecked.imp fun _ _ h => h.grow hpath.grows hpath.keeps
  refine ((checks_convertAll hchecked' hat.sound (htypes ▸ hid)).walks hat fun _ h => h).weaken ?_
    fun _ h => h
  intro finals final hadvances''' hfinals
  exact ⟨id, width, hadvances'''.keeps hsymbol, hadvances'''.grows.get? (htypes ▸ hid), hfinals⟩

/-! ## Statements -/

theorem walks_condition (hplain : source.BoundBelow count) (hat : s.At count) :
    Walks (condition source) s count (Fails body start) fun final later =>
      ElaboratesTest later.types later.symbols source final :=
  (checks_condition hplain hat.sound hat.typed).step hat

mutual

/-- Checking a resolved statement binds exactly the symbols that it introduces. -/
theorem walks_stmt {st : Stmt} {count next : Nat} {s : Checking} (h : Numbered count st next)
    (hat : s.At count) (hsize : next ≤ s.symbols.size) :
    Walks (stmt st) s next (Fails [st] s) fun st' final =>
      ElaboratesStmt final.types final.symbols st st' := by
  match h with
  | .rebind hsome hplain hlt => exact walks_rebind hplain hat hlt hsome
  | .bind hsome hplain => exact walks_bind hplain hat hsize hsome
  | .print hplain =>
      rw [stmt]
      refine ((checks_printed hplain hat.sound hat.typed).step hat).bind ?_
      rintro final later _ - hat ⟨target, width, htarget, hfinal⟩
      exact walks_pure hat (.print htarget hfinal)
  | .evaluate hplain =>
      rw [stmt]
      refine ((checks_evaluated hplain hat.sound hat.typed).step hat).bind ?_
      intro final later _ _ hat hfinal
      exact walks_pure hat hfinal
  | .branch hplain hyes =>
      rw [stmt]
      refine (walks_condition hplain hat).bind ?_
      intro test middle htest hadvances hat hchecked
      refine ((walks_stmts hyes hat (hadvances.size ▸ hsize)).lift fun _ _ => .yes htest).bind ?_
      intro yes final _ hadvances' hat hyes
      exact walks_pure hat (.branch (hchecked.grow hadvances'.grows hadvances'.keeps) hyes)
  | .otherwise hplain hyes hno =>
      rw [stmt]
      refine (walks_condition hplain hat).bind ?_
      intro test middle htest hadvances hat hchecked
      have hsize' := Nat.le_trans hno.le hsize
      refine ((walks_stmts hyes hat (hadvances.size ▸ hsize')).lift fun _ _ => .yes htest).bind ?_
      intro yes later hrun hadvances' hat hyes
      have hpath := hadvances.trans hadvances'
      refine ((walks_stmts hno hat (hpath.size ▸ hsize)).lift fun _ _ => .no htest hrun).bind ?_
      intro no final _ hadvances'' hat hno
      have hpath := hadvances'.trans hadvances''
      exact walks_pure hat (.otherwise (hchecked.grow hpath.grows hpath.keeps)
        (hyes.grow hadvances''.grows hadvances''.keeps) hno)
  | .whileLoop hplain hbody =>
      rw [stmt]
      refine (walks_condition hplain hat).bind ?_
      intro test middle htest hadvances hat hchecked
      refine ((walks_stmts hbody hat (hadvances.size ▸ hsize)).lift
        fun _ _ => .whileLoop htest).bind ?_
      intro body final _ hadvances' hat hbody
      exact walks_pure hat (.whileLoop (hchecked.grow hadvances'.grows hadvances'.keeps) hbody)
  | .forLoop hplain hbody =>
      rw [stmt]
      refine .of_bind (run_orRefuse_some _ _ s) ?_
      have hlt := Nat.lt_of_lt_of_le hbody.le hsize
      refine ((walks_loopBounds hplain hat hlt _).weaken (fun _ _ _ h => h)
        fun _ => .of_refusesExpr).bind ?_
      rintro bounds middle hrun hadvances hat ⟨id, width, hid, hty, hbounds⟩
      refine ((walks_stmts hbody hat (hadvances.size ▸ hsize)).lift
        fun _ _ => .forLoop hrun).bind ?_
      intro body final _ hadvances' hat hbody
      refine walks_pure hat (.forLoop (hadvances'.keeps hid) (hadvances'.grows.get? hty) ?_ hbody)
      exact hbounds.imp fun _ _ h => h.grow hadvances'.grows hadvances'.keeps
  | .block hbody =>
      rw [stmt]
      refine ((walks_stmts hbody hat hsize).lift fun _ _ => .block).bind ?_
      intro body final _ _ hat hbody
      exact walks_pure hat (.block hbody)

theorem walks_stmts {body : List Stmt} {count next : Nat} {s : Checking}
    (h : NumberedAll count body next) (hat : s.At count) (hsize : next ≤ s.symbols.size) :
    Walks (stmts body) s next (Fails body s) fun body' final =>
      ElaboratesStmts final.types final.symbols body body' := by
  match h with
  | .nil => exact walks_pure hat .nil
  | .cons hfirst hrest =>
      rw [stmts]
      refine ((walks_stmt hfirst hat (Nat.le_trans hrest.le hsize)).lift
        fun _ _ h => h.append _).bind ?_
      intro first middle hrun hadvances hat hchecked
      refine ((walks_stmts hrest hat (hadvances.size ▸ hsize)).lift fun _ _ => .later hrun).bind ?_
      intro rest final _ hadvances' hat hrest
      exact walks_pure hat (.cons (hchecked.grow hadvances'.grows hadvances'.keeps) hrest)

end

theorem advances_of_condition {test : Expr} {t : Checking} (hplain : source.BoundBelow count)
    (hat : s.At count) (h : condition source s = .ok test t) : s.Advances t ∧ t.At count := by
  have hreaches := ((checks_condition hplain hat.sound hat.typed).post_of_ok h).1
  exact ⟨hreaches.advances, hat.reach hreaches⟩

/-- Every statement that is reached is reached with the symbols bound that
resolution had bound there. -/
theorem Arrives.numbered {st : Stmt} {s t : Checking} (h : Arrives body s st t) :
    ∀ {count next : Nat}, NumberedAll count body next → s.At count → next ≤ s.symbols.size →
      ∃ before after, Numbered before st after ∧ t.At before ∧ after ≤ t.symbols.size := by
  induction h with
  | here =>
      rintro count next (_ | ⟨hfirst, hrest⟩) hat hsize
      exact ⟨_, _, hfirst, hat, Nat.le_trans hrest.le hsize⟩
  | later hrun _ ih =>
      rintro count next (_ | ⟨hfirst, hrest⟩) hat hsize
      have hwalks := walks_stmt hfirst hat (Nat.le_trans hrest.le hsize)
      obtain ⟨hadvances, hat, -⟩ := hwalks.post_of_ok hrun
      exact ih hrest hat (hadvances.size ▸ hsize)
  | yes htest _ ih =>
      rintro count next (_ | ⟨hfirst, hrest⟩) hat hsize
      cases hfirst with
      | branch hplain hyes =>
          obtain ⟨hadvances, hat⟩ := advances_of_condition hplain hat htest
          exact ih hyes hat (hadvances.size ▸ Nat.le_trans hrest.le hsize)
      | otherwise hplain hyes hno =>
          obtain ⟨hadvances, hat⟩ := advances_of_condition hplain hat htest
          exact ih hyes hat (hadvances.size ▸ Nat.le_trans (Nat.le_trans hno.le hrest.le) hsize)
  | no htest hrun _ ih =>
      rintro count next (_ | ⟨hfirst, hrest⟩) hat hsize
      cases hfirst with
      | otherwise hplain hyes hno =>
          have hsize' := Nat.le_trans hrest.le hsize
          obtain ⟨hadvances, hat⟩ := advances_of_condition hplain hat htest
          have hwalks := walks_stmts hyes hat (hadvances.size ▸ Nat.le_trans hno.le hsize')
          obtain ⟨hadvances', hat, -⟩ := hwalks.post_of_ok hrun
          exact ih hno hat ((hadvances.trans hadvances').size ▸ hsize')
  | whileLoop htest _ ih =>
      rintro count next (_ | ⟨hfirst, hrest⟩) hat hsize
      cases hfirst with
      | whileLoop hplain hbody =>
          obtain ⟨hadvances, hat⟩ := advances_of_condition hplain hat htest
          exact ih hbody hat (hadvances.size ▸ Nat.le_trans hrest.le hsize)
  | forLoop hrun _ ih =>
      rintro count next (_ | ⟨hfirst, hrest⟩) hat hsize
      cases hfirst with
      | forLoop hplain hbody =>
          have hsize' := Nat.le_trans hrest.le hsize
          have hlt := Nat.lt_of_lt_of_le hbody.le hsize'
          obtain ⟨hadvances, hat, -⟩ := (walks_loopBounds hplain hat hlt _).post_of_ok hrun
          exact ih hbody hat (hadvances.size ▸ hsize')
  | block _ ih =>
      rintro count next (_ | ⟨hfirst, hrest⟩) hat hsize
      cases hfirst with
      | block hbody => exact ih hbody hat (Nat.le_trans hrest.le hsize)

end Check

/-! ## Programs -/

/-- The state in which the check of a program starts. -/
def Checking.initial (symbols : SymbolTable) (log : Array Event) : Checking :=
  { types := .empty, symbols := symbols, log := log }

section Programs

variable {body : Program} {symbols : SymbolTable} {log : Array Event}

theorem at_initial (h : ∀ id symbol, symbols.get? id = some symbol → symbol.type = none)
    (log : Array Event) : (Checking.initial symbols log).At 0 := by
  have hnone : ∀ id, symbols.type? id = none := by
    intro id
    rw [SymbolTable.type?, Option.bind_eq_none_iff]
    exact h id
  refine ⟨⟨Universe.sound_empty, fun htype => ?_⟩, fun _ hlt => absurd hlt (Nat.not_lt_zero _),
    fun id _ => hnone id⟩
  cases (hnone _).symm.trans htype

/-- What the check of a numbered program ends in. -/
theorem ends_typecheck (h : NumberedAll 0 body symbols.size)
    (hat : (Checking.initial symbols log).At 0) :
    Ends (Frontend.typecheck body symbols) log
      (fun checked _ => SoundContext checked.types checked.symbols ∧
        checked.symbols.size = symbols.size ∧
        (∀ id : SymbolId, id.index < symbols.size → ∃ type, checked.symbols.type? id = some type) ∧
        ElaboratesStmts checked.types checked.symbols body checked.body)
      fun failure _ => Check.Fails body (Checking.initial symbols log) failure := by
  have hwalks := Check.walks_stmts h hat (Nat.le_refl symbols.size)
  cases hrun : Check.stmts body (Checking.initial symbols log) with
  | error failure final =>
      have herror : Frontend.typecheck body symbols log = .error failure final.log := by
        have hprogram : Check.program body (Checking.initial symbols log) = .error failure final :=
          run_bind_error hrun _
        rw [Checking.initial] at hprogram
        rw [Frontend.typecheck, hprogram]
      exact .of_error herror (hwalks.failed_of_error hrun)
  | ok body' final =>
      obtain ⟨hadvances, hat, hbody⟩ := hwalks.post_of_ok hrun
      have hok : Frontend.typecheck body symbols log = .ok ⟨body', final.types, final.symbols⟩
          (final.log.push (.typed final.types.size)) := by
        have hprogram : Check.program body (Checking.initial symbols log) =
            .ok body' { final with log := final.log.push (.typed final.types.size) } :=
          run_bind_ok hrun _
        rw [Checking.initial] at hprogram
        rw [Frontend.typecheck, hprogram]
      exact .of_ok hok ⟨hat.sound, hadvances.size, hat.typed, hbody⟩

/-- **The stages agree on what is bound and when.**  Once a source text has been cut
into tokens, read as a program and resolved, the check of the program gives every symbol
a type, or it refuses the program for one of the reasons of `Diagnostic.refusesProgram`,
where a double declaration is a written type for a variable that has a type.  No loop
that the walk reaches has a variable with a type. -/
theorem ends_typecheck_of_resolve {source : String} {tokens : List Token} {spelled : Program}
    {start : Array Event} (htokens : tokenize source = .ok tokens)
    (hparse : parse tokens = .ok spelled)
    (hresolve : Frontend.resolve spelled start = .ok (body, symbols) log) :
    Ends (Frontend.typecheck body symbols) log
      (fun checked _ => checked.symbols.size = symbols.size ∧
        ∀ id : SymbolId, id.index < symbols.size → ∃ type, checked.symbols.type? id = some type)
      (fun failure _ => ∃ diagnostic, failure = .refused diagnostic ∧
        diagnostic.refusesProgram = true ∧ ∀ name, diagnostic = .duplicateDeclaration name →
          Check.Redeclares body (Checking.initial symbols log) name) ∧
    ∀ {name symbol bounds inner t},
      Check.Arrives body (Checking.initial symbols log) (.forLoop name symbol bounds inner) t →
      ∃ id, symbol = some id ∧ t.symbols.type? id = none ∧
        ∀ other final, Check.loopBounds name id bounds t ≠
          .error (.refused (.duplicateDeclaration other)) final := by
  obtain ⟨hnumbered, huntyped⟩ := numberedAll_of_resolve (plain_of_parse htokens hparse) hresolve
  have hat := at_initial huntyped log
  constructor
  · refine (ends_typecheck hnumbered hat).weaken ?_ fun _ _ hfails => hfails
    rintro checked _ ⟨-, hsize, htyped, -⟩
    exact ⟨hsize, htyped⟩
  · intro name symbol bounds inner t harrives
    obtain ⟨before, after, hloop, hat, hsize⟩ := harrives.numbered hnumbered hat (Nat.le_refl _)
    -- the variable of a loop is the next symbol, and no later symbol has a type
    cases hloop with
    | forLoop hplain hinner =>
        refine ⟨_, rfl, hat.fresh _ (Nat.le_refl _), fun other final hrun => ?_⟩
        have hwalks := Check.walks_loopBounds hplain hat (Nat.lt_of_lt_of_le hinner.le hsize) name
        obtain ⟨diagnostic, heq, hrefuses⟩ := hwalks.failed_of_error hrun
        cases heq
        cases hrefuses

/-- A loop has gone by when a second type is written for its bound. -/
theorem ends_typecheck_of_resolve_redeclared :
    ∃ tokens spelled body symbols log final,
      tokenize "x : int(8) = 1; for (i in 0 : x) \x7b output(0, i); \x7d x : bool;" = .ok tokens ∧
        parse tokens = .ok spelled ∧ Frontend.resolve spelled #[] = .ok (body, symbols) log ∧
        Frontend.typecheck body symbols log = .error (.refused (.duplicateDeclaration "x")) final ∧
        Check.Redeclares body (Checking.initial symbols log) "x" := by
  have hrun : ∃ tokens spelled body symbols log final,
      tokenize "x : int(8) = 1; for (i in 0 : x) \x7b output(0, i); \x7d x : bool;" = .ok tokens ∧
        parse tokens = .ok spelled ∧ Frontend.resolve spelled #[] = .ok (body, symbols) log ∧
        Frontend.typecheck body symbols log = .error (.refused (.duplicateDeclaration "x")) final :=
    ⟨_, _, _, _, _, _, by cbv, by cbv, by cbv, by cbv⟩
  obtain ⟨tokens, spelled, body, symbols, log, final, htokens, hparse, hresolve, herror⟩ := hrun
  have hends := (ends_typecheck_of_resolve htokens hparse hresolve).1
  obtain ⟨_, heq, -, hredeclares⟩ := hends.failed_of_error herror
  cases heq
  exact ⟨tokens, spelled, body, symbols, log, final, htokens, hparse, hresolve, herror,
    hredeclares "x" rfl⟩

end Programs

end FlexWidth
