import FlexWidth.Proofs.Scope.Numbering
import FlexWidth.Proofs.Structural.ExprAgreement
import Mathlib

/-!
# Handles refine structural types

The two checks agree on statements, and hence on programs: the check with handles yields
what the structural check yields, spelled out, or fails in the same way.  Since the
structural check knows no universe, the outcome is the same whichever universe the check
starts from.
-/

namespace FlexWidth

section Steps

variable {s : Checking} {table : Structural.SymbolTable} {value : Expr} {value' : Structural.Expr}
  {id symbolType current bound : TypeId} {shape symbolShape currentShape boundShape : Shape}

/-! ## Values -/

theorem agrees_defaultInt (hs : s.Spelled table) (hvalue : value.Spelled s.types.Denotes value') :
    Agrees (Check.defaultInt value) (Structural.convert value' Structural.defaultInt) s table
      Expr.SpelledIn :=
  (agrees_internDefaultInt hs).of_pure fun _ _ hgrows hs hid =>
    agrees_convert hs (hvalue.grow hgrows) hid

theorem agrees_condition (hs : s.Spelled table) (hvalue : value.Spelled s.types.Denotes value') :
    Agrees (Check.condition value) (Structural.condition value') s table Expr.SpelledIn := by
  refine (agreesOnExprs_expr hs hvalue).bind fun checked _ middle _ _ hs hchecked => ?_
  refine (agrees_intern hs .bool).of_pure fun id final hgrows hs hid => ?_
  exact agrees_convert hs (hchecked.grow hgrows) hid

theorem agrees_printed (hs : s.Spelled table) (hvalue : value.Spelled s.types.Denotes value') :
    Agrees (Check.printed value) (Structural.printed value') s table Expr.SpelledIn := by
  refine (agreesOnExprs_expr hs hvalue).bind fun checked _ middle _ _ hs hchecked => ?_
  refine (agrees_typeOf hs hchecked).bind fun id shape final _ hgrows hs hid => ?_
  have hchecked := hchecked.grow hgrows
  obtain ⟨ty, hrun, hspells⟩ := hs.exists_run_typeAt hid
  refine .of_look hrun ?_
  cases hspells with
  | flexible => exact agrees_defaultInt hs hchecked
  | bool => exact agrees_defaultInt hs hchecked
  | int width => exact agrees_materialize hs hchecked
  | struct => exact agrees_expectedInt hid

theorem agrees_evaluated (hs : s.Spelled table) (hvalue : value.Spelled s.types.Denotes value') :
    Agrees (Check.evaluated value) (Structural.evaluated value') s table Expr.SpelledIn := by
  refine (agreesOnExprs_expr hs hvalue).bind fun checked _ middle _ _ hs hchecked => ?_
  refine (agrees_typeOf hs hchecked).bind fun id shape final _ hgrows hs hid => ?_
  have hchecked := hchecked.grow hgrows
  refine .of_look (hs.run_isFlexible hid) (.ite (by simp) (fun _ => ?_) fun _ => ?_)
  · exact agrees_defaultInt hs hchecked
  · exact agrees_pure hs hchecked

theorem agrees_expr? (hs : s.Spelled table) {values : Option Expr}
    {values' : Option Structural.Expr}
    (hvalues : Option.Rel (Expr.Spelled s.types.Denotes) values values') :
    Agrees (Check.expr? values) (Structural.expr? values') s table
      fun types => Option.Rel (Expr.SpelledIn types) := by
  cases hvalues with
  | none => exact agrees_pure hs .none
  | some hvalue =>
      refine (agreesOnExprs_expr hs hvalue).bind fun checked _ middle _ _ hs hchecked => ?_
      exact agrees_pure hs (.some hchecked)

/-! ## Bindings -/

theorem agrees_ascription (hs : s.Spelled table) (written : Ascription) :
    Agrees (Check.ascription written) (Structural.ascription written) s table
      Universe.Denotes := by
  match written with
  | .int 0 => exact agrees_refuse _
  | .int (width + 1) => exact agrees_intern hs (.int (width + 1))
  | .bool => exact agrees_intern hs .bool

theorem agrees_declareType (hs : s.Spelled table) (name : String) (symbol : SymbolId)
    (written : Option Ascription) :
    Agrees (Check.declareType name symbol written) (Structural.declareType name symbol written)
      s table fun _ _ _ => True := by
  cases written with
  | none => exact agrees_pure hs trivial
  | some written =>
      refine (agrees_ascription hs written).bind fun id shape middle _ _ hs hid => ?_
      refine (agrees_setSymbolType hs symbol hid).bind fun done _ final _ _ hs heq => ?_
      subst heq
      exact .ite Iff.rfl (fun _ => agrees_pure hs trivial) fun _ => agrees_refuse _

theorem agrees_storeTyped (hs : s.Spelled table) (hvalue : value.Spelled s.types.Denotes value')
    (hsymbol : s.types.Denotes symbolType symbolShape) :
    Agrees (Check.storeTyped symbolType value) (Structural.storeTyped symbolShape value') s table
      Expr.SpelledIn := by
  refine (agrees_typeOf hs hvalue).bind fun id shape middle _ hgrows hs hid => ?_
  have hvalue := hvalue.grow hgrows
  have hsymbol := hsymbol.grow hgrows
  obtain ⟨promotion, hrun, hpromotion⟩ := hs.exists_run_common hsymbol hid
  refine .of_look hrun ?_
  generalize Structural.common symbolShape shape = promotion' at hpromotion ⊢
  cases hpromotion with
  | resolved hcommon =>
      refine .ite (by simpa using hs.eq_iff hcommon hsymbol) (fun _ => ?_) fun _ => ?_
      · exact agrees_convert hs hvalue hsymbol
      · exact agrees_mismatch hsymbol hid
  | stillFlexible => exact agrees_mismatch hsymbol hid
  | incompatible => exact agrees_mismatch hsymbol hid

/-- The default is reported, and nothing else happens. -/
theorem agrees_noteDefault (hs : s.Spelled table) (event : Event) :
    Agrees (Check.note event >>= fun _ => Check.intern Universe.internDefaultInt)
      (pure Structural.defaultInt) s table Universe.Denotes :=
  .of_run (run_modify _ s) (.refl _) (agrees_internDefaultInt ⟨hs.interned, hs.symbols⟩)

theorem agrees_firstType (hs : s.Spelled table) (hid : s.types.Denotes id shape)
    (name : String) :
    Agrees (Check.firstType name id) (pure (Structural.firstType shape)) s table
      Universe.Denotes := by
  unfold Structural.firstType
  refine .of_look (hs.run_isFlexible hid) ?_
  by_cases hflexible : shape = .flexible
  · rw [if_pos (decide_eq_true hflexible), if_pos hflexible]
    exact agrees_noteDefault hs _
  · rw [if_neg (by simpa using hflexible), if_neg hflexible]
    exact agrees_pure hs hid

theorem agrees_storeFirst (hs : s.Spelled table) (hvalue : value.Spelled s.types.Denotes value')
    (name : String) (symbol : SymbolId) :
    Agrees (Check.storeFirst name symbol value) (Structural.storeFirst symbol value') s table
      Expr.SpelledIn := by
  refine (agrees_typeOf hs hvalue).bind fun id shape s₁ _ hgrows₁ hs hid => ?_
  refine (agrees_firstType hs hid name).of_pure fun type s₂ hgrows₂ hs htype => ?_
  refine (agrees_setSymbolType hs symbol htype).bind fun _ _ s₃ _ hgrows₃ hs _ => ?_
  have hgrows := (hgrows₁.trans hgrows₂).trans hgrows₃
  exact agrees_convert hs (hvalue.grow hgrows) (htype.grow hgrows₃)

theorem agrees_store (hs : s.Spelled table) (name : String) (symbol : SymbolId)
    {values : Option Expr} {values' : Option Structural.Expr}
    (hvalues : Option.Rel (Expr.Spelled s.types.Denotes) values values') :
    Agrees (Check.store name symbol values) (Structural.store name symbol values') s table
      fun types => Option.Rel (Expr.SpelledIn types) := by
  refine (agrees_symbolType? hs symbol).bind fun known known' middle _ hgrows hs hknown => ?_
  cases hvalues with
  | none =>
      cases hknown with
      | none => exact agrees_refuse _
      | some _ => exact agrees_pure hs .none
  | some hvalue =>
      have hvalue := hvalue.grow hgrows
      cases hknown with
      | some hsymbol =>
          refine (agrees_storeTyped hs hvalue hsymbol).bind fun final _ last _ _ hs hfinal => ?_
          exact agrees_pure hs (.some hfinal)
      | none =>
          refine (agrees_storeFirst hs hvalue name symbol).bind fun final _ last _ _ hs hfinal => ?_
          exact agrees_pure hs (.some hfinal)

/-! ## Loops -/

theorem agrees_exprs (hs : s.Spelled table) {values : List Expr} {values' : List Structural.Expr}
    (hvalues : List.Forall₂ (Expr.Spelled s.types.Denotes) values values') :
    Agrees (Check.exprs values) (Structural.exprs values') s table
      fun types => List.Forall₂ (Expr.SpelledIn types) := by
  induction values generalizing s table values' with
  | nil =>
      cases hvalues
      exact agrees_pure hs .nil
  | cons first rest ih =>
      cases hvalues with
      | cons hfirst hrest =>
          refine (agreesOnExprs_expr hs hfirst).bind fun checked _ middle _ hgrows hs hchecked => ?_
          refine (ih hs (hrest.imp fun _ _ h => h.grow hgrows)).bind ?_
          intro checkedRest _ final _ hgrows hs hcheckedRest
          exact agrees_pure hs (.cons (hchecked.grow hgrows) hcheckedRest)

theorem agrees_convertAll (hs : s.Spelled table) (hid : s.types.Denotes id shape)
    {values : List Expr} {values' : List Structural.Expr}
    (hvalues : List.Forall₂ (Expr.Spelled s.types.Denotes) values values') :
    Agrees (Check.convertAll id values) (Structural.convertAll shape values') s table
      fun types => List.Forall₂ (Expr.SpelledIn types) := by
  induction values generalizing s table values' with
  | nil =>
      cases hvalues
      exact agrees_pure hs .nil
  | cons first rest ih =>
      cases hvalues with
      | cons hfirst hrest =>
          refine (agrees_convert hs hfirst hid).bind fun final _ middle _ hgrows hs hfinal => ?_
          refine (ih hs (hid.grow hgrows) (hrest.imp fun _ _ h => h.grow hgrows)).bind ?_
          intro finalRest _ last _ hgrows hs hfinalRest
          exact agrees_pure hs (.cons (hfinal.grow hgrows) hfinalRest)

theorem agrees_joinBound (hs : s.Spelled table) (hcurrent : s.types.Denotes current currentShape)
    (hbound : s.types.Denotes bound boundShape) :
    Agrees (Check.joinBound current bound) (Structural.joinBound currentShape boundShape) s table
      Universe.Denotes := by
  obtain ⟨promotion, hrun, hpromotion⟩ := hs.exists_run_common hcurrent hbound
  refine .of_look hrun ?_
  unfold Structural.joinBound
  generalize Structural.common currentShape boundShape = promotion' at hpromotion ⊢
  cases hpromotion with
  | resolved hid => exact agrees_pure hs hid
  | stillFlexible =>
      refine .of_look (hs.run_isFlexible hcurrent) (.of_look (hs.run_isFlexible hbound) ?_)
      refine .ite (by simp) (fun _ => agrees_pure hs hcurrent) fun _ => ?_
      exact agrees_internDefaultInt hs
  | incompatible => exact agrees_mismatch hcurrent hbound

theorem agrees_joinBounds (hs : s.Spelled table) {type : Option TypeId}
    {typeShape : Option Shape} (htype : Option.Rel s.types.Denotes type typeShape)
    {bounds : List Expr} {bounds' : List Structural.Expr}
    (hbounds : List.Forall₂ (Expr.Spelled s.types.Denotes) bounds bounds') :
    Agrees (Check.joinBounds type bounds) (Structural.joinBounds typeShape bounds') s table
      fun types => Option.Rel types.Denotes := by
  induction bounds generalizing s table type typeShape bounds' with
  | nil =>
      cases hbounds
      exact agrees_pure hs htype
  | cons first rest ih =>
      cases hbounds with
      | cons hfirst hrest =>
          refine (agrees_typeOf hs hfirst).bind fun id shape s₁ _ hgrows₁ hs hid => ?_
          refine (agrees_refuseStruct hs hid).bind fun _ _ s₂ _ hgrows₂ hs _ => ?_
          have hgrows := hgrows₁.trans hgrows₂
          have hid := hid.grow hgrows₂
          have hrest := hrest.imp fun _ _ h => h.grow hgrows
          cases htype with
          | none => exact ih hs (.some hid) hrest
          | some htype =>
              refine (agrees_joinBound hs (htype.grow hgrows) hid).bind ?_
              intro joined _ s₃ _ hgrows₃ hs hjoined
              exact ih hs (.some hjoined) (hrest.imp fun _ _ h => h.grow hgrows₃)

theorem agrees_loopType (hs : s.Spelled table) (name : String) {bounds : List Expr}
    {bounds' : List Structural.Expr}
    (hbounds : List.Forall₂ (Expr.Spelled s.types.Denotes) bounds bounds') :
    Agrees (Check.loopType name bounds) (Structural.loopType bounds') s table
      Universe.Denotes := by
  refine (agrees_joinBounds hs .none hbounds).bind fun type shape middle _ _ hs htype => ?_
  cases htype with
  | none => exact agrees_noteDefault hs _
  | some hid =>
      obtain ⟨ty, hrun, hspells⟩ := hs.exists_run_typeAt hid
      refine .of_look hrun ?_
      cases hspells with
      | flexible => exact agrees_noteDefault hs _
      | bool => exact agrees_noteDefault hs _
      | int width => exact agrees_pure hs hid
      | struct => exact agrees_pure hs hid

theorem agrees_loopBounds (hs : s.Spelled table) (name : String) (symbol : SymbolId)
    {bounds : List Expr} {bounds' : List Structural.Expr}
    (hbounds : List.Forall₂ (Expr.Spelled s.types.Denotes) bounds bounds') :
    Agrees (Check.loopBounds name symbol bounds) (Structural.loopBounds name symbol bounds')
      s table fun types => List.Forall₂ (Expr.SpelledIn types) := by
  refine (agrees_exprs hs hbounds).bind fun checked _ s₁ _ _ hs hchecked => ?_
  refine (agrees_loopType hs name hchecked).bind fun id shape s₂ _ hgrows₂ hs hid => ?_
  refine (agrees_setSymbolType hs symbol hid).bind fun done _ s₃ _ hgrows₃ hs heq => ?_
  subst heq
  refine .ite Iff.rfl (fun _ => ?_) fun _ => agrees_refuse _
  exact agrees_convertAll hs (hid.grow hgrows₃)
    (hchecked.imp fun _ _ h => h.grow (hgrows₂.trans hgrows₃))

end Steps

/-! ## Statements -/

theorem Stmt.SpelledBody.grow {types later : Universe} {body : List Stmt}
    {body' : List Structural.Stmt} (h : SpelledBody types.Denotes body body')
    (hgrows : types.Grows later) : SpelledBody later.Denotes body body' :=
  h.imp fun _ _ hid => hid.grow hgrows

mutual

/-- Checking related statements agrees. -/
theorem agrees_stmt {s : Checking} {table : Structural.SymbolTable} (hs : s.Spelled table) :
    (st : Stmt) → {st' : Structural.Stmt} → st.Spelled s.types.Denotes st' →
    Agrees (Check.stmt st) (Structural.stmt st') s table fun types => Stmt.Spelled types.Denotes
  | .bind form name written value symbol, _, .bind hvalue => by
      rw [Check.stmt, Structural.stmt]
      cases symbol with
      | none => exact .error
      | some symbol =>
          refine (agrees_expr? hs hvalue).bind fun checked _ s₁ _ _ hs hchecked => ?_
          refine (agrees_declareType hs name symbol written).bind fun _ _ s₂ _ hgrows hs _ => ?_
          refine (agrees_store hs name symbol (rel_imp hchecked fun _ _ h => h.grow hgrows)).bind ?_
          intro stored _ final _ _ hs hstored
          exact agrees_pure hs (.bind hstored)
  | .print value, _, .print hvalue => by
      rw [Check.stmt, Structural.stmt]
      refine (agrees_printed hs hvalue).bind fun final _ last _ _ hs hfinal => ?_
      exact agrees_pure hs (.print hfinal)
  | .evaluate value, _, .evaluate hvalue => by
      rw [Check.stmt, Structural.stmt]
      refine (agrees_evaluated hs hvalue).bind fun final _ last _ _ hs hfinal => ?_
      exact agrees_pure hs (.evaluate hfinal)
  | .branch test yes none, _, .branch htest hyes => by
      rw [Check.stmt, Structural.stmt]
      refine (agrees_condition hs htest).bind fun test' _ s₁ _ hgrows₁ hs htest' => ?_
      refine (agrees_stmts hs yes (hyes.grow hgrows₁)).bind fun yes' _ s₂ _ hgrows₂ hs hyes' => ?_
      exact agrees_pure hs (.branch (htest'.grow hgrows₂) hyes')
  | .branch test yes (some no), _, .otherwise htest hyes hno => by
      rw [Check.stmt, Structural.stmt]
      refine (agrees_condition hs htest).bind fun test' _ s₁ _ hgrows₁ hs htest' => ?_
      refine (agrees_stmts hs yes (hyes.grow hgrows₁)).bind fun yes' _ s₂ _ hgrows₂ hs hyes' => ?_
      refine (agrees_stmts hs no (hno.grow (hgrows₁.trans hgrows₂))).bind ?_
      intro no' _ s₃ _ hgrows₃ hs hno'
      exact agrees_pure hs (.otherwise (htest'.grow (hgrows₂.trans hgrows₃))
        (hyes'.grow hgrows₃) hno')
  | .whileLoop test body, _, .whileLoop htest hbody => by
      rw [Check.stmt, Structural.stmt]
      refine (agrees_condition hs htest).bind fun test' _ s₁ _ hgrows₁ hs htest' => ?_
      refine (agrees_stmts hs body (hbody.grow hgrows₁)).bind ?_
      intro body' _ s₂ _ hgrows₂ hs hbody'
      exact agrees_pure hs (.whileLoop (htest'.grow hgrows₂) hbody')
  | .forLoop name symbol bounds body, _, .forLoop hbounds hbody => by
      rw [Check.stmt, Structural.stmt]
      cases symbol with
      | none => exact .error
      | some symbol =>
          refine (agrees_loopBounds hs name symbol hbounds).bind ?_
          intro bounds' _ s₁ _ hgrows₁ hs hbounds'
          refine (agrees_stmts hs body (hbody.grow hgrows₁)).bind ?_
          intro body' _ s₂ _ hgrows₂ hs hbody'
          exact agrees_pure hs (.forLoop (hbounds'.imp fun _ _ h => h.grow hgrows₂) hbody')
  | .block body, _, .block hbody => by
      rw [Check.stmt, Structural.stmt]
      refine (agrees_stmts hs body hbody).bind fun body' _ final _ _ hs hbody' => ?_
      exact agrees_pure hs (.block hbody')

theorem agrees_stmts {s : Checking} {table : Structural.SymbolTable} (hs : s.Spelled table) :
    (body : List Stmt) → {body' : List Structural.Stmt} →
    Stmt.SpelledBody s.types.Denotes body body' →
    Agrees (Check.stmts body) (Structural.stmts body') s table
      fun types => Stmt.SpelledBody types.Denotes
  | [], _, .nil => by
      rw [Check.stmts, Structural.stmts]
      exact agrees_pure hs .nil
  | first :: rest, _, .cons hfirst hrest => by
      rw [Check.stmts, Structural.stmts]
      refine (agrees_stmt hs first hfirst).bind fun first' _ s₁ _ hgrows₁ hs hfirst' => ?_
      refine (agrees_stmts hs rest (hrest.grow hgrows₁)).bind ?_
      intro rest' _ s₂ _ hgrows₂ hs hrest'
      exact agrees_pure hs (.cons (hfirst'.imp fun _ _ hid => hid.grow hgrows₂) hrest')

end

/-! ## Programs -/

/-- The outcome of checking a program, with the types of the last universe spelled out. -/
def spelledOutcome : EStateM.Result Failure Checking Program →
    Except Failure Structural.CheckedProgram
  | .ok body final => .ok (CheckedProgram.spell ⟨body, final.types, final.symbols⟩)
  | .error failure _ => .error failure

theorem Checking.Spelled.spell_eq {s : Checking} {table : Structural.SymbolTable}
    (hs : s.Spelled table) : s.symbols.spell s.types.shape? = table := by
  have hmap : s.symbols.symbols.toList.map (Symbol.spell s.types.shape?) = table.symbols := by
    rw [← List.forall₂_eq_eq_eq, List.forall₂_map_left_iff]
    refine hs.symbols.imp fun symbol symbol' h => ?_
    rw [Symbol.spell, h.name, h.origin, bind_eq_of_rel h.type]
  rw [SymbolTable.spell, hmap]

/-- Variables without types are spelled out by themselves. -/
theorem Checking.spelled_of_untyped {types : Universe} {symbols : SymbolTable}
    (hinterned : types.Interned)
    (h : ∀ {id : SymbolId} {symbol : Symbol}, symbols.get? id = some symbol → symbol.type = none)
    (log : Array Event) :
    Checking.Spelled ⟨types, symbols, log⟩ (symbols.spell fun _ => none) := by
  refine ⟨hinterned, ?_⟩
  rw [SymbolTable.spell, List.forall₂_map_right_iff, List.forall₂_same]
  intro symbol hsymbol
  obtain ⟨index, hindex⟩ := List.mem_iff_getElem?.mp hsymbol
  have htype : symbol.type = none := @h ⟨index⟩ symbol (by simpa [SymbolTable.get?] using hindex)
  exact ⟨rfl, rfl, rel_of_eq_none _ _ htype⟩

/-- From any universe the check yields what the structural check yields. -/
theorem spelledOutcome_program {types : Universe} {symbols : SymbolTable} {body : Program}
    {table : Structural.SymbolTable} {body' : List Structural.Stmt} {log : Array Event}
    (hs : Checking.Spelled ⟨types, symbols, log⟩ table)
    (hbody : Stmt.SpelledBody types.Denotes body body') :
    spelledOutcome (Check.program body ⟨types, symbols, log⟩) =
      Structural.typecheck body' table := by
  have hagrees := agrees_stmts hs body hbody
  unfold Agrees at hagrees
  unfold Check.program Structural.typecheck
  rw [run_bind]
  generalize Check.stmts body ⟨types, symbols, log⟩ = run at hagrees ⊢
  generalize Structural.stmts body' table = run' at hagrees ⊢
  cases hagrees with
  | error => rfl
  | @ok checked checked' final table' _ hfinal hchecked =>
      change Except.ok (CheckedProgram.spell ⟨checked, final.types, final.symbols⟩) = _
      rw [CheckedProgram.spell, hchecked.spell_eq, hfinal.spell_eq]

/-- **Handles refine structural types.**  For every resolved program whose expressions have
no types yet, the check with handles and the structural check have the same outcome: the
same tree and the same variables, once every handle is replaced by the type that it
denotes, or the same failure with the same text.  And so it is from every universe, whatever
types it holds and in whatever order they came. -/
theorem typecheck_eq_structural {program body : Program} {symbols : SymbolTable}
    {start log : Array Event}
    (hresolve : Frontend.resolve program start = .ok (body, symbols) log)
    (huntyped : ∀ node ∈ Stmt.bodyNodes body, node.type? = none) :
    let expected := Structural.typecheck (Stmt.spellBody (fun _ => none) body)
      (symbols.spell fun _ => none)
    (outcome (Frontend.typecheck body symbols log)).map CheckedProgram.spell = expected ∧
      ∀ types : Universe, types.Interned → ∀ log',
        spelledOutcome (Check.program body ⟨types, symbols, log'⟩) = expected := by
  intro expected
  have hprogram : ∀ types : Universe, types.Interned → ∀ log',
      spelledOutcome (Check.program body ⟨types, symbols, log'⟩) = expected := by
    intro types hinterned log'
    have hs := Checking.spelled_of_untyped hinterned (untyped_of_resolve hresolve) log'
    exact spelledOutcome_program hs (Stmt.spelledBody_of_untyped _ _ body huntyped)
  refine ⟨?_, hprogram⟩
  rw [← hprogram .empty Universe.interned_empty log, Frontend.typecheck]
  cases Check.program body ⟨.empty, symbols, log⟩ <;> rfl

/-- A program that stores a struct, checked from the empty universe and from one that holds
another type already. -/
theorem typecheck_eq_structural_struct :
    let types := (Universe.empty.internInt 32).2
    let pair : Shape := .struct [.int 8, .int 32] (FieldNames.empty.insert "a" 0)
    ∃ tokens program body symbols log,
      (tokenize "x : int(8) = 1; y = (a: x, 2);" = .ok tokens ∧ parse tokens = .ok program ∧
        Frontend.resolve program #[] = .ok (body, symbols) log ∧
        (∀ node ∈ Stmt.bodyNodes body, node.type? = none) ∧
        (Structural.typecheck (Stmt.spellBody (fun _ => none) body)
            (symbols.spell fun _ => none)).map (fun checked => checked.symbols.symbols) =
          .ok [⟨"x", .declaration, some (.int 8)⟩, ⟨"y", .assignment, some pair⟩]) ∧
      (outcome (Frontend.typecheck body symbols log)).map CheckedProgram.spell =
        spelledOutcome (Check.program body ⟨types, symbols, #[]⟩) := by
  intro types pair
  have hinterned : types.Interned := (Universe.interned_empty.intern (.int 32)).1
  refine Exists.imp (fun tokens => Exists.imp fun program => Exists.imp fun body =>
    Exists.imp fun symbols => Exists.imp fun log h => ⟨h, ?_⟩) ?_
  · obtain ⟨hempty, hall⟩ := typecheck_eq_structural h.2.2.1 h.2.2.2.1
    exact hempty.trans (hall types hinterned #[]).symm
  · exact ⟨_, _, _, _, _, by cbv, by cbv, by cbv, by decide, by cbv⟩

end FlexWidth
