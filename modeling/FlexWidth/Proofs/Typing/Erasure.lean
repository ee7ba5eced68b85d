import FlexWidth.Frontend
import FlexWidth.Proofs.Grammar.Bare
import FlexWidth.Proofs.Scope.Bindings
import Mathlib

/-!
# Checking only annotates

Checking takes every node of a program apart and builds a new one, and it checks flexible
parts several times.  Still, what it builds differs from what it was given only by what
`Expr.erase` takes away.

Every step of the check keeps the erased expression (`KeepsErased`), provided that
checking again does.  So does checking at any depth, by induction on the depth, and with
it the check of statements.  No assumption on the program is needed for this: it may
already have types, conversions and loads.
-/

namespace FlexWidth

namespace Check

/-- Every result of the stage is the expression `value`, up to what is erased. -/
def KeepsErased (stage : CheckM Expr) (value : Expr) : Prop :=
  Yields stage fun result => result.erase = value.erase

variable {recheck : Expr → CheckM Expr}

/-! ## Conversion -/

theorem keepsErased_materialize (value : Expr) : KeepsErased (materialize value) value := by
  unfold KeepsErased materialize
  split
  · exact .of_forall fun type => yields_pure (by rw [Expr.erase])
  · exact yields_pure rfl

theorem keepsErased_wrapConversion (value : Expr) (target : TypeId) :
    KeepsErased (wrapConversion value target) value :=
  .of_forall fun _ => yields_pure (by rw [Expr.erase])

theorem yields_mismatch {α : Type} {post : α → Prop} (expected received : TypeId) :
    Yields (mismatch expected received) post :=
  .of_forall fun _ => .of_forall fun _ => yields_refuse _

theorem yields_expectedInt {α : Type} {post : α → Prop} (received : TypeId) :
    Yields (expectedInt received) post :=
  .of_forall fun _ => yields_refuse _

section Recheck

variable (hrecheck : ∀ value, KeepsErased (recheck value) value)

include hrecheck

theorem keepsErased_recheck_withType (value : Expr) (type : TypeId) :
    KeepsErased (recheck (value.withType type)) value := by
  have hchecked := hrecheck (value.withType type)
  rwa [KeepsErased, Expr.erase_withType] at hchecked

theorem keepsErased_settle (value : Expr) (current : TypeId) :
    KeepsErased (settle recheck value current) value := by
  refine .of_forall fun flexible => ?_
  split
  · exact .of_forall fun type => keepsErased_recheck_withType hrecheck value type
  · exact yields_pure rfl

theorem keepsErased_convertToBool (value : Expr) (current target : TypeId) :
    KeepsErased (convertToBool recheck value current target) value := by
  refine (keepsErased_settle hrecheck value current).bind fun settled hsettled => ?_
  refine .of_forall fun current => .of_forall fun ty => ?_
  cases ty with
  | int width =>
      exact (keepsErased_wrapConversion settled target).weaken fun _ hresult =>
        hresult.trans hsettled
  | bool => exact yields_mismatch _ _
  | flexible => exact yields_mismatch _ _
  | struct struct => exact yields_mismatch _ _

theorem keepsErased_convertWith (value : Expr) (target : TypeId) :
    KeepsErased (convertWith recheck value target) value := by
  refine (keepsErased_materialize value).bind fun loaded hloaded => ?_
  refine .of_forall fun current => ?_
  split
  · exact yields_pure hloaded
  · refine .of_forall fun targetTy => ?_
    split
    · exact yields_pure hloaded
    · split
      · exact (keepsErased_convertToBool hrecheck loaded current target).weaken fun _ hresult =>
          hresult.trans hloaded
      · refine .of_forall fun currentTy => ?_
        split
        · split
          · exact yields_mismatch _ _
          · exact (keepsErased_recheck_withType hrecheck loaded target).weaken fun _ hresult =>
              hresult.trans hloaded
        · split
          · exact (keepsErased_wrapConversion loaded target).weaken fun _ hresult =>
              hresult.trans hloaded
          · exact yields_mismatch _ _

/-! ## Nodes of expressions -/

theorem keepsErased_signOperand (operator : String) (operand : Expr) (demand type : Option TypeId) :
    KeepsErased (signOperand (convertWith recheck) operator operand demand)
      (.unary operator operand type) := by
  have hsign {result : Expr} {type' : Option TypeId} (h : result.erase = operand.erase) :
      (Expr.unary operator result type').erase = (Expr.unary operator operand type).erase := by
    rw [Expr.erase, Expr.erase, h]
  refine .of_forall fun operandType => .of_forall fun _ => .of_forall fun flexible => ?_
  cases demand with
  | none => exact (keepsErased_materialize operand).bind fun _ h => yields_pure (hsign h)
  | some demand =>
      dsimp only
      split
      · exact (keepsErased_convertWith hrecheck operand demand).bind fun _ h =>
          yields_pure (hsign h)
      · exact (keepsErased_materialize operand).bind fun _ h => yields_pure (hsign h)

theorem yields_convertOperands (left right : Expr) (target : TypeId) :
    Yields (convertOperands (convertWith recheck) left right target) fun results =>
      results.1.erase = left.erase ∧ results.2.erase = right.erase := by
  refine (keepsErased_convertWith hrecheck left target).bind fun left' hleft => ?_
  refine (keepsErased_convertWith hrecheck right target).bind fun right' hright => ?_
  exact yields_pure ⟨hleft, hright⟩

theorem keepsErased_operands (operator : String) (operatorClass : OperatorClass)
    (left right : Expr) (demand type : Option TypeId) :
    KeepsErased (operands (convertWith recheck) operator operatorClass left right demand)
      (.binary operator left right type) := by
  have hbinary {l r : Expr} {type' : Option TypeId} (hl : l.erase = left.erase)
      (hr : r.erase = right.erase) :
      (Expr.binary operator l r type').erase = (Expr.binary operator left right type).erase := by
    rw [Expr.erase, Expr.erase, hl, hr]
  refine .of_forall fun leftType => .of_forall fun rightType => ?_
  refine .of_forall fun _ => .of_forall fun _ => ?_
  split
  · refine (yields_convertOperands hrecheck left right _).bind fun results hresults => ?_
    exact yields_pure (hbinary hresults.1 hresults.2)
  · refine .of_forall fun common => ?_
    cases common with
    | none => exact .of_forall fun _ => yields_pure (hbinary rfl rfl)
    | some common =>
        refine (yields_convertOperands hrecheck left right common).bind fun results hresults => ?_
        cases operatorClass with
        | arithmetic => exact yields_pure (hbinary hresults.1 hresults.2)
        | relational =>
            exact .of_forall fun _ => yields_pure (hbinary hresults.1 hresults.2)

theorem keepsErased_fieldValue (value : Expr) :
    KeepsErased (fieldValue (convertWith recheck) value) value := by
  refine .of_forall fun type => .of_forall fun flexible => ?_
  split
  · exact .of_forall fun defaultInt => keepsErased_convertWith hrecheck value defaultInt
  · exact keepsErased_materialize value

end Recheck

theorem keepsErased_namedField (base : Expr) (field : String) (position : Option Nat)
    (type : Option TypeId) :
    KeepsErased (namedField base field) (.dot base field position type) := by
  refine .of_forall fun baseType => .of_forall fun struct => ?_
  cases struct.names.position? field with
  | none => exact .of_forall fun _ => yields_refuse _
  | some found => exact .of_forall fun _ => yields_pure (by rw [Expr.erase, Expr.erase])

theorem keepsErased_positionedField (base : Expr) (position : Nat) (type : Option TypeId) :
    KeepsErased (positionedField base position) (.index base position type) := by
  refine .of_forall fun baseType => .of_forall fun struct => ?_
  cases struct.fields[position]? with
  | none => exact .of_forall fun _ => yields_refuse _
  | some fieldType => exact yields_pure (by rw [Expr.erase, Expr.erase])

theorem keepsErased_literal (number : Nat) (type : Option TypeId) :
    KeepsErased (literal number type) (.literal number type) :=
  .of_forall fun _ => .of_forall fun _ => yields_pure rfl

theorem keepsErased_negatedLiteral (number : Nat) (type demand : Option TypeId) :
    KeepsErased (negatedLiteral number type demand) (.literal number type) :=
  .of_forall fun _ => .of_forall fun _ => yields_pure rfl

theorem keepsErased_var (recheck : Expr → CheckM Expr) (name : String) (symbol : Option SymbolId)
    (type : Option TypeId) :
    KeepsErased (tree recheck (.var name symbol type)) (.var name symbol type) := by
  rw [KeepsErased, tree]
  refine .of_forall fun demand => (yields_orRefuse _ symbol).bind fun found hfound => ?_
  refine .of_forall fun known => .of_forall fun knownType => ?_
  exact yields_pure (by rw [Expr.erase, Expr.erase, hfound])

theorem keepsErased_read (recheck : Expr → CheckM Expr) (type : Option TypeId) :
    KeepsErased (tree recheck (.read type)) (.read type) := by
  rw [KeepsErased, tree]
  refine .of_forall fun demand => .of_forall fun readType => .of_forall fun ty => ?_
  cases ty with
  | int width => exact yields_pure rfl
  | flexible => exact yields_pure rfl
  | bool => exact yields_expectedInt _
  | struct struct => exact yields_expectedInt _

/-! ## Expressions -/

mutual

/-- Checking an expression keeps it, if checking its parts again does. -/
theorem keepsErased_tree {recheck : Expr → CheckM Expr}
    (hrecheck : ∀ value, KeepsErased (recheck value) value) :
    (value : Expr) → KeepsErased (tree recheck value) value
  | .literal number type => by
      rw [KeepsErased, tree]
      exact .of_forall fun _ => keepsErased_literal number type
  | .var name symbol type => keepsErased_var recheck name symbol type
  | .read type => keepsErased_read recheck type
  | .unary operator operand type => by
      rw [KeepsErased, tree]
      refine .of_forall fun demand => ?_
      split
      · -- a literal right under a sign has a rule of its own
        have hoperand : Yields (match operand with
            | .literal number own => negatedLiteral number own demand
            | _ => tree recheck operand) fun result => result.erase = operand.erase := by
          split
          · exact keepsErased_negatedLiteral _ _ demand
          · exact keepsErased_tree hrecheck operand
        refine hoperand.bind fun checked hchecked => ?_
        refine (keepsErased_signOperand hrecheck operator checked demand type).weaken ?_
        intro result hresult
        rw [hresult, Expr.erase, Expr.erase, hchecked]
      · exact yields_refuse _
  | .binary operator left right type => by
      rw [KeepsErased, tree]
      refine .of_forall fun demand => .of_forall fun operatorClass => ?_
      refine (keepsErased_tree hrecheck left).bind fun left' hleft => ?_
      refine (keepsErased_tree hrecheck right).bind fun right' hright => ?_
      refine (keepsErased_operands hrecheck operator operatorClass left' right' demand
        type).weaken fun result hresult => ?_
      rw [hresult, Expr.erase, Expr.erase, hleft, hright]
  | .conversion operand type => by
      rw [KeepsErased, tree]
      refine .of_forall fun _ => ?_
      refine (keepsErased_tree hrecheck operand).bind fun operand' hoperand => ?_
      cases type with
      | some type => exact yields_pure (by rw [Expr.erase, Expr.erase, hoperand])
      | none => exact .of_forall fun _ => yields_pure (by rw [Expr.erase, Expr.erase, hoperand])
  | .load place type => by
      rw [KeepsErased, tree]
      refine .of_forall fun _ => ?_
      refine (keepsErased_tree hrecheck place).bind fun place' hplace => ?_
      exact .of_forall fun _ => yields_pure (by rw [Expr.erase, Expr.erase, hplace])
  | .glue fields type => by
      rw [KeepsErased, tree]
      refine .of_forall fun _ => ?_
      refine (yields_glueFields hrecheck 0 .empty fields).bind fun result hresult => ?_
      exact .of_forall fun _ => yields_pure (by rw [Expr.erase, Expr.erase, hresult])
  | .dot base field position type => by
      rw [KeepsErased, tree]
      refine .of_forall fun _ => ?_
      refine (keepsErased_tree hrecheck base).bind fun base' hbase => ?_
      refine (keepsErased_namedField base' field position type).weaken fun result hresult => ?_
      rw [hresult, Expr.erase, Expr.erase, hbase]
  | .index base position type => by
      rw [KeepsErased, tree]
      refine .of_forall fun _ => ?_
      refine (keepsErased_tree hrecheck base).bind fun base' hbase => ?_
      refine (keepsErased_positionedField base' position type).weaken fun result hresult => ?_
      rw [hresult, Expr.erase, Expr.erase, hbase]

theorem yields_glueFields {recheck : Expr → CheckM Expr}
    (hrecheck : ∀ value, KeepsErased (recheck value) value) (position : Nat) (names : FieldNames) :
    (fields : GlueFields) → Yields (glueFields recheck position names fields) fun result =>
      Expr.eraseFields result.1 = Expr.eraseFields fields
  | [] => by
      rw [glueFields]
      exact yields_pure rfl
  | (name, value) :: rest => by
      rw [glueFields]
      refine .of_forall fun names' => ?_
      refine (keepsErased_tree hrecheck value).bind fun checked hchecked => ?_
      refine (keepsErased_fieldValue hrecheck checked).bind fun final hfinal => ?_
      refine .of_forall fun type => ?_
      refine (yields_glueFields hrecheck (position + 1) names' rest).bind fun result hresult => ?_
      exact yields_pure (by rw [Expr.eraseFields, Expr.eraseFields, hfinal, hchecked, hresult])

end

theorem keepsErased_within (depth : Nat) (value : Expr) :
    KeepsErased (within depth value) value := by
  induction depth generalizing value with
  | zero => exact keepsErased_tree (fun _ => yields_fault _) value
  | succ depth ih => exact keepsErased_tree ih value

theorem keepsErased_expr (value : Expr) : KeepsErased (expr value) value :=
  keepsErased_within value.nesting value

theorem keepsErased_convert (value : Expr) (target : TypeId) :
    KeepsErased (convert value target) value :=
  keepsErased_convertWith (keepsErased_within value.nesting) value target

/-! ## Statements -/

theorem keepsErased_defaultInt (value : Expr) : KeepsErased (defaultInt value) value :=
  .of_forall fun type => keepsErased_convert value type

theorem keepsErased_condition (value : Expr) : KeepsErased (condition value) value := by
  refine (keepsErased_expr value).bind fun checked hchecked => .of_forall fun boolean => ?_
  exact (keepsErased_convert checked boolean).weaken fun _ hresult => hresult.trans hchecked

theorem keepsErased_printed (value : Expr) : KeepsErased (printed value) value := by
  refine (keepsErased_expr value).bind fun checked hchecked => ?_
  have hdefault : KeepsErased (defaultInt checked) value :=
    (keepsErased_defaultInt checked).weaken fun _ hresult => hresult.trans hchecked
  refine .of_forall fun type => .of_forall fun ty => ?_
  cases ty with
  | flexible => exact hdefault
  | bool => exact hdefault
  | int width => exact (keepsErased_materialize checked).weaken fun _ h => h.trans hchecked
  | struct struct => exact yields_expectedInt _

theorem keepsErased_evaluated (value : Expr) : KeepsErased (evaluated value) value := by
  refine (keepsErased_expr value).bind fun checked hchecked => ?_
  refine .of_forall fun type => .of_forall fun flexible => ?_
  split
  · exact (keepsErased_defaultInt checked).weaken fun _ hresult => hresult.trans hchecked
  · exact yields_pure hchecked

theorem keepsErased_storeTyped (symbolType : TypeId) (value : Expr) :
    KeepsErased (storeTyped symbolType value) value := by
  refine .of_forall fun valueType => .of_forall fun promotion => ?_
  split
  · exact keepsErased_convert value symbolType
  · exact yields_mismatch _ _

theorem keepsErased_storeFirst (name : String) (symbol : SymbolId) (value : Expr) :
    KeepsErased (storeFirst name symbol value) value :=
  .of_forall fun _ => .of_forall fun symbolType => .of_forall fun _ =>
    keepsErased_convert value symbolType

theorem yields_expr? (value : Option Expr) :
    Yields (expr? value) fun result => result.map Expr.erase = value.map Expr.erase := by
  cases value with
  | none => exact yields_pure rfl
  | some value =>
      exact (keepsErased_expr value).bind fun checked hchecked => yields_pure (by simp [hchecked])

theorem yields_store (name : String) (symbol : SymbolId) (value : Option Expr) :
    Yields (store name symbol value) fun result =>
      result.map Expr.erase = value.map Expr.erase := by
  refine .of_forall fun symbolType => ?_
  cases symbolType with
  | none =>
      cases value with
      | none => exact yields_refuse _
      | some value =>
          exact (keepsErased_storeFirst name symbol value).bind fun _ hresult =>
            yields_pure (by simp [hresult])
  | some symbolType =>
      cases value with
      | none => exact yields_pure rfl
      | some value =>
          exact (keepsErased_storeTyped symbolType value).bind fun _ hresult =>
            yields_pure (by simp [hresult])

theorem yields_exprs (values : List Expr) :
    Yields (exprs values) fun results => results.map Expr.erase = values.map Expr.erase := by
  induction values with
  | nil => exact yields_pure rfl
  | cons first rest ih =>
      refine (keepsErased_expr first).bind fun first' hfirst => ?_
      exact ih.bind fun rest' hrest => yields_pure (by simp [hfirst, hrest])

theorem yields_convertAll (target : TypeId) (values : List Expr) :
    Yields (convertAll target values) fun results =>
      results.map Expr.erase = values.map Expr.erase := by
  induction values with
  | nil => exact yields_pure rfl
  | cons first rest ih =>
      refine (keepsErased_convert first target).bind fun first' hfirst => ?_
      exact ih.bind fun rest' hrest => yields_pure (by simp [hfirst, hrest])

theorem yields_loopBounds (name : String) (symbol : SymbolId) (bounds : List Expr) :
    Yields (loopBounds name symbol bounds) fun results =>
      results.map Expr.erase = bounds.map Expr.erase := by
  refine (yields_exprs bounds).bind fun checked hchecked => ?_
  refine .of_forall fun type => .of_forall fun done => ?_
  split
  · exact (yields_convertAll type checked).weaken fun _ hresults => hresults.trans hchecked
  · exact yields_refuse _

mutual

/-- Checking a statement keeps it, up to what is erased. -/
theorem yields_stmt : (st : Stmt) → Yields (stmt st) fun result => result.erase = st.erase
  | .bind form name written value symbol => by
      rw [stmt]
      refine (yields_orRefuse _ symbol).bind fun found hfound => ?_
      refine (yields_expr? value).bind fun checked hchecked => .of_forall fun _ => ?_
      refine (yields_store name found checked).bind fun stored hstored => yields_pure ?_
      simp [Stmt.erase, Stmt.mapRoots, hstored, hchecked, hfound]
  | .print value => by
      rw [stmt]
      refine (keepsErased_printed value).bind fun result hresult => yields_pure ?_
      simp [Stmt.erase, Stmt.mapRoots, hresult]
  | .evaluate value => by
      rw [stmt]
      refine (keepsErased_evaluated value).bind fun result hresult => yields_pure ?_
      simp [Stmt.erase, Stmt.mapRoots, hresult]
  | .branch test yes none => by
      rw [stmt]
      refine (keepsErased_condition test).bind fun test' htest => ?_
      refine (yields_stmts yes).bind fun yes' hyes => yields_pure ?_
      rw [Stmt.eraseBody] at hyes
      simp [Stmt.erase, Stmt.mapRoots, htest, hyes]
  | .branch test yes (some no) => by
      rw [stmt]
      refine (keepsErased_condition test).bind fun test' htest => ?_
      refine (yields_stmts yes).bind fun yes' hyes => ?_
      refine (yields_stmts no).bind fun no' hno => yields_pure ?_
      rw [Stmt.eraseBody] at hyes hno
      simp [Stmt.erase, Stmt.mapRoots, htest, hyes, hno]
  | .whileLoop test body => by
      rw [stmt]
      refine (keepsErased_condition test).bind fun test' htest => ?_
      refine (yields_stmts body).bind fun body' hbody => yields_pure ?_
      rw [Stmt.eraseBody] at hbody
      simp [Stmt.erase, Stmt.mapRoots, htest, hbody]
  | .forLoop name symbol bounds body => by
      rw [stmt]
      refine (yields_orRefuse _ symbol).bind fun found hfound => ?_
      refine (yields_loopBounds name found bounds).bind fun bounds' hbounds => ?_
      refine (yields_stmts body).bind fun body' hbody => yields_pure ?_
      rw [Stmt.eraseBody] at hbody
      simp only [Stmt.erase, Stmt.mapRoots, hbounds, hbody, hfound]
  | .block body => by
      rw [stmt]
      refine (yields_stmts body).bind fun body' hbody => yields_pure ?_
      rw [Stmt.eraseBody] at hbody
      simp [Stmt.erase, Stmt.mapRoots, hbody]

theorem yields_stmts : (body : List Stmt) →
    Yields (stmts body) fun result => Stmt.eraseBody result = Stmt.eraseBody body
  | [] => by
      rw [stmts]
      exact yields_pure rfl
  | first :: rest => by
      rw [stmts]
      refine (yields_stmt first).bind fun first' hfirst => ?_
      refine (yields_stmts rest).bind fun rest' hrest => yields_pure ?_
      rw [Stmt.erase] at hfirst
      rw [Stmt.eraseBody] at hrest
      simp [Stmt.eraseBody, Stmt.mapBodyRoots, hfirst, hrest]

end

end Check

/-! ## Programs -/

/-- A program that checks is one whose statements check. -/
theorem stmts_of_typecheck {body : Program} {symbols : SymbolTable} {checked : CheckedProgram}
    {log final : Array Event} (h : Frontend.typecheck body symbols log = .ok checked final) :
    ∃ state : Checking, state.types = checked.types ∧ state.symbols = checked.symbols ∧
      Check.stmts body { types := .empty, symbols := symbols, log := log } =
        .ok checked.body state := by
  unfold Frontend.typecheck at h
  split at h
  · rename_i body' checking hrun
    cases h
    obtain ⟨checkedBody, middle, hbody, hrest⟩ := bind_eq_ok_iff.mp hrun
    cases hrest
    exact ⟨middle, rfl, rfl, hbody⟩
  · cases h

/-- Checking keeps any program, up to what is erased. -/
theorem eraseBody_of_typecheck {body : Program} {symbols : SymbolTable} {checked : CheckedProgram}
    {log final : Array Event} (h : Frontend.typecheck body symbols log = .ok checked final) :
    Stmt.eraseBody checked.body = Stmt.eraseBody body := by
  obtain ⟨state, -, -, hrun⟩ := stmts_of_typecheck h
  exact Check.yields_stmts body _ _ _ hrun

/-- An expression that stands in a checked program is bare once it is erased. -/
theorem bare_erase_of_typecheck {tokens : List Token} {spelled body : Program}
    {symbols : SymbolTable} {checked : CheckedProgram} {start log final : Array Event}
    (hparse : parse tokens = .ok spelled)
    (hresolve : Frontend.resolve spelled start = .ok (body, symbols) log)
    (hcheck : Frontend.typecheck body symbols log = .ok checked final) :
    ∀ value ∈ Stmt.bodyRoots checked.body, value.erase.Bare := by
  intro value hvalue
  have hmem : value.erase ∈ (Stmt.bodyRoots checked.body).map Expr.erase :=
    List.mem_map_of_mem hvalue
  have herase := eraseBody_of_typecheck hcheck
  rw [Stmt.eraseBody] at herase
  rw [← Stmt.bodyRoots_mapBodyRoots, herase, Stmt.bodyRoots_mapBodyRoots] at hmem
  obtain ⟨source, hsource, heq⟩ := List.mem_map.mp hmem
  have hbare := bare_of_resolve (bare_of_parse hparse) hresolve source hsource
  rw [← heq, hbare.erase_eq_self]
  exact hbare

/-- **Checking only annotates.**  For every program that is parsed, from whatever tokens,
and that resolution and checking accept, the checked program is the resolved one, once
types, positions of fields, conversions and loads are erased. -/
theorem eraseBody_eq_of_typecheck {tokens : List Token} {spelled body : Program}
    {symbols : SymbolTable} {checked : CheckedProgram} {start log final : Array Event}
    (hparse : parse tokens = .ok spelled)
    (hresolve : Frontend.resolve spelled start = .ok (body, symbols) log)
    (hcheck : Frontend.typecheck body symbols log = .ok checked final) :
    Stmt.eraseBody checked.body = body := by
  rw [eraseBody_of_typecheck hcheck]
  refine Stmt.mapBodyRoots_eq_self body fun value hvalue => ?_
  exact (bare_of_resolve (bare_of_parse hparse) hresolve value hvalue).erase_eq_self

/-- A program in which a field is found, two places are loaded from, a literal takes a
width and a sum is converted. -/
theorem eraseBody_eq_of_typecheck_field :
    let int32 : TypeId := ⟨1⟩
    let pair : TypeId := ⟨2⟩
    let int64 : TypeId := ⟨3⟩
    let field : Expr := .dot (.var "p" (some ⟨0⟩) pair) "a" (some 0) int32
    let sum : Expr :=
      .binary "+" (.load field int32) (.unary "-" (.literal 3 int32) int32) int32
    ∃ tokens spelled body symbols log checked final,
      (tokenize "p = (a: input(0), 7); q : int(64) = p.a + -3;" = .ok tokens ∧
        parse tokens = .ok spelled ∧
        Frontend.resolve spelled #[] = .ok (body, symbols) log ∧
        Frontend.typecheck body symbols log = .ok checked final ∧
        checked.body =
          [.bind .assignment "p" none
              (some (.load (.glue [(some "a", .read int32), (none, .literal 7 int32)] pair) pair))
              (some ⟨0⟩),
            .bind .declaration "q" (some (.int 64)) (some (.conversion sum int64)) (some ⟨1⟩)]) ∧
      Stmt.eraseBody checked.body = body := by
  intro int32 pair int64 field sum
  refine Exists.imp (fun tokens => Exists.imp fun spelled => Exists.imp fun body =>
    Exists.imp fun symbols => Exists.imp fun log => Exists.imp fun checked =>
    Exists.imp fun final h => ⟨h, eraseBody_eq_of_typecheck h.2.1 h.2.2.1 h.2.2.2.1⟩) ?_
  exact ⟨_, _, _, _, _, _, _, by cbv, by cbv, by cbv, by cbv, rfl⟩

end FlexWidth
