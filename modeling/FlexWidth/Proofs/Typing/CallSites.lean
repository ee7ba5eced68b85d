import FlexWidth.Proofs.Typing.Keeps

/-!
# No call is missing

`Calls`, `Opens` and `Arrives` list the calls that checking makes, each with the steps that
come before it.  The lists repeat the conditions of the checker, and so they could leave a call
out.  This file shows that they do not.

An `Answers` stands in for the checker wherever it is called on an expression.  With answers in
the place of calls, the checker makes no calls at all:

* `Answers.node`, `Answers.nextField` and `Answers.again` are one level of the check of an
  expression, of the fields of a struct literal, and of a conversion;
* `Answers.stmts` is the walk over the statements.

Let the answers be those of the checker at the calls that are listed, and anything elsewhere.
Then the run is that of the checker (`Answers.follows_of_calls`, `Answers.run_stmts`).  A call
that is missing from the lists could be answered in some other way, and the run would be another
one.
-/

namespace FlexWidth.Check

/-- What is done where the checker is called on an expression. -/
structure Answers where
  tree (depth : Nat) (value : Expr) : CheckM Expr
  fields (depth position : Nat) (names : FieldNames) (rest : GlueFields) :
    CheckM (GlueFields × StructTy)
  convert (purpose : Purpose) (depth : Nat) (value : Expr) (target : TypeId) : CheckM Expr

/-- The call is answered as the checker does it. -/
def Answers.Agrees (answers : Answers) : ExprCall → Checking → Prop
  | .tree depth value, t => answers.tree depth value t = Check.tree (recheckAt depth) value t
  | .fields depth position names rest, t =>
    answers.fields depth position names rest t =
      glueFields (recheckAt depth) position names rest t
  | .convert purpose depth value target, t =>
    answers.convert purpose depth value target t = convertWith (recheckAt depth) value target t

/-! ## Expressions -/

/-- The operand of a sign, once it has been checked. -/
def Answers.signed (answers : Answers) (depth : Nat) (operand : Expr) (demand : Option TypeId) :
    CheckM Expr :=
  match operand with
  | .literal value own => negatedLiteral value own demand
  | _ => answers.tree depth operand

/-- The check of a node. Without parts, nothing is checked again. -/
def Answers.node (answers : Answers) (depth : Nat) : Expr → CheckM Expr
  | leaf@(.literal _ _) | leaf@(.var _ _ _) | leaf@(.read _) => Check.tree (recheckAt 0) leaf
  | .unary operator operand type => do
    let demand ← demandOf type
    if operator = "-" then
      let operand ← answers.signed depth operand demand
      signOperand (answers.convert .operand depth) operator operand demand
    else refuse (.unknownOperator operator)
  | .binary operator left right type => do
    let demand ← demandOf type
    let operatorClass ← orRefuse (.unknownOperator operator) (OperatorClass.of? operator)
    let left ← answers.tree depth left
    let right ← answers.tree depth right
    operands (answers.convert .operand depth) operator operatorClass left right demand
  | .conversion operand type => do
    let _ ← demandOf type
    let operand ← answers.tree depth operand
    match type with
    | some type => return .conversion operand (some type)
    | none =>
      let type ← typeOf operand
      return .conversion operand (some type)
  | .load place type => do
    let _ ← demandOf type
    let place ← answers.tree depth place
    let type ← typeOf place
    return .load place (some type)
  | .glue fields type => do
    let _ ← demandOf type
    let (fields, struct) ← answers.fields depth 0 .empty fields
    let type ← intern (Universe.internStruct struct)
    return .glue fields (some type)
  | .dot base field _ type => do
    let _ ← demandOf type
    let base ← answers.tree depth base
    namedField base field
  | .index base position type => do
    let _ ← demandOf type
    let base ← answers.tree depth base
    positionedField base position

/-- The check of the first field of a struct literal. -/
def Answers.nextField (answers : Answers) (depth position : Nat) (names : FieldNames) :
    GlueFields → CheckM (GlueFields × StructTy)
  | [] => return ([], ⟨[], names⟩)
  | (name, value) :: rest => do
    let names ← addName names position name
    let value ← answers.tree depth value
    let value ← fieldValue (answers.convert .field depth) value
    let type ← typeOf value
    let (rest, struct) ← answers.fields depth (position + 1) names rest
    return ((name, value) :: rest, ⟨type :: struct.fields, struct.names⟩)

/-- The check of an expression whose type has been set by a conversion. -/
def Answers.again (answers : Answers) : Nat → Expr → CheckM Expr
  | 0, _ => fault .recursionDepth
  | depth + 1, value => answers.tree depth value

/-- One level of the call, with answers in the place of calls, is what the checker does. -/
def Answers.Follows (answers : Answers) : ExprCall → Checking → Prop
  | .tree depth value, t => answers.node depth value t = Check.tree (recheckAt depth) value t
  | .fields depth position names rest, t =>
    answers.nextField depth position names rest t =
      glueFields (recheckAt depth) position names rest t
  | .convert _ depth value target, t =>
    convertWith (answers.again depth) value target t =
      convertWith (recheckAt depth) value target t

section Steps

variable {s t : Checking} {convert convert' : Expr → TypeId → CheckM Expr} {value : Expr}

theorem run_typeAt_of_isFlexible {id : TypeId} (h : isFlexible id s = .ok true t) :
    typeAt id s = .ok .flexible t := by
  obtain ⟨ty, middle, hty, hflexible⟩ := bind_eq_ok_iff.mp h
  cases ty with
  | flexible =>
      cases hflexible
      exact hty
  | _ => cases hflexible

theorem eq_of_run_materialize {loaded : Expr} (h : materialize value s = .ok loaded t) :
    t = s := by
  unfold materialize at h
  split at h
  · obtain ⟨id, middle, htype, hloaded⟩ := bind_eq_ok_iff.mp h
    cases hloaded
    exact (eq_of_run_orRefuse htype).1
  · cases h
    rfl

/-- The sign of a value converts it if there is a demand and the value is flexible. -/
theorem run_signOperand_congr {demand : Option TypeId} (operator : String)
    (h : ∀ target t, (do
        let type ← typeOf value
        refuseStruct type
        return (value, demand, ← isFlexible type)) s = .ok (value, some target, true) t →
      convert value target t = convert' value target t) :
    signOperand convert operator value demand s = signOperand convert' operator value demand s := by
  refine run_bind_congr rfl fun type s₁ htype => ?_
  refine run_bind_congr rfl fun _ s₂ hscalar => ?_
  refine run_bind_congr rfl fun flexible s₃ hflexible => ?_
  cases demand with
  | none => rfl
  | some target =>
      cases flexible with
      | false => rfl
      | true =>
          refine run_bind_congr (h target s₃ ?_) fun _ _ _ => rfl
          rw [run_bind_ok htype, run_bind_ok hscalar, run_bind_ok hflexible]
          rfl

/-- Operands are converted to one type, whether it is demanded or not. -/
theorem operands_eq_operandTarget_bind (operator : String) (operatorClass : OperatorClass)
    (left right : Expr) (demand : Option TypeId) :
    operands convert operator operatorClass left right demand =
      operandTarget operatorClass left right demand >>= fun
        | some target => do
          let (left, right) ← convertOperands convert left right target
          match operatorClass with
          | .arithmetic => return .binary operator left right (some target)
          | .relational =>
            let boolean ← intern Universe.internBool
            return .binary operator left right (some boolean)
        | none => do
          let flexible ← intern Universe.internFlexible
          return .binary operator left right (some flexible) := by
  simp only [operands, operandTarget, bind_assoc]
  refine bind_congr fun leftType => bind_congr fun rightType => ?_
  refine bind_congr fun _ => bind_congr fun _ => ?_
  cases demand <;> cases operatorClass <;> rfl

theorem run_fieldValue_congr
    (h : ∀ target t, withDefault (pure value) s = .ok (value, .flexible, target) t →
      convert value target t = convert' value target t) :
    fieldValue convert value s = fieldValue convert' value s := by
  refine run_bind_congr rfl fun type s₁ htype => ?_
  refine run_bind_congr rfl fun flexible s₂ hflexible => ?_
  cases flexible with
  | false => rfl
  | true =>
      refine run_bind_congr rfl fun target s₃ htarget => h target s₃ ?_
      rw [withDefault, run_bind_ok (run_pure value s), run_bind_ok htype,
        run_bind_ok (run_typeAt_of_isFlexible hflexible), run_bind_ok htarget]
      rfl

/-- Most nodes look their type up, ask for one call, and go on with what it yields. -/
theorem run_demandOf_bind_congr {α β : Type} {type : Option TypeId} {ask stage : CheckM α}
    (next : α → CheckM β)
    (h : ∀ demand t, demandOf type s = .ok demand t → ask t = stage t) :
    (demandOf type >>= fun _ => ask >>= next) s =
      (demandOf type >>= fun _ => stage >>= next) s :=
  run_bind_congr rfl fun demand t hdemand =>
    run_bind_congr (h demand t hdemand) fun _ _ _ => rfl

theorem run_withDefault {checked : CheckM Expr} (h : checked s = .ok value t) :
    withDefault checked s = withDefault (pure value) t := by
  rw [withDefault, run_bind_ok h]
  rfl

end Steps

namespace Answers

variable {answers : Answers} {s : Checking} {depth : Nat}

theorem run_signed {operand : Expr} {demand : Option TypeId}
    (h : (∀ number own, operand ≠ .literal number own) → answers.Agrees (.tree depth operand) s) :
    answers.signed depth operand demand s = Check.signed (recheckAt depth) operand demand s := by
  cases operand with
  | literal number own => rfl
  | _ => exact h (by simp)

/-- A node asks for the calls that are listed, and for no other. -/
theorem run_node {value : Expr}
    (h : ∀ call t, Calls (.tree depth value) s call t → answers.Agrees call t) :
    answers.node depth value s = Check.tree (recheckAt depth) value s := by
  cases value with
  | literal number type => rw [node, Check.tree, Check.tree]
  | var name symbol type => rw [node, Check.tree, Check.tree]
  | read type => rw [node, Check.tree, Check.tree]
  | unary operator operand type =>
      rw [node, tree_unary]
      refine run_bind_congr rfl fun demand s₁ hdemand => ?_
      by_cases hsign : operator = "-"
      · subst hsign
        rw [if_pos rfl, if_pos rfl]
        refine run_bind_congr (run_signed fun hoperand => h _ _ (.sign hoperand hdemand))
          fun checked s₂ hchecked => ?_
        refine run_signOperand_congr _ fun target t hrun => h _ _ (.signConversion ?_)
        rw [run_bind_ok hdemand, run_bind_ok hchecked]
        exact hrun
      · rw [if_neg hsign, if_neg hsign]
  | binary operator left right type =>
      rw [node, Check.tree]
      refine run_bind_congr rfl fun demand s₁ hdemand => ?_
      refine run_bind_congr rfl fun operatorClass s₂ hknown => ?_
      obtain ⟨rfl, hclass⟩ := eq_of_run_orRefuse hknown
      refine run_bind_congr (h _ _ (.left hclass hdemand)) fun l s₃ hl => ?_
      have hright := h (.tree depth right) s₃ (.right hclass (by rw [run_bind_ok hdemand, hl]))
      refine run_bind_congr hright fun r s₄ hr => ?_
      rw [operands_eq_operandTarget_bind, operands_eq_operandTarget_bind]
      refine run_bind_congr rfl fun target s₅ htarget => ?_
      cases target with
      | none => rfl
      | some target =>
          have hmeeting : meeting (recheckAt depth) operatorClass left right type s =
              .ok (l, r, some target) s₅ := by
            rw [meeting, run_bind_ok hdemand, run_bind_ok hl, run_bind_ok hr, run_bind_ok htarget]
            rfl
          refine run_bind_congr ?_ fun _ _ _ => rfl
          refine run_bind_congr (h _ _ (.leftConversion hclass hmeeting)) fun l' s₆ hl' => ?_
          exact run_bind_congr (h _ _ (.rightConversion hclass hmeeting hl')) fun _ _ _ => rfl
  | conversion operand type =>
      rw [node, Check.tree]
      exact run_demandOf_bind_congr _ fun _ _ hdemand => h _ _ (.conversion hdemand)
  | load place type =>
      rw [node, Check.tree]
      exact run_demandOf_bind_congr _ fun _ _ hdemand => h _ _ (.load hdemand)
  | glue fields type =>
      rw [node, Check.tree]
      exact run_demandOf_bind_congr _ fun _ _ hdemand => h _ _ (.glue hdemand)
  | dot base field position type =>
      rw [node, Check.tree]
      exact run_demandOf_bind_congr _ fun _ _ hdemand => h _ _ (.dot hdemand)
  | index base position type =>
      rw [node, Check.tree]
      exact run_demandOf_bind_congr _ fun _ _ hdemand => h _ _ (.index hdemand)

theorem run_nextField {position : Nat} {names : FieldNames} {fields : GlueFields}
    (h : ∀ call t, Calls (.fields depth position names fields) s call t → answers.Agrees call t) :
    answers.nextField depth position names fields s =
      glueFields (recheckAt depth) position names fields s := by
  cases fields with
  | nil => rw [nextField, glueFields]
  | cons field rest =>
      obtain ⟨name, value⟩ := field
      rw [nextField, glueFields]
      refine run_bind_congr rfl fun names' s₁ hnames => ?_
      refine run_bind_congr (h _ _ (.field hnames)) fun checked s₂ hchecked => ?_
      have hfield : fieldValue (answers.convert .field depth) checked s₂ =
          fieldValue (convertWith (recheckAt depth)) checked s₂ := by
        refine run_fieldValue_congr fun target t htarget => h _ _ (.fieldConversion ?_)
        rwa [run_withDefault (by rw [run_bind_ok hnames, hchecked])]
      refine run_bind_congr hfield fun final s₃ hfinal => ?_
      refine run_bind_congr rfl fun type s₄ htype => ?_
      refine run_bind_congr (h _ _ (.otherFields ?_)) fun _ _ _ => rfl
      rw [run_bind_ok hnames, run_bind_ok hchecked, run_bind_ok hfinal, run_bind_ok htype]
      rfl

theorem run_again {value : Expr} (h : answers.Agrees (.tree depth value) s) :
    answers.again (depth + 1) value s = recheckAt (depth + 1) value s := by
  rw [recheckAt, within_eq_tree]
  exact h

theorem run_settle {purpose : Purpose} {value loaded : Expr} {current target : TypeId}
    (h : ∀ call t, Calls (.convert purpose (depth + 1) value target) s call t →
      answers.Agrees call t) (hloaded : materialize value s = .ok loaded s)
    (hcurrent : typeOf loaded s = .ok current s) (htarget : typeAt target s = .ok .bool s) :
    settle (answers.again (depth + 1)) loaded current s =
      settle (recheckAt (depth + 1)) loaded current s := by
  refine run_bind_congr rfl fun flexible s₁ hflexible => ?_
  cases flexible with
  | false => rfl
  | true =>
      refine run_bind_congr rfl fun default s₂ hdefault => ?_
      refine run_again (h _ _ (.settle htarget ?_))
      rw [withDefault, run_bind_ok hloaded, run_bind_ok hcurrent,
        run_bind_ok (run_typeAt_of_isFlexible hflexible), run_bind_ok hdefault]
      rfl

/-- A conversion checks its value again where that is listed, and nowhere else. -/
theorem run_convertWith_again {purpose : Purpose} {value : Expr} {target : TypeId}
    (h : ∀ call t, Calls (.convert purpose depth value target) s call t →
      answers.Agrees call t) :
    convertWith (answers.again depth) value target s =
      convertWith (recheckAt depth) value target s := by
  cases depth with
  | zero => rfl
  | succ depth =>
      -- up to the check of the value nothing changes, so all steps are made in one state
      refine run_bind_congr rfl fun loaded s₁ hloaded => ?_
      obtain rfl := eq_of_run_materialize hloaded
      refine run_bind_congr rfl fun current s₁ hcurrent => ?_
      obtain ⟨rfl, -⟩ := eq_of_run_orRefuse hcurrent
      by_cases hsame : current = target
      · rw [if_pos hsame, if_pos hsame]
      rw [if_neg hsame, if_neg hsame]
      refine run_bind_congr rfl fun targetTy s₁ htarget => ?_
      obtain ⟨rfl, -⟩ := get?_of_run_typeAt htarget
      by_cases hflexible : targetTy = .flexible
      · rw [if_pos hflexible, if_pos hflexible]
      rw [if_neg hflexible, if_neg hflexible]
      by_cases hbool : targetTy = .bool
      · subst hbool
        exact run_bind_congr (run_settle h hloaded hcurrent htarget) fun _ _ _ => rfl
      rw [if_neg hbool, if_neg hbool]
      refine run_bind_congr rfl fun currentTy s₁ hty => ?_
      obtain ⟨rfl, -⟩ := get?_of_run_typeAt hty
      by_cases hdemanded : currentTy = .flexible
      · subst hdemanded
        rw [if_pos rfl, if_pos rfl]
        cases targetTy with
        | flexible => exact absurd rfl hflexible
        | bool => exact absurd rfl hbool
        | struct struct => rfl
        | int width =>
            refine run_again (h _ _ (@Calls.demand _ _ width _ _ _ _ _ ?_))
            rw [run_bind_ok hloaded, run_bind_ok hcurrent, run_bind_ok hty, run_bind_ok htarget]
            rfl
      · rw [if_neg hdemanded, if_neg hdemanded]

/-- **The calls of an expression are listed.** -/
theorem follows_of_calls {call : ExprCall}
    (h : ∀ inner t, Calls call s inner t → answers.Agrees inner t) : answers.Follows call s := by
  cases call with
  | tree depth value => exact run_node h
  | fields depth position names rest => exact run_nextField h
  | convert purpose depth value target => exact run_convertWith_again h

end Answers

/-! ## Statements

The functions have the names of those of the checker in whose place they stand. -/

/-- The check of an expression of a statement. -/
def Answers.expr (answers : Answers) (value : Expr) : CheckM Expr :=
  answers.tree value.nesting value

/-- The conversion of a checked expression of a statement. -/
def Answers.become (answers : Answers) (purpose : Purpose) (value : Expr) (target : TypeId) :
    CheckM Expr :=
  answers.convert purpose (value.nesting + 1) value target

def Answers.defaultInt (answers : Answers) (purpose : Purpose) (value : Expr) : CheckM Expr := do
  let type ← intern Universe.internDefaultInt
  answers.become purpose value type

def Answers.storeTyped (answers : Answers) (symbolType : TypeId) (value : Expr) : CheckM Expr := do
  let valueType ← typeOf value
  if (← common symbolType valueType) = .resolved symbolType then
    answers.become .binding value symbolType
  else mismatch symbolType valueType

def Answers.storeFirst (answers : Answers) (name : String) (symbol : SymbolId) (value : Expr) :
    CheckM Expr := do
  let valueType ← typeOf value
  let symbolType ← firstType name valueType
  let _ ← setSymbolType symbol symbolType
  answers.become .binding value symbolType

def Answers.store (answers : Answers) (name : String) (symbol : SymbolId) (value : Option Expr) :
    CheckM (Option Expr) := do
  match ← symbolType? symbol, value with
  | some symbolType, some value =>
    let value ← answers.storeTyped symbolType value
    return some value
  | none, some value =>
    let value ← answers.storeFirst name symbol value
    return some value
  | some _, none => return none
  | none, none => refuse (.unboundSymbolType name)

def Answers.expr? (answers : Answers) : Option Expr → CheckM (Option Expr)
  | some value => do
    let value ← answers.expr value
    return some value
  | none => return none

def Answers.exprs (answers : Answers) : List Expr → CheckM (List Expr)
  | [] => return []
  | first :: rest => do
    let first ← answers.expr first
    let rest ← answers.exprs rest
    return first :: rest

def Answers.convertAll (answers : Answers) (target : TypeId) : List Expr → CheckM (List Expr)
  | [] => return []
  | first :: rest => do
    let first ← answers.become .bound first target
    let rest ← answers.convertAll target rest
    return first :: rest

def Answers.loopBounds (answers : Answers) (name : String) (symbol : SymbolId)
    (bounds : List Expr) : CheckM (List Expr) := do
  let bounds ← answers.exprs bounds
  let type ← loopType name bounds
  if ← setSymbolType symbol type then answers.convertAll type bounds
  else refuse (.duplicateDeclaration name)

def Answers.condition (answers : Answers) (value : Expr) : CheckM Expr := do
  let value ← answers.expr value
  let boolean ← intern Universe.internBool
  answers.become .condition value boolean

def Answers.printed (answers : Answers) (value : Expr) : CheckM Expr := do
  let value ← answers.expr value
  let type ← typeOf value
  match ← typeAt type with
  | .flexible | .bool => answers.defaultInt .printing value
  | .int _ => materialize value
  | .struct _ => expectedInt type

def Answers.evaluated (answers : Answers) (value : Expr) : CheckM Expr := do
  let value ← answers.expr value
  let type ← typeOf value
  if ← isFlexible type then answers.defaultInt .evaluation value else return value

mutual

/-- The check of a statement. -/
def Answers.stmt (answers : Answers) : Stmt → CheckM Stmt
  | .bind form name written value symbol => do
    let symbol ← orRefuse (.unresolvedName name) symbol
    let value ← answers.expr? value
    declareType name symbol written
    let value ← answers.store name symbol value
    return .bind form name written value (some symbol)
  | .print value => do
    let value ← answers.printed value
    return .print value
  | .evaluate value => do
    let value ← answers.evaluated value
    return .evaluate value
  | .branch test yes none => do
    let test ← answers.condition test
    let yes ← answers.stmts yes
    return .branch test yes none
  | .branch test yes (some no) => do
    let test ← answers.condition test
    let yes ← answers.stmts yes
    let no ← answers.stmts no
    return .branch test yes (some no)
  | .whileLoop test body => do
    let test ← answers.condition test
    let body ← answers.stmts body
    return .whileLoop test body
  | .forLoop name symbol bounds body => do
    let symbol ← orRefuse (.unresolvedName name) symbol
    let bounds ← answers.loopBounds name symbol bounds
    let body ← answers.stmts body
    return .forLoop name (some symbol) bounds body
  | .block body => do
    let body ← answers.stmts body
    return .block body

/-- The check of statements, one after the other. -/
def Answers.stmts (answers : Answers) : List Stmt → CheckM (List Stmt)
  | [] => return []
  | first :: rest => do
    let first ← answers.stmt first
    let rest ← answers.stmts rest
    return first :: rest

end

namespace Answers

variable {answers : Answers} {s : Checking}

theorem run_expr {value : Expr} (h : answers.Agrees (exprCall value) s) :
    answers.expr value s = Check.expr value s := by
  rw [Check.expr, within_eq_tree]
  exact h

theorem run_become {purpose : Purpose} {value : Expr} {target : TypeId}
    (h : answers.Agrees (convertCall purpose value target) s) :
    answers.become purpose value target s = Check.convert value target s :=
  h

/-! ### Values of variables -/

theorem run_storeTyped {value : Expr} {symbolType : TypeId}
    (h : ∀ t, (do common symbolType (← typeOf value)) s = .ok (.resolved symbolType) t →
      answers.Agrees (convertCall .binding value symbolType) t) :
    answers.storeTyped symbolType value s = Check.storeTyped symbolType value s := by
  refine run_bind_congr rfl fun valueType s₁ htype => ?_
  refine run_bind_congr rfl fun promotion s₂ hcommon => ?_
  by_cases hpromotion : promotion = .resolved symbolType
  · subst hpromotion
    rw [if_pos rfl, if_pos rfl]
    refine run_become (h s₂ ?_)
    rw [run_bind_ok htype, hcommon]
  · rw [if_neg hpromotion, if_neg hpromotion]

theorem run_storeFirst {name : String} {symbol : SymbolId} {value : Expr}
    (h : ∀ type t, (do
        let type ← firstType name (← typeOf value)
        let _ ← setSymbolType symbol type
        return type) s = .ok type t → answers.Agrees (convertCall .binding value type) t) :
    answers.storeFirst name symbol value s = Check.storeFirst name symbol value s := by
  refine run_bind_congr rfl fun valueType s₁ hvalue => ?_
  refine run_bind_congr rfl fun type s₂ htype => ?_
  refine run_bind_congr rfl fun done s₃ hset => run_become (h type s₃ ?_)
  rw [run_bind_ok hvalue, run_bind_ok htype, run_bind_ok hset]
  rfl

theorem run_stmt_bind {form : BindingForm} {name : String} {written : Option Ascription}
    {value : Option Expr} {symbol : Option SymbolId}
    (h : ∀ call t, Opens (.bind form name written value symbol) s call t →
      answers.Agrees call t) :
    answers.stmt (.bind form name written value symbol) s =
      Check.stmt (.bind form name written value symbol) s := by
  rw [stmt, Check.stmt]
  cases symbol with
  | none => rfl
  | some symbol =>
      refine run_bind_congr rfl fun _ s₁ hknown => ?_
      cases hknown
      cases value with
      | none =>
          refine run_bind_congr rfl fun value s₂ hvalue => ?_
          cases hvalue
          refine run_bind_congr rfl fun _ s₃ hdeclare => ?_
          refine run_bind_congr ?_ fun _ _ _ => rfl
          exact run_bind_congr rfl fun type s₄ htype => by cases type <;> rfl
      | some value =>
          have hchecked : answers.expr? (some value) s = Check.expr? (some value) s :=
            run_bind_congr (run_expr (h _ _ .value)) fun _ _ _ => rfl
          refine run_bind_congr hchecked fun found s₂ hfound => ?_
          obtain ⟨checked, s₂, hvalue, hfound⟩ := bind_eq_ok_iff.mp hfound
          cases hfound
          refine run_bind_congr rfl fun _ s₃ hdeclare => ?_
          refine run_bind_congr ?_ fun _ _ _ => rfl
          refine run_bind_congr rfl fun type s₄ htype => ?_
          have hbinding : bindingValue name written value symbol s = .ok (checked, type) s₄ := by
            rw [bindingValue, run_bind_ok hvalue, run_bind_ok hdeclare, run_bind_ok htype]
            rfl
          cases type with
          | none =>
              refine run_bind_congr (run_storeFirst fun type t htype => ?_) fun _ _ _ => rfl
              exact h _ _ (.first hbinding htype)
          | some type =>
              refine run_bind_congr (run_storeTyped fun t hcommon => ?_) fun _ _ _ => rfl
              exact h _ _ (.typed hbinding hcommon)

/-! ### Values that are used at once -/

theorem run_printed {value : Expr}
    (h : ∀ call t, Opens (.print value) s call t → answers.Agrees call t) :
    answers.printed value s = Check.printed value s := by
  refine run_bind_congr (run_expr (h _ _ .print)) fun checked s₁ hchecked => ?_
  refine run_bind_congr rfl fun type s₂ htype => ?_
  refine run_bind_congr rfl fun ty s₃ hty => ?_
  have hdefault (hcase : ty = .flexible ∨ ty = .bool) :
      answers.defaultInt .printing checked s₃ = Check.defaultInt checked s₃ := by
    refine run_bind_congr rfl fun target s₄ htarget => ?_
    refine run_become (h _ _ (.printing ?_ hcase))
    rw [withDefault, run_bind_ok hchecked, run_bind_ok htype, run_bind_ok hty,
      run_bind_ok htarget]
    rfl
  cases ty with
  | flexible => exact hdefault (Or.inl rfl)
  | bool => exact hdefault (Or.inr rfl)
  | int width => rfl
  | struct struct => rfl

theorem run_evaluated {value : Expr}
    (h : ∀ call t, Opens (.evaluate value) s call t → answers.Agrees call t) :
    answers.evaluated value s = Check.evaluated value s := by
  refine run_bind_congr (run_expr (h _ _ .evaluate)) fun checked s₁ hchecked => ?_
  refine run_bind_congr rfl fun type s₂ htype => ?_
  refine run_bind_congr rfl fun flexible s₃ hflexible => ?_
  cases flexible with
  | false => rfl
  | true =>
      refine run_bind_congr rfl fun target s₄ htarget => ?_
      refine run_become (h _ _ (.evaluation ?_))
      rw [withDefault, run_bind_ok hchecked, run_bind_ok htype,
        run_bind_ok (run_typeAt_of_isFlexible hflexible), run_bind_ok htarget]
      rfl

theorem run_condition {st : Stmt} {value : Expr} (htest : test? st = some value)
    (h : ∀ call t, Opens st s call t → answers.Agrees call t) :
    answers.condition value s = Check.condition value s := by
  refine run_bind_congr (run_expr (h _ _ (.test htest))) fun checked s₁ hchecked => ?_
  refine run_bind_congr rfl fun target s₂ htarget => ?_
  refine run_become (h _ _ (.condition htest ?_))
  rw [run_bind_ok hchecked, run_bind_ok htarget]
  rfl

/-! ### Bounds of loops -/

theorem run_exprs {values : List Expr}
    (h : ∀ before value after before' t, values = before ++ value :: after →
      Check.exprs before s = .ok before' t → answers.Agrees (exprCall value) t) :
    answers.exprs values s = Check.exprs values s := by
  induction values generalizing s with
  | nil => rfl
  | cons first rest ih =>
      refine run_bind_congr (run_expr (h [] first rest [] s rfl rfl)) fun first' s₁ hfirst => ?_
      refine run_bind_congr (ih fun before value after before' t hrest hbefore => ?_)
        fun _ _ _ => rfl
      refine h (first :: before) value after (first' :: before') t (by rw [hrest]; rfl) ?_
      rw [Check.exprs, run_bind_ok hfirst, run_bind_ok hbefore]
      rfl

theorem run_convertAll {target : TypeId} {values : List Expr}
    (h : ∀ before value after before' t, values = before ++ value :: after →
      Check.convertAll target before s = .ok before' t →
      answers.Agrees (convertCall .bound value target) t) :
    answers.convertAll target values s = Check.convertAll target values s := by
  induction values generalizing s with
  | nil => rfl
  | cons first rest ih =>
      refine run_bind_congr (run_become (h [] first rest [] s rfl rfl)) fun first' s₁ hfirst => ?_
      refine run_bind_congr (ih fun before value after before' t hrest hbefore => ?_)
        fun _ _ _ => rfl
      refine h (first :: before) value after (first' :: before') t (by rw [hrest]; rfl) ?_
      rw [Check.convertAll, run_bind_ok hfirst, run_bind_ok hbefore]
      rfl

theorem run_loopBounds {name : String} {symbol : SymbolId} {bounds : List Expr}
    {body : List Stmt}
    (h : ∀ call t, Opens (.forLoop name (some symbol) bounds body) s call t →
      answers.Agrees call t) :
    answers.loopBounds name symbol bounds s = Check.loopBounds name symbol bounds s := by
  have hexprs : answers.exprs bounds s = Check.exprs bounds s := by
    refine run_exprs fun before value after before' t hbounds hbefore => ?_
    subst hbounds
    exact h _ _ (.bound hbefore)
  refine run_bind_congr hexprs fun checked s₁ hchecked => ?_
  refine run_bind_congr rfl fun type s₂ htype => ?_
  refine run_bind_congr rfl fun done s₃ hset => ?_
  cases done with
  | false => rfl
  | true =>
      refine run_convertAll fun before value after before' t hbounds hbefore => ?_
      subst hbounds
      have hbounds : boundsType name symbol bounds s =
          .ok (before ++ value :: after, type, true) s₃ := by
        rw [boundsType, run_bind_ok hchecked, run_bind_ok htype, run_bind_ok hset]
        rfl
      exact h _ _ (.boundConversion hbounds hbefore)

/-! ### The walk -/

mutual

/-- A statement, with all that is inside it: what is reached there is reached from outside. -/
theorem run_stmt {s : Checking} : (st : Stmt) →
    (∀ inner middle call t, Arrives [st] s inner middle → Opens inner middle call t →
      answers.Agrees call t) →
    answers.stmt st s = Check.stmt st s
  | .bind form name written value symbol, h => run_stmt_bind fun call t => h _ _ call t .here
  | .print value, h => by
      rw [stmt, Check.stmt]
      exact run_bind_congr (run_printed fun call t => h _ _ call t .here) fun _ _ _ => rfl
  | .evaluate value, h => by
      rw [stmt, Check.stmt]
      exact run_bind_congr (run_evaluated fun call t => h _ _ call t .here) fun _ _ _ => rfl
  | .branch test yes none, h => by
      rw [stmt, Check.stmt]
      refine run_bind_congr (run_condition rfl fun call t => h _ _ call t .here)
        fun test' s₁ htest => ?_
      refine run_bind_congr (run_stmts yes fun inner middle call t harrives => ?_)
        fun _ _ _ => rfl
      exact h inner middle call t (.yes htest harrives)
  | .branch test yes (some no), h => by
      rw [stmt, Check.stmt]
      refine run_bind_congr (run_condition rfl fun call t => h _ _ call t .here)
        fun test' s₁ htest => ?_
      refine run_bind_congr (run_stmts yes fun inner middle call t harrives =>
        h inner middle call t (.yes htest harrives)) fun yes' s₂ hyes => ?_
      refine run_bind_congr (run_stmts no fun inner middle call t harrives => ?_)
        fun _ _ _ => rfl
      exact h inner middle call t (.no htest hyes harrives)
  | .whileLoop test body, h => by
      rw [stmt, Check.stmt]
      refine run_bind_congr (run_condition rfl fun call t => h _ _ call t .here)
        fun test' s₁ htest => ?_
      refine run_bind_congr (run_stmts body fun inner middle call t harrives => ?_)
        fun _ _ _ => rfl
      exact h inner middle call t (.whileLoop htest harrives)
  | .forLoop name none bounds body, _ => by
      rw [stmt, Check.stmt]
      rfl
  | .forLoop name (some symbol) bounds body, h => by
      rw [stmt, Check.stmt]
      refine run_bind_congr rfl fun _ s₁ hknown => ?_
      cases hknown
      refine run_bind_congr (run_loopBounds fun call t => h _ _ call t .here)
        fun bounds' s₂ hbounds => ?_
      refine run_bind_congr (run_stmts body fun inner middle call t harrives => ?_)
        fun _ _ _ => rfl
      exact h inner middle call t (.forLoop hbounds harrives)
  | .block body, h => by
      rw [stmt, Check.stmt]
      refine run_bind_congr (run_stmts body fun inner middle call t harrives => ?_)
        fun _ _ _ => rfl
      exact h inner middle call t (.block harrives)

/-- **The calls of statements are listed.** -/
theorem run_stmts {s : Checking} : (body : List Stmt) →
    (∀ st middle call t, Arrives body s st middle → Opens st middle call t →
      answers.Agrees call t) →
    answers.stmts body s = Check.stmts body s
  | [], _ => by rw [stmts, Check.stmts]
  | first :: rest, h => by
      rw [stmts, Check.stmts]
      refine run_bind_congr (run_stmt first fun inner middle call t harrives =>
        h inner middle call t (harrives.append rest)) fun first' s₁ hfirst => ?_
      refine run_bind_congr (run_stmts rest fun st middle call t harrives => ?_)
        fun _ _ _ => rfl
      exact h st middle call t (.later hfirst harrives)

end

/-- **No call is missing.**  Let answers agree with the checker at every call that is made while
statements are checked.  Then checking the statements with answers in the place of calls is
checking them, and so is every call that is made: whatever the checker asks for is among the
calls that are listed. -/
theorem run_of_makes {body : List Stmt}
    (h : ∀ call t, Makes body s call t → answers.Agrees call t) :
    answers.stmts body s = Check.stmts body s ∧
      ∀ call t, Makes body s call t → answers.Follows call t := by
  constructor
  · refine run_stmts body fun st middle call t harrives hopens => ?_
    exact h call t (.opens harrives hopens)
  · intro call t hmakes
    exact follows_of_calls fun inner later hcalls => h inner later (.calls hmakes hcalls)

end Answers

end FlexWidth.Check
