import FlexWidth.Proofs.Typing.Inference
import FlexWidth.Proofs.Typing.Walk

/-!
# The calls of a run

Checking a program means calling the checker on its statements, on their expressions and on
the parts of those, and converting what has been checked.  A call is made in some state,
which depends on what the calls before it have done.

* `Calls`: the calls that the check or the conversion of an expression makes itself.
* `Opens`: the calls that a statement makes itself.
* `Makes`: every call on an expression that is made while statements are checked.
* `Reached`: every state in which a call is made or from which it returns.

Each rule states the steps that come before a call in the words of the checker, as the run
of a computation, so that a call is made only where all of them have succeeded.  That the rules
leave no call out is shown in `CallSites.lean` (`Answers.run_of_makes`).
-/

namespace FlexWidth.Check

/-- What a value is converted for. -/
inductive Purpose where
  | operand
  | field
  | binding
  | bound
  | printing
  | evaluation
  | condition
deriving DecidableEq

/-- A call of the checker on an expression, where `depth` levels of checking again are
left. -/
inductive ExprCall where
  | tree (depth : Nat) (value : Expr)
  | fields (depth position : Nat) (names : FieldNames) (rest : GlueFields)
  | convert (purpose : Purpose) (depth : Nat) (value : Expr) (target : TypeId)

/-- The call returns, and leaves the second state. -/
def ExprCall.Returns (s t : Checking) : ExprCall → Prop
  | tree depth value => ∃ result, Check.tree (recheckAt depth) value s = .ok result t
  | fields depth position names rest =>
    ∃ result, glueFields (recheckAt depth) position names rest s = .ok result t
  | convert _ depth value target =>
    ∃ result, convertWith (recheckAt depth) value target s = .ok result t

/-! ## Calls made by expressions -/

/-- The operand of a sign, once it has been checked. -/
def signed (recheck : Expr → CheckM Expr) (operand : Expr) (demand : Option TypeId) :
    CheckM Expr :=
  match operand with
  | .literal value own => negatedLiteral value own demand
  | _ => tree recheck operand

/-- The type to which checked operands are converted, if they are. -/
def operandTarget (operatorClass : OperatorClass) (left right : Expr) (demand : Option TypeId) :
    CheckM (Option TypeId) := do
  let leftType ← typeOf left
  let rightType ← typeOf right
  refuseStruct leftType
  refuseStruct rightType
  match demand, operatorClass with
  | some demand, .arithmetic => return some demand
  | _, _ => operandType operatorClass leftType rightType

/-- The operands of an operator, once they have been checked, and the type to which they
are converted. -/
def meeting (recheck : Expr → CheckM Expr) (operatorClass : OperatorClass) (left right : Expr)
    (type : Option TypeId) : CheckM (Expr × Expr × Option TypeId) := do
  let demand ← demandOf type
  let left ← tree recheck left
  let right ← tree recheck right
  let target ← operandTarget operatorClass left right demand
  return (left, right, target)

/-- A checked expression with its type, and the default integer, to which it may be
converted. -/
def withDefault (checked : CheckM Expr) : CheckM (Expr × Ty × TypeId) := do
  let value ← checked
  let ty ← typeAt (← typeOf value)
  let defaultInt ← intern Universe.internDefaultInt
  return (value, ty, defaultInt)

/-- The first call, made in the first state, makes the second call in the second state. -/
inductive Calls : ExprCall → Checking → ExprCall → Checking → Prop where
  | sign {depth : Nat} {operand : Expr} {type demand : Option TypeId} {s t : Checking} :
      (∀ number own, operand ≠ .literal number own) → demandOf type s = .ok demand t →
      Calls (.tree depth (.unary "-" operand type)) s (.tree depth operand) t
  | signConversion {depth : Nat} {operand checked : Expr} {type : Option TypeId}
      {target : TypeId} {s t : Checking} :
      (do
        let demand ← demandOf type
        let operand ← signed (recheckAt depth) operand demand
        let operandType ← typeOf operand
        refuseStruct operandType
        return (operand, demand, ← isFlexible operandType)) s =
          .ok (checked, some target, true) t →
      Calls (.tree depth (.unary "-" operand type)) s (.convert .operand depth checked target) t
  | left {depth : Nat} {operator : String} {operatorClass : OperatorClass} {left right : Expr}
      {type demand : Option TypeId} {s t : Checking} :
      OperatorClass.of? operator = some operatorClass → demandOf type s = .ok demand t →
      Calls (.tree depth (.binary operator left right type)) s (.tree depth left) t
  | right {depth : Nat} {operator : String} {operatorClass : OperatorClass} {left right l : Expr}
      {type : Option TypeId} {s t : Checking} :
      OperatorClass.of? operator = some operatorClass →
      (do
        let _ ← demandOf type
        tree (recheckAt depth) left) s = .ok l t →
      Calls (.tree depth (.binary operator left right type)) s (.tree depth right) t
  | leftConversion {depth : Nat} {operator : String} {operatorClass : OperatorClass}
      {left right l r : Expr} {type : Option TypeId} {target : TypeId} {s t : Checking} :
      OperatorClass.of? operator = some operatorClass →
      meeting (recheckAt depth) operatorClass left right type s = .ok (l, r, some target) t →
      Calls (.tree depth (.binary operator left right type)) s
        (.convert .operand depth l target) t
  | rightConversion {depth : Nat} {operator : String} {operatorClass : OperatorClass}
      {left right l r l' : Expr} {type : Option TypeId} {target : TypeId}
      {s middle t : Checking} :
      OperatorClass.of? operator = some operatorClass →
      meeting (recheckAt depth) operatorClass left right type s = .ok (l, r, some target) middle →
      convertWith (recheckAt depth) l target middle = .ok l' t →
      Calls (.tree depth (.binary operator left right type)) s
        (.convert .operand depth r target) t
  | conversion {depth : Nat} {operand : Expr} {type demand : Option TypeId} {s t : Checking} :
      demandOf type s = .ok demand t →
      Calls (.tree depth (.conversion operand type)) s (.tree depth operand) t
  | load {depth : Nat} {place : Expr} {type demand : Option TypeId} {s t : Checking} :
      demandOf type s = .ok demand t →
      Calls (.tree depth (.load place type)) s (.tree depth place) t
  | dot {depth : Nat} {base : Expr} {field : String} {position : Option Nat}
      {type demand : Option TypeId} {s t : Checking} : demandOf type s = .ok demand t →
      Calls (.tree depth (.dot base field position type)) s (.tree depth base) t
  | index {depth : Nat} {base : Expr} {position : Nat} {type demand : Option TypeId}
      {s t : Checking} : demandOf type s = .ok demand t →
      Calls (.tree depth (.index base position type)) s (.tree depth base) t
  | glue {depth : Nat} {fields : GlueFields} {type demand : Option TypeId} {s t : Checking} :
      demandOf type s = .ok demand t →
      Calls (.tree depth (.glue fields type)) s (.fields depth 0 .empty fields) t
  | field {depth position : Nat} {names names' : FieldNames} {name : Option String}
      {value : Expr} {rest : GlueFields} {s t : Checking} :
      addName names position name s = .ok names' t →
      Calls (.fields depth position names ((name, value) :: rest)) s (.tree depth value) t
  | fieldConversion {depth position : Nat} {names : FieldNames} {name : Option String}
      {value checked : Expr} {rest : GlueFields} {target : TypeId} {s t : Checking} :
      withDefault (do
        let _ ← addName names position name
        tree (recheckAt depth) value) s = .ok (checked, .flexible, target) t →
      Calls (.fields depth position names ((name, value) :: rest)) s
        (.convert .field depth checked target) t
  | otherFields {depth position : Nat} {names names' : FieldNames} {name : Option String}
      {value : Expr} {rest : GlueFields} {s t : Checking} :
      (do
        let names ← addName names position name
        let value ← tree (recheckAt depth) value
        let value ← fieldValue (convertWith (recheckAt depth)) value
        let _ ← typeOf value
        return names) s = .ok names' t →
      Calls (.fields depth position names ((name, value) :: rest)) s
        (.fields depth (position + 1) names' rest) t
  /-- A flexible value takes an integer type. -/
  | demand {purpose : Purpose} {depth width : Nat} {value loaded : Expr} {target : TypeId}
      {s t : Checking} :
      (do
        let value ← materialize value
        let currentTy ← typeAt (← typeOf value)
        let targetTy ← typeAt target
        return (value, currentTy, targetTy)) s = .ok (loaded, .flexible, .int width) t →
      Calls (.convert purpose (depth + 1) value target) s
        (.tree depth (loaded.withType target)) t
  /-- A flexible value is to become a truth value, and takes the default integer type
  first. -/
  | settle {purpose : Purpose} {depth : Nat} {value loaded : Expr} {target default : TypeId}
      {s middle t : Checking} : typeAt target s = .ok .bool middle →
      withDefault (materialize value) middle = .ok (loaded, .flexible, default) t →
      Calls (.convert purpose (depth + 1) value target) s
        (.tree depth (loaded.withType default)) t

/-! ## Calls made by statements -/

/-- A call that checks an expression of a statement. -/
def exprCall (value : Expr) : ExprCall := .tree value.nesting value

/-- A call that converts a checked expression of a statement. -/
def convertCall (purpose : Purpose) (value : Expr) (target : TypeId) : ExprCall :=
  .convert purpose (value.nesting + 1) value target

/-- The condition of a statement that has one. -/
def test? : Stmt → Option Expr
  | .branch test _ _ | .whileLoop test _ => some test
  | _ => none

/-- The value of a binding, once it has been checked, and the type of the variable once its
written type has been declared. -/
def bindingValue (name : String) (written : Option Ascription) (value : Expr)
    (symbol : SymbolId) : CheckM (Expr × Option TypeId) := do
  let value ← expr value
  declareType name symbol written
  return (value, ← symbolType? symbol)

/-- The bounds of a loop, once they have been checked, and the type that they and the
variable of the loop get, if the variable has none yet. -/
def boundsType (name : String) (symbol : SymbolId) (bounds : List Expr) :
    CheckM (List Expr × TypeId × Bool) := do
  let bounds ← exprs bounds
  let type ← loopType name bounds
  return (bounds, type, ← setSymbolType symbol type)

/-- The statement, begun in the first state, makes the call in the second state. -/
inductive Opens : Stmt → Checking → ExprCall → Checking → Prop where
  | value {form : BindingForm} {name : String} {written : Option Ascription} {value : Expr}
      {symbol : SymbolId} {s : Checking} :
      Opens (.bind form name written (some value) (some symbol)) s (exprCall value) s
  | typed {form : BindingForm} {name : String} {written : Option Ascription}
      {value checked : Expr} {symbol : SymbolId} {type : TypeId} {s middle t : Checking} :
      bindingValue name written value symbol s = .ok (checked, some type) middle →
      (do common type (← typeOf checked)) middle = .ok (.resolved type) t →
      Opens (.bind form name written (some value) (some symbol)) s
        (convertCall .binding checked type) t
  | first {form : BindingForm} {name : String} {written : Option Ascription}
      {value checked : Expr} {symbol : SymbolId} {type : TypeId} {s middle t : Checking} :
      bindingValue name written value symbol s = .ok (checked, none) middle →
      (do
        let type ← firstType name (← typeOf checked)
        let _ ← setSymbolType symbol type
        return type) middle = .ok type t →
      Opens (.bind form name written (some value) (some symbol)) s
        (convertCall .binding checked type) t
  | print {value : Expr} {s : Checking} : Opens (.print value) s (exprCall value) s
  | printing {value checked : Expr} {ty : Ty} {target : TypeId} {s t : Checking} :
      withDefault (expr value) s = .ok (checked, ty, target) t →
      ty = .flexible ∨ ty = .bool →
      Opens (.print value) s (convertCall .printing checked target) t
  | evaluate {value : Expr} {s : Checking} : Opens (.evaluate value) s (exprCall value) s
  | evaluation {value checked : Expr} {target : TypeId} {s t : Checking} :
      withDefault (expr value) s = .ok (checked, .flexible, target) t →
      Opens (.evaluate value) s (convertCall .evaluation checked target) t
  | test {st : Stmt} {value : Expr} {s : Checking} : test? st = some value →
      Opens st s (exprCall value) s
  | condition {st : Stmt} {value checked : Expr} {target : TypeId} {s t : Checking} :
      test? st = some value →
      (do
        let value ← expr value
        return (value, ← intern Universe.internBool)) s = .ok (checked, target) t →
      Opens st s (convertCall .condition checked target) t
  | bound {name : String} {symbol : SymbolId} {before after before' : List Expr} {value : Expr}
      {body : List Stmt} {s t : Checking} : exprs before s = .ok before' t →
      Opens (.forLoop name (some symbol) (before ++ value :: after) body) s (exprCall value) t
  | boundConversion {name : String} {symbol : SymbolId} {bounds before after before' : List Expr}
      {checked : Expr} {body : List Stmt} {type : TypeId} {s middle t : Checking} :
      boundsType name symbol bounds s = .ok (before ++ checked :: after, type, true) middle →
      convertAll type before middle = .ok before' t →
      Opens (.forLoop name (some symbol) bounds body) s (convertCall .bound checked type) t

/-! ## Runs -/

/-- While the statements are checked from the first state on, the call is made in the
second state. -/
inductive Makes (body : List Stmt) (s : Checking) : ExprCall → Checking → Prop where
  | opens {st : Stmt} {call : ExprCall} {middle t : Checking} : Arrives body s st middle →
      Opens st middle call t → Makes body s call t
  | calls {outer inner : ExprCall} {middle t : Checking} : Makes body s outer middle →
      Calls outer middle inner t → Makes body s inner t

/-- While the statements are checked from the first state on, the second state is one in
which a statement or an expression begins to be checked or converted, or has been. -/
inductive Reached (body : List Stmt) (s : Checking) : Checking → Prop where
  | start : Reached body s s
  | begins {st : Stmt} {t : Checking} : Arrives body s st t → Reached body s t
  | ends {st st' : Stmt} {middle t : Checking} : Arrives body s st middle →
      stmt st middle = .ok st' t → Reached body s t
  | calls {call : ExprCall} {t : Checking} : Makes body s call t → Reached body s t
  | returns {call : ExprCall} {middle t : Checking} : Makes body s call middle →
      call.Returns middle t → Reached body s t

end FlexWidth.Check
