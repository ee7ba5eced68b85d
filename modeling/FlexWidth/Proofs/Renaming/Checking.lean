import FlexWidth.Proofs.Renaming.Resolution
import Mathlib

/-!
# Checking a renamed program

Checking finds variables by their symbols and never by their names, so it commutes with
every renaming of variables, injective or not.  Names only pass through it, into trees,
events and diagnostics.  Steps that see no name of a variable at all are `Nameless`; the
texts of types and the names of fields are among what they see.

Together with resolution, where the renaming has to be injective, this says that the names
of variables do not matter.
-/

namespace FlexWidth

/-- The state of type checking with other names for the variables. -/
def Checking.rename (f : String → String) (checking : Checking) : Checking :=
  { types := checking.types
    symbols := checking.symbols.rename f
    log := checking.log.map (Event.rename f) }

/-- The typed program with other names for the variables. -/
def CheckedProgram.rename (f : String → String) (checked : CheckedProgram) : CheckedProgram :=
  { body := Stmt.relabelBody (onName f) checked.body
    types := checked.types
    symbols := checked.symbols.rename f }

namespace Check

variable {α : Type} {f : String → String} {onValue : α → α}

/-- The stage neither depends on the names of variables nor yields any. -/
abbrev Nameless (f : String → String) (stage : CheckM α) : Prop :=
  Renames f (Checking.rename f) id stage stage

/-- The second stage yields the expression of the first, renamed. -/
abbrev RenamesExpr (f : String → String) (stage renamed : CheckM Expr) : Prop :=
  Renames f (Checking.rename f) (Expr.relabel (onName f)) stage renamed

/-! ## Steps on the state -/

theorem nameless_intern (type : Universe → TypeId × Universe) : Nameless f (intern type) :=
  renames_modifyGet fun _ => rfl

theorem nameless_typeAt (id : TypeId) : Nameless f (typeAt id) :=
  renames_get.bind fun checking => renames_orFault _ (checking.types.get? id)

theorem nameless_describe (id : TypeId) : Nameless f (describe id) :=
  renames_get.bind fun checking => renames_orFault _ (checking.types.describe? id)

theorem nameless_isFlexible (id : TypeId) : Nameless f (isFlexible id) :=
  (nameless_typeAt id).andThen fun _ => renames_pure _

theorem nameless_isStruct (id : TypeId) : Nameless f (isStruct id) :=
  (nameless_typeAt id).andThen fun _ => renames_pure _

theorem nameless_common (left right : TypeId) : Nameless f (common left right) := by
  intro start
  have htypes : (start.rename f).types = start.types := rfl
  rw [common, run_bind_ok (run_get _), run_bind_ok (run_get start), htypes]
  cases start.types.common? left right <;> rfl

theorem nameless_symbolType? (symbol : SymbolId) : Nameless f (symbolType? symbol) := by
  refine renames_get.bind fun checking => ?_
  have hget : (checking.rename f).symbols.get? symbol = _ :=
    SymbolTable.get?_rename f checking.symbols symbol
  rw [hget]
  cases checking.symbols.get? symbol with
  | some known => exact renames_pure known.type
  | none => exact renames_fault _

theorem nameless_setSymbolType (symbol : SymbolId) (type : TypeId) :
    Nameless f (setSymbolType symbol type) := by
  intro start
  have hset : (start.rename f).symbols.setType? symbol type = _ :=
    SymbolTable.setType?_rename f start.symbols symbol type
  rw [setSymbolType, run_bind_ok (run_get _), run_bind_ok (run_get start), hset]
  cases start.symbols.setType? symbol type <;> rfl

theorem renames_note (event : Event) :
    Renames f (Checking.rename f) id (note event) (note (event.rename f)) := by
  refine renames_modify fun checking => ?_
  simp [Checking.rename]

theorem renames_mismatch (expected received : TypeId) :
    Renames f (Checking.rename f) onValue (mismatch expected received)
      (mismatch expected received) :=
  (nameless_describe expected).andThen fun _ => (nameless_describe received).andThen fun _ =>
    renames_refuse (.typeMismatch _ _)

theorem renames_expectedInt (received : TypeId) :
    Renames f (Checking.rename f) onValue (expectedInt received) (expectedInt received) :=
  (nameless_describe received).andThen fun _ => renames_refuse (.typeMismatch _ _)

theorem renames_typeOf (value : Expr) :
    Renames f (Checking.rename f) id (typeOf value) (typeOf (value.relabel (onName f))) := by
  unfold typeOf
  rw [Expr.type?_relabel]
  exact renames_orRefuse _ _

theorem nameless_refuseStruct (type : TypeId) : Nameless f (refuseStruct type) :=
  (nameless_isStruct type).andThen fun _ => .ite (renames_expectedInt type) (renames_pure ())

/-! ## Literals and conversion -/

theorem nameless_orFlexible (type : Option TypeId) : Nameless f (orFlexible type) := by
  cases type with
  | some type => exact renames_pure type
  | none => exact nameless_intern Universe.internFlexible

theorem nameless_fits (value : Nat) (type : TypeId) (negated : Bool) :
    Nameless f (fits value type negated) := by
  refine (nameless_typeAt type).andThen fun ty => ?_
  cases ty with
  | int width =>
      refine .ite (renames_pure ()) ((nameless_describe type).andThen fun _ => ?_)
      exact renames_refuse (.literalOutOfRange _ _)
  | flexible => exact renames_pure ()
  | bool =>
      exact (nameless_describe type).andThen fun _ => renames_refuse (.typeMismatch _ _)
  | struct struct =>
      exact (nameless_describe type).andThen fun _ => renames_refuse (.typeMismatch _ _)

theorem renames_literal (value : Nat) (type : Option TypeId) :
    RenamesExpr f (literal value type) (literal value type) := by
  refine (nameless_orFlexible type).andThen fun type => ?_
  exact (nameless_fits value type false).andThen fun _ =>
    renames_pure (Expr.literal value (some type))

theorem renames_negatedLiteral (value : Nat) (type demand : Option TypeId) :
    RenamesExpr f (negatedLiteral value type demand) (negatedLiteral value type demand) := by
  refine (nameless_orFlexible (demand.or type)).andThen fun type => ?_
  exact (nameless_fits value type true).andThen fun _ =>
    renames_pure (Expr.literal value (some type))

theorem renames_materialize (value : Expr) :
    RenamesExpr f (materialize value) (materialize (value.relabel (onName f))) := by
  unfold materialize
  rw [Expr.denotesStorage_relabel]
  refine .ite ?_ (renames_pure value)
  exact (renames_typeOf value).andThen fun type => renames_pure (Expr.load value (some type))

theorem renames_reportConversion (value : Expr) (target : TypeId) :
    Renames f (Checking.rename f) id (reportConversion value target)
      (reportConversion (value.relabel (onName f)) target) := by
  unfold reportConversion
  rw [Expr.type?_relabel]
  cases value.type? with
  | none => exact renames_pure ()
  | some source =>
      refine (nameless_describe source).andThen fun _ => ?_
      exact (nameless_describe target).andThen fun _ => renames_note (.converted _ _)

theorem renames_wrapConversion (value : Expr) (target : TypeId) :
    RenamesExpr f (wrapConversion value target)
      (wrapConversion (value.relabel (onName f)) target) :=
  (renames_reportConversion value target).andThen fun _ =>
    renames_pure (Expr.conversion value (some target))

section Recheck

variable {recheck : Expr → CheckM Expr}
  (hrecheck : ∀ value, RenamesExpr f (recheck value) (recheck (value.relabel (onName f))))

include hrecheck

theorem renames_recheck_withType (value : Expr) (type : TypeId) :
    RenamesExpr f (recheck (value.withType type))
      (recheck ((value.relabel (onName f)).withType type)) := by
  rw [← Expr.relabel_withType]
  exact hrecheck (value.withType type)

theorem renames_settle (value : Expr) (current : TypeId) :
    RenamesExpr f (settle recheck value current)
      (settle recheck (value.relabel (onName f)) current) := by
  refine (nameless_isFlexible current).andThen fun flexible => ?_
  refine .ite ((nameless_intern _).andThen fun type => ?_) (renames_pure value)
  exact renames_recheck_withType hrecheck value type

theorem renames_convertToBool (value : Expr) (current target : TypeId) :
    RenamesExpr f (convertToBool recheck value current target)
      (convertToBool recheck (value.relabel (onName f)) current target) := by
  refine (renames_settle hrecheck value current).bind fun settled => ?_
  refine (renames_typeOf settled).andThen fun type => (nameless_typeAt type).andThen fun ty => ?_
  cases ty with
  | int width => exact renames_wrapConversion settled target
  | bool => exact renames_mismatch target type
  | flexible => exact renames_mismatch target type
  | struct struct => exact renames_mismatch target type

theorem renames_convertWith (value : Expr) (target : TypeId) :
    RenamesExpr f (convertWith recheck value target)
      (convertWith recheck (value.relabel (onName f)) target) := by
  refine (renames_materialize value).bind fun loaded => ?_
  refine (renames_typeOf loaded).andThen fun current => ?_
  refine .ite (renames_pure loaded) ((nameless_typeAt target).andThen fun targetTy => ?_)
  refine .ite (renames_pure loaded) (.ite (renames_convertToBool hrecheck loaded current target) ?_)
  refine (nameless_typeAt current).andThen fun currentTy => .ite ?_ ?_
  · exact .ite (renames_mismatch target current) (renames_recheck_withType hrecheck loaded target)
  · exact .ite (renames_wrapConversion loaded target) (renames_mismatch target current)

/-! ## Nodes of expressions -/

theorem renames_signOperand (operator : String) (operand : Expr) (demand : Option TypeId) :
    RenamesExpr f (signOperand (convertWith recheck) operator operand demand)
      (signOperand (convertWith recheck) operator (operand.relabel (onName f)) demand) := by
  refine (renames_typeOf operand).andThen fun type => ?_
  refine (nameless_refuseStruct type).andThen fun _ => ?_
  refine (nameless_isFlexible type).andThen fun flexible => ?_
  have hplain : RenamesExpr f
      (materialize operand >>= fun operand => pure (.unary operator operand (some type)))
      (materialize (operand.relabel (onName f)) >>= fun operand =>
        pure (.unary operator operand (some type))) :=
    (renames_materialize operand).bind fun operand =>
      renames_pure (Expr.unary operator operand (some type))
  cases demand with
  | none => exact hplain
  | some demand =>
      refine .ite ?_ hplain
      exact (renames_convertWith hrecheck operand demand).bind fun operand =>
        renames_pure (Expr.unary operator operand (some demand))

theorem renames_convertOperands (left right : Expr) (target : TypeId) :
    Renames f (Checking.rename f) (Prod.map (Expr.relabel (onName f)) (Expr.relabel (onName f)))
      (convertOperands (convertWith recheck) left right target)
      (convertOperands (convertWith recheck) (left.relabel (onName f)) (right.relabel (onName f))
        target) := by
  refine (renames_convertWith hrecheck left target).bind fun left => ?_
  exact (renames_convertWith hrecheck right target).bind fun right => renames_pure (left, right)

omit hrecheck in
theorem nameless_operandType (operatorClass : OperatorClass) (leftType rightType : TypeId) :
    Nameless f (operandType operatorClass leftType rightType) := by
  refine (nameless_isFlexible leftType).andThen fun leftFlexible => ?_
  refine (nameless_isFlexible rightType).andThen fun rightFlexible => ?_
  refine (nameless_common leftType rightType).andThen fun promotion => ?_
  cases promotion with
  | resolved type => exact renames_pure (some type)
  | stillFlexible =>
      refine .ite (renames_pure none) ?_
      exact (nameless_intern _).andThen fun type => renames_pure (some type)
  | incompatible => exact renames_mismatch leftType rightType

theorem renames_operands (operator : String) (operatorClass : OperatorClass) (left right : Expr)
    (demand : Option TypeId) :
    RenamesExpr f (operands (convertWith recheck) operator operatorClass left right demand)
      (operands (convertWith recheck) operator operatorClass (left.relabel (onName f))
        (right.relabel (onName f)) demand) := by
  refine (renames_typeOf left).andThen fun leftType => ?_
  refine (renames_typeOf right).andThen fun rightType => ?_
  refine (nameless_refuseStruct leftType).andThen fun _ => ?_
  refine (nameless_refuseStruct rightType).andThen fun _ => ?_
  split
  · exact (renames_convertOperands hrecheck left right _).bind fun (left, right) =>
      renames_pure (Expr.binary operator left right (some _))
  · refine (nameless_operandType operatorClass leftType rightType).andThen fun common => ?_
    cases common with
    | none =>
        exact (nameless_intern _).andThen fun flexible =>
          renames_pure (Expr.binary operator left right (some flexible))
    | some type =>
        refine (renames_convertOperands hrecheck left right type).bind fun (left, right) => ?_
        cases operatorClass with
        | arithmetic => exact renames_pure (Expr.binary operator left right (some type))
        | relational =>
            exact (nameless_intern _).andThen fun boolean =>
              renames_pure (Expr.binary operator left right (some boolean))

theorem renames_fieldValue (value : Expr) :
    RenamesExpr f (fieldValue (convertWith recheck) value)
      (fieldValue (convertWith recheck) (value.relabel (onName f))) := by
  refine (renames_typeOf value).andThen fun type => ?_
  refine (nameless_isFlexible type).andThen fun flexible => .ite ?_ (renames_materialize value)
  exact (nameless_intern _).andThen fun type => renames_convertWith hrecheck value type

end Recheck

theorem nameless_demandOf (type : Option TypeId) : Nameless f (demandOf type) := by
  cases type with
  | none => exact renames_pure none
  | some type =>
      exact (nameless_isFlexible type).andThen fun _ =>
        .ite (renames_pure none) (renames_pure (some type))

theorem nameless_addName (names : FieldNames) (position : Nat) (name : Option String) :
    Nameless f (addName names position name) := by
  cases name with
  | none => exact renames_pure names
  | some name => exact .ite (renames_refuse (.duplicateField name)) (renames_pure _)

theorem nameless_structOf (type : TypeId) : Nameless f (structOf type) := by
  refine (nameless_typeAt type).andThen fun ty => ?_
  cases ty.struct? with
  | some struct => exact renames_pure struct
  | none =>
      exact (nameless_describe type).andThen fun _ => renames_refuse (.invalidFieldAccess _)

theorem renames_unknownField (field : String) (type : TypeId) :
    Renames f (Checking.rename f) onValue (unknownField field type) (unknownField field type) :=
  (nameless_describe type).andThen fun _ => renames_refuse (.unknownField _ _)

theorem renames_namedField (base : Expr) (field : String) :
    RenamesExpr f (namedField base field) (namedField (base.relabel (onName f)) field) := by
  refine (renames_typeOf base).andThen fun type => (nameless_structOf type).andThen fun struct => ?_
  cases struct.names.position? field with
  | none => exact renames_unknownField field type
  | some position =>
      dsimp only
      cases struct.fields[position]? with
      | none => exact renames_fault _
      | some fieldType => exact renames_pure (Expr.dot base field (some position) (some fieldType))

theorem renames_positionedField (base : Expr) (position : Nat) :
    RenamesExpr f (positionedField base position)
      (positionedField (base.relabel (onName f)) position) := by
  refine (renames_typeOf base).andThen fun type => (nameless_structOf type).andThen fun struct => ?_
  cases struct.fields[position]? with
  | some fieldType => exact renames_pure (Expr.index base position (some fieldType))
  | none => exact renames_unknownField _ type

/-! ## Expressions -/

mutual

/-- Checking a renamed expression, if checking again commutes with the renaming. -/
theorem renames_tree {recheck : Expr → CheckM Expr}
    (hrecheck : ∀ value, RenamesExpr f (recheck value) (recheck (value.relabel (onName f)))) :
    (value : Expr) →
    RenamesExpr f (tree recheck value) (tree recheck (value.relabel (onName f)))
  | .literal number type => by
      rw [Expr.relabel, tree]
      refine (nameless_demandOf type).andThen fun _ => ?_
      exact renames_literal number type
  | .var name symbol type => by
      rw [Expr.relabel, tree, tree]
      refine (nameless_demandOf type).andThen fun _ => ?_
      refine (renames_orRefuse (.unresolvedName name) symbol).andThen fun symbol => ?_
      refine (nameless_symbolType? symbol).andThen fun type => ?_
      exact (renames_orRefuse (.unboundSymbolType name) type).andThen fun type =>
        renames_pure (Expr.var name (some symbol) (some type))
  | .read type => by
      rw [Expr.relabel, tree]
      refine (nameless_demandOf type).andThen fun _ => ?_
      refine (nameless_orFlexible type).andThen fun type => ?_
      refine (nameless_typeAt type).andThen fun ty => ?_
      cases ty with
      | int width => exact renames_pure (Expr.read (some type))
      | flexible => exact renames_pure (Expr.read (some type))
      | bool => exact renames_expectedInt type
      | struct struct => exact renames_expectedInt type
  | .unary operator operand type => by
      rw [Expr.relabel, tree, tree]
      refine (nameless_demandOf type).andThen fun demand => ?_
      refine .ite ?_ (renames_refuse (.unknownOperator operator))
      refine Renames.bind ?_ fun checked => renames_signOperand hrecheck operator checked demand
      -- a literal right under a sign has a rule of its own
      cases operand with
      | literal number own => exact renames_negatedLiteral number own demand
      | _ => exact renames_tree hrecheck _
  | .binary operator left right type => by
      rw [Expr.relabel, tree, tree]
      refine (nameless_demandOf type).andThen fun demand => ?_
      refine (renames_orRefuse (.unknownOperator operator) _).andThen fun operatorClass => ?_
      refine (renames_tree hrecheck left).bind fun left => ?_
      refine (renames_tree hrecheck right).bind fun right => ?_
      exact renames_operands hrecheck operator operatorClass left right demand
  | .conversion operand type => by
      rw [Expr.relabel, tree, tree]
      refine (nameless_demandOf type).andThen fun _ => ?_
      refine (renames_tree hrecheck operand).bind fun operand => ?_
      cases type with
      | some type => exact renames_pure (Expr.conversion operand (some type))
      | none =>
          exact (renames_typeOf operand).andThen fun type =>
            renames_pure (Expr.conversion operand (some type))
  | .load place type => by
      rw [Expr.relabel, tree, tree]
      refine (nameless_demandOf type).andThen fun _ => ?_
      refine (renames_tree hrecheck place).bind fun place => ?_
      exact (renames_typeOf place).andThen fun type => renames_pure (Expr.load place (some type))
  | .glue fields type => by
      rw [Expr.relabel, tree, tree]
      refine (nameless_demandOf type).andThen fun _ => ?_
      refine (renames_glueFields hrecheck 0 .empty fields).bind fun (fields, struct) => ?_
      exact (nameless_intern (Universe.internStruct struct)).andThen fun type =>
        renames_pure (Expr.glue fields (some type))
  | .dot base field position type => by
      rw [Expr.relabel, tree, tree]
      refine (nameless_demandOf type).andThen fun _ => ?_
      exact (renames_tree hrecheck base).bind fun base => renames_namedField base field
  | .index base position type => by
      rw [Expr.relabel, tree, tree]
      refine (nameless_demandOf type).andThen fun _ => ?_
      exact (renames_tree hrecheck base).bind fun base => renames_positionedField base position

theorem renames_glueFields {recheck : Expr → CheckM Expr}
    (hrecheck : ∀ value, RenamesExpr f (recheck value) (recheck (value.relabel (onName f))))
    (position : Nat) (names : FieldNames) : (fields : GlueFields) →
    Renames f (Checking.rename f) (Prod.map (Expr.relabelFields (onName f)) id)
      (glueFields recheck position names fields)
      (glueFields recheck position names (Expr.relabelFields (onName f) fields))
  | [] => by
      rw [Expr.relabelFields, glueFields]
      exact renames_pure ([], StructTy.mk [] names)
  | (name, value) :: rest => by
      rw [Expr.relabelFields, glueFields, glueFields]
      refine (nameless_addName names position name).andThen fun names => ?_
      refine (renames_tree hrecheck value).bind fun value => ?_
      refine (renames_fieldValue hrecheck value).bind fun value => ?_
      refine (renames_typeOf value).andThen fun type => ?_
      exact (renames_glueFields hrecheck (position + 1) names rest).bind fun (rest, struct) =>
        renames_pure ((name, value) :: rest, StructTy.mk (type :: struct.fields) struct.names)

end

theorem renames_within (depth : Nat) (value : Expr) :
    RenamesExpr f (within depth value) (within depth (value.relabel (onName f))) := by
  induction depth generalizing value with
  | zero => exact renames_tree (fun _ => renames_fault _) value
  | succ depth ih => exact renames_tree ih value

theorem renames_expr (value : Expr) :
    RenamesExpr f (expr value) (expr (value.relabel (onName f))) := by
  unfold expr
  rw [Expr.nesting_relabel]
  exact renames_within value.nesting value

theorem renames_convert (value : Expr) (target : TypeId) :
    RenamesExpr f (convert value target) (convert (value.relabel (onName f)) target) := by
  unfold convert
  rw [Expr.nesting_relabel]
  exact renames_convertWith (renames_within value.nesting) value target

/-! ## Statements -/

theorem renames_defaultInt (value : Expr) :
    RenamesExpr f (defaultInt value) (defaultInt (value.relabel (onName f))) :=
  (nameless_intern _).andThen fun type => renames_convert value type

theorem nameless_ascription (written : Ascription) : Nameless f (ascription written) := by
  unfold ascription
  split
  · exact renames_refuse (.invalidWidth 0)
  · exact nameless_intern _
  · exact nameless_intern _

theorem renames_declareType (name : String) (symbol : SymbolId) (written : Option Ascription) :
    Renames f (Checking.rename f) id (declareType name symbol written)
      (declareType (f name) symbol written) := by
  cases written with
  | none => exact renames_pure ()
  | some written =>
      refine (nameless_ascription written).andThen fun type => ?_
      exact (nameless_setSymbolType symbol type).andThen fun _ =>
        .ite (renames_pure ()) (renames_refuse (.duplicateDeclaration name))

theorem renames_storeTyped (symbolType : TypeId) (value : Expr) :
    RenamesExpr f (storeTyped symbolType value)
      (storeTyped symbolType (value.relabel (onName f))) := by
  refine (renames_typeOf value).andThen fun valueType => ?_
  exact (nameless_common symbolType valueType).andThen fun _ =>
    .ite (renames_convert value symbolType) (renames_mismatch symbolType valueType)

theorem renames_firstType (name : String) (valueType : TypeId) :
    Renames f (Checking.rename f) id (firstType name valueType) (firstType (f name) valueType) := by
  refine (nameless_isFlexible valueType).andThen fun _ => .ite ?_ (renames_pure valueType)
  exact (renames_note (.defaulted name)).andThen fun _ => nameless_intern _

theorem renames_storeFirst (name : String) (symbol : SymbolId) (value : Expr) :
    RenamesExpr f (storeFirst name symbol value)
      (storeFirst (f name) symbol (value.relabel (onName f))) := by
  refine (renames_typeOf value).andThen fun valueType => ?_
  refine (renames_firstType name valueType).andThen fun symbolType => ?_
  exact (nameless_setSymbolType symbol symbolType).andThen fun _ =>
    renames_convert value symbolType

theorem renames_store (name : String) (symbol : SymbolId) (value : Option Expr) :
    Renames f (Checking.rename f) (Option.map (Expr.relabel (onName f)))
      (store name symbol value)
      (store (f name) symbol (value.map (Expr.relabel (onName f)))) := by
  refine (nameless_symbolType? symbol).andThen fun known => ?_
  cases known with
  | some symbolType =>
      cases value with
      | some value =>
          exact (renames_storeTyped symbolType value).bind fun value => renames_pure (some value)
      | none => exact renames_pure none
  | none =>
      cases value with
      | some value =>
          exact (renames_storeFirst name symbol value).bind fun value => renames_pure (some value)
      | none => exact renames_refuse (.unboundSymbolType name)

theorem renames_expr? (value : Option Expr) :
    Renames f (Checking.rename f) (Option.map (Expr.relabel (onName f))) (expr? value)
      (expr? (value.map (Expr.relabel (onName f)))) := by
  cases value with
  | some value => exact (renames_expr value).bind fun value => renames_pure (some value)
  | none => exact renames_pure none

theorem renames_exprs (values : List Expr) :
    Renames f (Checking.rename f) (List.map (Expr.relabel (onName f))) (exprs values)
      (exprs (values.map (Expr.relabel (onName f)))) := by
  induction values with
  | nil => exact renames_pure []
  | cons first rest ih =>
      exact (renames_expr first).bind fun first => ih.bind fun rest => renames_pure (first :: rest)

theorem renames_convertAll (target : TypeId) (values : List Expr) :
    Renames f (Checking.rename f) (List.map (Expr.relabel (onName f))) (convertAll target values)
      (convertAll target (values.map (Expr.relabel (onName f)))) := by
  induction values with
  | nil => exact renames_pure []
  | cons first rest ih =>
      exact (renames_convert first target).bind fun first =>
        ih.bind fun rest => renames_pure (first :: rest)

theorem nameless_joinBound (current bound : TypeId) : Nameless f (joinBound current bound) := by
  refine (nameless_common current bound).andThen fun promotion => ?_
  cases promotion with
  | resolved type => exact renames_pure type
  | stillFlexible =>
      refine (nameless_isFlexible current).andThen fun _ => ?_
      exact (nameless_isFlexible bound).andThen fun _ =>
        .ite (renames_pure current) (nameless_intern _)
  | incompatible => exact renames_mismatch current bound

theorem renames_joinBounds (current : Option TypeId) (bounds : List Expr) :
    Renames f (Checking.rename f) id (joinBounds current bounds)
      (joinBounds current (bounds.map (Expr.relabel (onName f)))) := by
  induction bounds generalizing current with
  | nil => exact renames_pure current
  | cons bound rest ih =>
      refine (renames_typeOf bound).andThen fun boundType => ?_
      refine (nameless_refuseStruct boundType).andThen fun _ => ?_
      cases current with
      | some type =>
          exact (nameless_joinBound type boundType).andThen fun joined => ih (some joined)
      | none => exact ih (some boundType)

theorem renames_loopType (name : String) (bounds : List Expr) :
    Renames f (Checking.rename f) id (loopType name bounds)
      (loopType (f name) (bounds.map (Expr.relabel (onName f)))) := by
  have hdefault : Renames f (Checking.rename f) id
      (note (.defaultedLoop name) >>= fun _ => intern Universe.internDefaultInt)
      (note (.defaultedLoop (f name)) >>= fun _ => intern Universe.internDefaultInt) :=
    (renames_note (.defaultedLoop name)).andThen fun _ => nameless_intern _
  refine (renames_joinBounds none bounds).andThen fun joined => ?_
  cases joined with
  | none => exact hdefault
  | some type =>
      refine (nameless_typeAt type).andThen fun ty => ?_
      cases ty with
      | flexible => exact hdefault
      | bool => exact hdefault
      | int width => exact renames_pure type
      | struct struct => exact renames_pure type

theorem renames_loopBounds (name : String) (symbol : SymbolId) (bounds : List Expr) :
    Renames f (Checking.rename f) (List.map (Expr.relabel (onName f)))
      (loopBounds name symbol bounds)
      (loopBounds (f name) symbol (bounds.map (Expr.relabel (onName f)))) := by
  refine (renames_exprs bounds).bind fun bounds => ?_
  refine (renames_loopType name bounds).andThen fun type => ?_
  exact (nameless_setSymbolType symbol type).andThen fun _ =>
    .ite (renames_convertAll type bounds) (renames_refuse (.duplicateDeclaration name))

theorem renames_condition (value : Expr) :
    RenamesExpr f (condition value) (condition (value.relabel (onName f))) := by
  refine (renames_expr value).bind fun value => ?_
  exact (nameless_intern _).andThen fun boolean => renames_convert value boolean

theorem renames_printed (value : Expr) :
    RenamesExpr f (printed value) (printed (value.relabel (onName f))) := by
  refine (renames_expr value).bind fun value => (renames_typeOf value).andThen fun type => ?_
  refine (nameless_typeAt type).andThen fun ty => ?_
  cases ty with
  | flexible => exact renames_defaultInt value
  | bool => exact renames_defaultInt value
  | int width => exact renames_materialize value
  | struct struct => exact renames_expectedInt type

theorem renames_evaluated (value : Expr) :
    RenamesExpr f (evaluated value) (evaluated (value.relabel (onName f))) := by
  refine (renames_expr value).bind fun value => (renames_typeOf value).andThen fun type => ?_
  exact (nameless_isFlexible type).andThen fun _ =>
    .ite (renames_defaultInt value) (renames_pure value)

mutual

/-- Checking a renamed statement. -/
theorem renames_stmt : (st : Stmt) →
    Renames f (Checking.rename f) (Stmt.relabel (onName f)) (stmt st)
      (stmt (st.relabel (onName f)))
  | .bind form name written value symbol => by
      rw [Stmt.relabel, stmt, stmt]
      refine (renames_orRefuse (.unresolvedName name) symbol).andThen fun symbol => ?_
      refine (renames_expr? value).bind fun value => ?_
      refine (renames_declareType name symbol written).andThen fun _ => ?_
      exact (renames_store name symbol value).bind fun value =>
        renames_pure (Stmt.bind form name written value (some symbol))
  | .print value => by
      rw [Stmt.relabel, stmt, stmt]
      exact (renames_printed value).bind fun value => renames_pure (Stmt.print value)
  | .evaluate value => by
      rw [Stmt.relabel, stmt, stmt]
      exact (renames_evaluated value).bind fun value => renames_pure (Stmt.evaluate value)
  | .branch test yes none => by
      rw [Stmt.relabel, stmt, stmt]
      refine (renames_condition test).bind fun test => ?_
      exact (renames_stmts yes).bind fun yes => renames_pure (Stmt.branch test yes none)
  | .branch test yes (some no) => by
      rw [Stmt.relabel, stmt, stmt]
      refine (renames_condition test).bind fun test => (renames_stmts yes).bind fun yes => ?_
      exact (renames_stmts no).bind fun no => renames_pure (Stmt.branch test yes (some no))
  | .whileLoop test body => by
      rw [Stmt.relabel, stmt, stmt]
      refine (renames_condition test).bind fun test => ?_
      exact (renames_stmts body).bind fun body => renames_pure (Stmt.whileLoop test body)
  | .forLoop name symbol bounds body => by
      rw [Stmt.relabel, stmt, stmt]
      refine (renames_orRefuse (.unresolvedName name) symbol).andThen fun symbol => ?_
      refine (renames_loopBounds name symbol bounds).bind fun bounds => ?_
      exact (renames_stmts body).bind fun body =>
        renames_pure (Stmt.forLoop name (some symbol) bounds body)
  | .block body => by
      rw [Stmt.relabel, stmt, stmt]
      exact (renames_stmts body).bind fun body => renames_pure (Stmt.block body)

theorem renames_stmts : (body : List Stmt) →
    Renames f (Checking.rename f) (Stmt.relabelBody (onName f)) (stmts body)
      (stmts (Stmt.relabelBody (onName f) body))
  | [] => by
      rw [Stmt.relabelBody, stmts]
      exact renames_pure []
  | first :: rest => by
      rw [Stmt.relabelBody, stmts, stmts]
      refine (renames_stmt first).bind fun first => ?_
      exact (renames_stmts rest).bind fun rest => renames_pure (first :: rest)

end

theorem renames_program (body : Program) :
    Renames f (Checking.rename f) (Stmt.relabelBody (onName f)) (program body)
      (program (Stmt.relabelBody (onName f) body)) := by
  refine (renames_stmts body).bind fun body => renames_get.bind fun checking => ?_
  exact (renames_note (.typed checking.types.size)).andThen fun _ => renames_pure body

end Check

/-! ## The front end -/

/-- Checking commutes with every renaming. -/
theorem typecheck_rename (f : String → String) (body : Program) (symbols : SymbolTable)
    (log : Array Event) :
    Frontend.typecheck (Stmt.relabelBody (onName f) body) (symbols.rename f)
        (log.map (Event.rename f)) =
      renameResult f (Array.map (Event.rename f)) (CheckedProgram.rename f)
        (Frontend.typecheck body symbols log) := by
  have hstart : Checking.mk .empty (symbols.rename f) (log.map (Event.rename f)) =
      Checking.rename f ⟨.empty, symbols, log⟩ := rfl
  unfold Frontend.typecheck
  rw [hstart, Check.renames_program body]
  cases Check.program body ⟨.empty, symbols, log⟩ <;> rfl

/-- **The names of variables do not matter.**  Whatever the program, binding the names and
typing it after an injective renaming ends as it does without: with the same program, the
same types and the same symbols except for the names of the variables, or with the same
failure, about the renamed variable if it is about one.  The events on the way are the same
too. -/
theorem check_renamed {f : String → String} (hf : Function.Injective f) (program : Program)
    (log : Array Event) :
    Frontend.check (Stmt.relabelBody (onName f) program) (log.map (Event.rename f)) =
      renameResult f (Array.map (Event.rename f)) (CheckedProgram.rename f)
        (Frontend.check program log) := by
  unfold Frontend.check
  rw [run_bind, run_bind, resolve_rename hf program log]
  cases Frontend.resolve program log with
  | error failure final => rfl
  | ok found final => exact typecheck_rename f found.1 found.2 final

/-- Two variables change names.  One of them holds a struct with a field of the other's
name, which stays, and the loop takes up a name that is bound in the block. -/
theorem check_renamed_swap :
    ∃ program checked log,
      (program = [
          .bind .assignment "x" none (some (.literal 1 none)) none,
          .block [
            .bind .declaration "y" none (some (.glue [(some "x", .var "x" none none)] none)) none,
            .bind .assignment "x" none (some (.dot (.var "y" none none) "x" none none)) none],
          .forLoop "y" none [.var "x" none none] [.print (.var "y" none none)]] ∧
        Frontend.check program #[] = .ok checked log ∧
        Function.Injective (Equiv.swap "x" "y")) ∧
      Frontend.check (Stmt.relabelBody (onName (Equiv.swap "x" "y")) program) #[] =
        .ok (checked.rename (Equiv.swap "x" "y"))
          (log.map (Event.rename (Equiv.swap "x" "y"))) := by
  have hswap : Function.Injective (Equiv.swap "x" "y") := Equiv.injective _
  have hrenamed {program : Program} {checked : CheckedProgram} {log : Array Event}
      (h : Frontend.check program #[] = .ok checked log) :
      Frontend.check (Stmt.relabelBody (onName (Equiv.swap "x" "y")) program) #[] =
        .ok (checked.rename (Equiv.swap "x" "y"))
          (log.map (Event.rename (Equiv.swap "x" "y"))) := by
    have heq := check_renamed hswap program #[]
    rwa [h, Array.map_empty] at heq
  exact ⟨_, _, _, ⟨rfl, by cbv, hswap⟩, hrenamed (by cbv)⟩

end FlexWidth
