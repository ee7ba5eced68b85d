import FlexWidth.Proofs.Structural.Agreement

/-!
# Agreement on expressions

Checking related expressions from related states agrees.  There is a lemma for every step
of the check, given that checking a part again agrees (`AgreesOnExprs`); the induction is
on the expression, and then on the depth to which parts are checked again.
-/

namespace FlexWidth

/-- Two ways to check an expression agree on all related expressions. -/
def AgreesOnExprs (recheck : Expr → CheckM Expr)
    (recheck' : Structural.Expr → Structural.CheckM Structural.Expr) : Prop :=
  ∀ {s : Checking} {table : Structural.SymbolTable} {value : Expr} {value' : Structural.Expr},
    s.Spelled table → value.Spelled s.types.Denotes value' →
      Agrees (recheck value) (recheck' value') s table Expr.SpelledIn

section Steps

variable {s : Checking} {table : Structural.SymbolTable} {value left right : Expr}
  {value' left' right' : Structural.Expr} {id target current leftType rightType : TypeId}
  {shape targetShape currentShape l r : Shape} {type demand : Option TypeId}
  {typeShape demandShape : Option Shape}

/-! ## Literals -/

theorem agrees_fits (hs : s.Spelled table) (hid : s.types.Denotes id shape) (number : Nat)
    (negated : Bool) :
    Agrees (Check.fits number id negated) (Structural.fits number shape negated) s table
      fun _ _ _ => True := by
  obtain ⟨ty, hrun, hspells⟩ := hs.exists_run_typeAt hid
  refine .of_look hrun ?_
  cases hspells with
  | int width =>
      refine .ite Iff.rfl (fun _ => agrees_pure hs trivial) fun _ => ?_
      exact .of_look hid.run_describe (agrees_refuse _)
  | flexible => exact agrees_pure hs trivial
  | bool => exact .of_look hid.run_describe (agrees_refuse _)
  | struct => exact .of_look hid.run_describe (agrees_refuse _)

/-- A type that is missing is the flexible one. -/
theorem agrees_orFlexible (hs : s.Spelled table)
    (htype : Option.Rel s.types.Denotes type typeShape) :
    Agrees (Check.orFlexible type) (pure (typeShape.getD .flexible)) s table
      Universe.Denotes := by
  cases htype with
  | some hid => exact agrees_pure hs hid
  | none => exact agrees_intern hs .flexible

theorem agrees_literal (hs : s.Spelled table) (htype : Option.Rel s.types.Denotes type typeShape)
    (number : Nat) :
    Agrees (Check.literal number type) (Structural.literal number typeShape) s table
      Expr.SpelledIn := by
  refine (agrees_orFlexible hs htype).of_pure fun id middle _ hs hid => ?_
  refine (agrees_fits hs hid number false).bind fun _ _ final table' hgrows hs _ => ?_
  exact agrees_pure hs (.literal (.some (hid.grow hgrows)))

theorem agrees_negatedLiteral (hs : s.Spelled table)
    (htype : Option.Rel s.types.Denotes type typeShape)
    (hdemand : Option.Rel s.types.Denotes demand demandShape) (number : Nat) :
    Agrees (Check.negatedLiteral number type demand)
      (Structural.negatedLiteral number typeShape demandShape) s table Expr.SpelledIn := by
  have hor : Option.Rel s.types.Denotes (demand.or type) (demandShape.or typeShape) := by
    cases hdemand with
    | some hid => exact .some hid
    | none => exact htype
  refine (agrees_orFlexible hs hor).of_pure fun id middle _ hs hid => ?_
  refine (agrees_fits hs hid number true).bind fun _ _ final table' hgrows hs _ => ?_
  exact agrees_pure hs (.literal (.some (hid.grow hgrows)))

/-! ## Conversion -/

theorem agrees_typeOf (hs : s.Spelled table) (hvalue : value.Spelled s.types.Denotes value') :
    Agrees (Check.typeOf value) (Structural.typeOf value') s table Universe.Denotes :=
  agrees_orRefuse hs _ hvalue.type?

theorem agrees_materialize (hs : s.Spelled table) (hvalue : value.Spelled s.types.Denotes value') :
    Agrees (Check.materialize value) (Structural.materialize value') s table Expr.SpelledIn := by
  refine .ite (by rw [hvalue.denotesStorage]) (fun _ => ?_) fun _ => agrees_pure hs hvalue
  refine (agrees_typeOf hs hvalue).bind fun id shape middle table' hgrows hs hid => ?_
  exact agrees_pure hs (.load (hvalue.grow hgrows) (.some hid))

/-- A conversion is reported, and nothing else happens. -/
theorem agrees_wrapConversion (hs : s.Spelled table)
    (hvalue : value.Spelled s.types.Denotes value') (hid : s.types.Denotes id shape) :
    Agrees (Check.wrapConversion value id) (pure (.conversion value' (some shape))) s table
      Expr.SpelledIn := by
  have hreport : ∃ log, Check.reportConversion value id s = .ok () { s with log := log } := by
    have htype := hvalue.type?
    unfold Check.reportConversion
    generalize value.type? = type at htype ⊢
    generalize value'.type? = shape at htype
    cases htype with
    | none => exact ⟨s.log, rfl⟩
    | @some source sourceShape hsource =>
        refine ⟨s.log.push (.converted sourceShape.describe shape.describe), ?_⟩
        exact (run_bind_ok hsource.run_describe _).trans (run_bind_ok hid.run_describe _)
  obtain ⟨log, hrun⟩ := hreport
  refine .of_run hrun (.refl _) ?_
  exact agrees_pure ⟨hs.interned, hs.symbols⟩ (.conversion hvalue (.some hid))

theorem widens_eq {denotes : TypeId → Shape → Prop} {ty ty' : Ty}
    (h : ty.Spells denotes shape) (h' : ty'.Spells denotes targetShape) :
    Check.widens ty ty' = Structural.widens shape targetShape := by
  cases h <;> cases h' <;> rfl

section Recheck

variable {recheck : Expr → CheckM Expr}
  {recheck' : Structural.Expr → Structural.CheckM Structural.Expr}
  (hrecheck : AgreesOnExprs recheck recheck')

include hrecheck

theorem agrees_settle (hs : s.Spelled table) (hvalue : value.Spelled s.types.Denotes value')
    (hcurrent : s.types.Denotes current currentShape) :
    Agrees (Check.settle recheck value current) (Structural.settle recheck' value' currentShape)
      s table Expr.SpelledIn := by
  refine .of_look (hs.run_isFlexible hcurrent) (.ite (by simp) (fun _ => ?_) fun _ => ?_)
  · refine (agrees_internDefaultInt hs).of_pure fun id middle hgrows hs hid => ?_
    exact hrecheck hs ((hvalue.grow hgrows).withType hid)
  · exact agrees_pure hs hvalue

theorem agrees_convertToBool (hs : s.Spelled table)
    (hvalue : value.Spelled s.types.Denotes value')
    (hcurrent : s.types.Denotes current currentShape) (htarget : s.types.Denotes target .bool) :
    Agrees (Check.convertToBool recheck value current target)
      (Structural.convertToBool recheck' value' currentShape) s table Expr.SpelledIn := by
  refine (agrees_settle hrecheck hs hvalue hcurrent).bind ?_
  intro settled settled' middle table' hgrows hs hsettled
  refine (agrees_typeOf hs hsettled).bind fun id shape final table' hgrows' hs hid => ?_
  obtain ⟨ty, hrun, hspells⟩ := hs.exists_run_typeAt hid
  have htarget := (htarget.grow hgrows).grow hgrows'
  refine .of_look hrun ?_
  cases hspells with
  | int width => exact agrees_wrapConversion hs (hsettled.grow hgrows') htarget
  | bool => exact agrees_mismatch htarget hid
  | flexible => exact agrees_mismatch htarget hid
  | struct => exact agrees_mismatch htarget hid

theorem agrees_convertWith (hs : s.Spelled table) (hvalue : value.Spelled s.types.Denotes value')
    (htarget : s.types.Denotes target targetShape) :
    Agrees (Check.convertWith recheck value target)
      (Structural.convertWith recheck' value' targetShape) s table Expr.SpelledIn := by
  refine (agrees_materialize hs hvalue).bind
    fun loaded loaded' middle table' hgrows hs hloaded => ?_
  refine (agrees_typeOf hs hloaded).bind fun id shape middle' table' hgrows' hs hid => ?_
  have hloaded := hloaded.grow hgrows'
  have htarget := (htarget.grow hgrows).grow hgrows'
  refine .ite (hs.eq_iff hid htarget) (fun _ => agrees_pure hs hloaded) fun _ => ?_
  obtain ⟨targetTy, hrun, htargetSpells⟩ := hs.exists_run_typeAt htarget
  refine .of_look hrun ?_
  refine .ite htargetSpells.eq_flexible_iff (fun _ => agrees_pure hs hloaded) fun _ => ?_
  refine .ite htargetSpells.eq_bool_iff (fun hbool => ?_) fun _ => ?_
  · exact agrees_convertToBool hrecheck hs hloaded hid (hbool ▸ htarget)
  · obtain ⟨currentTy, hrun', hspells⟩ := hs.exists_run_typeAt hid
    refine .of_look hrun' ?_
    refine .ite hspells.eq_flexible_iff (fun _ => ?_) fun _ => ?_
    · refine .ite (by rw [htargetSpells.isSome_struct?_eq]) (fun _ => ?_) fun _ => ?_
      · exact agrees_mismatch htarget hid
      · exact hrecheck hs (hloaded.withType htarget)
    · refine .ite (by rw [widens_eq hspells htargetSpells]) (fun _ => ?_) fun _ => ?_
      · exact agrees_wrapConversion hs hloaded htarget
      · exact agrees_mismatch htarget hid

/-! ## Operators -/

theorem agrees_signOperand (hs : s.Spelled table) (hvalue : value.Spelled s.types.Denotes value')
    (hdemand : Option.Rel s.types.Denotes demand demandShape) (operator : String) :
    Agrees (Check.signOperand (Check.convertWith recheck) operator value demand)
      (Structural.signOperand recheck' operator value' demandShape) s table Expr.SpelledIn := by
  refine (agrees_typeOf hs hvalue).bind fun id shape middle table' hgrows hs hid => ?_
  refine (agrees_refuseStruct hs hid).bind fun _ _ middle' table' hgrows' hs _ => ?_
  have hid := hid.grow hgrows'
  have hvalue := (hvalue.grow hgrows).grow hgrows'
  have hdemand := Universe.rel_grow (Universe.rel_grow hdemand hgrows) hgrows'
  refine .of_look (hs.run_isFlexible hid) ?_
  have hsign : Agrees (Check.materialize value >>= fun operand =>
        pure (Expr.unary operator operand (some id)))
      (Structural.materialize value' >>= fun operand =>
        pure (Structural.Expr.unary operator operand (some shape))) middle' table'
      Expr.SpelledIn := by
    refine (agrees_materialize hs hvalue).bind fun operand operand' final _ hgrows hs hoperand => ?_
    exact agrees_pure hs (.unary hoperand (.some (hid.grow hgrows)))
  cases hdemand with
  | none => exact hsign
  | some hwanted =>
      refine .ite (by simp) (fun _ => ?_) fun _ => hsign
      refine (agrees_convertWith hrecheck hs hvalue hwanted).bind ?_
      intro operand operand' final _ hgrows hs hoperand
      exact agrees_pure hs (.unary hoperand (.some (hwanted.grow hgrows)))

theorem agrees_convertOperands (hs : s.Spelled table) (hleft : left.Spelled s.types.Denotes left')
    (hright : right.Spelled s.types.Denotes right')
    (htarget : s.types.Denotes target targetShape) :
    Agrees (Check.convertOperands (Check.convertWith recheck) left right target)
      (Structural.convertOperands recheck' left' right' targetShape) s table
      fun types results results' =>
        results.1.SpelledIn types results'.1 ∧ results.2.SpelledIn types results'.2 := by
  refine (agrees_convertWith hrecheck hs hleft htarget).bind ?_
  intro l l' middle _ hgrows hs hl
  refine (agrees_convertWith hrecheck hs (hright.grow hgrows) (htarget.grow hgrows)).bind ?_
  intro r r' final _ hgrows' hs hr
  exact agrees_pure hs ⟨hl.grow hgrows', hr⟩

omit hrecheck in
theorem agrees_operandType (hs : s.Spelled table) (hl : s.types.Denotes leftType l)
    (hr : s.types.Denotes rightType r) (operatorClass : OperatorClass) :
    Agrees (Check.operandType operatorClass leftType rightType)
      (Structural.operandType operatorClass l r) s table fun types => Option.Rel types.Denotes := by
  obtain ⟨promotion, hrun, hpromotion⟩ := hs.exists_run_common hl hr
  refine .of_look (hs.run_isFlexible hl) (.of_look (hs.run_isFlexible hr) (.of_look hrun ?_))
  unfold Structural.operandType
  generalize Structural.common l r = promotion' at hpromotion ⊢
  cases hpromotion with
  | resolved hid => exact agrees_pure hs (.some hid)
  | stillFlexible =>
      refine .ite (by simp) (fun _ => agrees_pure hs .none) fun _ => ?_
      exact (agrees_internDefaultInt hs).of_pure fun id middle _ hs hid =>
        agrees_pure hs (.some hid)
  | incompatible => exact agrees_mismatch hl hr

theorem agrees_operands (hs : s.Spelled table) (hleft : left.Spelled s.types.Denotes left')
    (hright : right.Spelled s.types.Denotes right')
    (hdemand : Option.Rel s.types.Denotes demand demandShape) (operator : String)
    (operatorClass : OperatorClass) :
    Agrees (Check.operands (Check.convertWith recheck) operator operatorClass left right demand)
      (Structural.operands recheck' operator operatorClass left' right' demandShape) s table
      Expr.SpelledIn := by
  refine (agrees_typeOf hs hleft).bind fun leftType l s₁ _ hgrows₁ hs hl => ?_
  refine (agrees_typeOf hs (hright.grow hgrows₁)).bind fun rightType r s₂ _ hgrows₂ hs hr => ?_
  refine (agrees_refuseStruct hs (hl.grow hgrows₂)).bind fun _ _ s₃ _ hgrows₃ hs _ => ?_
  refine (agrees_refuseStruct hs (hr.grow hgrows₃)).bind fun _ _ s₄ table' hgrows₄ hs _ => ?_
  have hgrows := ((hgrows₁.trans hgrows₂).trans hgrows₃).trans hgrows₄
  have hleft := hleft.grow hgrows
  have hright := hright.grow hgrows
  have hl := hl.grow ((hgrows₂.trans hgrows₃).trans hgrows₄)
  have hr := hr.grow (hgrows₃.trans hgrows₄)
  have hmeet := agrees_operandType hs hl hr operatorClass
  cases operatorClass with
  | arithmetic =>
      cases hdemand with
      | none =>
          refine hmeet.bind fun type shape s₅ table' hgrows₅ hs htype => ?_
          cases htype with
          | none =>
              refine (agrees_intern hs .flexible).of_pure fun id final hgrows hs hid =>
                agrees_pure hs ?_
              exact .binary ((hleft.grow hgrows₅).grow hgrows) ((hright.grow hgrows₅).grow hgrows)
                (.some hid)
          | some hid =>
              refine (agrees_convertOperands hrecheck hs (hleft.grow hgrows₅)
                (hright.grow hgrows₅) hid).bind ?_
              intro results results' final _ hgrows hs hresults
              exact agrees_pure hs (.binary hresults.1 hresults.2 (.some (hid.grow hgrows)))
      | some hwanted =>
          have hwanted := hwanted.grow hgrows
          refine (agrees_convertOperands hrecheck hs hleft hright hwanted).bind ?_
          intro results results' final _ hgrows hs hresults
          exact agrees_pure hs (.binary hresults.1 hresults.2 (.some (hwanted.grow hgrows)))
  | relational =>
      -- a comparison does not pass a demand on
      cases hdemand
      all_goals
        refine hmeet.bind fun type shape s₅ table' hgrows₅ hs htype => ?_
        cases htype with
        | none =>
            refine (agrees_intern hs .flexible).of_pure fun id final hgrows hs hid =>
              agrees_pure hs ?_
            exact .binary ((hleft.grow hgrows₅).grow hgrows) ((hright.grow hgrows₅).grow hgrows)
              (.some hid)
        | some hid =>
            refine (agrees_convertOperands hrecheck hs (hleft.grow hgrows₅)
              (hright.grow hgrows₅) hid).bind ?_
            intro results results' s₆ _ hgrows₆ hs hresults
            refine (agrees_intern hs .bool).of_pure fun id final hgrows hs hid => agrees_pure hs ?_
            exact .binary (hresults.1.grow hgrows) (hresults.2.grow hgrows) (.some hid)

/-! ## Struct literals and their fields -/

omit hrecheck in
theorem agrees_addName (hs : s.Spelled table) (names : FieldNames) (position : Nat)
    (name : Option String) :
    Agrees (Check.addName names position name) (Structural.addName names position name) s table
      fun _ => Eq := by
  cases name with
  | none => exact agrees_pure hs rfl
  | some name =>
      exact .ite Iff.rfl (fun _ => agrees_refuse _) fun _ => agrees_pure hs rfl

theorem agrees_fieldValue (hs : s.Spelled table)
    (hvalue : value.Spelled s.types.Denotes value') :
    Agrees (Check.fieldValue (Check.convertWith recheck) value)
      (Structural.fieldValue recheck' value') s table Expr.SpelledIn := by
  refine (agrees_typeOf hs hvalue).bind fun id shape middle table' hgrows hs hid => ?_
  refine .of_look (hs.run_isFlexible hid) (.ite (by simp) (fun _ => ?_) fun _ => ?_)
  · refine (agrees_internDefaultInt hs).of_pure fun target final hgrows' hs htarget => ?_
    exact agrees_convertWith hrecheck hs ((hvalue.grow hgrows).grow hgrows') htarget
  · exact agrees_materialize hs (hvalue.grow hgrows)

end Recheck

/-- A struct type and the same with its fields spelled out. -/
def StructTy.SpelledIn (types : Universe) (struct : StructTy)
    (parts : List Shape × FieldNames) : Prop :=
  List.Forall₂ types.Denotes struct.fields parts.1 ∧ struct.names = parts.2

theorem agrees_structOf (hs : s.Spelled table) (hid : s.types.Denotes id shape) :
    Agrees (Check.structOf id) (Structural.structOf shape) s table StructTy.SpelledIn := by
  obtain ⟨ty, hrun, hspells⟩ := hs.exists_run_typeAt hid
  refine .of_look hrun ?_
  cases hspells with
  | struct names hfields => exact agrees_pure hs ⟨hfields, rfl⟩
  | int width => exact .of_look hid.run_describe (agrees_refuse _)
  | bool => exact .of_look hid.run_describe (agrees_refuse _)
  | flexible => exact .of_look hid.run_describe (agrees_refuse _)

theorem agrees_unknownField {α β : Type} {rel : Universe → α → β → Prop}
    (hid : s.types.Denotes id shape) (field : String) :
    Agrees (Check.unknownField field id) (refuse (.unknownField field shape.describe)) s table
      rel :=
  .of_look hid.run_describe (agrees_refuse _)

theorem agrees_namedField (hs : s.Spelled table) (hvalue : value.Spelled s.types.Denotes value')
    (field : String) :
    Agrees (Check.namedField value field) (Structural.namedField value' field) s table
      Expr.SpelledIn := by
  refine (agrees_typeOf hs hvalue).bind fun id shape middle table' hgrows hs hid => ?_
  refine (agrees_structOf hs hid).bind ?_
  intro struct parts middle' table' hgrows' hs hstruct
  have hvalue := (hvalue.grow hgrows).grow hgrows'
  rw [hstruct.2]
  dsimp only
  cases parts.2.position? field with
  | none => exact agrees_unknownField (hid.grow hgrows') field
  | some position =>
      have hfield : Agrees (orFault .unknownPosition struct.fields[position]?)
          (orFault .unknownPosition parts.1[position]?) middle' table' Universe.Denotes :=
        agrees_orFault hs _ (rel_getElem?_of_forall₂ hstruct.1 position)
      refine hfield.bind fun type type' final _ hgrows hs htype => agrees_pure hs ?_
      exact .dot (hvalue.grow hgrows) (.some htype)

theorem agrees_positionedField (hs : s.Spelled table)
    (hvalue : value.Spelled s.types.Denotes value') (position : Nat) :
    Agrees (Check.positionedField value position) (Structural.positionedField value' position)
      s table Expr.SpelledIn := by
  refine (agrees_typeOf hs hvalue).bind fun id shape middle table' hgrows hs hid => ?_
  refine (agrees_structOf hs hid).bind ?_
  intro struct parts middle' table' hgrows' hs hstruct
  have hvalue := (hvalue.grow hgrows).grow hgrows'
  have hfield := rel_getElem?_of_forall₂ hstruct.1 position
  dsimp only
  generalize struct.fields[position]? = type at hfield ⊢
  generalize parts.1[position]? = type' at hfield ⊢
  cases hfield with
  | none => exact agrees_unknownField (hid.grow hgrows') _
  | some hfield => exact agrees_pure hs (.index hvalue (.some hfield))

/-! ## Expressions -/

theorem exists_run_demandOf (hs : s.Spelled table)
    (htype : Option.Rel s.types.Denotes type typeShape) :
    ∃ demand, Check.demandOf type s = .ok demand s ∧
      Option.Rel s.types.Denotes demand (Structural.demandOf typeShape) := by
  cases htype with
  | none => exact ⟨none, rfl, .none⟩
  | @some id shape hid =>
      have hrun := run_bind_ok (hs.run_isFlexible hid) fun flexible =>
        if flexible then pure none else pure (some id)
      by_cases hflexible : shape = .flexible
      · have hnone : Structural.demandOf (some shape) = none := by
          simp [Structural.demandOf, hflexible]
        exact ⟨none, hrun.trans (by simp [hflexible]), hnone ▸ .none⟩
      · have hsome : Structural.demandOf (some shape) = some shape := by
          simp [Structural.demandOf, hflexible]
        refine ⟨some id, hrun.trans (by simp [hflexible]), ?_⟩
        rw [hsome]
        exact .some hid

/-- Looking up the type that a node has, where the demand does not matter. -/
theorem Agrees.of_demand {α β : Type} {next : Option TypeId → CheckM α}
    {reference : Structural.CheckM β} {rel : Universe → α → β → Prop} (hs : s.Spelled table)
    (htype : Option.Rel s.types.Denotes type typeShape)
    (hnext : ∀ demand, Agrees (next demand) reference s table rel) :
    Agrees (Check.demandOf type >>= next) reference s table rel := by
  obtain ⟨demand, hrun, -⟩ := exists_run_demandOf hs htype
  exact .of_look hrun (hnext demand)

theorem agrees_var (hs : s.Spelled table) (htype : Option.Rel s.types.Denotes type typeShape)
    (recheck : Expr → CheckM Expr)
    (recheck' : Structural.Expr → Structural.CheckM Structural.Expr) (name : String)
    (symbol : Option SymbolId) :
    Agrees (Check.tree recheck (.var name symbol type))
      (Structural.tree recheck' (.var name symbol typeShape)) s table Expr.SpelledIn := by
  rw [Check.tree, Structural.tree]
  refine .of_demand hs htype fun _ => ?_
  cases symbol with
  | none => exact .error
  | some symbol =>
      refine (agrees_symbolType? hs symbol).bind fun known known' middle _ _ hs hknown => ?_
      have htype : Agrees (orRefuse (.unboundSymbolType name) known)
          (orRefuse (.unboundSymbolType name) known') _ _ Universe.Denotes :=
        agrees_orRefuse hs _ hknown
      exact htype.bind fun id shape final _ _ hs hid => agrees_pure hs (.var (.some hid))

theorem agrees_read (hs : s.Spelled table) (htype : Option.Rel s.types.Denotes type typeShape)
    (recheck : Expr → CheckM Expr)
    (recheck' : Structural.Expr → Structural.CheckM Structural.Expr) :
    Agrees (Check.tree recheck (.read type)) (Structural.tree recheck' (.read typeShape)) s table
      Expr.SpelledIn := by
  rw [Check.tree, Structural.tree]
  refine .of_demand hs htype fun _ => ?_
  refine (agrees_orFlexible hs htype).of_pure fun id middle hgrows hs hid => ?_
  obtain ⟨ty, hrun, hspells⟩ := hs.exists_run_typeAt hid
  refine .of_look hrun ?_
  generalize typeShape.getD .flexible = shape at hid hspells ⊢
  cases hspells with
  | int width => exact agrees_pure hs (.read (.some hid))
  | flexible => exact agrees_pure hs (.read (.some hid))
  | bool => exact agrees_expectedInt hid
  | struct => exact agrees_expectedInt hid

end Steps

mutual

/-- Checking related expressions agrees, if checking their parts again does. -/
theorem agrees_tree {recheck : Expr → CheckM Expr}
    {recheck' : Structural.Expr → Structural.CheckM Structural.Expr}
    (hrecheck : AgreesOnExprs recheck recheck') {s : Checking} {table : Structural.SymbolTable}
    (hs : s.Spelled table) : (value : Expr) → {value' : Structural.Expr} →
    value.Spelled s.types.Denotes value' →
    Agrees (Check.tree recheck value) (Structural.tree recheck' value') s table Expr.SpelledIn
  | .literal number type, _, .literal htype => by
      rw [Check.tree, Structural.tree]
      exact .of_demand hs htype fun _ => agrees_literal hs htype number
  | .var name symbol type, _, .var htype => agrees_var hs htype recheck recheck' name symbol
  | .read type, _, .read htype => agrees_read hs htype recheck recheck'
  | .unary operator operand type, .unary _ operand' shape, .unary hoperand htype => by
      rw [Check.tree, Structural.tree_unary]
      obtain ⟨demand, hrun, hdemand⟩ := exists_run_demandOf hs htype
      refine .of_look hrun (.ite Iff.rfl (fun _ => ?_) fun _ => agrees_refuse _)
      -- a literal right under a sign has a rule of its own
      have hchecked : Agrees
          (match operand with
            | .literal number own => Check.negatedLiteral number own demand
            | _ => Check.tree recheck operand)
          (match operand' with
            | .literal number own =>
              Structural.negatedLiteral number own (Structural.demandOf shape)
            | _ => Structural.tree recheck' operand') s table Expr.SpelledIn := by
        have hrest := agrees_tree hrecheck hs operand hoperand
        cases hoperand with
        | literal hown => exact agrees_negatedLiteral hs hown hdemand _
        | _ => exact hrest
      refine hchecked.bind fun checked checked' middle _ hgrows hs hchecked => ?_
      exact agrees_signOperand hrecheck hs hchecked (Universe.rel_grow hdemand hgrows) operator
  | .binary operator left right type, _, .binary hleft hright htype => by
      rw [Check.tree, Structural.tree]
      obtain ⟨demand, hrun, hdemand⟩ := exists_run_demandOf hs htype
      refine .of_look hrun ?_
      cases OperatorClass.of? operator with
      | none => exact .error
      | some operatorClass =>
          refine (agrees_tree hrecheck hs left hleft).bind fun l l' s₁ _ hgrows₁ hs hl => ?_
          refine (agrees_tree hrecheck hs right (hright.grow hgrows₁)).bind ?_
          intro r r' s₂ _ hgrows₂ hs hr
          exact agrees_operands hrecheck hs (hl.grow hgrows₂) hr
            (Universe.rel_grow hdemand (hgrows₁.trans hgrows₂)) operator operatorClass
  | .conversion operand type, _, .conversion hoperand htype => by
      rw [Check.tree, Structural.tree]
      refine .of_demand hs htype fun _ => ?_
      refine (agrees_tree hrecheck hs operand hoperand).bind ?_
      intro checked checked' middle _ hgrows hs hchecked
      cases htype with
      | some hid => exact agrees_pure hs (.conversion hchecked (.some (hid.grow hgrows)))
      | none =>
          refine (agrees_typeOf hs hchecked).bind fun id shape final _ hgrows hs hid => ?_
          exact agrees_pure hs (.conversion (hchecked.grow hgrows) (.some hid))
  | .load place type, _, .load hplace htype => by
      rw [Check.tree, Structural.tree]
      refine .of_demand hs htype fun _ => ?_
      refine (agrees_tree hrecheck hs place hplace).bind ?_
      intro checked checked' middle _ hgrows hs hchecked
      refine (agrees_typeOf hs hchecked).bind fun id shape final _ hgrows hs hid => ?_
      exact agrees_pure hs (.load (hchecked.grow hgrows) (.some hid))
  | .glue fields type, _, .glue hfields htype => by
      rw [Check.tree, Structural.tree]
      refine .of_demand hs htype fun _ => ?_
      refine (agrees_glueFields hrecheck hs 0 .empty fields hfields).bind ?_
      intro results results' middle _ hgrows hs hresults
      obtain ⟨hchecked, hshapes, hnames⟩ := hresults
      have hspells : (Ty.struct results.2).Spells middle.types.Denotes
          (.struct results'.2.1 results'.2.2) := by
        rw [← hnames]
        exact .struct _ hshapes
      refine (agrees_intern hs hspells).of_pure fun id final hgrows hs hid => agrees_pure hs ?_
      exact .glue (hchecked.imp fun _ _ h => h.grow hgrows) (.some hid)
  | .dot base field position type, _, .dot hbase htype => by
      rw [Check.tree, Structural.tree]
      refine .of_demand hs htype fun _ => ?_
      refine (agrees_tree hrecheck hs base hbase).bind ?_
      intro checked checked' middle _ hgrows hs hchecked
      exact agrees_namedField hs hchecked field
  | .index base position type, _, .index hbase htype => by
      rw [Check.tree, Structural.tree]
      refine .of_demand hs htype fun _ => ?_
      refine (agrees_tree hrecheck hs base hbase).bind ?_
      intro checked checked' middle _ hgrows hs hchecked
      exact agrees_positionedField hs hchecked position

theorem agrees_glueFields {recheck : Expr → CheckM Expr}
    {recheck' : Structural.Expr → Structural.CheckM Structural.Expr}
    (hrecheck : AgreesOnExprs recheck recheck') {s : Checking} {table : Structural.SymbolTable}
    (hs : s.Spelled table) (position : Nat) (names : FieldNames) : (fields : GlueFields) →
    {fields' : Structural.GlueFields} → Expr.SpelledFields s.types.Denotes fields fields' →
    Agrees (Check.glueFields recheck position names fields)
      (Structural.glueFields recheck' position names fields') s table
      fun types results results' => Expr.SpelledFields types.Denotes results.1 results'.1 ∧
        results.2.SpelledIn types results'.2
  | [], _, .nil => by
      rw [Check.glueFields, Structural.glueFields]
      exact agrees_pure hs ⟨.nil, .nil, rfl⟩
  | (name, value) :: rest, _, .cons hvalue hrest => by
      rw [Check.glueFields, Structural.glueFields]
      refine (agrees_addName hs names position name).bind fun names _ s₁ _ hgrows₁ hs heq => ?_
      subst heq
      refine (agrees_tree hrecheck hs value (hvalue.grow hgrows₁)).bind ?_
      intro checked checked' s₂ _ hgrows₂ hs hchecked
      refine (agrees_fieldValue hrecheck hs hchecked).bind
        fun final final' s₃ _ hgrows₃ hs hfinal => ?_
      refine (agrees_typeOf hs hfinal).bind fun id shape s₄ _ hgrows₄ hs hid => ?_
      have hgrows := ((hgrows₁.trans hgrows₂).trans hgrows₃).trans hgrows₄
      refine (agrees_glueFields hrecheck hs (position + 1) names rest
        (hrest.imp fun _ _ h => h.grow hgrows)).bind ?_
      intro results results' s₅ _ hgrows₅ hs hresults
      obtain ⟨hrest', hshapes, hnames⟩ := hresults
      exact agrees_pure hs ⟨.cons ((hfinal.grow hgrows₄).grow hgrows₅) hrest',
        .cons (hid.grow hgrows₅) hshapes, hnames⟩

end

theorem agreesOnExprs_within (depth : Nat) :
    AgreesOnExprs (Check.within depth) (Structural.within depth) := by
  induction depth with
  | zero => exact fun hs hvalue => agrees_tree (fun _ _ => .error) hs _ hvalue
  | succ depth ih => exact fun hs hvalue => agrees_tree ih hs _ hvalue

theorem agreesOnExprs_expr : AgreesOnExprs Check.expr Structural.expr := by
  intro s table value value' hs hvalue
  rw [Check.expr, Structural.expr, hvalue.nesting]
  exact agreesOnExprs_within _ hs hvalue

theorem agrees_convert {s : Checking} {table : Structural.SymbolTable} {value : Expr}
    {value' : Structural.Expr} {target : TypeId} {shape : Shape} (hs : s.Spelled table)
    (hvalue : value.Spelled s.types.Denotes value') (htarget : s.types.Denotes target shape) :
    Agrees (Check.convert value target) (Structural.convert value' shape) s table
      Expr.SpelledIn := by
  rw [Check.convert, Structural.convert, hvalue.nesting]
  exact agrees_convertWith (agreesOnExprs_within _) hs hvalue htarget

end FlexWidth
