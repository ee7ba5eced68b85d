import FlexWidth.Proofs.Typing.FieldNames
import FlexWidth.Proofs.Typing.Recursion
import FlexWidth.Proofs.Typing.Walk

/-!
# Invariants of checking

A check that fails stops wherever it is, with types interned and symbols typed that nothing
takes back.  So what holds throughout a run has to hold however a part of it ends.  `Keeps`
says it of one stage: it leads from states of an invariant to states of the invariant, and
fails only as a condition on failures allows.

Only four elementary steps change the state at all, and few failures are worth a condition:
that a name stands for a field which is not there, and that a name is written twice.
`Invariant` asks about these alone, and about the types that are added.  Sequences keep what
their parts keep, so the rest is one line per step of the checker, and neither the trees nor the
state need to make sense.  Checking again is a recursion on the nesting (`expr_eq_tree`), so
nothing is asked about running out of levels.
-/

namespace FlexWidth

/-- The name that is refused because another field has it. -/
def Diagnostic.duplicateField? : Diagnostic → Option String
  | duplicateField name => some name
  | _ => none

/-- The state in which a stage ends, with a result or without. -/
def stateOf {σ α : Type} : EStateM.Result Failure σ α → σ
  | .ok _ final => final
  | .error _ final => final

/-- The greater of two widths is the width of one of the types. -/
theorem Ty.eq_int_of_merge {left right : Ty} {width : Nat}
    (h : Option.merge max left.intWidth? right.intWidth? = some width) :
    left = .int width ∨ right = .int width := by
  cases left <;> cases right <;> simp [intWidth?] at h ⊢ <;> omega

/-- Looking for what two types have in common adds an integer type at most, of a width that one
of them has. -/
theorem Universe.eq_or_eq_intern_of_common? {types later : Universe} {left right : TypeId}
    {promotion : Promotion} (h : types.common? left right = some (promotion, later)) :
    later = types ∨ ∃ id width, types.get? id = some (.int width) ∧
      later = (Universe.intern (.int width) types).2 := by
  have hsame {other : Promotion} (h : some (other, types) = some (promotion, later)) :
      later = types := by
    cases h
    rfl
  unfold Universe.common? at h
  split at h
  · rename_i leftTy rightTy hleft hright
    split at h
    · split at h
      · exact Or.inl (hsame h)
      · exact Or.inl (hsame h)
    · split at h
      · exact Or.inl (hsame h)
      · split at h
        · rename_i width hwidth
          cases h
          rcases Ty.eq_int_of_merge hwidth with rfl | rfl
          · exact Or.inr ⟨left, width, hleft, rfl⟩
          · exact Or.inr ⟨right, width, hright, rfl⟩
        · exact Or.inl (hsame h)
  · cases h

/-- An integer type may have the width: it is allowed, or the default, or a type has it already. -/
def Universe.Grants (types : Universe) (W : Nat → Prop) (width : Nat) : Prop :=
  W width ∨ width = Ascription.defaultWidth ∨ ∃ id, types.get? id = some (.int width)

namespace Check

/-- The names in the expression are allowed, and so is that a name is refused which the
expression repeats. -/
structure Allows (F : Failure → Prop) (N : String → Prop) (value : Expr) : Prop where
  repeated : ∀ name, value.Repeats name → F (.refused (.duplicateField name))
  written : ∀ name, value.Writes name → N name

/-- What checking needs to know of an invariant, of a condition on failures and of those on names
and widths that are written. -/
structure Invariant (I : Checking → Prop) (F : Failure → Prop) (N : String → Prop)
    (W : Nat → Prop := fun _ => True) : Prop where
  intern : ∀ {s : Checking} {ty : Ty}, I s →
    (∀ struct, ty = .struct struct → struct.Lawful ∧ struct.NamesIn N) →
    (∀ width, ty = .int width → s.types.Grants W width) →
    I { s with types := (Universe.intern ty s.types).2 }
  setType : ∀ {s : Checking} {symbol : SymbolId} {type : TypeId} {done : Bool}
    {symbols : SymbolTable}, I s → s.symbols.setType? symbol type = some (done, symbols) →
    I { s with symbols := symbols }
  note : ∀ {s : Checking} (event : Event), I s → I { s with log := s.log.push event }
  refused : ∀ {diagnostic : Diagnostic}, diagnostic.duplicateField? = none →
    F (.refused diagnostic)
  broken : ∀ {broken : Fault}, broken ≠ .unknownPosition ∧ broken ≠ .recursionDepth →
    F (.broken broken)
  position : ∀ {s : Checking} {id : TypeId} {struct : StructTy} {name : String} {position : Nat},
    I s → s.types.get? id = some (.struct struct) → struct.names.position? name = some position →
    struct.fields[position]? = none → F (.broken .unknownPosition)

variable {α β : Type} {I : Checking → Prop} {F : Failure → Prop} {N : String → Prop}
  {W : Nat → Prop}

/-- However it ends, the stage leads to a state of the invariant, and it fails only as the
condition allows. -/
def Keeps (I : Checking → Prop) (F : Failure → Prop) (stage : CheckM α) : Prop :=
  ∀ s, I s → Ends stage s (fun _ final => I final) fun failure final => I final ∧ F failure

theorem Keeps.stateOf {stage : CheckM α} {s : Checking} (h : Keeps I F stage) (hs : I s) :
    I (stateOf (stage s)) := by
  cases hrun : stage s with
  | ok value final => exact (h s hs).post_of_ok hrun
  | error failure final => exact ((h s hs).failed_of_error hrun).1

/-! ## Sequences -/

theorem keeps_pure (value : α) : Keeps I F (pure value) := fun _ hs => ends_pure hs

theorem keeps_get : Keeps I F (get : CheckM Checking) := fun s hs => Ends.of_ok (run_get s) hs

/-- The second part needs to keep the invariant only after what the first may yield. -/
theorem Keeps.bind_yields {stage : CheckM α} {next : α → CheckM β} {post : α → Prop}
    (h : Keeps I F stage) (hyields : Yields stage post)
    (hnext : ∀ value, post value → Keeps I F (next value)) : Keeps I F (stage >>= next) := by
  intro s hs
  cases hrun : stage s with
  | ok value middle =>
      exact .of_bind hrun (hnext value (hyields s value middle hrun) middle
        ((h s hs).post_of_ok hrun))
  | error failure middle =>
      exact .of_error (run_bind_error hrun next) ((h s hs).failed_of_error hrun)

theorem Keeps.bind {stage : CheckM α} {next : α → CheckM β} (h : Keeps I F stage)
    (hnext : ∀ value, Keeps I F (next value)) : Keeps I F (stage >>= next) := by
  have hany : Yields stage fun _ => True := fun _ _ _ _ => trivial
  exact h.bind_yields hany fun value _ => hnext value

section Allows

variable {value part result : Expr}

theorem Allows.inside (h : Allows F N value) (hnodes : part.nodes ⊆ value.nodes) :
    Allows F N part := by
  have hinside : part.nodes.filterMap Expr.fieldNames? ⊆ value.nodes.filterMap Expr.fieldNames? :=
    List.filterMap_subset _ hnodes
  constructor
  · rintro name ⟨names, hnames, hcount⟩
    exact h.repeated name ⟨names, hinside hnames, hcount⟩
  · rintro name ⟨names, hnames, hname⟩
    exact h.written name ⟨names, hinside hnames, hname⟩

theorem Allows.of_erase_eq (h : Allows F N value) (heq : result.erase = value.erase) :
    Allows F N result where
  repeated name hrepeats := h.repeated name (hrepeats.of_erase_eq heq)
  written name hwrites := h.written name (hwrites.of_erase_eq heq)

theorem allows_true (value : Expr) : Allows (fun _ => True) (fun _ => True) value :=
  ⟨fun _ _ => trivial, fun _ _ => trivial⟩

theorem forall_allows_of_map_erase_eq {values results : List Expr}
    (h : ∀ value ∈ values, Allows F N value)
    (heq : results.map Expr.erase = values.map Expr.erase) :
    ∀ result ∈ results, Allows F N result := by
  intro result hresult
  have hmem : result.erase ∈ values.map Expr.erase := heq ▸ List.mem_map_of_mem hresult
  obtain ⟨value, hvalue, herase⟩ := List.mem_map.mp hmem
  exact (h value hvalue).of_erase_eq herase.symm

end Allows

section Steps

variable (h : Invariant I F N W)

include h

theorem keeps_refuse {diagnostic : Diagnostic} (hother : diagnostic.duplicateField? = none) :
    Keeps I F (refuse diagnostic : CheckM α) :=
  fun _ hs => ends_refuse ⟨hs, h.refused hother⟩

theorem keeps_fault {broken : Fault}
    (hother : broken ≠ .unknownPosition ∧ broken ≠ .recursionDepth) :
    Keeps I F (fault broken : CheckM α) :=
  fun s hs => Ends.of_error (run_fault broken s) ⟨hs, h.broken hother⟩

theorem keeps_orRefuse {diagnostic : Diagnostic} (hother : diagnostic.duplicateField? = none)
    (value : Option α) : Keeps I F (orRefuse diagnostic value : CheckM α) := by
  cases value with
  | some value => exact keeps_pure value
  | none => exact keeps_refuse h hother

theorem keeps_orFault {missing : Fault}
    (hother : missing ≠ .unknownPosition ∧ missing ≠ .recursionDepth) (value : Option α) :
    Keeps I F (orFault missing value : CheckM α) := by
  cases value with
  | some value => exact keeps_pure value
  | none => exact keeps_fault h hother

/-! ## Steps that change the state -/

theorem keeps_intern {interning : Universe → TypeId × Universe} {ty : Ty}
    (heq : ∀ types, interning types = Universe.intern ty types)
    (hstruct : ∀ struct, ty = .struct struct → struct.Lawful ∧ struct.NamesIn N)
    (hwidth : ∀ width, ty = .int width → W width ∨ width = Ascription.defaultWidth) :
    Keeps I F (intern interning) := by
  intro s hs
  have hfinal := h.intern hs hstruct fun width heq => (hwidth width heq).imp_right Or.inl
  rw [← heq] at hfinal
  exact Ends.of_ok rfl hfinal

theorem keeps_internFlexible : Keeps I F (intern Universe.internFlexible) :=
  keeps_intern h Universe.internFlexible_eq_intern (fun _ heq => by cases heq)
    fun _ heq => by cases heq

theorem keeps_internBool : Keeps I F (intern Universe.internBool) :=
  keeps_intern h Universe.internBool_eq_intern (fun _ heq => by cases heq)
    fun _ heq => by cases heq

theorem keeps_internInt {width : Nat} (hwidth : W width ∨ width = Ascription.defaultWidth) :
    Keeps I F (intern (Universe.internInt width)) := by
  refine keeps_intern h (Universe.internInt_eq_intern width) (fun _ heq => by cases heq) ?_
  intro other heq
  cases heq
  exact hwidth

theorem keeps_internDefaultInt : Keeps I F (intern Universe.internDefaultInt) :=
  keeps_internInt h (Or.inr rfl)

theorem keeps_internStruct {struct : StructTy} (hstruct : struct.Lawful)
    (hnames : struct.NamesIn N) : Keeps I F (intern (Universe.internStruct struct)) := by
  refine keeps_intern h (Universe.internStruct_eq_intern struct) (fun other heq => ?_)
    fun _ heq => by cases heq
  cases heq
  exact ⟨hstruct, hnames⟩

theorem keeps_common (left right : TypeId) : Keeps I F (common left right) := by
  intro s hs
  cases hcommon : s.types.common? left right with
  | none =>
      have hrun : common left right s = .error (.broken .unknownType) s := by
        rw [common, run_bind_ok (run_get s), hcommon]
        rfl
      exact Ends.of_error hrun ⟨hs, h.broken (by decide)⟩
  | some found =>
      obtain ⟨promotion, later⟩ := found
      have hrun : common left right s = .ok promotion { s with types := later } := by
        rw [common, run_bind_ok (run_get s), hcommon]
        rfl
      refine Ends.of_ok hrun ?_
      rcases Universe.eq_or_eq_intern_of_common? hcommon with rfl | ⟨id, width, hid, rfl⟩
      · exact hs
      · refine h.intern hs (fun _ heq => by cases heq) fun other heq => ?_
        cases heq
        exact Or.inr (Or.inr ⟨id, hid⟩)

theorem keeps_setSymbolType (symbol : SymbolId) (type : TypeId) :
    Keeps I F (setSymbolType symbol type) := by
  intro s hs
  cases hset : s.symbols.setType? symbol type with
  | none =>
      have hrun : setSymbolType symbol type s = .error (.broken .unknownSymbol) s := by
        rw [setSymbolType, run_bind_ok (run_get s), hset]
        rfl
      exact Ends.of_error hrun ⟨hs, h.broken (by decide)⟩
  | some found =>
      obtain ⟨done, symbols⟩ := found
      have hrun : setSymbolType symbol type s = .ok done { s with symbols := symbols } := by
        rw [setSymbolType, run_bind_ok (run_get s), hset]
        rfl
      exact Ends.of_ok hrun (h.setType hs hset)

theorem keeps_note (event : Event) : Keeps I F (note event) :=
  fun s hs => Ends.of_ok (run_modify _ s) (h.note event hs)

/-! ## Steps that only look -/

theorem keeps_typeAt (id : TypeId) : Keeps I F (typeAt id) :=
  keeps_get.bind fun _ => keeps_orFault h (by decide) _

theorem keeps_describe (id : TypeId) : Keeps I F (describe id) :=
  keeps_get.bind fun _ => keeps_orFault h (by decide) _

theorem keeps_isFlexible (id : TypeId) : Keeps I F (isFlexible id) :=
  (keeps_typeAt h id).bind fun _ => keeps_pure _

theorem keeps_isStruct (id : TypeId) : Keeps I F (isStruct id) :=
  (keeps_typeAt h id).bind fun _ => keeps_pure _

theorem keeps_symbolType? (symbol : SymbolId) : Keeps I F (symbolType? symbol) :=
  keeps_get.bind fun _ => (keeps_orFault h (by decide) _).bind fun _ => keeps_pure _

theorem keeps_typeOf (value : Expr) : Keeps I F (typeOf value) := keeps_orRefuse h rfl _

theorem keeps_mismatch (expected received : TypeId) :
    Keeps I F (mismatch expected received : CheckM α) :=
  (keeps_describe h _).bind fun _ => (keeps_describe h _).bind fun _ => keeps_refuse h rfl

theorem keeps_expectedInt (received : TypeId) : Keeps I F (expectedInt received : CheckM α) :=
  (keeps_describe h _).bind fun _ => keeps_refuse h rfl

theorem keeps_refuseStruct (type : TypeId) : Keeps I F (refuseStruct type) := by
  refine (keeps_isStruct h type).bind fun struct => ?_
  split
  · exact keeps_expectedInt h type
  · exact keeps_pure ()

/-! ## Literals and conversion -/

theorem keeps_orFlexible (type : Option TypeId) : Keeps I F (orFlexible type) := by
  cases type with
  | some type => exact keeps_pure type
  | none => exact keeps_internFlexible h

theorem keeps_fits (value : Nat) (type : TypeId) (negated : Bool) :
    Keeps I F (fits value type negated) := by
  refine (keeps_typeAt h type).bind fun ty => ?_
  cases ty with
  | int width =>
      dsimp only
      split
      · exact keeps_pure ()
      · exact (keeps_describe h type).bind fun _ => keeps_refuse h rfl
  | flexible => exact keeps_pure ()
  | bool => exact (keeps_describe h type).bind fun _ => keeps_refuse h rfl
  | struct struct => exact (keeps_describe h type).bind fun _ => keeps_refuse h rfl

theorem keeps_literal (value : Nat) (type : Option TypeId) : Keeps I F (literal value type) := by
  refine (keeps_orFlexible h type).bind fun type => ?_
  exact (keeps_fits h value type false).bind fun _ => keeps_pure _

theorem keeps_negatedLiteral (value : Nat) (type demand : Option TypeId) :
    Keeps I F (negatedLiteral value type demand) := by
  refine (keeps_orFlexible h (demand.or type)).bind fun type => ?_
  exact (keeps_fits h value type true).bind fun _ => keeps_pure _

theorem keeps_materialize (value : Expr) : Keeps I F (materialize value) := by
  unfold materialize
  split
  · exact (keeps_typeOf h value).bind fun _ => keeps_pure _
  · exact keeps_pure value

theorem keeps_reportConversion (value : Expr) (target : TypeId) :
    Keeps I F (reportConversion value target) := by
  unfold reportConversion
  split
  · refine (keeps_describe h _).bind fun _ => (keeps_describe h _).bind fun _ => ?_
    exact keeps_note h _
  · exact keeps_pure ()

theorem keeps_wrapConversion (value : Expr) (target : TypeId) :
    Keeps I F (wrapConversion value target) :=
  (keeps_reportConversion h value target).bind fun _ => keeps_pure _

end Steps

/-- Checking again keeps the invariant and changes the expression only in what is erased. -/
structure Rechecks (I : Checking → Prop) (F : Failure → Prop) (N : String → Prop)
    (recheck : Expr → CheckM Expr) : Prop where
  keeps : ∀ {value : Expr}, Allows F N value → Keeps I F (recheck value)
  erased : ∀ value, KeepsErased (recheck value) value

section Recheck

variable {recheck : Expr → CheckM Expr} (h : Invariant I F N W) (hrecheck : Rechecks I F N recheck)

include h hrecheck

theorem keeps_settle {value : Expr} (hvalue : Allows F N value) (current : TypeId) :
    Keeps I F (settle recheck value current) := by
  refine (keeps_isFlexible h current).bind fun flexible => ?_
  split
  · refine (keeps_internDefaultInt h).bind fun type => hrecheck.keeps ?_
    exact hvalue.of_erase_eq (Expr.erase_withType value type)
  · exact keeps_pure value

theorem keeps_convertToBool {value : Expr} (hvalue : Allows F N value) (current target : TypeId) :
    Keeps I F (convertToBool recheck value current target) := by
  refine (keeps_settle h hrecheck hvalue current).bind fun settled => ?_
  refine (keeps_typeOf h settled).bind fun type => (keeps_typeAt h type).bind fun ty => ?_
  cases ty with
  | int width => exact keeps_wrapConversion h settled target
  | bool => exact keeps_mismatch h target type
  | flexible => exact keeps_mismatch h target type
  | struct struct => exact keeps_mismatch h target type

theorem keeps_convertWith {value : Expr} (hvalue : Allows F N value) (target : TypeId) :
    Keeps I F (convertWith recheck value target) := by
  refine (keeps_materialize h value).bind_yields (keepsErased_materialize value) ?_
  intro loaded hloaded
  have hallowed := hvalue.of_erase_eq hloaded
  refine (keeps_typeOf h loaded).bind fun current => ?_
  split
  · exact keeps_pure loaded
  · refine (keeps_typeAt h target).bind fun targetTy => ?_
    split
    · exact keeps_pure loaded
    · split
      · exact keeps_convertToBool h hrecheck hallowed current target
      · refine (keeps_typeAt h current).bind fun currentTy => ?_
        split
        · split
          · exact keeps_mismatch h target current
          · exact hrecheck.keeps (hallowed.of_erase_eq (Expr.erase_withType loaded target))
        · split
          · exact keeps_wrapConversion h loaded target
          · exact keeps_mismatch h target current

/-! ## Nodes of expressions -/

theorem keeps_signOperand (operator : String) {operand : Expr} (hoperand : Allows F N operand)
    (demand : Option TypeId) :
    Keeps I F (signOperand (convertWith recheck) operator operand demand) := by
  refine (keeps_typeOf h operand).bind fun type => (keeps_refuseStruct h type).bind fun _ => ?_
  refine (keeps_isFlexible h type).bind fun flexible => ?_
  have hplain (type : TypeId) : Keeps I F (materialize operand >>= fun operand =>
      pure (Expr.unary operator operand (some type))) :=
    (keeps_materialize h operand).bind fun _ => keeps_pure _
  cases demand with
  | none => exact hplain type
  | some demand =>
      dsimp only
      split
      · exact (keeps_convertWith h hrecheck hoperand demand).bind fun _ => keeps_pure _
      · exact hplain type

omit hrecheck in
theorem keeps_signed {operand : Expr} (hoperand : Keeps I F (tree recheck operand))
    (demand : Option TypeId) : Keeps I F (signed recheck operand demand) := by
  cases operand with
  | literal number own => exact keeps_negatedLiteral h number own demand
  | _ => exact hoperand

theorem keeps_convertOperands {left right : Expr} (hleft : Allows F N left)
    (hright : Allows F N right) (target : TypeId) :
    Keeps I F (convertOperands (convertWith recheck) left right target) := by
  refine (keeps_convertWith h hrecheck hleft target).bind fun _ => ?_
  exact (keeps_convertWith h hrecheck hright target).bind fun _ => keeps_pure _

omit hrecheck in
theorem keeps_operandType (operatorClass : OperatorClass) (leftType rightType : TypeId) :
    Keeps I F (operandType operatorClass leftType rightType) := by
  refine (keeps_isFlexible h leftType).bind fun leftFlexible => ?_
  refine (keeps_isFlexible h rightType).bind fun rightFlexible => ?_
  refine (keeps_common h leftType rightType).bind fun promotion => ?_
  cases promotion with
  | resolved type => exact keeps_pure _
  | stillFlexible =>
      dsimp only
      split
      · exact keeps_pure none
      · exact (keeps_internDefaultInt h).bind fun _ => keeps_pure _
  | incompatible => exact keeps_mismatch h leftType rightType

theorem keeps_operands (operator : String) (operatorClass : OperatorClass) {left right : Expr}
    (hleft : Allows F N left) (hright : Allows F N right) (demand : Option TypeId) :
    Keeps I F (operands (convertWith recheck) operator operatorClass left right demand) := by
  refine (keeps_typeOf h left).bind fun leftType => (keeps_typeOf h right).bind fun rightType => ?_
  refine (keeps_refuseStruct h leftType).bind fun _ => ?_
  refine (keeps_refuseStruct h rightType).bind fun _ => ?_
  split
  · exact (keeps_convertOperands h hrecheck hleft hright _).bind fun _ => keeps_pure _
  · refine (keeps_operandType h operatorClass leftType rightType).bind fun common => ?_
    cases common with
    | none => exact (keeps_internFlexible h).bind fun _ => keeps_pure _
    | some type =>
        refine (keeps_convertOperands h hrecheck hleft hright type).bind fun _ => ?_
        cases operatorClass with
        | arithmetic => exact keeps_pure _
        | relational => exact (keeps_internBool h).bind fun _ => keeps_pure _

theorem keeps_fieldValue {value : Expr} (hvalue : Allows F N value) :
    Keeps I F (fieldValue (convertWith recheck) value) := by
  refine (keeps_typeOf h value).bind fun type => (keeps_isFlexible h type).bind fun flexible => ?_
  split
  · exact (keeps_internDefaultInt h).bind fun type => keeps_convertWith h hrecheck hvalue type
  · exact keeps_materialize h value

end Recheck

theorem keeps_demandOf (h : Invariant I F N W) (type : Option TypeId) :
    Keeps I F (demandOf type) := by
  cases type with
  | none => exact keeps_pure none
  | some type =>
      refine (keeps_isFlexible h type).bind fun flexible => ?_
      split
      · exact keeps_pure none
      · exact keeps_pure (some type)

/-- A name is refused only if it is there already. -/
theorem keeps_addName {names : FieldNames} {name : Option String}
    (hname : ∀ written, name = some written → (names.position? written).isSome →
      F (.refused (.duplicateField written))) (position : Nat) :
    Keeps I F (addName names position name) := by
  unfold addName
  split
  · split
    · rename_i written hfound
      exact fun s hs => ends_refuse ⟨hs, hname written rfl hfound⟩
    · exact keeps_pure _
  · exact keeps_pure names

theorem get?_of_run_typeAt {s final : Checking} {id : TypeId} {ty : Ty}
    (h : typeAt id s = .ok ty final) : final = s ∧ s.types.get? id = some ty := by
  rw [typeAt, run_bind_ok (run_get s)] at h
  cases hget : s.types.get? id with
  | none =>
      rw [hget] at h
      cases h
  | some found =>
      rw [hget] at h
      cases h
      exact ⟨rfl, rfl⟩

theorem get?_of_run_structOf {s final : Checking} {id : TypeId} {struct : StructTy}
    (h : structOf id s = .ok struct final) :
    final = s ∧ s.types.get? id = some (.struct struct) := by
  obtain ⟨ty, middle, hty, hrest⟩ := bind_eq_ok_iff.mp h
  obtain ⟨rfl, hget⟩ := get?_of_run_typeAt hty
  cases ty with
  | struct written =>
      cases hrest
      exact ⟨rfl, hget⟩
  | _ =>
      -- anything else is described and refused
      obtain ⟨_, _, _, hrefuse⟩ := bind_eq_ok_iff.mp hrest
      cases hrefuse

section Fields

variable (h : Invariant I F N W)

include h

theorem keeps_structOf (type : TypeId) : Keeps I F (structOf type) := by
  refine (keeps_typeAt h type).bind fun ty => ?_
  cases ty.struct? with
  | some struct => exact keeps_pure struct
  | none => exact (keeps_describe h type).bind fun _ => keeps_refuse h rfl

theorem keeps_unknownField (field : String) (type : TypeId) :
    Keeps I F (unknownField field type : CheckM α) :=
  (keeps_describe h type).bind fun _ => keeps_refuse h rfl

theorem keeps_namedField (base : Expr) (field : String) : Keeps I F (namedField base field) := by
  refine (keeps_typeOf h base).bind fun type => ?_
  intro s hs
  cases hstruct : structOf type s with
  | error failure final =>
      exact .of_error (run_bind_error hstruct _)
        ((keeps_structOf h type s hs).failed_of_error hstruct)
  | ok struct final =>
      -- the struct is one of the universe, so the invariant speaks of its names
      obtain ⟨rfl, hget⟩ := get?_of_run_structOf hstruct
      refine .of_bind hstruct ?_
      cases hposition : struct.names.position? field with
      | none => exact keeps_unknownField h field type _ hs
      | some position =>
          dsimp only
          cases hfield : struct.fields[position]? with
          | none =>
              exact .of_error (run_bind_error (run_fault _ _) _)
                ⟨hs, h.position hs hget hposition hfield⟩
          | some fieldType => exact .of_ok (run_bind_ok (run_orFault_some _ _ _) _) hs

theorem keeps_positionedField (base : Expr) (position : Nat) :
    Keeps I F (positionedField base position) := by
  refine (keeps_typeOf h base).bind fun type => (keeps_structOf h type).bind fun struct => ?_
  cases struct.fields[position]? with
  | some fieldType => exact keeps_pure _
  | none => exact keeps_unknownField h _ type

end Fields

/-! ## Expressions -/

/-- The names of the fields are allowed, and so is that a name is refused which is written twice
among the fields, or once among them and once before. -/
structure AllowsFields (F : Failure → Prop) (N : String → Prop) (names : FieldNames)
    (fields : GlueFields) : Prop where
  values : ∀ field ∈ fields, Allows F N field.2
  written : ∀ name, some name ∈ fields.map Prod.fst → N name
  again : ∀ name, some name ∈ fields.map Prod.fst → (names.position? name).isSome →
    F (.refused (.duplicateField name))
  twice : ∀ name, 2 ≤ (fields.map Prod.fst).count (some name) →
    F (.refused (.duplicateField name))

theorem Allows.fields {fields : GlueFields} {type : Option TypeId}
    (h : Allows F N (.glue fields type)) : AllowsFields F N .empty fields where
  values := by
    intro field hfield
    refine h.inside ?_
    rw [Expr.nodes]
    exact List.Subset.trans (Expr.nodes_subset_fieldNodes hfield) (List.subset_cons_self _ _)
  written := fun name hname => h.written name ⟨_, Expr.mem_filterMap_nodes_glue fields type, hname⟩
  again := by
    intro name _ hname
    cases hname
  twice := fun name hcount => h.repeated name ⟨_, Expr.mem_filterMap_nodes_glue fields type, hcount⟩

theorem AllowsFields.rest {names names' : FieldNames} {name : Option String} {value : Expr}
    {rest : GlueFields} (h : AllowsFields F N names ((name, value) :: rest))
    (hnames : ∀ other, (names'.position? other).isSome →
      (names.position? other).isSome ∨ name = some other) :
    AllowsFields F N names' rest where
  values := (List.forall_mem_cons.mp h.values).2
  written := fun other hmem => h.written other (List.mem_cons_of_mem _ hmem)
  again := by
    intro other hmem hother
    rcases hnames other hother with hbefore | rfl
    · exact h.again other (List.mem_cons_of_mem _ hmem) hbefore
    · refine h.twice other ?_
      have hcount := List.one_le_count_iff.mpr hmem
      rw [List.map_cons, List.count_cons_self]
      exact Nat.succ_le_succ hcount
  twice := fun other hcount => h.twice other (hcount.trans List.count_le_count_cons)

theorem yields_addName_position? (names : FieldNames) (position : Nat) (name : Option String) :
    Yields (addName names position name) fun result =>
      ∀ other, (result.position? other).isSome →
        (names.position? other).isSome ∨ name = some other := by
  cases name with
  | none => exact yields_pure fun _ hother => Or.inl hother
  | some name =>
      rw [addName]
      split
      · exact yields_refuse _
      · refine yields_pure fun other hother => ?_
        rw [position?_insert] at hother
        split at hother
        · rename_i heq
          exact Or.inr (congrArg some heq.symm)
        · exact Or.inl hother

mutual

/-- Checking an expression keeps the invariant, if checking its parts again does. -/
theorem keeps_tree {recheck : Expr → CheckM Expr} (h : Invariant I F N W)
    (hrecheck : Rechecks I F N recheck) : (value : Expr) → Allows F N value →
    Keeps I F (tree recheck value)
  | .literal number type, _ => by
      rw [tree]
      exact (keeps_demandOf h type).bind fun _ => keeps_literal h number type
  | .var name symbol type, _ => by
      rw [tree]
      refine (keeps_demandOf h type).bind fun _ => ?_
      refine (keeps_orRefuse h rfl symbol).bind fun symbol => ?_
      refine (keeps_symbolType? h symbol).bind fun type => ?_
      exact (keeps_orRefuse h rfl type).bind fun _ => keeps_pure _
  | .read type, _ => by
      rw [tree]
      refine (keeps_demandOf h type).bind fun _ => ?_
      refine (keeps_orFlexible h type).bind fun type => (keeps_typeAt h type).bind fun ty => ?_
      cases ty with
      | int width => exact keeps_pure _
      | flexible => exact keeps_pure _
      | bool => exact keeps_expectedInt h type
      | struct struct => exact keeps_expectedInt h type
  | .unary operator operand type, hvalue => by
      have hoperand : Allows F N operand := hvalue.inside (List.subset_cons_self _ _)
      rw [tree_unary]
      refine (keeps_demandOf h type).bind fun demand => ?_
      split
      · refine (keeps_signed h (keeps_tree h hrecheck operand hoperand) demand).bind_yields
          (keepsErased_signed hrecheck.erased operand demand) fun checked hchecked => ?_
        exact keeps_signOperand h hrecheck operator (hoperand.of_erase_eq hchecked) demand
      · exact keeps_refuse h rfl
  | .binary operator left right type, hvalue => by
      have hleft : Allows F N left := hvalue.inside fun _ hmem => by simp [Expr.nodes, hmem]
      have hright : Allows F N right := hvalue.inside fun _ hmem => by simp [Expr.nodes, hmem]
      rw [tree]
      refine (keeps_demandOf h type).bind fun demand => ?_
      refine (keeps_orRefuse h rfl _).bind fun operatorClass => ?_
      refine (keeps_tree h hrecheck left hleft).bind_yields
        (keepsErased_tree hrecheck.erased left) fun left' hleft' => ?_
      refine (keeps_tree h hrecheck right hright).bind_yields
        (keepsErased_tree hrecheck.erased right) fun right' hright' => ?_
      exact keeps_operands h hrecheck operator operatorClass (hleft.of_erase_eq hleft')
        (hright.of_erase_eq hright') demand
  | .conversion operand type, hvalue => by
      rw [tree]
      refine (keeps_demandOf h type).bind fun _ => ?_
      refine (keeps_tree h hrecheck operand (hvalue.inside (List.subset_cons_self _ _))).bind
        fun operand => ?_
      cases type with
      | some type => exact keeps_pure _
      | none => exact (keeps_typeOf h operand).bind fun _ => keeps_pure _
  | .load place type, hvalue => by
      rw [tree]
      refine (keeps_demandOf h type).bind fun _ => ?_
      refine (keeps_tree h hrecheck place (hvalue.inside (List.subset_cons_self _ _))).bind
        fun place => ?_
      exact (keeps_typeOf h place).bind fun _ => keeps_pure _
  | .glue fields type, hvalue => by
      rw [tree]
      refine (keeps_demandOf h type).bind fun _ => ?_
      refine (keeps_glueFields h hrecheck 0 .empty fields hvalue.fields).bind_yields
        (yields_glueFields_names recheck 0 .empty fields) fun result hresult => ?_
      obtain ⟨hlength, hnames, hnew⟩ := hresult
      refine (keeps_internStruct h (lawful_of_glueNames hlength hnames hnew) ?_).bind fun _ =>
        keeps_pure _
      intro name position hposition
      rw [hnames, position?_glueNames_empty hnew] at hposition
      exact hvalue.fields.written name (List.mem_of_getElem? hposition)
  | .dot base field position type, hvalue => by
      rw [tree]
      refine (keeps_demandOf h type).bind fun _ => ?_
      exact (keeps_tree h hrecheck base (hvalue.inside (List.subset_cons_self _ _))).bind
        fun base => keeps_namedField h base field
  | .index base position type, hvalue => by
      rw [tree]
      refine (keeps_demandOf h type).bind fun _ => ?_
      exact (keeps_tree h hrecheck base (hvalue.inside (List.subset_cons_self _ _))).bind
        fun base => keeps_positionedField h base position

theorem keeps_glueFields {recheck : Expr → CheckM Expr} (h : Invariant I F N W)
    (hrecheck : Rechecks I F N recheck) (position : Nat) (names : FieldNames) :
    (fields : GlueFields) → AllowsFields F N names fields →
    Keeps I F (glueFields recheck position names fields)
  | [], _ => by
      rw [glueFields]
      exact keeps_pure _
  | (name, value) :: rest, hfields => by
      have hvalue : Allows F N value := (List.forall_mem_cons.mp hfields.values).1
      have hname : Keeps I F (addName names position name) := by
        refine keeps_addName (fun written heq hfound => ?_) position
        exact hfields.again written (List.mem_cons.mpr (Or.inl heq.symm)) hfound
      rw [glueFields]
      refine hname.bind_yields (yields_addName_position? names position name) ?_
      intro names' hnames'
      refine (keeps_tree h hrecheck value hvalue).bind_yields
        (keepsErased_tree hrecheck.erased value) fun checked hchecked => ?_
      refine (keeps_fieldValue h hrecheck (hvalue.of_erase_eq hchecked)).bind fun final => ?_
      refine (keeps_typeOf h final).bind fun type => ?_
      exact (keeps_glueFields h hrecheck (position + 1) names' rest (hfields.rest hnames')).bind
        fun _ => keeps_pure _

end

theorem keeps_expr (h : Invariant I F N W) {value : Expr} (hvalue : Allows F N value) :
    Keeps I F (expr value) := by
  induction hnesting : value.nesting using Nat.strong_induction_on generalizing value with
  | h nesting ih =>
      subst hnesting
      -- what nests no less deeply is never checked again, so it does not matter how that is done
      let recheck (part : Expr) : CheckM Expr :=
        if part.nesting < value.nesting then expr part else pure part
      have hrecheck : Rechecks I F N recheck := by
        constructor
        · intro part hpart
          by_cases hlt : part.nesting < value.nesting
          · rw [show recheck part = expr part from if_pos hlt]
            exact ih part.nesting hlt hpart rfl
          · rw [show recheck part = pure part from if_neg hlt]
            exact keeps_pure part
        · intro part
          by_cases hlt : part.nesting < value.nesting
          · rw [show recheck part = expr part from if_pos hlt]
            exact keepsErased_expr part
          · rw [show recheck part = pure part from if_neg hlt]
            exact yields_pure rfl
      have heq : tree recheck value = tree expr value :=
        tree_eq_tree_expr fun part hlt => if_pos hlt
      rw [expr_eq_tree, ← heq]
      exact keeps_tree h hrecheck value hvalue

theorem keeps_convert (h : Invariant I F N W) {value : Expr} (hvalue : Allows F N value)
    (target : TypeId) : Keeps I F (convert value target) := by
  rw [convert_eq_convertWith]
  exact keeps_convertWith h ⟨keeps_expr h, keepsErased_expr⟩ hvalue target

/-! ## Statements -/

section Steps

variable (h : Invariant I F N W)

include h

theorem keeps_defaultInt {value : Expr} (hvalue : Allows F N value) :
    Keeps I F (defaultInt value) :=
  (keeps_internDefaultInt h).bind fun type => keeps_convert h hvalue type

theorem keeps_ascription {written : Ascription}
    (hwritten : ∀ width, written = .int width → W width) : Keeps I F (ascription written) := by
  unfold ascription
  split
  · exact keeps_refuse h rfl
  · exact keeps_internInt h (Or.inl (hwritten _ rfl))
  · exact keeps_internBool h

theorem keeps_declareType (name : String) (symbol : SymbolId) {written : Option Ascription}
    (hwritten : ∀ width, written = some (.int width) → W width) :
    Keeps I F (declareType name symbol written) := by
  cases written with
  | none => exact keeps_pure ()
  | some written =>
      have hwritten : ∀ width, written = .int width → W width :=
        fun width heq => hwritten width (congrArg some heq)
      refine (keeps_ascription h hwritten).bind fun type => ?_
      refine (keeps_setSymbolType h symbol type).bind fun done => ?_
      split
      · exact keeps_pure ()
      · exact keeps_refuse h rfl

theorem keeps_storeTyped (symbolType : TypeId) {value : Expr} (hvalue : Allows F N value) :
    Keeps I F (storeTyped symbolType value) := by
  refine (keeps_typeOf h value).bind fun valueType => ?_
  refine (keeps_common h symbolType valueType).bind fun promotion => ?_
  split
  · exact keeps_convert h hvalue symbolType
  · exact keeps_mismatch h symbolType valueType

theorem keeps_firstType (name : String) (valueType : TypeId) :
    Keeps I F (firstType name valueType) := by
  refine (keeps_isFlexible h valueType).bind fun flexible => ?_
  split
  · exact (keeps_note h _).bind fun _ => keeps_internDefaultInt h
  · exact keeps_pure valueType

theorem keeps_storeFirst (name : String) (symbol : SymbolId) {value : Expr}
    (hvalue : Allows F N value) : Keeps I F (storeFirst name symbol value) := by
  refine (keeps_typeOf h value).bind fun valueType => ?_
  refine (keeps_firstType h name valueType).bind fun symbolType => ?_
  exact (keeps_setSymbolType h symbol symbolType).bind fun _ => keeps_convert h hvalue symbolType

theorem keeps_store (name : String) (symbol : SymbolId) {value : Option Expr}
    (hvalue : ∀ written ∈ value, Allows F N written) : Keeps I F (store name symbol value) := by
  refine (keeps_symbolType? h symbol).bind fun known => ?_
  cases value with
  | some value =>
      have hvalue : Allows F N value := hvalue value rfl
      cases known with
      | some symbolType => exact (keeps_storeTyped h symbolType hvalue).bind fun _ => keeps_pure _
      | none => exact (keeps_storeFirst h name symbol hvalue).bind fun _ => keeps_pure _
  | none =>
      cases known with
      | some symbolType => exact keeps_pure none
      | none => exact keeps_refuse h rfl

theorem keeps_expr? {value : Option Expr} (hvalue : ∀ written ∈ value, Allows F N written) :
    Keeps I F (expr? value) := by
  cases value with
  | some value => exact (keeps_expr h (hvalue value rfl)).bind fun _ => keeps_pure _
  | none => exact keeps_pure none

theorem keeps_exprs {values : List Expr} (hvalues : ∀ value ∈ values, Allows F N value) :
    Keeps I F (exprs values) := by
  induction values with
  | nil => exact keeps_pure []
  | cons first rest ih =>
      obtain ⟨hfirst, hrest⟩ := List.forall_mem_cons.mp hvalues
      exact (keeps_expr h hfirst).bind fun _ => (ih hrest).bind fun _ => keeps_pure _

theorem keeps_convertAll (target : TypeId) {values : List Expr}
    (hvalues : ∀ value ∈ values, Allows F N value) : Keeps I F (convertAll target values) := by
  induction values with
  | nil => exact keeps_pure []
  | cons first rest ih =>
      obtain ⟨hfirst, hrest⟩ := List.forall_mem_cons.mp hvalues
      exact (keeps_convert h hfirst target).bind fun _ => (ih hrest).bind fun _ => keeps_pure _

theorem keeps_joinBound (current bound : TypeId) : Keeps I F (joinBound current bound) := by
  refine (keeps_common h current bound).bind fun promotion => ?_
  cases promotion with
  | resolved type => exact keeps_pure type
  | stillFlexible =>
      refine (keeps_isFlexible h current).bind fun currentFlexible => ?_
      refine (keeps_isFlexible h bound).bind fun boundFlexible => ?_
      split
      · exact keeps_pure current
      · exact keeps_internDefaultInt h
  | incompatible => exact keeps_mismatch h current bound

theorem keeps_joinBounds (current : Option TypeId) (bounds : List Expr) :
    Keeps I F (joinBounds current bounds) := by
  induction bounds generalizing current with
  | nil => exact keeps_pure current
  | cons bound rest ih =>
      refine (keeps_typeOf h bound).bind fun boundType => ?_
      refine (keeps_refuseStruct h boundType).bind fun _ => ?_
      cases current with
      | some type => exact (keeps_joinBound h type boundType).bind fun joined => ih (some joined)
      | none => exact ih (some boundType)

theorem keeps_loopType (name : String) (bounds : List Expr) :
    Keeps I F (loopType name bounds) := by
  have hdefault : Keeps I F (note (.defaultedLoop name) >>= fun _ =>
      intern Universe.internDefaultInt) :=
    (keeps_note h _).bind fun _ => keeps_internDefaultInt h
  refine (keeps_joinBounds h none bounds).bind fun joined => ?_
  cases joined with
  | none => exact hdefault
  | some type =>
      refine (keeps_typeAt h type).bind fun ty => ?_
      cases ty with
      | flexible => exact hdefault
      | bool => exact hdefault
      | int width => exact keeps_pure type
      | struct struct => exact keeps_pure type

theorem keeps_loopBounds (name : String) (symbol : SymbolId) {bounds : List Expr}
    (hbounds : ∀ bound ∈ bounds, Allows F N bound) : Keeps I F (loopBounds name symbol bounds) := by
  refine (keeps_exprs h hbounds).bind_yields (yields_exprs bounds) fun checked hchecked => ?_
  refine (keeps_loopType h name checked).bind fun type => ?_
  refine (keeps_setSymbolType h symbol type).bind fun done => ?_
  split
  · exact keeps_convertAll h type (forall_allows_of_map_erase_eq hbounds hchecked)
  · exact keeps_refuse h rfl

theorem keeps_condition {value : Expr} (hvalue : Allows F N value) :
    Keeps I F (condition value) := by
  refine (keeps_expr h hvalue).bind_yields (keepsErased_expr value) fun checked hchecked => ?_
  exact (keeps_internBool h).bind fun boolean =>
    keeps_convert h (hvalue.of_erase_eq hchecked) boolean

theorem keeps_printed {value : Expr} (hvalue : Allows F N value) : Keeps I F (printed value) := by
  refine (keeps_expr h hvalue).bind_yields (keepsErased_expr value) fun checked hchecked => ?_
  have hallowed := hvalue.of_erase_eq hchecked
  refine (keeps_typeOf h checked).bind fun type => (keeps_typeAt h type).bind fun ty => ?_
  cases ty with
  | flexible => exact keeps_defaultInt h hallowed
  | bool => exact keeps_defaultInt h hallowed
  | int width => exact keeps_materialize h checked
  | struct struct => exact keeps_expectedInt h type

theorem keeps_evaluated {value : Expr} (hvalue : Allows F N value) :
    Keeps I F (evaluated value) := by
  refine (keeps_expr h hvalue).bind_yields (keepsErased_expr value) fun checked hchecked => ?_
  refine (keeps_typeOf h checked).bind fun type => (keeps_isFlexible h type).bind fun flexible => ?_
  split
  · exact keeps_defaultInt h (hvalue.of_erase_eq hchecked)
  · exact keeps_pure checked

end Steps

mutual

theorem keeps_stmt_of_widths (h : Invariant I F N W) : (st : Stmt) →
    (∀ value ∈ st.roots, Allows F N value) → (∀ width, .int width ∈ st.ascriptions → W width) →
    Keeps I F (stmt st)
  | .bind form name written value symbol, hroots, hwidths => by
      have hvalue : ∀ found ∈ value, Allows F N found := by simpa [Stmt.roots] using hroots
      have hwritten : ∀ width, written = some (.int width) → W width :=
        fun width heq => hwidths width (Option.mem_toList.mpr heq)
      rw [stmt]
      refine (keeps_orRefuse h rfl symbol).bind fun symbol => ?_
      refine (keeps_expr? h hvalue).bind_yields (yields_expr? value) fun checked hchecked => ?_
      refine (keeps_declareType h name symbol hwritten).bind fun _ => ?_
      refine (keeps_store h name symbol fun found hfound => ?_).bind fun _ => keeps_pure _
      rw [Option.mem_def.mp hfound] at hchecked
      obtain ⟨source, hsource, herase⟩ := Option.map_eq_some_iff.mp hchecked.symm
      exact (hvalue source hsource).of_erase_eq herase.symm
  | .print value, hroots, _ => by
      rw [stmt]
      exact (keeps_printed h (hroots value List.mem_cons_self)).bind fun _ => keeps_pure _
  | .evaluate value, hroots, _ => by
      rw [stmt]
      exact (keeps_evaluated h (hroots value List.mem_cons_self)).bind fun _ => keeps_pure _
  | .branch test yes none, hroots, hwidths => by
      obtain ⟨htest, hyes⟩ := List.forall_mem_cons.mp hroots
      rw [stmt]
      refine (keeps_condition h htest).bind fun _ => ?_
      exact (keeps_stmts_of_widths h yes hyes hwidths).bind fun _ => keeps_pure _
  | .branch test yes (some no), hroots, hwidths => by
      obtain ⟨htest, hbodies⟩ := List.forall_mem_cons.mp hroots
      obtain ⟨hyes, hno⟩ := List.forall_mem_append.mp hbodies
      rw [stmt]
      refine (keeps_condition h htest).bind fun _ => ?_
      refine (keeps_stmts_of_widths h yes hyes fun width hmem => ?_).bind fun _ => ?_
      · exact hwidths width (List.mem_append_left _ hmem)
      refine (keeps_stmts_of_widths h no hno fun width hmem => ?_).bind fun _ => keeps_pure _
      exact hwidths width (List.mem_append_right _ hmem)
  | .whileLoop test body, hroots, hwidths => by
      obtain ⟨htest, hbody⟩ := List.forall_mem_cons.mp hroots
      rw [stmt]
      refine (keeps_condition h htest).bind fun _ => ?_
      exact (keeps_stmts_of_widths h body hbody hwidths).bind fun _ => keeps_pure _
  | .forLoop name symbol bounds body, hroots, hwidths => by
      obtain ⟨hbounds, hbody⟩ := List.forall_mem_append.mp hroots
      rw [stmt]
      refine (keeps_orRefuse h rfl symbol).bind fun symbol => ?_
      refine (keeps_loopBounds h name symbol hbounds).bind fun _ => ?_
      exact (keeps_stmts_of_widths h body hbody hwidths).bind fun _ => keeps_pure _
  | .block body, hroots, hwidths => by
      rw [stmt]
      exact (keeps_stmts_of_widths h body hroots hwidths).bind fun _ => keeps_pure _

theorem keeps_stmts_of_widths (h : Invariant I F N W) : (body : List Stmt) →
    (∀ value ∈ Stmt.bodyRoots body, Allows F N value) →
    (∀ width, .int width ∈ Stmt.bodyAscriptions body → W width) → Keeps I F (stmts body)
  | [], _, _ => by
      rw [stmts]
      exact keeps_pure []
  | first :: rest, hroots, hwidths => by
      obtain ⟨hfirst, hrest⟩ := List.forall_mem_append.mp hroots
      rw [stmts]
      refine (keeps_stmt_of_widths h first hfirst fun width hmem => ?_).bind fun _ => ?_
      · exact hwidths width (List.mem_append_left _ hmem)
      refine (keeps_stmts_of_widths h rest hrest fun width hmem => ?_).bind fun _ => keeps_pure _
      exact hwidths width (List.mem_append_right _ hmem)

end

/-- Where widths do not matter, any may be written. -/
theorem keeps_stmt (h : Invariant I F N) (st : Stmt)
    (hroots : ∀ value ∈ st.roots, Allows F N value) : Keeps I F (stmt st) :=
  keeps_stmt_of_widths h st hroots fun _ _ => trivial

theorem keeps_stmts (h : Invariant I F N) (body : List Stmt)
    (hroots : ∀ value ∈ Stmt.bodyRoots body, Allows F N value) : Keeps I F (stmts body) :=
  keeps_stmts_of_widths h body hroots fun _ _ => trivial

end Check

end FlexWidth
