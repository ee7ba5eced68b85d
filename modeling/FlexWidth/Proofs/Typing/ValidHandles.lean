import FlexWidth.Proofs.Structural.Refinement
import FlexWidth.Proofs.Typing.Keeps
import FlexWidth.Proofs.Typing.Literals
import FlexWidth.Proofs.Typing.Reachable
import Mathlib

/-!
# Valid handles

A program may hold conversions and loads before it is checked, and then not every state of its
check is sound: a struct can have a flexible field.  But as long as no expression comes with a
type of its own, every handle that is met denotes a type, and the names of every struct are
lawful.  Such a state is *tidy*.

That steps succeed in tidy states has been shown already: the structural check agrees with the
check, and `Agrees.upholds` takes from it that all handles stay valid.  Here this is carried
from a statement to its calls (`Opens.tidy`), from a call to the calls it makes (`Calls.tidy`),
and so along every run (`Reached.tidy`).
-/

namespace FlexWidth

/-! ## Tidy states -/

/-- The names of every struct are lawful. -/
def Universe.LawfulNames (types : Universe) : Prop :=
  ∀ {id : TypeId} {struct : StructTy}, types.get? id = some (.struct struct) → struct.Lawful

/-- Every handle is valid, and the names of every struct are lawful. -/
structure Checking.Tidy (s : Checking) : Prop where
  spelled : ∃ table, s.Spelled table
  lawful : s.types.LawfulNames

theorem Checking.Tidy.interned {s : Checking} (h : s.Tidy) : s.types.Interned := by
  obtain ⟨table, hs⟩ := h.spelled
  exact hs.interned

/-- The handle denotes a type. -/
abbrev Universe.Valid (types : Universe) (id : TypeId) : Prop := ∃ shape, types.Denotes id shape

/-- The slot is empty, or its handle denotes a type. -/
abbrev Universe.ValidSlot (types : Universe) (type : Option TypeId) : Prop :=
  ∃ shape, Option.Rel types.Denotes type shape

/-- All handles in the expression denote types. -/
abbrev Expr.ValidIn (types : Universe) (value : Expr) : Prop :=
  ∃ value', value.SpelledIn types value'

section Grow

variable {types later : Universe} {id : TypeId} {value : Expr}

theorem Universe.Valid.grow (h : types.Valid id) (hgrows : types.Grows later) : later.Valid id := by
  obtain ⟨shape, hid⟩ := h
  exact ⟨shape, hid.grow hgrows⟩

theorem Universe.ValidSlot.valid (h : types.ValidSlot (some id)) : types.Valid id := by
  obtain ⟨_, hslot⟩ := h
  cases hslot with
  | some hid => exact ⟨_, hid⟩

theorem Universe.ValidSlot.grow {type : Option TypeId} (h : types.ValidSlot type)
    (hgrows : types.Grows later) : later.ValidSlot type := by
  obtain ⟨shape, hslot⟩ := h
  exact ⟨shape, Universe.rel_grow hslot hgrows⟩

theorem Expr.ValidIn.grow (h : value.ValidIn types) (hgrows : types.Grows later) :
    value.ValidIn later := by
  obtain ⟨value', hvalue⟩ := h
  exact ⟨value', hvalue.grow hgrows⟩

theorem Expr.ValidIn.withType (h : value.ValidIn types) (hid : types.Valid id) :
    (value.withType id).ValidIn types := by
  obtain ⟨value', hvalue⟩ := h
  obtain ⟨shape, hid⟩ := hid
  exact ⟨_, hvalue.withType hid⟩

end Grow

/-- Every handle in the expression is in the universe. -/
def Expr.HandlesIn (value : Expr) (types : Universe) : Prop :=
  ∀ node ∈ value.nodes, ∀ id ∈ node.type?, types.Holds id

theorem Universe.Interned.validIn_iff {types : Universe} (h : types.Interned) {value : Expr} :
    value.ValidIn types ↔ value.HandlesIn types := by
  constructor
  · rintro ⟨value', hvalue⟩ node hnode id hid
    obtain ⟨shape, hslot⟩ := hvalue.forall_nodes node hnode
    rw [Option.mem_def.mp hid] at hslot
    cases hslot with
    | some hid => exact hid.holds
  · intro hhandles
    refine ⟨_, Expr.spelled_spell _ types.shape? value fun node hnode => ?_⟩
    have hnode := hhandles node hnode
    cases htype : node.type? with
    | none => exact .none
    | some id =>
        obtain ⟨shape, hid⟩ := h.exists_denotes (hnode id htype)
        rw [Option.bind_some, show types.shape? id = some shape from hid]
        exact .some hid

namespace Check

/-! ## Names -/

/-- The failures that are left if every name stands for a field. -/
abbrev FindsFields (failure : Failure) : Prop := failure ≠ .broken .unknownPosition

theorem findsFields_refused (diagnostic : Diagnostic) : FindsFields (.refused diagnostic) :=
  fun heq => by cases heq

theorem allows_findsFields (value : Expr) : Allows FindsFields (fun _ => True) value :=
  ⟨fun _ _ => findsFields_refused _, fun _ _ => trivial⟩

/-- The names of all structs stay lawful, and so no field is ever missing. -/
theorem invariant_lawfulNames :
    Invariant (fun s => s.types.LawfulNames) FindsFields fun _ => True where
  intern := by
    intro s ty hs hty _ id struct hid
    unfold Universe.intern at hid
    split at hid
    · exact hs hid
    · rw [Universe.get?_add] at hid
      split at hid
      · exact (hty struct (Option.some.inj hid)).1
      · exact hs hid
  setType hs _ := hs
  note _ hs := hs
  refused _ := findsFields_refused _
  broken hother heq := by
    cases heq
    exact hother.1 rfl
  position := by
    intro s id struct name position hs hget hposition hfield
    have hlt := (hs hget).lt_length hposition
    rw [List.getElem?_eq_getElem hlt] at hfield
    cases hfield

/-- Checking again keeps an invariant also where levels may run out, if it may fail so. -/
theorem rechecks_recheckAt {I : Checking → Prop} {F : Failure → Prop} {N : String → Prop}
    (h : Invariant I F N) (hlevels : F (.broken .recursionDepth)) (depth : Nat) :
    Rechecks I F N (recheckAt depth) := by
  induction depth with
  | zero =>
      refine ⟨fun _ s hs => ?_, fun _ => yields_fault _⟩
      exact .of_error (run_fault _ s) ⟨hs, hlevels⟩
  | succ depth ih =>
      refine ⟨fun {value} hvalue => ?_, keepsErased_within depth⟩
      rw [recheckAt, within_eq_tree]
      exact keeps_tree h ih value hvalue

theorem rechecks_lawfulNames (depth : Nat) :
    Rechecks (fun s => s.types.LawfulNames) FindsFields (fun _ => True) (recheckAt depth) :=
  rechecks_recheckAt invariant_lawfulNames (by decide) depth

/-! ## Promises -/

/-- If the stage succeeds, it leads to a later state that is tidy. -/
def Upholds {α : Type} (stage : CheckM α) (s : Checking) (post : α → Universe → Prop) : Prop :=
  Ends stage s
    (fun value final => s.types.Grows final.types ∧ final.Tidy ∧ post value final.types)
    fun _ _ => True

section Rules

variable {α β : Type} {stage : CheckM α} {s : Checking} {post : α → Universe → Prop}

theorem upholds_pure {value : α} (hs : s.Tidy) (h : post value s.types) :
    Upholds (pure value) s post :=
  ends_pure ⟨.refl _, hs, h⟩

theorem Upholds.bind {next : α → CheckM β} {post' : β → Universe → Prop}
    (h : Upholds stage s post)
    (hnext : ∀ value middle, s.types.Grows middle.types → middle.Tidy → post value middle.types →
      Upholds (next value) middle post') : Upholds (stage >>= next) s post' := by
  refine Ends.bind h ?_
  rintro value middle ⟨hgrows, hs, hpost⟩
  refine (hnext value middle hgrows hs hpost).weaken ?_ fun _ _ h => h
  rintro result final ⟨hgrows', hs', hpost'⟩
  exact ⟨hgrows.trans hgrows', hs', hpost'⟩

theorem Upholds.weaken {post' : α → Universe → Prop} (h : Upholds stage s post)
    (hpost : ∀ value types, post value types → post' value types) : Upholds stage s post' :=
  Ends.weaken h (fun value final h => ⟨h.1, h.2.1, hpost value final.types h.2.2⟩) fun _ _ h => h

end Rules

end Check

/-- What agrees with a structural check has valid handles in its results. -/
theorem Agrees.upholds {α β : Type} {stage : CheckM α} {reference : Structural.CheckM β}
    {s : Checking} {table : Structural.SymbolTable} {rel : Universe → α → β → Prop}
    (h : Agrees stage reference s table rel)
    (hkeeps : Check.Keeps (fun s => s.types.LawfulNames) Check.FindsFields stage)
    (hs : s.Tidy) : Check.Upholds stage s fun value types => ∃ result, rel types value result := by
  have hnames := hkeeps s hs.lawful
  unfold Agrees at h
  generalize reference table = run' at h
  cases hrun : stage s with
  | error failure final => exact Ends.of_error hrun trivial
  | ok value final =>
      rw [hrun] at h
      cases h with
      | ok hgrows hspelled hrel =>
          exact Ends.of_ok hrun ⟨hgrows, ⟨⟨_, hspelled⟩, hnames.post_of_ok hrun⟩, _, hrel⟩

namespace Check

/-! ## Steps -/

section Steps

variable {s : Checking} {value : Expr} {id target left right : TypeId} {type demand : Option TypeId}

/-- A step that only adds a type. -/
theorem upholds_intern (hs : s.Tidy) {interning : Universe → TypeId × Universe} {ty : Ty}
    {shape : Shape} (heq : ∀ types, interning types = Universe.intern ty types)
    (hspells : ty.Spells s.types.Denotes shape) (hty : ty.struct? = none) :
    Upholds (intern interning) s fun id types => types.Valid id := by
  obtain rfl : interning = Universe.intern ty := funext heq
  obtain ⟨table, htable⟩ := hs.spelled
  refine ((agrees_intern htable hspells).upholds
    (keeps_intern invariant_lawfulNames heq ?_ fun _ _ => Or.inl trivial) hs).weaken
      fun id types h => ⟨_, h.choose_spec⟩
  rintro struct rfl
  cases hty

theorem upholds_internDefaultInt (hs : s.Tidy) :
    Upholds (intern Universe.internDefaultInt) s fun id types => types.Valid id :=
  upholds_intern hs (Universe.internInt_eq_intern _) (.int Ascription.defaultWidth) rfl

theorem upholds_internBool (hs : s.Tidy) :
    Upholds (intern Universe.internBool) s fun id types => types.Valid id :=
  upholds_intern hs Universe.internBool_eq_intern .bool rfl

theorem upholds_typeOf (hs : s.Tidy) (hvalue : value.ValidIn s.types) :
    Upholds (typeOf value) s fun id types => types.Valid id := by
  obtain ⟨table, htable⟩ := hs.spelled
  obtain ⟨value', hvalue⟩ := hvalue
  exact (agrees_typeOf htable hvalue).upholds (keeps_typeOf invariant_lawfulNames value) hs

theorem upholds_refuseStruct (hs : s.Tidy) (hid : s.types.Valid id) :
    Upholds (refuseStruct id) s fun _ _ => True := by
  obtain ⟨table, htable⟩ := hs.spelled
  obtain ⟨shape, hid⟩ := hid
  exact ((agrees_refuseStruct htable hid).upholds (keeps_refuseStruct invariant_lawfulNames id)
    hs).weaken fun _ _ _ => trivial

theorem upholds_typeAt (hs : s.Tidy) (id : TypeId) :
    Upholds (typeAt id) s fun _ _ => True := by
  cases hrun : typeAt id s with
  | error failure final => exact Ends.of_error hrun trivial
  | ok ty final =>
      obtain ⟨rfl, -⟩ := get?_of_run_typeAt hrun
      exact Ends.of_ok hrun ⟨.refl _, hs, trivial⟩

theorem upholds_isFlexible (hs : s.Tidy) (id : TypeId) :
    Upholds (isFlexible id) s fun _ _ => True :=
  (upholds_typeAt hs id).bind fun _ _ _ hs _ => upholds_pure hs trivial

theorem upholds_demandOf (hs : s.Tidy) (htype : s.types.ValidSlot type) :
    Upholds (demandOf type) s fun demand types => types.ValidSlot demand := by
  obtain ⟨table, htable⟩ := hs.spelled
  obtain ⟨shape, htype⟩ := htype
  obtain ⟨demand, hrun, hdemand⟩ := exists_run_demandOf htable htype
  exact Ends.of_ok hrun ⟨.refl _, hs, _, hdemand⟩

theorem upholds_materialize (hs : s.Tidy) (hvalue : value.ValidIn s.types) :
    Upholds (materialize value) s fun result types => result.ValidIn types := by
  obtain ⟨table, htable⟩ := hs.spelled
  obtain ⟨value', hvalue⟩ := hvalue
  exact (agrees_materialize htable hvalue).upholds
    (keeps_materialize invariant_lawfulNames value) hs

theorem upholds_operandType (hs : s.Tidy) (operatorClass : OperatorClass)
    (hleft : s.types.Valid left) (hright : s.types.Valid right) :
    Upholds (operandType operatorClass left right) s fun found types =>
      types.ValidSlot found := by
  obtain ⟨table, htable⟩ := hs.spelled
  obtain ⟨l, hleft⟩ := hleft
  obtain ⟨r, hright⟩ := hright
  exact (agrees_operandType htable hleft hright operatorClass).upholds
    (keeps_operandType invariant_lawfulNames operatorClass left right) hs

theorem upholds_addName (hs : s.Tidy) (names : FieldNames) (position : Nat)
    (name : Option String) : Upholds (addName names position name) s fun _ _ => True := by
  obtain ⟨table, htable⟩ := hs.spelled
  refine ((agrees_addName htable names position name).upholds (keeps_addName ?_ position)
    hs).weaken fun _ _ _ => trivial
  exact fun _ _ _ => findsFields_refused _

end Steps

/-! ## Expressions -/

section Exprs

variable {s : Checking} {value left right : Expr} {target : TypeId} {type demand : Option TypeId}
  {depth : Nat}

theorem exists_agreesOnExprs_recheckAt (depth : Nat) :
    ∃ recheck', AgreesOnExprs (recheckAt depth) recheck' := by
  cases depth with
  | zero => exact ⟨fun _ => fault .recursionDepth, fun _ _ => .error⟩
  | succ depth => exact ⟨_, agreesOnExprs_within depth⟩

theorem upholds_tree (hs : s.Tidy) (hvalue : value.ValidIn s.types) (depth : Nat) :
    Upholds (tree (recheckAt depth) value) s fun result types => result.ValidIn types := by
  obtain ⟨table, htable⟩ := hs.spelled
  obtain ⟨value', hvalue⟩ := hvalue
  obtain ⟨recheck', hrecheck⟩ := exists_agreesOnExprs_recheckAt depth
  exact (agrees_tree hrecheck htable value hvalue).upholds (keeps_tree invariant_lawfulNames
    (rechecks_lawfulNames depth) value (allows_findsFields value)) hs

theorem upholds_expr (hs : s.Tidy) (hvalue : value.ValidIn s.types) :
    Upholds (expr value) s fun result types => result.ValidIn types := by
  rw [expr, within_eq_tree]
  exact upholds_tree hs hvalue value.nesting

theorem upholds_convertWith (hs : s.Tidy) (hvalue : value.ValidIn s.types)
    (htarget : s.types.Valid target) (depth : Nat) :
    Upholds (convertWith (recheckAt depth) value target) s fun result types =>
      result.ValidIn types := by
  obtain ⟨table, htable⟩ := hs.spelled
  obtain ⟨value', hvalue⟩ := hvalue
  obtain ⟨shape, htarget⟩ := htarget
  obtain ⟨recheck', hrecheck⟩ := exists_agreesOnExprs_recheckAt depth
  exact (agrees_convertWith hrecheck htable hvalue htarget).upholds
    (keeps_convertWith invariant_lawfulNames (rechecks_lawfulNames depth)
      (allows_findsFields value) target) hs

theorem upholds_glueFields (hs : s.Tidy) {fields : GlueFields} {fields' : Structural.GlueFields}
    (hfields : Expr.SpelledFields s.types.Denotes fields fields') (depth position : Nat)
    (names : FieldNames) :
    Upholds (glueFields (recheckAt depth) position names fields) s fun _ _ => True := by
  obtain ⟨table, htable⟩ := hs.spelled
  obtain ⟨recheck', hrecheck⟩ := exists_agreesOnExprs_recheckAt depth
  have hallows : AllowsFields FindsFields (fun _ => True) names fields :=
    ⟨fun field _ => allows_findsFields field.2, fun _ _ => trivial,
      fun _ _ _ => findsFields_refused _, fun _ _ => findsFields_refused _⟩
  exact ((agrees_glueFields hrecheck htable position names fields hfields).upholds
    (keeps_glueFields invariant_lawfulNames (rechecks_lawfulNames depth)
      position names fields hallows) hs).weaken fun _ _ _ => trivial

theorem upholds_fieldValue (hs : s.Tidy) (hvalue : value.ValidIn s.types) (depth : Nat) :
    Upholds (fieldValue (convertWith (recheckAt depth)) value) s fun result types =>
      result.ValidIn types := by
  obtain ⟨table, htable⟩ := hs.spelled
  obtain ⟨value', hvalue⟩ := hvalue
  obtain ⟨recheck', hrecheck⟩ := exists_agreesOnExprs_recheckAt depth
  exact (agrees_fieldValue hrecheck htable hvalue).upholds
    (keeps_fieldValue invariant_lawfulNames (rechecks_lawfulNames depth)
      (allows_findsFields value)) hs

/-! ## Parts of expressions -/

theorem upholds_signed (hs : s.Tidy) (hvalue : value.ValidIn s.types)
    (hdemand : s.types.ValidSlot demand) (depth : Nat) :
    Upholds (signed (recheckAt depth) value demand) s fun result types =>
      result.ValidIn types := by
  cases value with
  | literal number own =>
      obtain ⟨table, htable⟩ := hs.spelled
      obtain ⟨_, hvalue⟩ := hvalue
      obtain ⟨shape, hdemand⟩ := hdemand
      cases hvalue with
      | literal hown =>
          exact (agrees_negatedLiteral htable hown hdemand number).upholds
            (keeps_negatedLiteral invariant_lawfulNames number own demand) hs
  | _ => exact upholds_tree hs hvalue depth

/-- The operand of a sign and what is demanded of it. -/
theorem upholds_signedOperand (hs : s.Tidy) (hvalue : value.ValidIn s.types)
    (htype : s.types.ValidSlot type) (depth : Nat) :
    Upholds (do
      let demand ← demandOf type
      let operand ← signed (recheckAt depth) value demand
      let operandType ← typeOf operand
      refuseStruct operandType
      return (operand, demand, ← isFlexible operandType)) s fun found types =>
        found.1.ValidIn types ∧ types.ValidSlot found.2.1 := by
  refine (upholds_demandOf hs htype).bind fun demand s₁ hgrows₁ hs hdemand => ?_
  refine (upholds_signed hs (hvalue.grow hgrows₁) hdemand depth).bind ?_
  intro operand s₂ hgrows₂ hs hoperand
  refine (upholds_typeOf hs hoperand).bind fun id s₃ hgrows₃ hs hid => ?_
  refine (upholds_refuseStruct hs hid).bind fun _ s₄ hgrows₄ hs _ => ?_
  refine (upholds_isFlexible hs id).bind fun flexible s₅ hgrows₅ hs _ => ?_
  have hgrows := (hgrows₃.trans hgrows₄).trans hgrows₅
  exact upholds_pure hs ⟨hoperand.grow hgrows, hdemand.grow (hgrows₂.trans hgrows)⟩

theorem upholds_operandTarget (hs : s.Tidy) (operatorClass : OperatorClass)
    (hleft : left.ValidIn s.types) (hright : right.ValidIn s.types)
    (hdemand : s.types.ValidSlot demand) :
    Upholds (operandTarget operatorClass left right demand) s fun found types =>
      types.ValidSlot found := by
  refine (upholds_typeOf hs hleft).bind fun leftType s₁ hgrows₁ hs hl => ?_
  refine (upholds_typeOf hs (hright.grow hgrows₁)).bind fun rightType s₂ hgrows₂ hs hr => ?_
  refine (upholds_refuseStruct hs (hl.grow hgrows₂)).bind fun _ s₃ hgrows₃ hs _ => ?_
  refine (upholds_refuseStruct hs (hr.grow hgrows₃)).bind fun _ s₄ hgrows₄ hs _ => ?_
  have hgrows := ((hgrows₁.trans hgrows₂).trans hgrows₃).trans hgrows₄
  split
  · exact upholds_pure hs (hdemand.grow hgrows)
  · exact upholds_operandType hs operatorClass
      (hl.grow ((hgrows₂.trans hgrows₃).trans hgrows₄)) (hr.grow (hgrows₃.trans hgrows₄))

theorem upholds_meeting (hs : s.Tidy) (operatorClass : OperatorClass)
    (hleft : left.ValidIn s.types) (hright : right.ValidIn s.types)
    (htype : s.types.ValidSlot type) (depth : Nat) :
    Upholds (meeting (recheckAt depth) operatorClass left right type) s fun found types =>
      found.1.ValidIn types ∧ found.2.1.ValidIn types ∧ types.ValidSlot found.2.2 := by
  refine (upholds_demandOf hs htype).bind fun demand s₁ hgrows₁ hs hdemand => ?_
  refine (upholds_tree hs (hleft.grow hgrows₁) depth).bind fun l s₂ hgrows₂ hs hl => ?_
  refine (upholds_tree hs (hright.grow (hgrows₁.trans hgrows₂)) depth).bind ?_
  intro r s₃ hgrows₃ hs hr
  have hl := hl.grow hgrows₃
  have hdemand := hdemand.grow (hgrows₂.trans hgrows₃)
  refine (upholds_operandTarget hs operatorClass hl hr hdemand).bind ?_
  intro target s₄ hgrows₄ hs htarget
  exact upholds_pure hs ⟨hl.grow hgrows₄, hr.grow hgrows₄, htarget⟩

/-- A field of a struct literal, and the names up to it. -/
theorem upholds_namedValue (hs : s.Tidy) (hvalue : value.ValidIn s.types) (depth position : Nat)
    (names : FieldNames) (name : Option String) :
    Upholds (do
      let names ← addName names position name
      let value ← tree (recheckAt depth) value
      let value ← fieldValue (convertWith (recheckAt depth)) value
      let _ ← typeOf value
      return names) s fun _ _ => True := by
  refine (upholds_addName hs names position name).bind fun names' _ hgrows hs _ => ?_
  refine (upholds_tree hs (hvalue.grow hgrows) depth).bind fun checked _ _ hs hchecked => ?_
  refine (upholds_fieldValue hs hchecked depth).bind fun final _ _ hs hfinal => ?_
  exact (upholds_typeOf hs hfinal).bind fun _ _ _ hs _ => upholds_pure hs trivial

/-- A value that is converted, with its type and the one that is wanted. -/
theorem upholds_loadedValue (hs : s.Tidy) (hvalue : value.ValidIn s.types) (target : TypeId) :
    Upholds (do
      let value ← materialize value
      let currentTy ← typeAt (← typeOf value)
      let targetTy ← typeAt target
      return (value, currentTy, targetTy)) s fun found types => found.1.ValidIn types := by
  refine (upholds_materialize hs hvalue).bind fun loaded s₁ _ hs hloaded => ?_
  refine (upholds_typeOf hs hloaded).bind fun id s₂ hgrows₂ hs _ => ?_
  refine (upholds_typeAt hs id).bind fun _ s₃ hgrows₃ hs _ => ?_
  refine (upholds_typeAt hs target).bind fun _ s₄ hgrows₄ hs _ => ?_
  exact upholds_pure hs (hloaded.grow ((hgrows₂.trans hgrows₃).trans hgrows₄))

/-- A checked expression stays valid while the default integer is looked up. -/
theorem upholds_withDefault {stage : CheckM Expr}
    (h : Upholds stage s fun result types => result.ValidIn types) :
    Upholds (withDefault stage) s fun found types =>
      found.1.ValidIn types ∧ types.Valid found.2.2 := by
  refine h.bind fun result s₁ _ hs hresult => ?_
  refine (upholds_typeOf hs hresult).bind fun id s₂ hgrows₂ hs hid => ?_
  refine (upholds_typeAt hs id).bind fun ty s₃ hgrows₃ hs _ => ?_
  refine (upholds_internDefaultInt hs).bind fun default s₄ hgrows₄ hs hdefault => ?_
  exact upholds_pure hs ⟨hresult.grow ((hgrows₂.trans hgrows₃).trans hgrows₄), hdefault⟩

end Exprs

/-! ## Calls -/

/-- What a call is made with, and the state in which it is made. -/
def ExprCall.Tidy (s : Checking) : ExprCall → Prop
  | tree _ value => s.Tidy ∧ value.ValidIn s.types
  | fields _ _ _ rest => s.Tidy ∧ ∃ rest', Expr.SpelledFields s.types.Denotes rest rest'
  | convert _ _ value target => s.Tidy ∧ value.ValidIn s.types ∧ s.types.Valid target

/-- **A tidy call makes tidy calls.** -/
theorem Calls.tidy {outer inner : ExprCall} {s t : Checking} (h : Calls outer s inner t)
    (htidy : outer.Tidy s) : inner.Tidy t := by
  cases h with
  | sign _ hrun =>
      obtain ⟨hs, _, hvalue⟩ := htidy
      cases hvalue with
      | unary hoperand htype =>
          obtain ⟨hgrows, ht, -⟩ := (upholds_demandOf hs ⟨_, htype⟩).post_of_ok hrun
          exact ⟨ht, _, hoperand.grow hgrows⟩
  | signConversion hrun =>
      obtain ⟨hs, _, hvalue⟩ := htidy
      cases hvalue with
      | unary hoperand htype =>
          obtain ⟨-, ht, hchecked, htarget⟩ :=
            (upholds_signedOperand hs ⟨_, hoperand⟩ ⟨_, htype⟩ _).post_of_ok hrun
          exact ⟨ht, hchecked, htarget.valid⟩
  | left _ hrun =>
      obtain ⟨hs, _, hvalue⟩ := htidy
      cases hvalue with
      | binary hleft hright htype =>
          obtain ⟨hgrows, ht, -⟩ := (upholds_demandOf hs ⟨_, htype⟩).post_of_ok hrun
          exact ⟨ht, _, hleft.grow hgrows⟩
  | right _ hrun =>
      obtain ⟨hs, _, hvalue⟩ := htidy
      cases hvalue with
      | binary hleft hright htype =>
          obtain ⟨demand, middle, hdemand, hfirst⟩ := bind_eq_ok_iff.mp hrun
          obtain ⟨hgrows, hmiddle, -⟩ := (upholds_demandOf hs ⟨_, htype⟩).post_of_ok hdemand
          obtain ⟨hgrows', ht, -⟩ :=
            (upholds_tree hmiddle ⟨_, hleft.grow hgrows⟩ _).post_of_ok hfirst
          exact ⟨ht, _, hright.grow (hgrows.trans hgrows')⟩
  | leftConversion _ hrun =>
      obtain ⟨hs, _, hvalue⟩ := htidy
      cases hvalue with
      | binary hleft hright htype =>
          obtain ⟨-, ht, hl, -, htarget⟩ := (upholds_meeting hs _ ⟨_, hleft⟩ ⟨_, hright⟩ ⟨_, htype⟩
            _).post_of_ok hrun
          exact ⟨ht, hl, htarget.valid⟩
  | rightConversion _ hrun hconvert =>
      obtain ⟨hs, _, hvalue⟩ := htidy
      cases hvalue with
      | binary hleft hright htype =>
          obtain ⟨-, hmiddle, hl, hr, htarget⟩ := (upholds_meeting hs _ ⟨_, hleft⟩ ⟨_, hright⟩
            ⟨_, htype⟩ _).post_of_ok hrun
          obtain ⟨hgrows, ht, -⟩ :=
            (upholds_convertWith hmiddle hl htarget.valid _).post_of_ok hconvert
          exact ⟨ht, hr.grow hgrows, htarget.valid.grow hgrows⟩
  | conversion hdemand =>
      obtain ⟨hs, _, hvalue⟩ := htidy
      obtain ⟨rfl, -⟩ := holds_of_run_demandOf hdemand
      cases hvalue with
      | conversion hoperand _ => exact ⟨hs, _, hoperand⟩
  | load hdemand =>
      obtain ⟨hs, _, hvalue⟩ := htidy
      obtain ⟨rfl, -⟩ := holds_of_run_demandOf hdemand
      cases hvalue with
      | load hplace _ => exact ⟨hs, _, hplace⟩
  | dot hdemand =>
      obtain ⟨hs, _, hvalue⟩ := htidy
      obtain ⟨rfl, -⟩ := holds_of_run_demandOf hdemand
      cases hvalue with
      | dot hbase _ => exact ⟨hs, _, hbase⟩
  | index hdemand =>
      obtain ⟨hs, _, hvalue⟩ := htidy
      obtain ⟨rfl, -⟩ := holds_of_run_demandOf hdemand
      cases hvalue with
      | index hbase _ => exact ⟨hs, _, hbase⟩
  | glue hdemand =>
      obtain ⟨hs, _, hvalue⟩ := htidy
      obtain ⟨rfl, -⟩ := holds_of_run_demandOf hdemand
      cases hvalue with
      | glue hfields _ => exact ⟨hs, _, hfields⟩
  | field hrun =>
      obtain ⟨hs, _, hfields⟩ := htidy
      cases hfields with
      | cons hfirst hrest =>
          obtain ⟨hgrows, ht, -⟩ := (upholds_addName hs _ _ _).post_of_ok hrun
          exact ⟨ht, _, hfirst.grow hgrows⟩
  | @fieldConversion depth position names name _ _ _ _ _ _ hrun =>
      obtain ⟨hs, _, hfields⟩ := htidy
      cases hfields with
      | cons hfirst hrest =>
          have hchecked :=
            (upholds_addName hs names position name).bind fun _ _ hgrows hs _ =>
              upholds_tree hs ⟨_, hfirst.grow hgrows⟩ depth
          obtain ⟨-, ht, hvalue, htarget⟩ := (upholds_withDefault hchecked).post_of_ok hrun
          exact ⟨ht, hvalue, htarget⟩
  | otherFields hrun =>
      obtain ⟨hs, _, hfields⟩ := htidy
      cases hfields with
      | cons hfirst hrest =>
          obtain ⟨hgrows, ht, -⟩ :=
            (upholds_namedValue hs ⟨_, hfirst⟩ _ _ _ _).post_of_ok hrun
          exact ⟨ht, _, hrest.imp fun _ _ hid => hid.grow hgrows⟩
  | demand hrun =>
      obtain ⟨hs, hvalue, htarget⟩ := htidy
      obtain ⟨hgrows, ht, hloaded⟩ := (upholds_loadedValue hs hvalue _).post_of_ok hrun
      exact ⟨ht, hloaded.withType (htarget.grow hgrows)⟩
  | settle htype hrun =>
      obtain ⟨hs, hvalue, htarget⟩ := htidy
      obtain ⟨rfl, -⟩ := get?_of_run_typeAt htype
      obtain ⟨-, ht, hloaded, hdefault⟩ :=
        (upholds_withDefault (upholds_materialize hs hvalue)).post_of_ok hrun
      exact ⟨ht, hloaded.withType hdefault⟩

theorem ExprCall.Tidy.state {s : Checking} {call : ExprCall} (h : call.Tidy s) : s.Tidy := by
  cases call with
  | tree => exact h.1
  | fields => exact h.1
  | convert => exact h.1

/-- A tidy call leaves a tidy state. -/
theorem ExprCall.Tidy.of_returns {s t : Checking} {call : ExprCall} (h : call.Tidy s)
    (hreturns : call.Returns s t) : t.Tidy := by
  cases call with
  | tree depth value =>
      obtain ⟨hs, hvalue⟩ := h
      obtain ⟨result, hrun⟩ := hreturns
      exact ((upholds_tree hs hvalue depth).post_of_ok hrun).2.1
  | fields depth position names rest =>
      obtain ⟨hs, rest', hrest⟩ := h
      obtain ⟨result, hrun⟩ := hreturns
      exact ((upholds_glueFields hs hrest depth position names).post_of_ok hrun).2.1
  | convert purpose depth value target =>
      obtain ⟨hs, hvalue, htarget⟩ := h
      obtain ⟨result, hrun⟩ := hreturns
      exact ((upholds_convertWith hs hvalue htarget depth).post_of_ok hrun).2.1

/-! ## Parts of statements -/

theorem exists_forall₂_iff {α β : Type} {r : α → β → Prop} {values : List α} :
    (∃ values', List.Forall₂ r values values') ↔ ∀ value ∈ values, ∃ value', r value value' := by
  induction values with
  | nil => exact ⟨fun _ _ h => (by cases h), fun _ => ⟨[], .nil⟩⟩
  | cons first rest ih =>
      rw [List.forall_mem_cons, ← ih]
      constructor
      · rintro ⟨_, hvalues⟩
        cases hvalues with
        | cons hfirst hrest => exact ⟨⟨_, hfirst⟩, _, hrest⟩
      · rintro ⟨⟨first', hfirst⟩, rest', hrest⟩
        exact ⟨first' :: rest', .cons hfirst hrest⟩

section Statements

variable {s : Checking} {value : Expr} {values : List Expr} {id left right : TypeId}

theorem upholds_common (hs : s.Tidy) (hleft : s.types.Valid left) (hright : s.types.Valid right) :
    Upholds (common left right) s fun _ _ => True := by
  obtain ⟨table, htable⟩ := hs.spelled
  obtain ⟨l, hleft⟩ := hleft
  obtain ⟨r, hright⟩ := hright
  obtain ⟨promotion, hrun, -⟩ := htable.exists_run_common hleft hright
  exact Ends.of_ok hrun ⟨.refl _, hs, trivial⟩

theorem upholds_setSymbolType (hs : s.Tidy) (symbol : SymbolId) (hid : s.types.Valid id) :
    Upholds (setSymbolType symbol id) s fun _ _ => True := by
  obtain ⟨table, htable⟩ := hs.spelled
  obtain ⟨shape, hid⟩ := hid
  exact ((agrees_setSymbolType htable symbol hid).upholds
    (keeps_setSymbolType invariant_lawfulNames symbol id) hs).weaken fun _ _ _ => trivial

theorem upholds_exprs (hs : s.Tidy) (hvalues : ∀ value ∈ values, value.ValidIn s.types) :
    Upholds (exprs values) s fun results types => ∀ result ∈ results, result.ValidIn types := by
  obtain ⟨table, htable⟩ := hs.spelled
  obtain ⟨values', hvalues⟩ := exists_forall₂_iff.mpr hvalues
  exact ((agrees_exprs htable hvalues).upholds (keeps_exprs invariant_lawfulNames fun value _ =>
    allows_findsFields value) hs).weaken fun _ _ h => exists_forall₂_iff.mp h

theorem upholds_convertAll (hs : s.Tidy) (hid : s.types.Valid id)
    (hvalues : ∀ value ∈ values, value.ValidIn s.types) :
    Upholds (convertAll id values) s fun _ _ => True := by
  obtain ⟨table, htable⟩ := hs.spelled
  obtain ⟨shape, hid⟩ := hid
  obtain ⟨values', hvalues⟩ := exists_forall₂_iff.mpr hvalues
  exact ((agrees_convertAll htable hid hvalues).upholds (keeps_convertAll invariant_lawfulNames id
    fun value _ => allows_findsFields value) hs).weaken fun _ _ _ => trivial

/-- The value of a binding and the type of its variable. -/
theorem upholds_bindingValue (hs : s.Tidy) (hvalue : value.ValidIn s.types) (name : String)
    (written : Option Ascription) (symbol : SymbolId) :
    Upholds (bindingValue name written value symbol) s fun found types =>
      found.1.ValidIn types ∧ types.ValidSlot found.2 := by
  refine (upholds_expr hs hvalue).bind fun checked s₁ _ hs hchecked => ?_
  obtain ⟨table, htable⟩ := hs.spelled
  refine ((agrees_declareType htable name symbol written).upholds
    (keeps_declareType invariant_lawfulNames name symbol fun _ _ => trivial) hs).bind ?_
  intro _ s₂ hgrows₂ hs _
  obtain ⟨table, htable⟩ := hs.spelled
  refine ((agrees_symbolType? htable symbol).upholds
    (keeps_symbolType? invariant_lawfulNames symbol) hs).bind fun type s₃ hgrows₃ hs htype => ?_
  exact upholds_pure hs ⟨hchecked.grow (hgrows₂.trans hgrows₃), htype⟩

/-- The type that a variable takes from its first value. -/
theorem upholds_firstBinding (hs : s.Tidy) (hvalue : value.ValidIn s.types) (name : String)
    (symbol : SymbolId) :
    Upholds (do
      let type ← firstType name (← typeOf value)
      let _ ← setSymbolType symbol type
      return type) s fun type types => types.Valid type := by
  refine (upholds_typeOf hs hvalue).bind fun id s₁ _ hs hid => ?_
  obtain ⟨table, htable⟩ := hs.spelled
  obtain ⟨shape, hid⟩ := hid
  have hfirst : Upholds (firstType name id) s₁ fun type types => types.Valid type :=
    ((agrees_firstType htable hid name).upholds (keeps_firstType invariant_lawfulNames name id)
      hs).weaken fun _ _ h => ⟨_, h.choose_spec⟩
  refine hfirst.bind fun type s₂ _ hs htype => ?_
  refine (upholds_setSymbolType hs symbol htype).bind fun _ s₃ hgrows₃ hs _ => ?_
  exact upholds_pure hs (htype.grow hgrows₃)

/-- The bounds of a loop and the type of its variable. -/
theorem upholds_boundsType (hs : s.Tidy) (hvalues : ∀ value ∈ values, value.ValidIn s.types)
    (name : String) (symbol : SymbolId) :
    Upholds (boundsType name symbol values) s fun found types =>
      (∀ bound ∈ found.1, bound.ValidIn types) ∧ types.Valid found.2.1 := by
  refine (upholds_exprs hs hvalues).bind fun bounds s₁ _ hs hbounds => ?_
  obtain ⟨table, htable⟩ := hs.spelled
  obtain ⟨bounds', hspelled⟩ := exists_forall₂_iff.mpr hbounds
  refine ((agrees_loopType htable name hspelled).upholds
    (keeps_loopType invariant_lawfulNames name bounds) hs).bind fun type s₂ hgrows₂ hs htype => ?_
  refine (upholds_setSymbolType hs symbol htype).bind fun _ s₃ hgrows₃ hs _ => ?_
  have hgrows := hgrows₂.trans hgrows₃
  exact upholds_pure hs
    ⟨fun bound hbound => (hbounds bound hbound).grow hgrows, Universe.Valid.grow htype hgrows₃⟩

end Statements

end Check

/-! ## Runs -/

/-- No expression in this one has a type. -/
def Expr.Untyped (value : Expr) : Prop := ∀ node ∈ value.nodes, node.type? = none

theorem Expr.Untyped.validIn {value : Expr} (h : value.Untyped) (types : Universe) :
    value.ValidIn types :=
  ⟨_, value.spelled_of_untyped _ (fun _ => none) h⟩

namespace Check

theorem forall_nodes_of_untyped {roots : List Expr} (h : ∀ value ∈ roots, value.Untyped) :
    ∀ node ∈ roots.flatMap Expr.nodes, node.type? = none := by
  intro node hnode
  obtain ⟨value, hvalue, hmem⟩ := List.mem_flatMap.mp hnode
  exact h value hvalue node hmem

theorem carries_tidy : Carries Checking.Tidy Expr.Untyped where
  stmt {st _ _ _} hroots hs hrun := by
    obtain ⟨table, htable⟩ := hs.spelled
    have hnodes := forall_nodes_of_untyped hroots
    rw [← Stmt.nodes_eq_flatMap] at hnodes
    exact (((agrees_stmt htable st (st.spelled_of_untyped _ (fun _ => none) hnodes)).upholds
      (keeps_stmt invariant_lawfulNames st fun value _ => allows_findsFields value)
      hs).post_of_ok hrun).2.1
  stmts {body _ _ _} hroots hs hrun := by
    obtain ⟨table, htable⟩ := hs.spelled
    have hnodes := forall_nodes_of_untyped hroots
    rw [← Stmt.bodyNodes_eq_flatMap] at hnodes
    exact (((agrees_stmts htable body (Stmt.spelledBody_of_untyped _ (fun _ => none) body
      hnodes)).upholds (keeps_stmts invariant_lawfulNames body fun value _ =>
        allows_findsFields value) hs).post_of_ok hrun).2.1
  condition {test _ s _} htest hs hrun := by
    obtain ⟨table, htable⟩ := hs.spelled
    obtain ⟨test', hspelled⟩ := htest.validIn s.types
    exact (((agrees_condition htable hspelled).upholds (keeps_condition invariant_lawfulNames
      (allows_findsFields test)) hs).post_of_ok hrun).2.1
  loopBounds {name symbol bounds _ s _} hbounds hs hrun := by
    obtain ⟨table, htable⟩ := hs.spelled
    obtain ⟨bounds', hspelled⟩ := exists_forall₂_iff.mpr fun bound hbound =>
      (hbounds bound hbound).validIn s.types
    exact (((agrees_loopBounds htable name symbol hspelled).upholds
      (keeps_loopBounds invariant_lawfulNames name symbol fun bound _ => allows_findsFields bound)
      hs).post_of_ok hrun).2.1

/-- **A statement makes tidy calls.** -/
theorem Opens.tidy {st : Stmt} {call : ExprCall} {s t : Checking} (h : Opens st s call t)
    (hroots : ∀ value ∈ st.roots, value.Untyped) (hs : s.Tidy) : call.Tidy t := by
  have hvalid {value : Expr} (hmem : value ∈ st.roots) : value.ValidIn s.types :=
    (hroots value hmem).validIn s.types
  cases h with
  | value => exact ⟨hs, hvalid (by simp [Stmt.roots])⟩
  | typed hvalue hcommon =>
      obtain ⟨-, hmiddle, hchecked, htype⟩ :=
        (upholds_bindingValue hs (hvalid (by simp [Stmt.roots])) _ _ _).post_of_ok hvalue
      obtain ⟨id, s₁, hid, hrun⟩ := bind_eq_ok_iff.mp hcommon
      obtain ⟨hgrows, hs₁, hid⟩ := (upholds_typeOf hmiddle hchecked).post_of_ok hid
      have htype := htype.valid.grow hgrows
      obtain ⟨hgrows', ht, -⟩ := (upholds_common hs₁ htype hid).post_of_ok hrun
      exact ⟨ht, hchecked.grow (hgrows.trans hgrows'), htype.grow hgrows'⟩
  | first hvalue hfirst =>
      obtain ⟨-, hmiddle, hchecked, -⟩ :=
        (upholds_bindingValue hs (hvalid (by simp [Stmt.roots])) _ _ _).post_of_ok hvalue
      obtain ⟨hgrows, ht, htype⟩ :=
        (upholds_firstBinding hmiddle hchecked _ _).post_of_ok hfirst
      exact ⟨ht, hchecked.grow hgrows, htype⟩
  | print => exact ⟨hs, hvalid (by simp [Stmt.roots])⟩
  | printing hrun _ =>
      obtain ⟨-, ht, hchecked, htarget⟩ :=
        (upholds_withDefault (upholds_expr hs (hvalid (by simp [Stmt.roots])))).post_of_ok hrun
      exact ⟨ht, hchecked, htarget⟩
  | evaluate => exact ⟨hs, hvalid (by simp [Stmt.roots])⟩
  | evaluation hrun =>
      obtain ⟨-, ht, hchecked, htarget⟩ :=
        (upholds_withDefault (upholds_expr hs (hvalid (by simp [Stmt.roots])))).post_of_ok hrun
      exact ⟨ht, hchecked, htarget⟩
  | test htest => exact ⟨hs, hvalid (mem_roots_of_test? htest)⟩
  | condition htest hrun =>
      obtain ⟨checked, s₁, hvalue, hrest⟩ := bind_eq_ok_iff.mp hrun
      obtain ⟨-, hs₁, hchecked⟩ :=
        (upholds_expr hs (hvalid (mem_roots_of_test? htest))).post_of_ok hvalue
      obtain ⟨_, _, hintern, hresult⟩ := bind_eq_ok_iff.mp hrest
      cases hresult
      obtain ⟨hgrows, ht, htarget⟩ := (upholds_internBool hs₁).post_of_ok hintern
      exact ⟨ht, hchecked.grow hgrows, htarget⟩
  | bound hbefore =>
      obtain ⟨hgrows, ht, -⟩ := (upholds_exprs hs fun value hmem =>
        hvalid (by simp [Stmt.roots, hmem])).post_of_ok hbefore
      exact ⟨ht, (hvalid (by simp [Stmt.roots])).grow hgrows⟩
  | boundConversion hrun hbefore =>
      obtain ⟨-, hmiddle, hbounds, htype⟩ := (upholds_boundsType hs (fun value hmem =>
        hvalid (by simp [Stmt.roots, hmem])) _ _).post_of_ok hrun
      obtain ⟨hfirst, hlater⟩ := List.forall_mem_append.mp hbounds
      have hchecked := hlater _ List.mem_cons_self
      obtain ⟨hgrows, ht, -⟩ := (upholds_convertAll hmiddle htype hfirst).post_of_ok hbefore
      exact ⟨ht, hchecked.grow hgrows, htype.grow hgrows⟩

section Runs

variable {body : List Stmt} {call : ExprCall} {s t : Checking}
  (hroots : ∀ value ∈ Stmt.bodyRoots body, value.Untyped) (hs : s.Tidy)

include hroots hs

/-- **Every call is tidy.** -/
theorem Makes.tidy (h : Makes body s call t) : call.Tidy t := by
  induction h with
  | opens harrives hopens =>
      obtain ⟨hmiddle, hstmt⟩ := harrives.carries carries_tidy hroots hs
      exact hopens.tidy hstmt hmiddle
  | calls _ hcalls ih => exact hcalls.tidy ih

/-- **Every state that is reached is tidy.** -/
theorem Reached.tidy (h : Reached body s t) : t.Tidy := by
  cases h with
  | start => exact hs
  | begins harrives => exact (harrives.carries carries_tidy hroots hs).1
  | ends harrives hrun =>
      obtain ⟨hmiddle, hstmt⟩ := harrives.carries carries_tidy hroots hs
      exact carries_tidy.stmt hstmt hmiddle hrun
  | calls hmakes => exact (hmakes.tidy hroots hs).state
  | returns hmakes hreturns => exact (hmakes.tidy hroots hs).of_returns hreturns

end Runs

end Check

end FlexWidth
