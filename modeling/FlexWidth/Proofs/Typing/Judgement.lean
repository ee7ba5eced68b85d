import FlexWidth.Proofs.Typing.Elaboration

/-!
# The discipline of checked programs

What lowering relies on in a checked program.  Lowering takes a storage expression for
its address and any other expression for its value, and never asks for a type that is
not written on the tree.  So the rules say of each node which of its parts denote
storage, and how their types relate to its own:

* `HasType` for expressions, where every conversion widens,
* `IsCondition` for the test of a branch or a loop, the one place where an integer is
  turned into a truth value,
* `StmtTyped` for statements.

No type that the rules give to a node is flexible (`StmtsTyped.forall_nodes`).
-/

namespace FlexWidth

/-- Whether the expression is a conversion of another. -/
def Expr.isConversion : Expr → Bool
  | .conversion .. => true
  | _ => false

/-- Every value of the first type is one of the second: a truth value is an integer,
and an integer is a wider integer. -/
inductive Widens : Ty → Ty → Prop where
  | bool {width : Nat} : Widens .bool (.int width)
  | int {source target : Nat} : source < target → Widens (.int source) (.int target)

/-! ## The rules -/

mutual

/-- The expression and all its parts are typed in a way that can be lowered.  A part
whose value is used denotes no storage; a part that is loaded from, or whose field is
taken, does. -/
inductive HasType (types : Universe) (symbols : SymbolTable) : Expr → TypeId → Prop where
  | literal {value : Nat} {id : TypeId} {width : Nat} : types.get? id = some (.int width) →
      HasType types symbols (.literal value (some id)) id
  | read {id : TypeId} {width : Nat} : types.get? id = some (.int width) →
      HasType types symbols (.read (some id)) id
  | var {name : String} {symbol : SymbolId} {id : TypeId} : symbols.type? symbol = some id →
      HasType types symbols (.var name (some symbol) (some id)) id
  | sign {operand : Expr} {id : TypeId} : HasType types symbols operand id →
      operand.denotesStorage = false → types.Scalar id →
      HasType types symbols (.unary "-" operand (some id)) id
  | arithmetic {operator : String} {left right : Expr} {id : TypeId} :
      OperatorClass.of? operator = some .arithmetic →
      HasType types symbols left id → left.denotesStorage = false →
      HasType types symbols right id → right.denotesStorage = false → types.Scalar id →
      HasType types symbols (.binary operator left right (some id)) id
  | relational {operator : String} {left right : Expr} {operand id : TypeId} :
      OperatorClass.of? operator = some .relational →
      HasType types symbols left operand → left.denotesStorage = false →
      HasType types symbols right operand → right.denotesStorage = false →
      types.Scalar operand → types.get? id = some .bool →
      HasType types symbols (.binary operator left right (some id)) id
  | widen {operand : Expr} {source target : TypeId} {s t : Ty} :
      HasType types symbols operand source → operand.denotesStorage = false →
      operand.isConversion = false → types.get? source = some s → types.get? target = some t →
      Widens s t → HasType types symbols (.conversion operand (some target)) target
  | load {place : Expr} {id : TypeId} : HasType types symbols place id →
      place.denotesStorage = true → HasType types symbols (.load place (some id)) id
  | glue {fields : GlueFields} {struct : StructTy} {id : TypeId} :
      types.get? id = some (.struct struct) → HaveTypes types symbols fields struct.fields →
      HasType types symbols (.glue fields (some id)) id
  | dot {base : Expr} {field : String} {position : Nat} {struct : StructTy} {baseId id : TypeId} :
      HasType types symbols base baseId → base.denotesStorage = true →
      types.get? baseId = some (.struct struct) → struct.names.position? field = some position →
      struct.fields[position]? = some id →
      HasType types symbols (.dot base field (some position) (some id)) id
  | index {base : Expr} {position : Nat} {struct : StructTy} {baseId id : TypeId} :
      HasType types symbols base baseId → base.denotesStorage = true →
      types.get? baseId = some (.struct struct) → struct.fields[position]? = some id →
      HasType types symbols (.index base position (some id)) id

/-- The fields of a struct literal are values of the given types, in order. -/
inductive HaveTypes (types : Universe) (symbols : SymbolTable) :
    GlueFields → List TypeId → Prop where
  | nil : HaveTypes types symbols [] []
  | cons {name : Option String} {value : Expr} {id : TypeId} {rest : GlueFields}
      {ids : List TypeId} : HasType types symbols value id → value.denotesStorage = false →
      HaveTypes types symbols rest ids →
      HaveTypes types symbols ((name, value) :: rest) (id :: ids)

end

/-- The expression is typed and denotes a value. -/
structure HasValue (types : Universe) (symbols : SymbolTable) (value : Expr) (id : TypeId) :
    Prop where
  hasType : HasType types symbols value id
  noStorage : value.denotesStorage = false

/-- The expression is a truth value, or an integer that is tested. -/
inductive IsCondition (types : Universe) (symbols : SymbolTable) : Expr → Prop where
  | bool {value : Expr} {id : TypeId} : HasValue types symbols value id →
      types.get? id = some .bool → IsCondition types symbols value
  | test {operand : Expr} {source id : TypeId} {width : Nat} :
      HasValue types symbols operand source → operand.isConversion = false →
      types.get? source = some (.int width) → types.get? id = some .bool →
      IsCondition types symbols (.conversion operand (some id))

mutual

/-- The statement can be lowered: every expression in it is typed, and is a value of
the type that its place asks for. -/
inductive StmtTyped (types : Universe) (symbols : SymbolTable) : Stmt → Prop where
  | bind {form : BindingForm} {name : String} {written : Option Ascription} {value : Option Expr}
      {symbol : SymbolId} {id : TypeId} : symbols.type? symbol = some id →
      (∀ ascription ∈ written, types.get? id = some ascription.ty) →
      (∀ e ∈ value, HasValue types symbols e id) →
      StmtTyped types symbols (.bind form name written value (some symbol))
  | print {value : Expr} {id : TypeId} {width : Nat} : HasValue types symbols value id →
      types.get? id = some (.int width) → StmtTyped types symbols (.print value)
  | evaluate {value : Expr} {id : TypeId} : HasType types symbols value id →
      StmtTyped types symbols (.evaluate value)
  | branch {test : Expr} {yes : List Stmt} : IsCondition types symbols test →
      StmtsTyped types symbols yes → StmtTyped types symbols (.branch test yes none)
  | otherwise {test : Expr} {yes no : List Stmt} : IsCondition types symbols test →
      StmtsTyped types symbols yes → StmtsTyped types symbols no →
      StmtTyped types symbols (.branch test yes (some no))
  | whileLoop {test : Expr} {body : List Stmt} : IsCondition types symbols test →
      StmtsTyped types symbols body → StmtTyped types symbols (.whileLoop test body)
  | forLoop {name : String} {symbol : SymbolId} {bounds : List Expr} {body : List Stmt}
      {id : TypeId} {width : Nat} : symbols.type? symbol = some id →
      types.get? id = some (.int width) → (∀ bound ∈ bounds, HasValue types symbols bound id) →
      StmtsTyped types symbols body →
      StmtTyped types symbols (.forLoop name (some symbol) bounds body)
  | block {body : List Stmt} : StmtsTyped types symbols body →
      StmtTyped types symbols (.block body)

/-- Statements in a row can be lowered. -/
inductive StmtsTyped (types : Universe) (symbols : SymbolTable) : List Stmt → Prop where
  | nil : StmtsTyped types symbols []
  | cons {first : Stmt} {rest : List Stmt} : StmtTyped types symbols first →
      StmtsTyped types symbols rest → StmtsTyped types symbols (first :: rest)

end

/-! ## Nodes -/

namespace Expr

mutual

/-- The expression and all expressions in it. -/
def nodes : Expr → List Expr
  | value@(literal ..) | value@(var ..) | value@(read ..) => [value]
  | value@(unary _ operand _) => value :: operand.nodes
  | value@(binary _ left right _) => value :: (left.nodes ++ right.nodes)
  | value@(conversion operand _) => value :: operand.nodes
  | value@(load place _) => value :: place.nodes
  | value@(glue fields _) => value :: fieldNodes fields
  | value@(dot base _ _ _) => value :: base.nodes
  | value@(index base _ _) => value :: base.nodes

/-- All expressions in the fields of a struct literal. -/
def fieldNodes : GlueFields → List Expr
  | [] => []
  | (_, value) :: rest => value.nodes ++ fieldNodes rest

end

end Expr

namespace Stmt

mutual

/-- All expressions in a statement. -/
def nodes : Stmt → List Expr
  | bind _ _ _ value _ => value.toList.flatMap Expr.nodes
  | print value | evaluate value => value.nodes
  | branch test yes none => test.nodes ++ bodyNodes yes
  | branch test yes (some no) => test.nodes ++ bodyNodes yes ++ bodyNodes no
  | whileLoop test body => test.nodes ++ bodyNodes body
  | forLoop _ _ bounds body => bounds.flatMap Expr.nodes ++ bodyNodes body
  | block body => bodyNodes body

/-- All expressions in some statements. -/
def bodyNodes : List Stmt → List Expr
  | [] => []
  | first :: rest => first.nodes ++ bodyNodes rest

end

end Stmt

/-- The expression has a type, and it is not the flexible one. -/
def Expr.HasConcreteType (types : Universe) (value : Expr) : Prop :=
  ∃ id, value.type? = some id ∧ types.Concrete id

section Nodes

variable {types : Universe} {symbols : SymbolTable} {value : Expr} {id : TypeId}

theorem HasType.type? (h : HasType types symbols value id) : value.type? = some id := by
  cases h <;> rfl

/-- The type of an expression is never the flexible one. -/
theorem HasType.concrete {value : Expr} {id : TypeId} (h : HasType types symbols value id)
    (hcontext : SoundContext types symbols) : types.Concrete id := by
  -- the universe holds no struct with a flexible field
  have hfield {struct : StructTy} {base id : TypeId} {position : Nat}
      (hbase : types.get? base = some (.struct struct)) (hid : struct.fields[position]? = some id) :
      types.Concrete id :=
    (hcontext.sound.admits hbase).1 id (List.mem_of_getElem? hid)
  match h with
  | .literal hid => exact ⟨_, hid, by simp⟩
  | .read hid => exact ⟨_, hid, by simp⟩
  | .var hid => exact hcontext.concrete hid
  | .sign hoperand _ _ => exact hoperand.concrete hcontext
  | .arithmetic _ hleft _ _ _ _ => exact hleft.concrete hcontext
  | .relational _ _ _ _ _ _ hid => exact ⟨_, hid, by simp⟩
  | .widen _ _ _ _ htarget .bool => exact ⟨_, htarget, by simp⟩
  | .widen _ _ _ _ htarget (.int _) => exact ⟨_, htarget, by simp⟩
  | .load hplace _ => exact hplace.concrete hcontext
  | .glue hid _ => exact ⟨_, hid, by simp⟩
  | .dot _ _ hbase _ hid => exact hfield hbase hid
  | .index _ _ hbase hid => exact hfield hbase hid

/-- The expression is typed, or it is tested. -/
def Expr.IsTyped (types : Universe) (symbols : SymbolTable) (value : Expr) : Prop :=
  (∃ id, HasType types symbols value id) ∨ IsCondition types symbols value

theorem Expr.IsTyped.hasConcreteType (h : value.IsTyped types symbols)
    (hcontext : SoundContext types symbols) : value.HasConcreteType types := by
  rcases h with ⟨id, hid⟩ | hcondition
  · exact ⟨id, hid.type?, hid.concrete hcontext⟩
  · cases hcondition with
    | bool hvalue hid => exact ⟨_, hvalue.hasType.type?, _, hid, by simp⟩
    | test _ _ _ hid => exact ⟨_, rfl, _, hid, by simp⟩

mutual

/-- All expressions in a typed one are typed. -/
theorem HasType.forall_isTyped {value : Expr} {id : TypeId} (h : HasType types symbols value id) :
    ∀ node ∈ value.nodes, node.IsTyped types symbols := by
  have hroot : value.IsTyped types symbols := .inl ⟨id, h⟩
  match h with
  | .literal _ => exact List.forall_mem_singleton.mpr hroot
  | .read _ => exact List.forall_mem_singleton.mpr hroot
  | .var _ => exact List.forall_mem_singleton.mpr hroot
  | .sign hoperand _ _ => exact List.forall_mem_cons.mpr ⟨hroot, hoperand.forall_isTyped⟩
  | .arithmetic _ hleft _ hright _ _ =>
      exact List.forall_mem_cons.mpr ⟨hroot, List.forall_mem_append.mpr
        ⟨hleft.forall_isTyped, hright.forall_isTyped⟩⟩
  | .relational _ hleft _ hright _ _ _ =>
      exact List.forall_mem_cons.mpr ⟨hroot, List.forall_mem_append.mpr
        ⟨hleft.forall_isTyped, hright.forall_isTyped⟩⟩
  | .widen hoperand _ _ _ _ _ => exact List.forall_mem_cons.mpr ⟨hroot, hoperand.forall_isTyped⟩
  | .load hplace _ => exact List.forall_mem_cons.mpr ⟨hroot, hplace.forall_isTyped⟩
  | .glue _ hfields => exact List.forall_mem_cons.mpr ⟨hroot, hfields.forall_isTyped⟩
  | .dot hbase _ _ _ _ => exact List.forall_mem_cons.mpr ⟨hroot, hbase.forall_isTyped⟩
  | .index hbase _ _ _ => exact List.forall_mem_cons.mpr ⟨hroot, hbase.forall_isTyped⟩

theorem HaveTypes.forall_isTyped {fields : GlueFields} {ids : List TypeId}
    (h : HaveTypes types symbols fields ids) :
    ∀ node ∈ Expr.fieldNodes fields, node.IsTyped types symbols := by
  match h with
  | .nil => exact fun _ hnode => nomatch hnode
  | .cons hvalue _ hrest =>
      exact List.forall_mem_append.mpr ⟨hvalue.forall_isTyped, hrest.forall_isTyped⟩

end

theorem IsCondition.forall_isTyped {test : Expr} (h : IsCondition types symbols test) :
    ∀ node ∈ test.nodes, node.IsTyped types symbols := by
  have hroot : test.IsTyped types symbols := .inr h
  cases h with
  | bool hvalue _ => exact hvalue.hasType.forall_isTyped
  | test hoperand _ _ _ =>
      exact List.forall_mem_cons.mpr ⟨hroot, hoperand.hasType.forall_isTyped⟩

theorem forall_isTyped_of_hasValue {values : List Expr}
    (h : ∀ value ∈ values, HasValue types symbols value id) :
    ∀ node ∈ values.flatMap Expr.nodes, node.IsTyped types symbols := by
  intro node hnode
  obtain ⟨value, hvalue, hnode⟩ := List.mem_flatMap.mp hnode
  exact (h value hvalue).hasType.forall_isTyped node hnode

mutual

theorem StmtTyped.forall_isTyped {st : Stmt} (h : StmtTyped types symbols st) :
    ∀ node ∈ st.nodes, node.IsTyped types symbols := by
  match h with
  | .bind _ _ hvalue =>
      exact forall_isTyped_of_hasValue fun e he => hvalue e (Option.mem_toList.mp he)
  | .print hvalue _ => exact hvalue.hasType.forall_isTyped
  | .evaluate hvalue => exact hvalue.forall_isTyped
  | .branch htest hyes =>
      exact List.forall_mem_append.mpr ⟨htest.forall_isTyped, hyes.forall_isTyped⟩
  | .otherwise htest hyes hno =>
      exact List.forall_mem_append.mpr ⟨List.forall_mem_append.mpr
        ⟨htest.forall_isTyped, hyes.forall_isTyped⟩, hno.forall_isTyped⟩
  | .whileLoop htest hbody =>
      exact List.forall_mem_append.mpr ⟨htest.forall_isTyped, hbody.forall_isTyped⟩
  | .forLoop _ _ hbounds hbody =>
      exact List.forall_mem_append.mpr
        ⟨forall_isTyped_of_hasValue hbounds, hbody.forall_isTyped⟩
  | .block hbody => exact hbody.forall_isTyped

/-- All expressions in typed statements are typed. -/
theorem StmtsTyped.forall_isTyped {body : List Stmt} (h : StmtsTyped types symbols body) :
    ∀ node ∈ Stmt.bodyNodes body, node.IsTyped types symbols := by
  match h with
  | .nil => exact fun _ hnode => nomatch hnode
  | .cons hfirst hrest =>
      exact List.forall_mem_append.mpr ⟨hfirst.forall_isTyped, hrest.forall_isTyped⟩

end

theorem StmtsTyped.forall_nodes {body : List Stmt} (h : StmtsTyped types symbols body)
    (hcontext : SoundContext types symbols) :
    ∀ node ∈ Stmt.bodyNodes body, node.HasConcreteType types :=
  fun node hnode => (h.forall_isTyped node hnode).hasConcreteType hcontext

end Nodes

end FlexWidth
