import FlexWidth.Frontend
import FlexWidth.Proofs.Types.Shapes
import FlexWidth.Proofs.Typing.Judgement

/-!
# Trees with types spelled out

The trees of this file are those of the front end, except that a node has a shape where
it had the handle of a type.  A tree with handles is *spelled out* by putting in the place
of each handle what it stands for (`Expr.spell`, `Stmt.spell`, `SymbolTable.spell`).

`Expr.Spelled` and `Stmt.Spelled` say the same as relations, which moreover ask that every
handle does stand for something.  Then adding types to the universe changes nothing, as
`Spelled.imp` shows.
-/

namespace FlexWidth

namespace Structural

/-- An expression whose types are spelled out. -/
inductive Expr where
  | literal (value : Nat) (type : Option Shape)
  | var (name : String) (symbol : Option SymbolId) (type : Option Shape)
  | read (type : Option Shape)
  | unary (operator : String) (operand : Expr) (type : Option Shape)
  | binary (operator : String) (left right : Expr) (type : Option Shape)
  | conversion (operand : Expr) (type : Option Shape)
  | load (place : Expr) (type : Option Shape)
  | glue (fields : List (Option String × Expr)) (type : Option Shape)
  | dot (base : Expr) (field : String) (position : Option Nat) (type : Option Shape)
  | index (base : Expr) (position : Nat) (type : Option Shape)

/-- The fields of a struct literal. -/
abbrev GlueFields := List (Option String × Expr)

namespace Expr

/-- The type of an expression, once it has one. -/
def type? : Expr → Option Shape
  | literal _ type | var _ _ type | read type | unary _ _ type | binary _ _ _ type
  | conversion _ type | load _ type | glue _ type | dot _ _ _ type | index _ _ type => type

/-- The same expression with another type on its root. -/
def withType (type : Shape) : Expr → Expr
  | literal value _ => literal value type
  | var name symbol _ => var name symbol type
  | read _ => read type
  | unary operator operand _ => unary operator operand type
  | binary operator left right _ => binary operator left right type
  | conversion operand _ => conversion operand type
  | load place _ => load place type
  | glue fields _ => glue fields type
  | dot base field position _ => dot base field position type
  | index base position _ => index base position type

/-- Whether an expression denotes a place rather than a value. -/
def denotesStorage : Expr → Bool
  | var .. | dot .. | index .. | glue .. => true
  | _ => false

mutual

/-- How deeply operators and struct literals nest in an expression. -/
def nesting : Expr → Nat
  | literal .. | var .. | read .. => 0
  | unary _ operand _ => operand.nesting + 1
  | binary _ left right _ => max left.nesting right.nesting + 1
  | conversion operand _ => operand.nesting
  | load place _ => place.nesting
  | glue fields _ => fieldsNesting fields + 1
  | dot base _ _ _ => base.nesting
  | index base _ _ => base.nesting

/-- The deepest nesting among the fields of a struct literal. -/
def fieldsNesting : GlueFields → Nat
  | [] => 0
  | (_, value) :: rest => max value.nesting (fieldsNesting rest)

end

end Expr

/-- A statement whose types are spelled out. -/
inductive Stmt where
  | bind (form : BindingForm) (name : String) (ascription : Option Ascription) (value : Option Expr)
    (symbol : Option SymbolId)
  | print (value : Expr)
  | evaluate (value : Expr)
  | branch (condition : Expr) (yes : List Stmt) (no : Option (List Stmt))
  | whileLoop (condition : Expr) (body : List Stmt)
  | forLoop (name : String) (symbol : Option SymbolId) (bounds : List Expr) (body : List Stmt)
  | block (body : List Stmt)

/-- A variable whose type is spelled out. -/
structure Symbol where
  name : String
  origin : Origin
  type : Option Shape

/-- The variables of a program, in the order of their handles. -/
structure SymbolTable where
  symbols : List Symbol

/-- The variable of a handle. -/
def SymbolTable.get? (table : SymbolTable) (id : SymbolId) : Option Symbol :=
  table.symbols[id.index]?

/-- A checked program and its variables. -/
structure CheckedProgram where
  body : List Stmt
  symbols : SymbolTable

end Structural

/-! ## Spelling trees out -/

section Spell

variable (shapeOf : TypeId → Option Shape)

mutual

/-- The expression with what each handle stands for in its place. -/
def Expr.spell : Expr → Structural.Expr
  | literal value type => .literal value (type.bind shapeOf)
  | var name symbol type => .var name symbol (type.bind shapeOf)
  | read type => .read (type.bind shapeOf)
  | unary operator operand type => .unary operator operand.spell (type.bind shapeOf)
  | binary operator left right type => .binary operator left.spell right.spell (type.bind shapeOf)
  | conversion operand type => .conversion operand.spell (type.bind shapeOf)
  | load place type => .load place.spell (type.bind shapeOf)
  | glue fields type => .glue (spellFields fields) (type.bind shapeOf)
  | dot base field position type => .dot base.spell field position (type.bind shapeOf)
  | index base position type => .index base.spell position (type.bind shapeOf)

/-- The fields of a struct literal, spelled out. -/
def Expr.spellFields : GlueFields → Structural.GlueFields
  | [] => []
  | (name, value) :: rest => (name, value.spell) :: spellFields rest

end

mutual

/-- The statement with what each handle stands for in its place. -/
def Stmt.spell : Stmt → Structural.Stmt
  | bind form name written value symbol =>
    .bind form name written (value.map (Expr.spell shapeOf)) symbol
  | print value => .print (value.spell shapeOf)
  | evaluate value => .evaluate (value.spell shapeOf)
  | branch test yes none => .branch (test.spell shapeOf) (spellBody yes) none
  | branch test yes (some no) =>
    .branch (test.spell shapeOf) (spellBody yes) (some (spellBody no))
  | whileLoop test body => .whileLoop (test.spell shapeOf) (spellBody body)
  | forLoop name symbol bounds body =>
    .forLoop name symbol (bounds.map (Expr.spell shapeOf)) (spellBody body)
  | block body => .block (spellBody body)

/-- Some statements, spelled out. -/
def Stmt.spellBody : List Stmt → List Structural.Stmt
  | [] => []
  | first :: rest => first.spell :: spellBody rest

end

/-- The variable with what the handle of its type stands for. -/
def Symbol.spell (symbol : Symbol) : Structural.Symbol :=
  ⟨symbol.name, symbol.origin, symbol.type.bind shapeOf⟩

/-- The variables with what the handles of their types stand for. -/
def SymbolTable.spell (table : SymbolTable) : Structural.SymbolTable :=
  ⟨table.symbols.toList.map (Symbol.spell shapeOf)⟩

end Spell

/-- A checked program in which every handle is replaced by the type that it denotes. -/
def CheckedProgram.spell (checked : CheckedProgram) : Structural.CheckedProgram :=
  ⟨Stmt.spellBody checked.types.shape? checked.body,
    checked.symbols.spell checked.types.shape?⟩

/-! ## Spelling out as a relation -/

mutual

/-- Two expressions agree up to their types, and where one has a handle the other has
what the handle denotes. -/
inductive Expr.Spelled (denotes : TypeId → Shape → Prop) : Expr → Structural.Expr → Prop where
  | literal {value : Nat} {type : Option TypeId} {shape : Option Shape} :
      Option.Rel denotes type shape → Spelled denotes (.literal value type) (.literal value shape)
  | var {name : String} {symbol : Option SymbolId} {type : Option TypeId} {shape : Option Shape} :
      Option.Rel denotes type shape →
      Spelled denotes (.var name symbol type) (.var name symbol shape)
  | read {type : Option TypeId} {shape : Option Shape} : Option.Rel denotes type shape →
      Spelled denotes (.read type) (.read shape)
  | unary {operator : String} {operand : Expr} {operand' : Structural.Expr}
      {type : Option TypeId} {shape : Option Shape} : Spelled denotes operand operand' →
      Option.Rel denotes type shape →
      Spelled denotes (.unary operator operand type) (.unary operator operand' shape)
  | binary {operator : String} {left right : Expr} {left' right' : Structural.Expr}
      {type : Option TypeId} {shape : Option Shape} : Spelled denotes left left' →
      Spelled denotes right right' → Option.Rel denotes type shape →
      Spelled denotes (.binary operator left right type) (.binary operator left' right' shape)
  | conversion {operand : Expr} {operand' : Structural.Expr} {type : Option TypeId}
      {shape : Option Shape} : Spelled denotes operand operand' → Option.Rel denotes type shape →
      Spelled denotes (.conversion operand type) (.conversion operand' shape)
  | load {place : Expr} {place' : Structural.Expr} {type : Option TypeId}
      {shape : Option Shape} : Spelled denotes place place' → Option.Rel denotes type shape →
      Spelled denotes (.load place type) (.load place' shape)
  | glue {fields : GlueFields} {fields' : Structural.GlueFields} {type : Option TypeId}
      {shape : Option Shape} : SpelledFields denotes fields fields' →
      Option.Rel denotes type shape → Spelled denotes (.glue fields type) (.glue fields' shape)
  | dot {base : Expr} {base' : Structural.Expr} {field : String} {position : Option Nat}
      {type : Option TypeId} {shape : Option Shape} : Spelled denotes base base' →
      Option.Rel denotes type shape →
      Spelled denotes (.dot base field position type) (.dot base' field position shape)
  | index {base : Expr} {base' : Structural.Expr} {position : Nat} {type : Option TypeId}
      {shape : Option Shape} : Spelled denotes base base' → Option.Rel denotes type shape →
      Spelled denotes (.index base position type) (.index base' position shape)

/-- The fields of two struct literals agree up to their types. -/
inductive Expr.SpelledFields (denotes : TypeId → Shape → Prop) :
    GlueFields → Structural.GlueFields → Prop where
  | nil : SpelledFields denotes [] []
  | cons {name : Option String} {value : Expr} {value' : Structural.Expr} {rest : GlueFields}
      {rest' : Structural.GlueFields} : Spelled denotes value value' →
      SpelledFields denotes rest rest' →
      SpelledFields denotes ((name, value) :: rest) ((name, value') :: rest')

end

mutual

/-- Two statements agree up to the types in their expressions. -/
inductive Stmt.Spelled (denotes : TypeId → Shape → Prop) : Stmt → Structural.Stmt → Prop where
  | bind {form : BindingForm} {name : String} {written : Option Ascription} {value : Option Expr}
      {value' : Option Structural.Expr} {symbol : Option SymbolId} :
      Option.Rel (Expr.Spelled denotes) value value' →
      Spelled denotes (.bind form name written value symbol)
        (.bind form name written value' symbol)
  | print {value : Expr} {value' : Structural.Expr} : value.Spelled denotes value' →
      Spelled denotes (.print value) (.print value')
  | evaluate {value : Expr} {value' : Structural.Expr} : value.Spelled denotes value' →
      Spelled denotes (.evaluate value) (.evaluate value')
  | branch {test : Expr} {test' : Structural.Expr} {yes : List Stmt}
      {yes' : List Structural.Stmt} : test.Spelled denotes test' →
      SpelledBody denotes yes yes' →
      Spelled denotes (.branch test yes none) (.branch test' yes' none)
  | otherwise {test : Expr} {test' : Structural.Expr} {yes no : List Stmt}
      {yes' no' : List Structural.Stmt} : test.Spelled denotes test' →
      SpelledBody denotes yes yes' → SpelledBody denotes no no' →
      Spelled denotes (.branch test yes (some no)) (.branch test' yes' (some no'))
  | whileLoop {test : Expr} {test' : Structural.Expr} {body : List Stmt}
      {body' : List Structural.Stmt} : test.Spelled denotes test' →
      SpelledBody denotes body body' →
      Spelled denotes (.whileLoop test body) (.whileLoop test' body')
  | forLoop {name : String} {symbol : Option SymbolId} {bounds : List Expr}
      {bounds' : List Structural.Expr} {body : List Stmt} {body' : List Structural.Stmt} :
      List.Forall₂ (Expr.Spelled denotes) bounds bounds' → SpelledBody denotes body body' →
      Spelled denotes (.forLoop name symbol bounds body) (.forLoop name symbol bounds' body')
  | block {body : List Stmt} {body' : List Structural.Stmt} : SpelledBody denotes body body' →
      Spelled denotes (.block body) (.block body')

/-- Two lists of statements agree up to the types in their expressions. -/
inductive Stmt.SpelledBody (denotes : TypeId → Shape → Prop) :
    List Stmt → List Structural.Stmt → Prop where
  | nil : SpelledBody denotes [] []
  | cons {first : Stmt} {first' : Structural.Stmt} {rest : List Stmt}
      {rest' : List Structural.Stmt} : Spelled denotes first first' →
      SpelledBody denotes rest rest' → SpelledBody denotes (first :: rest) (first' :: rest')

end

/-! ## The relation and the function -/

section Imp

variable {α β : Type} {r r' : α → β → Prop} {a : Option α} {b : Option β}

theorem rel_imp (h : Option.Rel r a b) (himp : ∀ a b, r a b → r' a b) : Option.Rel r' a b := by
  cases h with
  | some h => exact .some (himp _ _ h)
  | none => exact .none

theorem map_eq_of_rel {f : α → β} (h : Option.Rel r a b) (heq : ∀ a b, r a b → f a = b) :
    a.map f = b := by
  cases h with
  | some h => exact congrArg some (heq _ _ h)
  | none => rfl

theorem bind_eq_of_rel {f : α → Option β} (h : Option.Rel (fun a b => f a = some b) a b) :
    a.bind f = b := by
  cases h with
  | some h => exact h
  | none => rfl

end Imp

section Denotes

variable {denotes denotes' : TypeId → Shape → Prop}

mutual

theorem Expr.Spelled.imp {value : Expr} {value' : Structural.Expr}
    (h : value.Spelled denotes value')
    (himp : ∀ id shape, denotes id shape → denotes' id shape) :
    value.Spelled denotes' value' := by
  match h with
  | .literal htype => exact .literal (rel_imp htype himp)
  | .var htype => exact .var (rel_imp htype himp)
  | .read htype => exact .read (rel_imp htype himp)
  | .unary hoperand htype => exact .unary (hoperand.imp himp) (rel_imp htype himp)
  | .binary hleft hright htype =>
      exact .binary (hleft.imp himp) (hright.imp himp) (rel_imp htype himp)
  | .conversion hoperand htype => exact .conversion (hoperand.imp himp) (rel_imp htype himp)
  | .load hplace htype => exact .load (hplace.imp himp) (rel_imp htype himp)
  | .glue hfields htype => exact .glue (hfields.imp himp) (rel_imp htype himp)
  | .dot hbase htype => exact .dot (hbase.imp himp) (rel_imp htype himp)
  | .index hbase htype => exact .index (hbase.imp himp) (rel_imp htype himp)

theorem Expr.SpelledFields.imp {fields : GlueFields} {fields' : Structural.GlueFields}
    (h : SpelledFields denotes fields fields')
    (himp : ∀ id shape, denotes id shape → denotes' id shape) :
    SpelledFields denotes' fields fields' := by
  match h with
  | .nil => exact .nil
  | .cons hvalue hrest => exact .cons (hvalue.imp himp) (hrest.imp himp)

end

mutual

theorem Stmt.Spelled.imp {st : Stmt} {st' : Structural.Stmt} (h : st.Spelled denotes st')
    (himp : ∀ id shape, denotes id shape → denotes' id shape) : st.Spelled denotes' st' := by
  match h with
  | .bind hvalue => exact .bind (rel_imp hvalue fun _ _ h => h.imp himp)
  | .print hvalue => exact .print (hvalue.imp himp)
  | .evaluate hvalue => exact .evaluate (hvalue.imp himp)
  | .branch htest hyes => exact .branch (htest.imp himp) (hyes.imp himp)
  | .otherwise htest hyes hno => exact .otherwise (htest.imp himp) (hyes.imp himp) (hno.imp himp)
  | .whileLoop htest hbody => exact .whileLoop (htest.imp himp) (hbody.imp himp)
  | .forLoop hbounds hbody =>
      exact .forLoop (hbounds.imp fun _ _ h => h.imp himp) (hbody.imp himp)
  | .block hbody => exact .block (hbody.imp himp)

theorem Stmt.SpelledBody.imp {body : List Stmt} {body' : List Structural.Stmt}
    (h : SpelledBody denotes body body')
    (himp : ∀ id shape, denotes id shape → denotes' id shape) :
    SpelledBody denotes' body body' := by
  match h with
  | .nil => exact .nil
  | .cons hfirst hrest => exact .cons (hfirst.imp himp) (hrest.imp himp)

end

/-! ## What two related expressions have in common -/

section Roots

variable {value : Expr} {value' : Structural.Expr}

theorem Expr.Spelled.type? (h : value.Spelled denotes value') :
    Option.Rel denotes value.type? value'.type? := by
  cases h <;> assumption

theorem Expr.Spelled.withType (h : value.Spelled denotes value') {id : TypeId} {shape : Shape}
    (hid : denotes id shape) : (value.withType id).Spelled denotes (value'.withType shape) := by
  cases h with
  | literal _ => exact .literal (.some hid)
  | var _ => exact .var (.some hid)
  | read _ => exact .read (.some hid)
  | unary hoperand _ => exact .unary hoperand (.some hid)
  | binary hleft hright _ => exact .binary hleft hright (.some hid)
  | conversion hoperand _ => exact .conversion hoperand (.some hid)
  | load hplace _ => exact .load hplace (.some hid)
  | glue hfields _ => exact .glue hfields (.some hid)
  | dot hbase _ => exact .dot hbase (.some hid)
  | index hbase _ => exact .index hbase (.some hid)

theorem Expr.Spelled.denotesStorage (h : value.Spelled denotes value') :
    value.denotesStorage = value'.denotesStorage := by
  cases h <;> rfl

end Roots

mutual

theorem Expr.Spelled.nesting {value : Expr} {value' : Structural.Expr}
    (h : value.Spelled denotes value') : value.nesting = value'.nesting := by
  match h with
  | .literal _ => rfl
  | .var _ => rfl
  | .read _ => rfl
  | .unary hoperand _ => simp only [Expr.nesting, Structural.Expr.nesting, hoperand.nesting]
  | .binary hleft hright _ =>
      simp only [Expr.nesting, Structural.Expr.nesting, hleft.nesting, hright.nesting]
  | .conversion hoperand _ => exact hoperand.nesting
  | .load hplace _ => exact hplace.nesting
  | .glue hfields _ =>
      simp only [Expr.nesting, Structural.Expr.nesting, hfields.fieldsNesting]
  | .dot hbase _ => exact hbase.nesting
  | .index hbase _ => exact hbase.nesting

theorem Expr.SpelledFields.fieldsNesting {fields : GlueFields} {fields' : Structural.GlueFields}
    (h : SpelledFields denotes fields fields') :
    Expr.fieldsNesting fields = Structural.Expr.fieldsNesting fields' := by
  match h with
  | .nil => rfl
  | .cons hvalue hrest =>
      simp only [Expr.fieldsNesting, Structural.Expr.fieldsNesting, hvalue.nesting,
        hrest.fieldsNesting]

end

mutual

/-- All handles of a tree that is spelled out stand for something. -/
theorem Expr.Spelled.forall_nodes {value : Expr} {value' : Structural.Expr}
    (h : value.Spelled denotes value') :
    ∀ node ∈ value.nodes, ∃ shape, Option.Rel denotes node.type? shape := by
  match h with
  | .literal htype => exact List.forall_mem_singleton.mpr ⟨_, htype⟩
  | .var htype => exact List.forall_mem_singleton.mpr ⟨_, htype⟩
  | .read htype => exact List.forall_mem_singleton.mpr ⟨_, htype⟩
  | .unary hoperand htype => exact List.forall_mem_cons.mpr ⟨⟨_, htype⟩, hoperand.forall_nodes⟩
  | .binary hleft hright htype =>
      exact List.forall_mem_cons.mpr ⟨⟨_, htype⟩,
        List.forall_mem_append.mpr ⟨hleft.forall_nodes, hright.forall_nodes⟩⟩
  | .conversion hoperand htype =>
      exact List.forall_mem_cons.mpr ⟨⟨_, htype⟩, hoperand.forall_nodes⟩
  | .load hplace htype => exact List.forall_mem_cons.mpr ⟨⟨_, htype⟩, hplace.forall_nodes⟩
  | .glue hfields htype => exact List.forall_mem_cons.mpr ⟨⟨_, htype⟩, hfields.forall_nodes⟩
  | .dot hbase htype => exact List.forall_mem_cons.mpr ⟨⟨_, htype⟩, hbase.forall_nodes⟩
  | .index hbase htype => exact List.forall_mem_cons.mpr ⟨⟨_, htype⟩, hbase.forall_nodes⟩

theorem Expr.SpelledFields.forall_nodes {fields : GlueFields} {fields' : Structural.GlueFields}
    (h : SpelledFields denotes fields fields') :
    ∀ node ∈ fieldNodes fields, ∃ shape, Option.Rel denotes node.type? shape := by
  match h with
  | .nil => exact fun _ hnode => by cases hnode
  | .cons hvalue hrest =>
      exact List.forall_mem_append.mpr ⟨hvalue.forall_nodes, hrest.forall_nodes⟩

end

end Denotes

/-! ## Spelling out what is valid -/

section SpellEq

variable {shapeOf : TypeId → Option Shape}

mutual

theorem Expr.Spelled.spell_eq {value : Expr} {value' : Structural.Expr}
    (h : value.Spelled (fun id shape => shapeOf id = some shape) value') :
    value.spell shapeOf = value' := by
  match h with
  | .literal htype => rw [Expr.spell, bind_eq_of_rel htype]
  | .var htype => rw [Expr.spell, bind_eq_of_rel htype]
  | .read htype => rw [Expr.spell, bind_eq_of_rel htype]
  | .unary hoperand htype => rw [Expr.spell, hoperand.spell_eq, bind_eq_of_rel htype]
  | .binary hleft hright htype =>
      rw [Expr.spell, hleft.spell_eq, hright.spell_eq, bind_eq_of_rel htype]
  | .conversion hoperand htype => rw [Expr.spell, hoperand.spell_eq, bind_eq_of_rel htype]
  | .load hplace htype => rw [Expr.spell, hplace.spell_eq, bind_eq_of_rel htype]
  | .glue hfields htype => rw [Expr.spell, hfields.spell_eq, bind_eq_of_rel htype]
  | .dot hbase htype => rw [Expr.spell, hbase.spell_eq, bind_eq_of_rel htype]
  | .index hbase htype => rw [Expr.spell, hbase.spell_eq, bind_eq_of_rel htype]

theorem Expr.SpelledFields.spell_eq {fields : GlueFields} {fields' : Structural.GlueFields}
    (h : SpelledFields (fun id shape => shapeOf id = some shape) fields fields') :
    Expr.spellFields shapeOf fields = fields' := by
  match h with
  | .nil => rfl
  | .cons hvalue hrest => rw [Expr.spellFields, hvalue.spell_eq, hrest.spell_eq]

end

mutual

theorem Stmt.Spelled.spell_eq {st : Stmt} {st' : Structural.Stmt}
    (h : st.Spelled (fun id shape => shapeOf id = some shape) st') : st.spell shapeOf = st' := by
  match h with
  | .bind hvalue => rw [Stmt.spell, map_eq_of_rel hvalue fun _ _ h => h.spell_eq]
  | .print hvalue => rw [Stmt.spell, hvalue.spell_eq]
  | .evaluate hvalue => rw [Stmt.spell, hvalue.spell_eq]
  | .branch htest hyes => rw [Stmt.spell, htest.spell_eq, hyes.spell_eq]
  | .otherwise htest hyes hno => rw [Stmt.spell, htest.spell_eq, hyes.spell_eq, hno.spell_eq]
  | .whileLoop htest hbody => rw [Stmt.spell, htest.spell_eq, hbody.spell_eq]
  | .forLoop hbounds hbody =>
      have hmap := List.forall₂_map_left_iff.mpr (hbounds.imp fun _ _ h => h.spell_eq)
      rw [List.forall₂_eq_eq_eq] at hmap
      rw [Stmt.spell, hmap, hbody.spell_eq]
  | .block hbody => rw [Stmt.spell, hbody.spell_eq]

theorem Stmt.SpelledBody.spell_eq {body : List Stmt} {body' : List Structural.Stmt}
    (h : SpelledBody (fun id shape => shapeOf id = some shape) body body') :
    Stmt.spellBody shapeOf body = body' := by
  match h with
  | .nil => rfl
  | .cons hfirst hrest => rw [Stmt.spellBody, hfirst.spell_eq, hrest.spell_eq]

end

end SpellEq

/-! ## Trees without types -/

section Spell

variable (denotes : TypeId → Shape → Prop) (shapeOf : TypeId → Option Shape)

theorem rel_of_eq_none {type : Option TypeId} (h : type = none) :
    Option.Rel denotes type (type.bind shapeOf) := by
  subst h
  exact .none

mutual

/-- A tree is spelled out if all its handles stand for something. -/
theorem Expr.spelled_spell : (value : Expr) →
    (∀ node ∈ value.nodes, Option.Rel denotes node.type? (node.type?.bind shapeOf)) →
    value.Spelled denotes (value.spell shapeOf)
  | .literal _ _, h => .literal (h _ (.head _))
  | .var _ _ _, h => .var (h _ (.head _))
  | .read _, h => .read (h _ (.head _))
  | .unary _ operand _, h => by
      obtain ⟨hroot, hoperand⟩ := List.forall_mem_cons.mp h
      exact .unary (spelled_spell operand hoperand) hroot
  | .binary _ left right _, h => by
      obtain ⟨hroot, hparts⟩ := List.forall_mem_cons.mp h
      obtain ⟨hleft, hright⟩ := List.forall_mem_append.mp hparts
      exact .binary (spelled_spell left hleft) (spelled_spell right hright) hroot
  | .conversion operand _, h => by
      obtain ⟨hroot, hoperand⟩ := List.forall_mem_cons.mp h
      exact .conversion (spelled_spell operand hoperand) hroot
  | .load place _, h => by
      obtain ⟨hroot, hplace⟩ := List.forall_mem_cons.mp h
      exact .load (spelled_spell place hplace) hroot
  | .glue fields _, h => by
      obtain ⟨hroot, hfields⟩ := List.forall_mem_cons.mp h
      exact .glue (spelledFields_spellFields fields hfields) hroot
  | .dot base _ _ _, h => by
      obtain ⟨hroot, hbase⟩ := List.forall_mem_cons.mp h
      exact .dot (spelled_spell base hbase) hroot
  | .index base _ _, h => by
      obtain ⟨hroot, hbase⟩ := List.forall_mem_cons.mp h
      exact .index (spelled_spell base hbase) hroot

theorem Expr.spelledFields_spellFields : (fields : GlueFields) →
    (∀ node ∈ fieldNodes fields, Option.Rel denotes node.type? (node.type?.bind shapeOf)) →
    SpelledFields denotes fields (spellFields shapeOf fields)
  | [], _ => .nil
  | (_, value) :: rest, h => by
      obtain ⟨hvalue, hrest⟩ := List.forall_mem_append.mp h
      exact .cons (spelled_spell value hvalue) (spelledFields_spellFields rest hrest)

end

/-- A tree without types is spelled out in the same way whatever its handles would
stand for. -/
theorem Expr.spelled_of_untyped (value : Expr) (h : ∀ node ∈ value.nodes, node.type? = none) :
    value.Spelled denotes (value.spell shapeOf) :=
  spelled_spell denotes shapeOf value fun node hnode =>
    rel_of_eq_none denotes shapeOf (h node hnode)

theorem Expr.forall₂_spelled_of_untyped {values : List Expr}
    (h : ∀ node ∈ values.flatMap nodes, node.type? = none) :
    List.Forall₂ (Spelled denotes) values (values.map (spell shapeOf)) := by
  induction values with
  | nil => exact .nil
  | cons first rest ih =>
      rw [List.flatMap_cons] at h
      obtain ⟨hfirst, hrest⟩ := List.forall_mem_append.mp h
      exact .cons (spelled_of_untyped denotes shapeOf first hfirst) (ih hrest)

mutual

theorem Stmt.spelled_of_untyped : (st : Stmt) → (∀ node ∈ st.nodes, node.type? = none) →
    st.Spelled denotes (st.spell shapeOf)
  | .bind _ _ _ none _, _ => .bind .none
  | .bind _ _ _ (some value) _, h => by
      refine .bind (.some (Expr.spelled_of_untyped denotes shapeOf value fun node hnode => ?_))
      exact h node (by simpa [Stmt.nodes] using hnode)
  | .print value, h => .print (Expr.spelled_of_untyped denotes shapeOf value h)
  | .evaluate value, h => .evaluate (Expr.spelled_of_untyped denotes shapeOf value h)
  | .branch test yes none, h => by
      obtain ⟨htest, hyes⟩ := List.forall_mem_append.mp h
      exact .branch (test.spelled_of_untyped denotes shapeOf htest)
        (spelledBody_of_untyped yes hyes)
  | .branch test yes (some no), h => by
      obtain ⟨hboth, hno⟩ := List.forall_mem_append.mp h
      obtain ⟨htest, hyes⟩ := List.forall_mem_append.mp hboth
      exact .otherwise (test.spelled_of_untyped denotes shapeOf htest)
        (spelledBody_of_untyped yes hyes) (spelledBody_of_untyped no hno)
  | .whileLoop test body, h => by
      obtain ⟨htest, hbody⟩ := List.forall_mem_append.mp h
      exact .whileLoop (test.spelled_of_untyped denotes shapeOf htest)
        (spelledBody_of_untyped body hbody)
  | .forLoop _ _ bounds body, h => by
      obtain ⟨hbounds, hbody⟩ := List.forall_mem_append.mp h
      exact .forLoop (Expr.forall₂_spelled_of_untyped denotes shapeOf hbounds)
        (spelledBody_of_untyped body hbody)
  | .block body, h => .block (spelledBody_of_untyped body h)

theorem Stmt.spelledBody_of_untyped : (body : List Stmt) →
    (∀ node ∈ bodyNodes body, node.type? = none) →
    SpelledBody denotes body (spellBody shapeOf body)
  | [], _ => .nil
  | first :: rest, h => by
      obtain ⟨hfirst, hrest⟩ := List.forall_mem_append.mp h
      exact .cons (spelled_of_untyped first hfirst) (spelledBody_of_untyped rest hrest)

end

end Spell

end FlexWidth
