import FlexWidth.Frontend
import FlexWidth.Proofs.Types.Interning
import Mathlib.Data.List.Forall2

/-!
# Elaboration

What checking turns a plain program into, as a relation between trees in a fixed
universe and symbol table.  The order of the walk, the growth of the universe and
the log do not occur in it, so it says of each node only how it relates to the nodes
inside it.

* `Expr.IsFlexible`: the trees of the flexible type, which are built from literals
  and reads by signs and arithmetic.
* `Converts`: a checked expression as a value of some type.
* `Elaborates`, `ElaboratesStmt`: a plain expression or statement and what checking
  makes of it.

All of them persist when the universe grows and symbols receive their types.
-/

namespace FlexWidth

/-- The type of a symbol, once it has one. -/
def SymbolTable.type? (table : SymbolTable) (id : SymbolId) : Option TypeId :=
  (table.get? id).bind Symbol.type

/-- The type that is written. -/
def Ascription.ty : Ascription → Ty
  | .int width => .int width
  | .bool => .bool

namespace Ty

/-- The type itself, or the default integer if it is flexible. -/
def settled : Ty → Ty
  | flexible => int Ascription.defaultWidth
  | ty => ty

/-- The type in which two operands that are not structs meet: their own if they
agree, else the wider integer among them, or the default integer. -/
def join (left right : Ty) : Ty :=
  if left = right then left
  else
    match Option.merge max left.intWidth? right.intWidth? with
    | some width => int width
    | none => int Ascription.defaultWidth

theorem settled_ne_flexible (ty : Ty) : ty.settled ≠ flexible := by
  cases ty <;> simp [settled]

theorem settled_eq_self {ty : Ty} (h : ty ≠ flexible) : ty.settled = ty := by
  cases ty <;> first | rfl | exact absurd rfl h

theorem eq_bool_of_settled {ty : Ty} (h : ty.settled = bool) : ty = bool := by
  cases ty <;> first | rfl | cases h

end Ty

/-! ## Flexible trees -/

namespace Expr

/-- The value of an expression: what lies at a place is loaded. -/
def loaded (value : Expr) : Expr :=
  if value.denotesStorage then .load value value.type? else value

/-- A tree of the flexible type: every node of it has that type. -/
inductive IsFlexible (flex : TypeId) : Expr → Prop where
  | literal {value : Nat} : IsFlexible flex (.literal value (some flex))
  | read : IsFlexible flex (.read (some flex))
  | sign {operand : Expr} : IsFlexible flex operand →
      IsFlexible flex (.unary "-" operand (some flex))
  | binary {operator : String} {left right : Expr} :
      OperatorClass.of? operator = some .arithmetic → IsFlexible flex left →
      IsFlexible flex right → IsFlexible flex (.binary operator left right (some flex))

/-- A flexible tree with another type on every node. -/
def retype (type : TypeId) : Expr → Expr
  | literal value _ => literal value (some type)
  | read _ => read (some type)
  | unary operator operand _ => unary operator (operand.retype type) (some type)
  | binary operator left right _ =>
    binary operator (left.retype type) (right.retype type) (some type)
  | other => other

/-- Whether the literals of a flexible tree lie in the range of a width; a literal
right under a sign is negated. -/
def literalsFit (width : Nat) : Expr → Bool
  | literal value _ => literalFits value width false
  | unary _ (literal value _) _ => literalFits value width true
  | unary _ operand _ => operand.literalsFit width
  | binary _ left right _ => left.literalsFit width && right.literalsFit width
  | _ => true

theorem IsFlexible.type? {flex : TypeId} {value : Expr} (h : value.IsFlexible flex) :
    value.type? = some flex := by
  cases h <;> rfl

theorem IsFlexible.denotesStorage {flex : TypeId} {value : Expr} (h : value.IsFlexible flex) :
    value.denotesStorage = false := by
  cases h <;> rfl

theorem IsFlexible.loaded {flex : TypeId} {value : Expr} (h : value.IsFlexible flex) :
    value.loaded = value := by
  rw [Expr.loaded, h.denotesStorage, if_neg (by decide)]

theorem IsFlexible.type?_retype {flex : TypeId} {value : Expr} (h : value.IsFlexible flex)
    (type : TypeId) : (value.retype type).type? = some type := by
  cases h <;> rfl

theorem type?_loaded (value : Expr) : value.loaded.type? = value.type? := by
  unfold loaded
  split <;> rfl

theorem denotesStorage_loaded (value : Expr) : value.loaded.denotesStorage = false := by
  unfold loaded
  split
  · rfl
  · rename_i h
    simpa using h

@[simp] theorem nesting_loaded (value : Expr) : value.loaded.nesting = value.nesting := by
  unfold loaded
  split
  · rw [nesting]
  · rfl

@[simp] theorem nesting_retype (type : TypeId) (value : Expr) :
    (value.retype type).nesting = value.nesting := by
  induction value using retype.induct with
  | case1 => rw [retype, nesting, nesting]
  | case2 => rw [retype, nesting, nesting]
  | case3 _ operand _ ih => rw [retype, nesting, nesting, ih]
  | case4 _ left right _ ihleft ihright => rw [retype, nesting, nesting, ihleft, ihright]
  | case5 => rw [retype] <;> assumption

/-- The expression denotes a value, and has the type. -/
structure ValueOf (value : Expr) (id : TypeId) : Prop where
  type? : value.type? = some id
  noStorage : value.denotesStorage = false

theorem ValueOf.loaded {value : Expr} {id : TypeId} (h : value.ValueOf id) :
    value.loaded = value := by
  rw [Expr.loaded, h.noStorage, if_neg (by decide)]

theorem valueOf_loaded {value : Expr} {id : TypeId} (h : value.type? = some id) :
    value.loaded.ValueOf id :=
  ⟨value.type?_loaded.trans h, value.denotesStorage_loaded⟩

theorem IsFlexible.valueOf_retype {flex : TypeId} {value : Expr} (h : value.IsFlexible flex)
    (target : TypeId) : (value.retype target).ValueOf target :=
  ⟨h.type?_retype target, by cases h <;> rfl⟩

theorem nesting_le_fieldsNesting {fields : GlueFields} {field : Option String × Expr}
    (h : field ∈ fields) : field.2.nesting ≤ fieldsNesting fields := by
  induction fields with
  | nil => cases h
  | cons first rest ih =>
      rw [fieldsNesting]
      rcases List.mem_cons.mp h with rfl | h
      · exact Nat.le_max_left _ _
      · exact Nat.le_trans (ih h) (Nat.le_max_right _ _)

end Expr

/-! ## Conversion -/

/-- The expression has a type. -/
def Universe.HasTy (types : Universe) (value : Expr) (ty : Ty) : Prop :=
  ∃ id, value.type? = some id ∧ types.get? id = some ty

/-- A checked expression as a value of the type `target`: it has the type, or one
that is widened to it, or it is a flexible tree that takes the type. -/
inductive Converts (types : Universe) : Expr → TypeId → Expr → Prop where
  | same {value : Expr} {target : TypeId} : value.type? = some target →
      Converts types value target value.loaded
  | widen {value : Expr} {source target : TypeId} {s t : Ty} : value.type? = some source →
      types.get? source = some s → types.get? target = some t → Check.widens s t = true →
      Converts types value target (.conversion value.loaded (some target))
  | retype {value : Expr} {flex target : TypeId} {width : Nat} :
      types.get? flex = some .flexible → value.IsFlexible flex →
      types.get? target = some (.int width) → value.literalsFit width = true →
      Converts types value target (value.retype target)

/-- A checked expression as a condition, where `target` is the type of truth values:
besides truth values, integers are tested. -/
inductive Tests (types : Universe) : Expr → TypeId → Expr → Prop where
  | bool {value : Expr} {target : TypeId} : value.type? = some target →
      Tests types value target value.loaded
  | int {value : Expr} {source target : TypeId} {width : Nat} : value.type? = some source →
      types.get? source = some (.int width) →
      Tests types value target (.conversion value.loaded (some target))
  | flexible {value : Expr} {flex source target : TypeId} : types.get? flex = some .flexible →
      value.IsFlexible flex → types.get? source = some (.int Ascription.defaultWidth) →
      value.literalsFit Ascription.defaultWidth = true →
      Tests types value target (.conversion (value.retype source) (some target))

/-! ## Expressions -/

/-- The names of some fields, from a position on, added to those before them. -/
def glueNames (position : Nat) (names : FieldNames) : GlueFields → FieldNames
  | [] => names
  | (some name, _) :: rest => glueNames (position + 1) (names.insert name position) rest
  | (none, _) :: rest => glueNames (position + 1) names rest

mutual

/-- A plain expression and what checking makes of it. -/
inductive Elaborates (types : Universe) (symbols : SymbolTable) : Expr → Expr → Prop where
  | literal {value : Nat} {id : TypeId} : types.get? id = some .flexible →
      Elaborates types symbols (.literal value none) (.literal value (some id))
  | var {name : String} {symbol : SymbolId} {id : TypeId} : symbols.type? symbol = some id →
      Elaborates types symbols (.var name (some symbol) none) (.var name (some symbol) (some id))
  | read {id : TypeId} : types.get? id = some .flexible →
      Elaborates types symbols (.read none) (.read (some id))
  | sign {operand checked : Expr} {id : TypeId} {ty : Ty} :
      Elaborates types symbols operand checked → checked.type? = some id →
      types.get? id = some ty → ty.struct? = none →
      Elaborates types symbols (.unary "-" operand none) (.unary "-" checked.loaded (some id))
  | flexible {operator : String} {left right l r : Expr} {id : TypeId} :
      OperatorClass.of? operator = some .arithmetic → Elaborates types symbols left l →
      Elaborates types symbols right r → types.get? id = some .flexible →
      l.type? = some id → r.type? = some id →
      Elaborates types symbols (.binary operator left right none) (.binary operator l r (some id))
  | arithmetic {operator : String} {left right l r l' r' : Expr} {leftTy rightTy : Ty}
      {target : TypeId} :
      OperatorClass.of? operator = some .arithmetic → Elaborates types symbols left l →
      Elaborates types symbols right r → types.HasTy l leftTy → types.HasTy r rightTy →
      leftTy.struct? = none → rightTy.struct? = none →
      ¬ (leftTy = .flexible ∧ rightTy = .flexible) →
      types.get? target = some (leftTy.join rightTy) →
      Converts types l target l' → Converts types r target r' →
      Elaborates types symbols (.binary operator left right none)
        (.binary operator l' r' (some target))
  | relational {operator : String} {left right l r l' r' : Expr} {leftTy rightTy : Ty}
      {target id : TypeId} :
      OperatorClass.of? operator = some .relational → Elaborates types symbols left l →
      Elaborates types symbols right r → types.HasTy l leftTy → types.HasTy r rightTy →
      leftTy.struct? = none → rightTy.struct? = none →
      types.get? target = some (leftTy.join rightTy).settled →
      Converts types l target l' → Converts types r target r' → types.get? id = some .bool →
      Elaborates types symbols (.binary operator left right none) (.binary operator l' r' (some id))
  | glue {fields checked : GlueFields} {id : TypeId} {struct : StructTy} :
      ElaboratesFields types symbols fields checked → (fields.filterMap Prod.fst).Nodup →
      types.get? id = some (.struct struct) →
      checked.map (fun field => field.2.type?) = struct.fields.map some →
      struct.names = glueNames 0 .empty fields →
      Elaborates types symbols (.glue fields none) (.glue checked (some id))
  | dot {base checked : Expr} {field : String} {position : Nat} {struct : StructTy} {id : TypeId} :
      Elaborates types symbols base checked → types.HasTy checked (.struct struct) →
      struct.names.position? field = some position → struct.fields[position]? = some id →
      Elaborates types symbols (.dot base field none none)
        (.dot checked field (some position) (some id))
  | index {base checked : Expr} {position : Nat} {struct : StructTy} {id : TypeId} :
      Elaborates types symbols base checked → types.HasTy checked (.struct struct) →
      struct.fields[position]? = some id →
      Elaborates types symbols (.index base position none) (.index checked position (some id))

/-- The fields of a struct literal: each becomes a value of its own type, a flexible
one of the default integer. -/
inductive ElaboratesFields (types : Universe) (symbols : SymbolTable) :
    GlueFields → GlueFields → Prop where
  | nil : ElaboratesFields types symbols [] []
  | cons {name : Option String} {value checked final : Expr} {ty : Ty} {target : TypeId}
      {rest rest' : GlueFields} :
      Elaborates types symbols value checked → types.HasTy checked ty →
      types.get? target = some ty.settled → Converts types checked target final →
      ElaboratesFields types symbols rest rest' →
      ElaboratesFields types symbols ((name, value) :: rest) ((name, final) :: rest')

end

/-! ## Statements -/

/-- A plain expression and its value of the type `target`. -/
def ElaboratesTo (types : Universe) (symbols : SymbolTable) (target : TypeId)
    (value final : Expr) : Prop :=
  ∃ checked, Elaborates types symbols value checked ∧ Converts types checked target final

/-- A plain expression and the condition it becomes. -/
def ElaboratesTest (types : Universe) (symbols : SymbolTable) (value final : Expr) : Prop :=
  ∃ checked target, types.get? target = some .bool ∧ Elaborates types symbols value checked ∧
    Tests types checked target final

mutual

/-- A resolved statement and what checking makes of it. -/
inductive ElaboratesStmt (types : Universe) (symbols : SymbolTable) : Stmt → Stmt → Prop where
  | declare {form : BindingForm} {name : String} {written : Ascription} {symbol : SymbolId}
      {id : TypeId} : symbols.type? symbol = some id → types.get? id = some written.ty →
      ElaboratesStmt types symbols (.bind form name (some written) none (some symbol))
        (.bind form name (some written) none (some symbol))
  | bind {form : BindingForm} {name : String} {written : Option Ascription} {value final : Expr}
      {symbol : SymbolId} {id : TypeId} : symbols.type? symbol = some id →
      (∀ ascription ∈ written, types.get? id = some ascription.ty) →
      ElaboratesTo types symbols id value final →
      ElaboratesStmt types symbols (.bind form name written (some value) (some symbol))
        (.bind form name written (some final) (some symbol))
  | print {value final : Expr} {target : TypeId} {width : Nat} :
      types.get? target = some (.int width) → ElaboratesTo types symbols target value final →
      ElaboratesStmt types symbols (.print value) (.print final)
  | evaluate {value checked : Expr} {ty : Ty} : Elaborates types symbols value checked →
      types.HasTy checked ty → ty ≠ .flexible →
      ElaboratesStmt types symbols (.evaluate value) (.evaluate checked)
  | evaluateFlexible {value final : Expr} {target : TypeId} :
      types.get? target = some (.int Ascription.defaultWidth) →
      ElaboratesTo types symbols target value final →
      ElaboratesStmt types symbols (.evaluate value) (.evaluate final)
  | branch {condition condition' : Expr} {yes yes' : List Stmt} :
      ElaboratesTest types symbols condition condition' → ElaboratesStmts types symbols yes yes' →
      ElaboratesStmt types symbols (.branch condition yes none) (.branch condition' yes' none)
  | otherwise {condition condition' : Expr} {yes yes' no no' : List Stmt} :
      ElaboratesTest types symbols condition condition' → ElaboratesStmts types symbols yes yes' →
      ElaboratesStmts types symbols no no' →
      ElaboratesStmt types symbols (.branch condition yes (some no))
        (.branch condition' yes' (some no'))
  | whileLoop {condition condition' : Expr} {body body' : List Stmt} :
      ElaboratesTest types symbols condition condition' →
      ElaboratesStmts types symbols body body' →
      ElaboratesStmt types symbols (.whileLoop condition body) (.whileLoop condition' body')
  | forLoop {name : String} {symbol : SymbolId} {bounds bounds' : List Expr}
      {body body' : List Stmt} {id : TypeId} {width : Nat} : symbols.type? symbol = some id →
      types.get? id = some (.int width) →
      List.Forall₂ (ElaboratesTo types symbols id) bounds bounds' →
      ElaboratesStmts types symbols body body' →
      ElaboratesStmt types symbols (.forLoop name (some symbol) bounds body)
        (.forLoop name (some symbol) bounds' body')
  | block {body body' : List Stmt} : ElaboratesStmts types symbols body body' →
      ElaboratesStmt types symbols (.block body) (.block body')

/-- Resolved statements in a row and what checking makes of them. -/
inductive ElaboratesStmts (types : Universe) (symbols : SymbolTable) :
    List Stmt → List Stmt → Prop where
  | nil : ElaboratesStmts types symbols [] []
  | cons {first first' : Stmt} {rest rest' : List Stmt} :
      ElaboratesStmt types symbols first first' → ElaboratesStmts types symbols rest rest' →
      ElaboratesStmts types symbols (first :: rest) (first' :: rest')

end

/-- What follows from being related to some value holds of all results. -/
theorem forall_of_forall₂ {α β : Type} {r : α → β → Prop} {holds : β → Prop} {values : List α}
    {results : List β} (h : List.Forall₂ r values results)
    (hholds : ∀ value result, r value result → holds result) :
    ∀ result ∈ results, holds result := by
  induction h with
  | nil => exact fun _ hresult => nomatch hresult
  | cons hfirst _ ih => exact List.forall_mem_cons.mpr ⟨hholds _ _ hfirst, ih⟩

/-! ## Growth -/

/-- Symbols keep the types they have. -/
def SymbolTable.Keeps (symbols later : SymbolTable) : Prop :=
  ∀ {id : SymbolId} {type : TypeId}, symbols.type? id = some type → later.type? id = some type

section Growth

variable {types later : Universe} {symbols newer : SymbolTable}

theorem Universe.HasTy.grow {value : Expr} {ty : Ty} (h : types.HasTy value ty)
    (hgrows : types.Grows later) : later.HasTy value ty := by
  obtain ⟨id, hid, hty⟩ := h
  exact ⟨id, hid, hgrows.get? hty⟩

theorem Converts.grow {value final : Expr} {target : TypeId} (h : Converts types value target final)
    (hgrows : types.Grows later) : Converts later value target final := by
  cases h with
  | same htype => exact .same htype
  | widen htype hs ht hwidens => exact .widen htype (hgrows.get? hs) (hgrows.get? ht) hwidens
  | retype hflex hvalue ht hfit => exact .retype (hgrows.get? hflex) hvalue (hgrows.get? ht) hfit

theorem Tests.grow {value final : Expr} {target : TypeId} (h : Tests types value target final)
    (hgrows : types.Grows later) : Tests later value target final := by
  cases h with
  | bool htype => exact .bool htype
  | int htype hs => exact .int htype (hgrows.get? hs)
  | flexible hflex hvalue hs hfit =>
      exact .flexible (hgrows.get? hflex) hvalue (hgrows.get? hs) hfit

mutual

theorem Elaborates.grow {value checked : Expr} (h : Elaborates types symbols value checked)
    (hgrows : types.Grows later) (hkeeps : symbols.Keeps newer) :
    Elaborates later newer value checked := by
  match h with
  | .literal hid => exact .literal (hgrows.get? hid)
  | .var hid => exact .var (hkeeps hid)
  | .read hid => exact .read (hgrows.get? hid)
  | .sign hoperand hid hty hstruct =>
      exact .sign (hoperand.grow hgrows hkeeps) hid (hgrows.get? hty) hstruct
  | .flexible hclass hleft hright hid hl hr =>
      exact .flexible hclass (hleft.grow hgrows hkeeps) (hright.grow hgrows hkeeps)
        (hgrows.get? hid) hl hr
  | .arithmetic hclass hleft hright hl hr hlstruct hrstruct hflexible htarget hl' hr' =>
      exact .arithmetic hclass (hleft.grow hgrows hkeeps) (hright.grow hgrows hkeeps)
        (hl.grow hgrows) (hr.grow hgrows) hlstruct hrstruct hflexible (hgrows.get? htarget)
        (hl'.grow hgrows) (hr'.grow hgrows)
  | .relational hclass hleft hright hl hr hlstruct hrstruct htarget hl' hr' hid =>
      exact .relational hclass (hleft.grow hgrows hkeeps) (hright.grow hgrows hkeeps)
        (hl.grow hgrows) (hr.grow hgrows) hlstruct hrstruct (hgrows.get? htarget)
        (hl'.grow hgrows) (hr'.grow hgrows) (hgrows.get? hid)
  | .glue hfields hdistinct hid htypes hnames =>
      exact .glue (hfields.grow hgrows hkeeps) hdistinct (hgrows.get? hid) htypes hnames
  | .dot hbase hty hposition hid =>
      exact .dot (hbase.grow hgrows hkeeps) (hty.grow hgrows) hposition hid
  | .index hbase hty hid => exact .index (hbase.grow hgrows hkeeps) (hty.grow hgrows) hid

theorem ElaboratesFields.grow {fields checked : GlueFields}
    (h : ElaboratesFields types symbols fields checked) (hgrows : types.Grows later)
    (hkeeps : symbols.Keeps newer) :
    ElaboratesFields later newer fields checked := by
  match h with
  | .nil => exact .nil
  | .cons hvalue hty htarget hfinal hrest =>
      exact .cons (hvalue.grow hgrows hkeeps) (hty.grow hgrows) (hgrows.get? htarget)
        (hfinal.grow hgrows) (hrest.grow hgrows hkeeps)

end

theorem ElaboratesTo.grow {value final : Expr} {target : TypeId}
    (h : ElaboratesTo types symbols target value final) (hgrows : types.Grows later)
    (hkeeps : symbols.Keeps newer) : ElaboratesTo later newer target value final := by
  obtain ⟨checked, hchecked, hfinal⟩ := h
  exact ⟨checked, hchecked.grow hgrows hkeeps, hfinal.grow hgrows⟩

theorem ElaboratesTest.grow {value final : Expr} (h : ElaboratesTest types symbols value final)
    (hgrows : types.Grows later) (hkeeps : symbols.Keeps newer) :
    ElaboratesTest later newer value final := by
  obtain ⟨checked, target, htarget, hchecked, hfinal⟩ := h
  exact ⟨checked, target, hgrows.get? htarget, hchecked.grow hgrows hkeeps, hfinal.grow hgrows⟩

mutual

theorem ElaboratesStmt.grow {st st' : Stmt} (h : ElaboratesStmt types symbols st st')
    (hgrows : types.Grows later) (hkeeps : symbols.Keeps newer) :
    ElaboratesStmt later newer st st' := by
  match h with
  | .declare hid hty => exact .declare (hkeeps hid) (hgrows.get? hty)
  | .bind hid hwritten hvalue =>
      exact .bind (hkeeps hid) (fun ascription hmem => hgrows.get? (hwritten ascription hmem))
        (hvalue.grow hgrows hkeeps)
  | .print htarget hvalue => exact .print (hgrows.get? htarget) (hvalue.grow hgrows hkeeps)
  | .evaluate hvalue hty hflexible =>
      exact .evaluate (hvalue.grow hgrows hkeeps) (hty.grow hgrows) hflexible
  | .evaluateFlexible htarget hvalue =>
      exact .evaluateFlexible (hgrows.get? htarget) (hvalue.grow hgrows hkeeps)
  | .branch htest hyes => exact .branch (htest.grow hgrows hkeeps) (hyes.grow hgrows hkeeps)
  | .otherwise htest hyes hno =>
      exact .otherwise (htest.grow hgrows hkeeps) (hyes.grow hgrows hkeeps)
        (hno.grow hgrows hkeeps)
  | .whileLoop htest hbody => exact .whileLoop (htest.grow hgrows hkeeps) (hbody.grow hgrows hkeeps)
  | .forLoop hid hty hbounds hbody =>
      exact .forLoop (hkeeps hid) (hgrows.get? hty)
        (hbounds.imp fun _ _ h => h.grow hgrows hkeeps) (hbody.grow hgrows hkeeps)
  | .block hbody => exact .block (hbody.grow hgrows hkeeps)

theorem ElaboratesStmts.grow {body body' : List Stmt} (h : ElaboratesStmts types symbols body body')
    (hgrows : types.Grows later) (hkeeps : symbols.Keeps newer) :
    ElaboratesStmts later newer body body' := by
  match h with
  | .nil => exact .nil
  | .cons hfirst hrest => exact .cons (hfirst.grow hgrows hkeeps) (hrest.grow hgrows hkeeps)

end

end Growth

/-! ## What checked expressions are like -/

/-- A universe and a symbol table as checking keeps them: no symbol is flexible. -/
structure SoundContext (types : Universe) (symbols : SymbolTable) : Prop where
  sound : types.Sound
  concrete : ∀ {id : SymbolId} {type : TypeId}, symbols.type? id = some type → types.Concrete type

theorem Ty.join_ne_flexible {left right : Ty} (h : ¬ (left = .flexible ∧ right = .flexible)) :
    left.join right ≠ .flexible := by
  unfold Ty.join
  split
  · rename_i heq
    rintro rfl
    exact h ⟨rfl, heq.symm⟩
  · split <;> simp

section Checked

variable {types : Universe} {symbols : SymbolTable} {value checked final : Expr} {target : TypeId}

theorem Converts.valueOf (h : Converts types value target final) : final.ValueOf target := by
  cases h with
  | same htype => exact Expr.valueOf_loaded htype
  | widen => exact ⟨rfl, rfl⟩
  | retype _ hvalue => exact hvalue.valueOf_retype target

theorem Tests.valueOf (h : Tests types value target final) : final.ValueOf target := by
  cases h with
  | bool htype => exact Expr.valueOf_loaded htype
  | int => exact ⟨rfl, rfl⟩
  | flexible => exact ⟨rfl, rfl⟩

theorem Converts.type? (h : Converts types value target final) : final.type? = some target :=
  h.valueOf.type?

theorem Converts.nesting (h : Converts types value target final) :
    final.nesting = value.nesting := by
  cases h with
  | same => exact value.nesting_loaded
  | widen => rw [Expr.nesting, Expr.nesting_loaded]
  | retype => exact value.nesting_retype target

mutual

/-- Checking keeps how deeply operators and struct literals nest. -/
theorem Elaborates.nesting {value checked : Expr} (h : Elaborates types symbols value checked) :
    checked.nesting = value.nesting := by
  match h with
  | .literal _ => rw [Expr.nesting, Expr.nesting]
  | .var _ => rw [Expr.nesting, Expr.nesting]
  | .read _ => rw [Expr.nesting, Expr.nesting]
  | .sign hoperand _ _ _ => rw [Expr.nesting, Expr.nesting, Expr.nesting_loaded, hoperand.nesting]
  | .flexible _ hleft hright _ _ _ => rw [Expr.nesting, Expr.nesting, hleft.nesting, hright.nesting]
  | .arithmetic _ hleft hright _ _ _ _ _ _ hl' hr' =>
      rw [Expr.nesting, Expr.nesting, hl'.nesting, hr'.nesting, hleft.nesting, hright.nesting]
  | .relational _ hleft hright _ _ _ _ _ hl' hr' _ =>
      rw [Expr.nesting, Expr.nesting, hl'.nesting, hr'.nesting, hleft.nesting, hright.nesting]
  | .glue hfields _ _ _ _ => rw [Expr.nesting, Expr.nesting, hfields.nesting]
  | .dot hbase _ _ _ => rw [Expr.nesting, Expr.nesting, hbase.nesting]
  | .index hbase _ _ => rw [Expr.nesting, Expr.nesting, hbase.nesting]

theorem ElaboratesFields.nesting {fields checked : GlueFields}
    (h : ElaboratesFields types symbols fields checked) :
    Expr.fieldsNesting checked = Expr.fieldsNesting fields := by
  match h with
  | .nil => rfl
  | .cons hvalue _ _ hfinal hrest =>
      rw [Expr.fieldsNesting, Expr.fieldsNesting, hfinal.nesting, hvalue.nesting, hrest.nesting]

end

theorem ElaboratesFields.length {fields checked : GlueFields}
    (h : ElaboratesFields types symbols fields checked) : checked.length = fields.length := by
  match h with
  | .nil => rfl
  | .cons _ _ _ _ hrest => rw [List.length_cons, List.length_cons, hrest.length]

/-- A checked expression has a valid type, and if that is the flexible one it is a
flexible tree. -/
theorem Elaborates.exists_type {value checked : Expr} (hcontext : SoundContext types symbols)
    (h : Elaborates types symbols value checked) :
    ∃ id ty, checked.type? = some id ∧ types.get? id = some ty ∧
      (ty = .flexible → checked.IsFlexible id) := by
  -- a field of a struct in the universe is not flexible
  have hfield {struct : StructTy} {base : Expr} {position : Nat} {id : TypeId}
      (hty : types.HasTy base (.struct struct)) (hid : struct.fields[position]? = some id) :
      types.Concrete id := by
    obtain ⟨base, -, hbase⟩ := hty
    exact (hcontext.sound.admits hbase).1 id (List.mem_of_getElem? hid)
  match h with
  | .literal hid => exact ⟨_, _, rfl, hid, fun _ => .literal⟩
  | .var hid =>
      obtain ⟨ty, hty, hflexible⟩ := hcontext.concrete hid
      exact ⟨_, ty, rfl, hty, fun heq => absurd heq hflexible⟩
  | .read hid => exact ⟨_, _, rfl, hid, fun _ => .read⟩
  | .sign hoperand hid hty _ =>
      refine ⟨_, _, rfl, hty, fun heq => .sign ?_⟩
      obtain ⟨id, ty, hid', hty', hflexible⟩ := hoperand.exists_type hcontext
      cases hid.symm.trans hid'
      cases hty.symm.trans hty'
      have hoperand := hflexible heq
      rwa [hoperand.loaded]
  | .flexible hclass hleft hright hid hl hr =>
      refine ⟨_, _, rfl, hid, fun _ => .binary hclass ?_ ?_⟩
      · obtain ⟨id, ty, hid', hty', hflexible⟩ := hleft.exists_type hcontext
        cases hl.symm.trans hid'
        cases hid.symm.trans hty'
        exact hflexible rfl
      · obtain ⟨id, ty, hid', hty', hflexible⟩ := hright.exists_type hcontext
        cases hr.symm.trans hid'
        cases hid.symm.trans hty'
        exact hflexible rfl
  | .arithmetic _ _ _ _ _ _ _ hflexible htarget _ _ =>
      exact ⟨_, _, rfl, htarget, fun heq => absurd heq (Ty.join_ne_flexible hflexible)⟩
  | .relational _ _ _ _ _ _ _ _ _ _ hid => exact ⟨_, _, rfl, hid, fun heq => nomatch heq⟩
  | .glue _ _ hid _ _ => exact ⟨_, _, rfl, hid, fun heq => nomatch heq⟩
  | .dot _ hty _ hid =>
      obtain ⟨ty, hty, hflexible⟩ := hfield hty hid
      exact ⟨_, ty, rfl, hty, fun heq => absurd heq hflexible⟩
  | .index _ hty hid =>
      obtain ⟨ty, hty, hflexible⟩ := hfield hty hid
      exact ⟨_, ty, rfl, hty, fun heq => absurd heq hflexible⟩

end Checked

end FlexWidth
