import FlexWidth.Tree.Basic
import FlexWidth.Text.Numeral

/-!
# Erasing what checking adds

Checking fills the type slots of a tree, records the positions of fields that are taken
by name, and inserts conversions and loads.  `Expr.erase` takes all of this away again
and keeps everything else, the symbols included.

An expression that has nothing to erase is *bare* (`Expr.Bare`), as every expression is
that a parser has read.  Statements are treated through the expressions that stand in
them, their *roots*: a function on expressions acts on all roots of a statement
(`Stmt.mapRoots`), and does nothing if it does nothing to any of them.
-/

namespace FlexWidth

/-! ## Expressions -/

namespace Expr

mutual

/-- The expression without types, positions of named fields, conversions and loads. -/
def erase : Expr → Expr
  | literal value _ => literal value none
  | var name symbol _ => var name symbol none
  | read _ => read none
  | unary operator operand _ => unary operator operand.erase none
  | binary operator left right _ => binary operator left.erase right.erase none
  | conversion operand _ => operand.erase
  | load place _ => place.erase
  | glue fields _ => glue (eraseFields fields) none
  | dot base field _ _ => dot base.erase field none none
  | index base position _ => index base.erase position none

/-- The fields of a struct literal with erased values. -/
def eraseFields : GlueFields → GlueFields
  | [] => []
  | (name, value) :: rest => (name, value.erase) :: eraseFields rest

end

@[simp] theorem erase_withType (value : Expr) (type : TypeId) :
    (value.withType type).erase = value.erase := by
  cases value <;> rfl

/-- An expression as it is read: no slot for a type or a position is filled, nothing is
converted or loaded, and every literal fits a machine word. -/
inductive Bare : Expr → Prop where
  | literal {value : Nat} : value < Text.wordLimit → Bare (literal value none)
  | var {name : String} {symbol : Option SymbolId} : Bare (var name symbol none)
  | read : Bare (read none)
  | unary {operator : String} {operand : Expr} : Bare operand →
      Bare (unary operator operand none)
  | binary {operator : String} {left right : Expr} : Bare left → Bare right →
      Bare (binary operator left right none)
  | glue {fields : GlueFields} : (∀ field ∈ fields, Bare field.2) → Bare (glue fields none)
  | dot {base : Expr} {field : String} : Bare base → Bare (dot base field none none)
  | index {base : Expr} {position : Nat} : Bare base → Bare (index base position none)

theorem eraseFields_eq_map (fields : GlueFields) :
    eraseFields fields = fields.map fun field => (field.1, field.2.erase) := by
  induction fields with
  | nil => rfl
  | cons field rest ih => rw [eraseFields, ih, List.map_cons]

theorem Bare.erase_eq_self {value : Expr} (h : value.Bare) : value.erase = value := by
  induction h with
  | literal => rfl
  | var => rfl
  | read => rfl
  | unary _ ih => rw [erase, ih]
  | binary _ _ ihleft ihright => rw [erase, ihleft, ihright]
  | @glue fields _ ih =>
      have hfields : fields.map (fun field => (field.1, field.2.erase)) = fields := by
        refine (List.map_congr_left fun field hfield => ?_).trans (List.map_id fields)
        simp [ih field hfield]
      rw [erase, eraseFields_eq_map, hfields]
  | dot _ ih => rw [erase, ih]
  | index _ ih => rw [erase, ih]

end Expr

/-! ## Statements -/

namespace Stmt

mutual

/-- The expressions that stand in a statement, not those inside them. -/
def roots : Stmt → List Expr
  | bind _ _ _ value _ => value.toList
  | print value | evaluate value => [value]
  | branch test yes none => test :: bodyRoots yes
  | branch test yes (some no) => test :: (bodyRoots yes ++ bodyRoots no)
  | whileLoop test body => test :: bodyRoots body
  | forLoop _ _ bounds body => bounds ++ bodyRoots body
  | block body => bodyRoots body

/-- The expressions that stand in some statements. -/
def bodyRoots : List Stmt → List Expr
  | [] => []
  | first :: rest => first.roots ++ bodyRoots rest

end

mutual

/-- The types that are written in a statement. -/
def ascriptions : Stmt → List Ascription
  | bind _ _ written _ _ => written.toList
  | print _ | evaluate _ => []
  | branch _ yes none => bodyAscriptions yes
  | branch _ yes (some no) => bodyAscriptions yes ++ bodyAscriptions no
  | whileLoop _ body | forLoop _ _ _ body | block body => bodyAscriptions body

/-- The types that are written in some statements. -/
def bodyAscriptions : List Stmt → List Ascription
  | [] => []
  | first :: rest => first.ascriptions ++ bodyAscriptions rest

end

mutual

/-- The statement with another expression in place of each that stands in it. -/
def mapRoots (f : Expr → Expr) : Stmt → Stmt
  | bind form name written value symbol => bind form name written (value.map f) symbol
  | print value => print (f value)
  | evaluate value => evaluate (f value)
  | branch test yes none => branch (f test) (mapBodyRoots f yes) none
  | branch test yes (some no) =>
    branch (f test) (mapBodyRoots f yes) (some (mapBodyRoots f no))
  | whileLoop test body => whileLoop (f test) (mapBodyRoots f body)
  | forLoop name symbol bounds body => forLoop name symbol (bounds.map f) (mapBodyRoots f body)
  | block body => block (mapBodyRoots f body)

/-- The statements with another expression in place of each that stands in them. -/
def mapBodyRoots (f : Expr → Expr) : List Stmt → List Stmt
  | [] => []
  | first :: rest => first.mapRoots f :: mapBodyRoots f rest

end

/-- The statement with erased expressions. -/
def erase : Stmt → Stmt := mapRoots Expr.erase

/-- The statements with erased expressions. -/
def eraseBody : List Stmt → List Stmt := mapBodyRoots Expr.erase

theorem map_eq_self {f : Expr → Expr} {values : List Expr} (h : ∀ value ∈ values, f value = value) :
    values.map f = values :=
  (List.map_congr_left h).trans (List.map_id values)

mutual

/-- A function that changes none of its roots does not change a statement. -/
theorem mapRoots_eq_self {f : Expr → Expr} : (st : Stmt) →
    (∀ value ∈ st.roots, f value = value) → st.mapRoots f = st
  | bind _ _ _ none _, _ => rfl
  | bind _ _ _ (some value) _, h => by
      have hvalue := h value (by simp [roots])
      simp [mapRoots, hvalue]
  | print value, h => by rw [mapRoots, h value (by simp [roots])]
  | evaluate value, h => by rw [mapRoots, h value (by simp [roots])]
  | branch test yes none, h => by
      obtain ⟨htest, hyes⟩ := List.forall_mem_cons.mp h
      rw [mapRoots, htest, mapBodyRoots_eq_self yes hyes]
  | branch test yes (some no), h => by
      obtain ⟨htest, hbodies⟩ := List.forall_mem_cons.mp h
      obtain ⟨hyes, hno⟩ := List.forall_mem_append.mp hbodies
      rw [mapRoots, htest, mapBodyRoots_eq_self yes hyes, mapBodyRoots_eq_self no hno]
  | whileLoop test body, h => by
      obtain ⟨htest, hbody⟩ := List.forall_mem_cons.mp h
      rw [mapRoots, htest, mapBodyRoots_eq_self body hbody]
  | forLoop _ _ bounds body, h => by
      obtain ⟨hbounds, hbody⟩ := List.forall_mem_append.mp h
      rw [mapRoots, map_eq_self hbounds, mapBodyRoots_eq_self body hbody]
  | block body, h => by rw [mapRoots, mapBodyRoots_eq_self body h]

theorem mapBodyRoots_eq_self {f : Expr → Expr} : (body : List Stmt) →
    (∀ value ∈ bodyRoots body, f value = value) → mapBodyRoots f body = body
  | [], _ => rfl
  | first :: rest, h => by
      obtain ⟨hfirst, hrest⟩ := List.forall_mem_append.mp h
      rw [mapBodyRoots, mapRoots_eq_self first hfirst, mapBodyRoots_eq_self rest hrest]

end

mutual

theorem roots_mapRoots (f : Expr → Expr) : (st : Stmt) → (st.mapRoots f).roots = st.roots.map f
  | bind _ _ _ none _ => rfl
  | bind _ _ _ (some _) _ => rfl
  | print _ => rfl
  | evaluate _ => rfl
  | branch _ yes none => by
      rw [mapRoots, roots, roots, bodyRoots_mapBodyRoots f yes, List.map_cons]
  | branch _ yes (some no) => by
      rw [mapRoots, roots, roots, bodyRoots_mapBodyRoots f yes, bodyRoots_mapBodyRoots f no,
        List.map_cons, List.map_append]
  | whileLoop _ body => by
      rw [mapRoots, roots, roots, bodyRoots_mapBodyRoots f body, List.map_cons]
  | forLoop _ _ _ body => by
      rw [mapRoots, roots, roots, bodyRoots_mapBodyRoots f body, List.map_append]
  | block body => by rw [mapRoots, roots, roots, bodyRoots_mapBodyRoots f body]

theorem bodyRoots_mapBodyRoots (f : Expr → Expr) : (body : List Stmt) →
    bodyRoots (mapBodyRoots f body) = (bodyRoots body).map f
  | [] => rfl
  | first :: rest => by
      rw [mapBodyRoots, bodyRoots, bodyRoots, roots_mapRoots f first,
        bodyRoots_mapBodyRoots f rest, List.map_append]

end

end Stmt

end FlexWidth
