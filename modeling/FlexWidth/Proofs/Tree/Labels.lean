import FlexWidth.Tree.Basic

/-!
# Names and symbols in a tree

Variables, bindings and loops carry a *label*: a name and the slot for its symbol.  The
labels of a tree are listed in the order of the walk, and a function on labels acts on all
of them (`Expr.relabel`, `Stmt.relabel`) and on nothing else.  Clearing the symbols of a
tree is one such function, and so is renaming its variables.  The names of fields are no
labels.
-/

namespace FlexWidth

/-- A name where it stands in a tree, and its symbol there. -/
abbrev Label := String × Option SymbolId

/-! ## Expressions -/

namespace Expr

mutual

/-- The labels of the variables in an expression. -/
def labels : Expr → List Label
  | literal .. | read .. => []
  | var name symbol _ => [(name, symbol)]
  | unary _ operand _ => operand.labels
  | binary _ left right _ => left.labels ++ right.labels
  | conversion operand _ => operand.labels
  | load place _ => place.labels
  | glue fields _ => fieldLabels fields
  | dot base _ _ _ => base.labels
  | index base _ _ => base.labels

/-- The labels of the variables in the fields of a struct literal. -/
def fieldLabels : GlueFields → List Label
  | [] => []
  | (_, value) :: rest => value.labels ++ fieldLabels rest

end

mutual

/-- The expression with another label on each variable. -/
def relabel (f : Label → Label) : Expr → Expr
  | literal value type => literal value type
  | var name symbol type => var (f (name, symbol)).1 (f (name, symbol)).2 type
  | read type => read type
  | unary operator operand type => unary operator (operand.relabel f) type
  | binary operator left right type =>
    binary operator (left.relabel f) (right.relabel f) type
  | conversion operand type => conversion (operand.relabel f) type
  | load place type => load (place.relabel f) type
  | glue fields type => glue (relabelFields f fields) type
  | dot base field position type => dot (base.relabel f) field position type
  | index base position type => index (base.relabel f) position type

/-- The fields of a struct literal with another label on each variable. -/
def relabelFields (f : Label → Label) : GlueFields → GlueFields
  | [] => []
  | (name, value) :: rest => (name, value.relabel f) :: relabelFields f rest

end

@[simp] theorem type?_relabel (f : Label → Label) (value : Expr) :
    (value.relabel f).type? = value.type? := by
  cases value <;> rfl

@[simp] theorem relabel_withType (f : Label → Label) (value : Expr) (type : TypeId) :
    (value.withType type).relabel f = (value.relabel f).withType type := by
  cases value <;> rfl

@[simp] theorem denotesStorage_relabel (f : Label → Label) (value : Expr) :
    (value.relabel f).denotesStorage = value.denotesStorage := by
  cases value <;> rfl

mutual

@[simp] theorem nesting_relabel (f : Label → Label) : (value : Expr) →
    (value.relabel f).nesting = value.nesting
  | literal .. | var .. | read .. => rfl
  | unary _ operand _ => by rw [relabel, nesting, nesting, nesting_relabel f operand]
  | binary _ left right _ => by
      rw [relabel, nesting, nesting, nesting_relabel f left, nesting_relabel f right]
  | conversion operand _ => by rw [relabel, nesting, nesting, nesting_relabel f operand]
  | load place _ => by rw [relabel, nesting, nesting, nesting_relabel f place]
  | glue fields _ => by rw [relabel, nesting, nesting, fieldsNesting_relabelFields f fields]
  | dot base _ _ _ => by rw [relabel, nesting, nesting, nesting_relabel f base]
  | index base _ _ => by rw [relabel, nesting, nesting, nesting_relabel f base]

theorem fieldsNesting_relabelFields (f : Label → Label) : (fields : GlueFields) →
    fieldsNesting (relabelFields f fields) = fieldsNesting fields
  | [] => rfl
  | (_, value) :: rest => by
      rw [relabelFields, fieldsNesting, fieldsNesting, nesting_relabel f value,
        fieldsNesting_relabelFields f rest]

end

end Expr

/-! ## Statements -/

namespace Stmt

mutual

/-- The labels of the variables, bindings and loops in a statement. -/
def labels : Stmt → List Label
  | bind _ name _ value symbol => value.toList.flatMap Expr.labels ++ [(name, symbol)]
  | print value | evaluate value => value.labels
  | branch test yes none => test.labels ++ bodyLabels yes
  | branch test yes (some no) => test.labels ++ (bodyLabels yes ++ bodyLabels no)
  | whileLoop test body => test.labels ++ bodyLabels body
  | forLoop name symbol bounds body =>
    bounds.flatMap Expr.labels ++ (name, symbol) :: bodyLabels body
  | block body => bodyLabels body

/-- The labels in some statements. -/
def bodyLabels : List Stmt → List Label
  | [] => []
  | first :: rest => first.labels ++ bodyLabels rest

end

mutual

/-- The statement with another label on each variable, binding and loop. -/
def relabel (f : Label → Label) : Stmt → Stmt
  | bind form name written value symbol =>
    bind form (f (name, symbol)).1 written (value.map (Expr.relabel f)) (f (name, symbol)).2
  | print value => print (value.relabel f)
  | evaluate value => evaluate (value.relabel f)
  | branch test yes none => branch (test.relabel f) (relabelBody f yes) none
  | branch test yes (some no) =>
    branch (test.relabel f) (relabelBody f yes) (some (relabelBody f no))
  | whileLoop test body => whileLoop (test.relabel f) (relabelBody f body)
  | forLoop name symbol bounds body =>
    forLoop (f (name, symbol)).1 (f (name, symbol)).2 (bounds.map (Expr.relabel f))
      (relabelBody f body)
  | block body => block (relabelBody f body)

/-- The statements with another label on each variable, binding and loop. -/
def relabelBody (f : Label → Label) : List Stmt → List Stmt
  | [] => []
  | first :: rest => first.relabel f :: relabelBody f rest

end

end Stmt

end FlexWidth
