import FlexWidth.Tree.Basic

/-!
# Outlines

A tree is shown as an *outline*: labelled nodes, one to a line, indented by
depth. `Outline` is the labelled tree itself, `Outline.render` its text, and
`Program.outline` the outline of a program.

Types are shown by a function from handles to texts. The function that knows no
text gives the bare outline.
-/

namespace FlexWidth

/-- A tree of labels. -/
inductive Outline where
  | node (label : String) (children : List Outline)
deriving Repr

namespace Outline

/-- What stands before a label at a given depth. -/
def margin (depth : Nat) : String :=
  String.join (List.replicate depth "  |") ++ (if depth = 0 then "" else "-- ")

mutual

/-- The lines of an outline whose root stands at a given depth. -/
def lines (depth : Nat) : Outline → List String
  | node label children => (margin depth ++ label) :: childLines (depth + 1) children

/-- The lines of outlines that stand side by side. -/
def childLines (depth : Nat) : List Outline → List String
  | [] => []
  | child :: rest => lines depth child ++ childLines depth rest

end

/-- The text of an outline; each line ends in a newline. -/
def render (outline : Outline) : String :=
  String.join ((outline.lines 0).map (· ++ "\n"))

end Outline

namespace Expr

/-- The label of a node, without its type. -/
def label : Expr → String
  | literal value _ => "IntLit [" ++ toString value ++ "]"
  | var name _ _ => "Id [" ++ name ++ "]"
  | read _ => "InputExpr"
  | unary operator _ _ => "UnaryExpr [" ++ operator ++ "]"
  | binary operator _ _ _ => "BinExpr [" ++ operator ++ "]"
  | conversion _ _ => "Conversion"
  | load _ _ => "LValToRVal"
  | glue _ _ => "Glue"
  | dot _ field _ _ => "DotExpr [" ++ field ++ "]"
  | index _ position _ => "IndexExpr [" ++ toString position ++ "]"

/-- The label of a node, with its type if that has a text. -/
def typedLabel (typeText : TypeId → Option String) (expr : Expr) : String :=
  match expr.type?.bind typeText with
  | some text => expr.label ++ " : " ++ text
  | none => expr.label

mutual

/-- The outline of an expression. -/
def outline (typeText : TypeId → Option String) : Expr → Outline
  | expr@(literal ..) => .node (expr.typedLabel typeText) []
  | expr@(var ..) => .node (expr.typedLabel typeText) []
  | expr@(read ..) => .node (expr.typedLabel typeText) []
  | expr@(unary _ operand _) => .node (expr.typedLabel typeText) [outline typeText operand]
  | expr@(binary _ left right _) =>
    .node (expr.typedLabel typeText) [outline typeText left, outline typeText right]
  | expr@(conversion operand _) => .node (expr.typedLabel typeText) [outline typeText operand]
  | expr@(load place _) => .node (expr.typedLabel typeText) [outline typeText place]
  | expr@(glue fields _) => .node (expr.typedLabel typeText) (fieldOutlines typeText fields)
  | expr@(dot base _ _ _) => .node (expr.typedLabel typeText) [outline typeText base]
  | expr@(index base _ _) => .node (expr.typedLabel typeText) [outline typeText base]

/-- The outlines of the fields of a struct literal. A named field has a node of
its own. -/
def fieldOutlines (typeText : TypeId → Option String) : GlueFields → List Outline
  | [] => []
  | (some name, value) :: rest =>
    .node ("Field [" ++ name ++ "]") [outline typeText value] :: fieldOutlines typeText rest
  | (none, value) :: rest => outline typeText value :: fieldOutlines typeText rest

end

end Expr

namespace Stmt

/-- The label of a binding. -/
def bindingLabel : BindingForm → String → String
  | .declaration, name => "Declaration [Name: " ++ name ++ "]"
  | .assignment, name => "Assignment [Name: " ++ name ++ "]"

mutual

/-- The outline of a statement. -/
def outline (typeText : TypeId → Option String) : Stmt → Outline
  | bind form name ascription value _ =>
    .node (bindingLabel form name)
      ((ascription.map fun written => .node ("TypeSpec [" ++ written.text ++ "]") []).toList ++
        (value.map (Expr.outline typeText)).toList)
  | print value => .node "Output" [value.outline typeText]
  | evaluate value => .node "ExprStmt" [value.outline typeText]
  | branch condition yes none =>
    .node "If" [condition.outline typeText, .node "Then" (outlines typeText yes)]
  | branch condition yes (some no) =>
    .node "If" [condition.outline typeText, .node "Then" (outlines typeText yes),
      .node "Else" (outlines typeText no)]
  | whileLoop condition body =>
    .node "While" [condition.outline typeText, .node "Body" (outlines typeText body)]
  | forLoop name _ bounds body =>
    .node ("For [Var: " ++ name ++ "]")
      (bounds.map (Expr.outline typeText) ++ [.node "Body" (outlines typeText body)])
  | block body => .node "Block" (outlines typeText body)

/-- The outlines of a list of statements. -/
def outlines (typeText : TypeId → Option String) : List Stmt → List Outline
  | [] => []
  | stmt :: rest => outline typeText stmt :: outlines typeText rest

end

end Stmt

namespace Program

/-- The outline of a program. -/
def outline (typeText : TypeId → Option String) (program : Program) : Outline :=
  .node "Program" (Stmt.outlines typeText program)

/-- The text of a program's outline. -/
def dump (typeText : TypeId → Option String) (program : Program) : String :=
  (program.outline typeText).render

end Program

end FlexWidth
