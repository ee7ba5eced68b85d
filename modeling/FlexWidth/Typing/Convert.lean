import FlexWidth.Typing.State

/-!
# Conversion

Where a value of some type is wanted, a place is loaded from, a flexible
expression takes the type and is checked again so that the demand reaches its
leaves, and any other expression is wrapped in a conversion, if that only widens
it or turns an integer into a truth value.
-/

namespace FlexWidth.Check

/-- The value of an expression: a place is loaded from. -/
def materialize (expr : Expr) : CheckM Expr := do
  if expr.denotesStorage then
    let type ← typeOf expr
    return .load expr (some type)
  else return expr

/-- Reports that a typed expression is converted. -/
def reportConversion (expr : Expr) (target : TypeId) : CheckM Unit := do
  match expr.type? with
  | some source =>
    let sourceText ← describe source
    let targetText ← describe target
    note (.converted sourceText targetText)
  | none => return ()

/-- Wraps an expression in a conversion and reports it. -/
def wrapConversion (expr : Expr) (target : TypeId) : CheckM Expr := do
  reportConversion expr target
  return .conversion expr (some target)

/-- Whether every value of one type is a value of another: truth values are
integers, and integers are wider integers. -/
def widens : Ty → Ty → Bool
  | .bool, .int _ => true
  | .int source, .int target => source < target
  | _, _ => false

/-- A flexible expression as a default integer; any other stays as it is. -/
def settle (recheck : Expr → CheckM Expr) (expr : Expr) (current : TypeId) : CheckM Expr := do
  if ← isFlexible current then
    let defaultInt ← intern Universe.internDefaultInt
    recheck (expr.withType defaultInt)
  else return expr

/-- Makes an expression a truth value; a flexible one becomes an integer first. -/
def convertToBool (recheck : Expr → CheckM Expr) (expr : Expr) (current target : TypeId) :
    CheckM Expr := do
  let expr ← settle recheck expr current
  let current ← typeOf expr
  match ← typeAt current with
  | .int _ => wrapConversion expr target
  | _ => mismatch target current

/-- Makes an expression a value of the type `target`. A flexible target demands
nothing. `recheck` checks an expression whose type has been set. -/
def convertWith (recheck : Expr → CheckM Expr) (expr : Expr) (target : TypeId) : CheckM Expr := do
  let expr ← materialize expr
  let current ← typeOf expr
  if current = target then return expr
  else
    let targetTy ← typeAt target
    if targetTy = .flexible then return expr
    else if targetTy = .bool then convertToBool recheck expr current target
    else
      let currentTy ← typeAt current
      if currentTy = .flexible then
        if targetTy.struct?.isSome then mismatch target current
        else recheck (expr.withType target)
      else if widens currentTy targetTy then wrapConversion expr target
      else mismatch target current

end FlexWidth.Check
