import FlexWidth.Typing.State

/-!
# Literals

A literal must lie in the range of the signed integers of its width. A literal
under a minus sign may be one greater, since the range reaches further below
zero than above it.
-/

namespace FlexWidth

/-- The number of non-negative integers of a width: one bit is the sign. -/
def literalLimit (width : Nat) : Nat := 1 <<< (width - 1)

/-- Whether a literal, negated or not, lies in the range of a width. No integer
has width zero, and a width above 64 has room for every literal. -/
def literalFits (value width : Nat) (negated : Bool) : Bool :=
  if width = 0 then false
  else if 64 < width then true
  else if negated then value ≤ literalLimit width
  else value < literalLimit width

namespace Check

/-- The text of a literal. -/
def literalText (value : Nat) (negated : Bool) : String :=
  if negated then "-" ++ toString value else toString value

/-- Refuses a literal that does not fit its type. -/
def fits (value : Nat) (type : TypeId) (negated : Bool) : CheckM Unit := do
  match ← typeAt type with
  | .int width =>
    if literalFits value width negated then return ()
    else
      let text ← describe type
      refuse (.literalOutOfRange (literalText value negated) text)
  | .flexible => return ()
  | _ =>
    let text ← describe type
    refuse (.typeMismatch text "int")

/-- A type, or the flexible one if there is none. -/
def orFlexible : Option TypeId → CheckM TypeId
  | some type => return type
  | none => intern Universe.internFlexible

/-- A literal of its own type, or a flexible one. -/
def literal (value : Nat) (type : Option TypeId) : CheckM Expr := do
  let type ← orFlexible type
  fits value type false
  return .literal value (some type)

/-- A literal under a minus sign: of the type demanded, or its own, or a
flexible one. -/
def negatedLiteral (value : Nat) (type demand : Option TypeId) : CheckM Expr := do
  let type ← orFlexible (demand.or type)
  fits value type true
  return .literal value (some type)

end Check

end FlexWidth
