import FlexWidth.Diagnostic

/-!
# Failures

A stage of the front end ends without a result in one of two ways: it *refuses*
the program, with a diagnostic for the programmer, or it runs into a *fault*, a
broken promise of the library itself. Faults are kept apart so that their
absence can be stated.
-/

namespace FlexWidth

/-- A broken promise between parts of the library. -/
inductive Fault where
  /-- A type handle points outside the universe, or a struct contains itself. -/
  | unknownType
  /-- A symbol handle points outside the symbol table. -/
  | unknownSymbol
  /-- A field name leads to a position that the struct does not have. -/
  | unknownPosition
  /-- A width leaves the range of widths. -/
  | widthOverflow
  /-- A recursion went deeper than its input allows. -/
  | recursionDepth
deriving DecidableEq, Repr

/-- Why a stage ends without a result. -/
inductive Failure where
  | refused (diagnostic : Diagnostic)
  | broken (fault : Fault)
deriving DecidableEq, Repr

/-- Ends a stage with a diagnostic; the stage's state stays as it is. -/
def refuse {σ α : Type} (diagnostic : Diagnostic) : EStateM Failure σ α :=
  throw (.refused diagnostic)

/-- Ends a stage with a fault; the stage's state stays as it is. -/
def fault {σ α : Type} (fault : Fault) : EStateM Failure σ α :=
  throw (.broken fault)

/-- The value, or a fault if there is none. -/
def orFault {σ α : Type} (missing : Fault) : Option α → EStateM Failure σ α
  | some value => pure value
  | none => fault missing

/-- The value, or a diagnostic if there is none. -/
def orRefuse {σ α : Type} (diagnostic : Diagnostic) : Option α → EStateM Failure σ α
  | some value => pure value
  | none => refuse diagnostic

/-- The result of a computation without state, whose error is a diagnostic. -/
def ofExcept {σ α : Type} : Except Diagnostic α → EStateM Failure σ α
  | .ok value => pure value
  | .error diagnostic => refuse diagnostic

/-- What a stage yields, its last state put aside. -/
def outcome {σ α : Type} : EStateM.Result Failure σ α → Except Failure α
  | .ok value _ => .ok value
  | .error failure _ => .error failure

end FlexWidth
