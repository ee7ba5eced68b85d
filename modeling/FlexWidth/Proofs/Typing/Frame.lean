import FlexWidth.Proofs.Types.Shapes
import FlexWidth.Proofs.Typing.Keeps

/-!
# What checking leaves alone

However a call of the checker ends, it leads to a state in which every type keeps its handle,
the symbols are the same, and a symbol that has a type keeps it.  To have come from some first
state in this way is an invariant of checking (`Check.invariant_advances`), on any trees and
from any state.
-/

namespace FlexWidth.Check

theorem advances_of_grows {s : Checking} {types : Universe} (h : s.types.Grows types) :
    s.Advances { s with types := types } :=
  ⟨h, fun hid => hid, rfl, rfl⟩

/-- A symbol that has a type keeps it, and one that has none may receive it. -/
theorem advances_of_setType? {s : Checking} {symbol : SymbolId} {type : TypeId} {done : Bool}
    {symbols : SymbolTable} (h : s.symbols.setType? symbol type = some (done, symbols)) :
    s.Advances { s with symbols := symbols } := by
  by_cases hlt : symbol.index < s.symbols.size
  · cases htype : s.symbols.type? symbol with
    | some old =>
        cases (SymbolTable.setType?_of_typed htype type).symm.trans h
        exact .refl s
    | none =>
        obtain ⟨later, hset, hsize, hlabels, hlater⟩ :=
          SymbolTable.exists_setType?_of_fresh hlt htype type
        cases hset.symm.trans h
        refine ⟨.refl _, ?_, hsize, hlabels⟩
        intro id old hid
        have hne : id ≠ symbol := by
          rintro rfl
          rw [htype] at hid
          cases hid
        exact (hlater id).trans ((if_neg hne).trans hid)
  · have hnone : s.symbols.get? symbol = none := Array.getElem?_eq_none (Nat.le_of_not_lt hlt)
    simp only [SymbolTable.setType?, hnone] at h
    cases h

/-- Checking goes on from a first state, and may fail in any way. -/
theorem invariant_advances (start : Checking) :
    Invariant start.Advances (fun _ => True) fun _ => True where
  intern hs _ _ := hs.trans (advances_of_grows (Universe.grows_intern _ _))
  setType hs hset := hs.trans (advances_of_setType? hset)
  note _ hs := hs.trans ⟨.refl _, fun hid => hid, rfl, rfl⟩
  refused _ := trivial
  broken _ := trivial
  position _ _ _ _ := trivial

/-! ## Calls of the checker -/

/-- A call of the checker on some tree. -/
inductive Call where
  | expr (value : Expr)
  | convert (value : Expr) (target : TypeId)
  | stmt (st : Stmt)
  | stmts (body : List Stmt)

/-- The state after a call, whether it returns or fails. -/
def Call.after (s : Checking) : Call → Checking
  | expr value => stateOf (Check.expr value s)
  | convert value target => stateOf (Check.convert value target s)
  | stmt st => stateOf (Check.stmt st s)
  | stmts body => stateOf (Check.stmts body s)

theorem Call.advances_after (s : Checking) (call : Call) : s.Advances (call.after s) := by
  have h := invariant_advances s
  have hallowed := allows_true
  cases call with
  | expr value => exact (keeps_expr h (hallowed value)).stateOf (.refl s)
  | convert value target => exact (keeps_convert h (hallowed value) target).stateOf (.refl s)
  | stmt st => exact (keeps_stmt h st fun value _ => hallowed value).stateOf (.refl s)
  | stmts body => exact (keeps_stmts h body fun value _ => hallowed value).stateOf (.refl s)

theorem Call.advances_foldl (calls : List Call) (s : Checking) :
    s.Advances (calls.foldl after s) := by
  induction calls generalizing s with
  | nil => exact .refl s
  | cons first rest ih => exact (advances_after s first).trans (ih (first.after s))

/-- **What has been checked keeps its meaning.**  After any calls of the checker, on any
trees and from any state, whether they return or fail: the types of before are the first of
those there are now, the symbols are as many, with the same names and kinds, a symbol that had
a type has it still, and every handle denotes the type that it denoted. -/
theorem Call.keeps_meaning (calls : List Call) (s : Checking) :
    let final := calls.foldl after s
    (∃ added, final.types.arena = s.types.arena ++ added) ∧
      final.symbols.size = s.symbols.size ∧
      (∀ symbol, (final.symbols.get? symbol).map (fun known => (known.name, known.origin)) =
        (s.symbols.get? symbol).map fun known => (known.name, known.origin)) ∧
      (∀ symbol type, s.symbols.type? symbol = some type →
        final.symbols.type? symbol = some type) ∧
      (∀ id ty, s.types.get? id = some ty → final.types.get? id = some ty) ∧
      ∀ id shape, s.types.shape? id = some shape → final.types.shape? id = some shape := by
  intro final
  have hadvances : s.Advances final := advances_foldl calls s
  refine ⟨hadvances.grows, hadvances.size, ?_, ?_, ?_, ?_⟩
  · intro symbol
    exact congrFun hadvances.labels symbol
  · intro symbol type htype
    exact hadvances.keeps htype
  · intro id ty hty
    exact hadvances.grows.get? hty
  · intro id shape hshape
    exact hadvances.grows.shapeWithin hshape

end FlexWidth.Check
