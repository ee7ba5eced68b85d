import FlexWidth.Event
import FlexWidth.Proofs.Stage
import FlexWidth.Proofs.Tree.Labels
import FlexWidth.Scope.Symbol

/-!
# Renaming variables

A function on names acts on everything in which the name of a variable occurs: on the
labels of a tree, on symbols, on events and on the diagnostics that name a variable.  It
leaves the names of fields, the numbers of symbols and types and the texts of types alone.

`Renames` compares two stages: from a renamed state the second one ends as the first one
does from the state itself, up to renaming.  This goes through a sequence
(`Renames.bind`), so it need only be shown for single steps.
-/

namespace FlexWidth

/-- The label with another name and the same symbol. -/
abbrev onName (f : String → String) : Label → Label := Prod.map f id

/-- The diagnostic about the renamed variable. -/
def Diagnostic.rename (f : String → String) : Diagnostic → Diagnostic
  | unresolvedName name => unresolvedName (f name)
  | unboundSymbolType name => unboundSymbolType (f name)
  | duplicateDeclaration name => duplicateDeclaration (f name)
  | other => other

/-- The failure about the renamed variable. -/
def Failure.rename (f : String → String) : Failure → Failure
  | refused diagnostic => refused (diagnostic.rename f)
  | broken fault => broken fault

/-- The event about the renamed variable. -/
def Event.rename (f : String → String) : Event → Event
  | declared name symbol depth => declared (f name) symbol depth
  | defaulted name => defaulted (f name)
  | defaultedLoop name => defaultedLoop (f name)
  | other => other

/-- The table with another name for every symbol. -/
def SymbolTable.rename (f : String → String) (table : SymbolTable) : SymbolTable :=
  ⟨table.symbols.map fun symbol => { symbol with name := f symbol.name }⟩

namespace SymbolTable

variable (f : String → String) (table : SymbolTable)

theorem size_rename : (table.rename f).size = table.size := Array.size_map

theorem get?_rename (id : SymbolId) :
    (table.rename f).get? id =
      (table.get? id).map fun symbol => { symbol with name := f symbol.name } :=
  Array.getElem?_map

theorem add_rename (name : String) (origin : Origin) :
    (table.rename f).add (f name) origin = (table.add name origin).map id (rename f) := by
  simp [add, rename]

/-- Giving a symbol a type does not depend on its name. -/
theorem setType?_rename (handle : SymbolId) (type : TypeId) :
    (table.rename f).setType? handle type =
      (table.setType? handle type).map (Prod.map id (rename f)) := by
  unfold setType?
  rw [get?_rename]
  cases table.get? handle with
  | none => rfl
  | some symbol =>
      rw [Option.map_some]
      dsimp only
      cases symbol.type with
      | some old => rfl
      | none => simp [rename]

end SymbolTable

/-! ## Stages -/

section Stages

variable {σ α β : Type}

/-- The end of a stage, renamed. -/
def renameResult (f : String → String) (onState : σ → σ) (onValue : α → β) :
    EStateM.Result Failure σ α → EStateM.Result Failure σ β
  | .ok value final => .ok (onValue value) (onState final)
  | .error failure final => .error (failure.rename f) (onState final)

/-- From a renamed state the second stage ends as the first one does from the state, up to
renaming. -/
def Renames (f : String → String) (onState : σ → σ) (onValue : α → α)
    (stage renamed : EStateM Failure σ α) : Prop :=
  ∀ start, renamed (onState start) = renameResult f onState onValue (stage start)

variable {f : String → String} {onState : σ → σ} {onValue : α → α} {onNext : β → β}
  {stage renamed : EStateM Failure σ α}

theorem renames_pure (value : α) : Renames f onState onValue (pure value) (pure (onValue value)) :=
  fun _ => rfl

theorem renames_refuse (diagnostic : Diagnostic) :
    Renames f onState onValue (refuse diagnostic) (refuse (diagnostic.rename f)) :=
  fun _ => rfl

theorem renames_fault (broken : Fault) :
    Renames f onState onValue (fault broken) (fault broken) :=
  fun _ => rfl

theorem renames_get : Renames f onState onState get get := fun _ => rfl

theorem renames_modify {update update' : σ → σ}
    (h : ∀ state, update' (onState state) = onState (update state)) :
    Renames f onState id (modify update) (modify update') := by
  intro start
  rw [run_modify, run_modify, h]
  rfl

theorem renames_modifyGet {update update' : σ → α × σ}
    (h : ∀ state, update' (onState state) = (update state).map onValue onState) :
    Renames f onState onValue (modifyGet update) (modifyGet update') := by
  intro start
  rw [run_modifyGet, run_modifyGet, h]
  rfl

/-- A sequence is renamed part by part. -/
theorem Renames.bind {next next' : α → EStateM Failure σ β}
    (h : Renames f onState onValue stage renamed)
    (hnext : ∀ value, Renames f onState onNext (next value) (next' (onValue value))) :
    Renames f onState onNext (stage >>= next) (renamed >>= next') := by
  intro start
  rw [run_bind, run_bind, h start]
  cases stage start with
  | ok value middle => exact hnext value middle
  | error failure middle => rfl

/-- A sequence whose first part yields something without names. -/
theorem Renames.andThen {next next' : α → EStateM Failure σ β}
    (h : Renames f onState id stage renamed)
    (hnext : ∀ value, Renames f onState onNext (next value) (next' value)) :
    Renames f onState onNext (stage >>= next) (renamed >>= next') :=
  h.bind hnext

theorem Renames.ite {condition : Prop} [Decidable condition]
    {other renamed' : EStateM Failure σ α} (hyes : Renames f onState onValue stage renamed)
    (hno : Renames f onState onValue other renamed') :
    Renames f onState onValue (if condition then stage else other)
      (if condition then renamed else renamed') := by
  split
  · exact hyes
  · exact hno

theorem renames_orRefuse (diagnostic : Diagnostic) (value : Option α) :
    Renames f onState id (orRefuse diagnostic value) (orRefuse (diagnostic.rename f) value) := by
  cases value with
  | some value => exact renames_pure value
  | none => exact renames_refuse diagnostic

theorem renames_orFault (missing : Fault) (value : Option α) :
    Renames f onState id (orFault missing value) (orFault missing value) := by
  cases value with
  | some value => exact renames_pure value
  | none => exact renames_fault missing

end Stages

end FlexWidth
