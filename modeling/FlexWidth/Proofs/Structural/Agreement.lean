import FlexWidth.Proofs.Stage
import FlexWidth.Proofs.Structural.Check
import FlexWidth.Proofs.Typing.Recheck

/-!
# Agreement of the two checks

A step of the check with handles and a step of the structural check *agree* in two states
(`Agrees`) if both succeed, with related results and states, or both fail in the same
way.  `Agrees.bind` puts steps together.  A step of the check with handles that only
looks a type up or adds one has no counterpart: `Agrees.of_run` passes over it.

In related states a handle denotes a shape, so every question that the check asks about
the type of a handle has the answer that the shape gives.  The steps below are the
elementary ones.
-/

namespace FlexWidth

/-! ## Related states -/

/-- A variable and the same variable with its type spelled out. -/
structure Symbol.Spelled (denotes : TypeId → Shape → Prop) (symbol : Symbol)
    (symbol' : Structural.Symbol) : Prop where
  name : symbol.name = symbol'.name
  origin : symbol.origin = symbol'.origin
  type : Option.Rel denotes symbol.type symbol'.type

/-- The states of the two checks are related: the universe is interned, and the variables
have types that agree. -/
structure Checking.Spelled (s : Checking) (table : Structural.SymbolTable) : Prop where
  interned : s.types.Interned
  symbols : List.Forall₂ (Symbol.Spelled s.types.Denotes) s.symbols.symbols.toList table.symbols

theorem Checking.Spelled.grow {s final : Checking} {table : Structural.SymbolTable}
    (h : s.Spelled table) (hinterned : final.types.Interned)
    (hgrows : s.types.Grows final.types) (hsymbols : final.symbols = s.symbols) :
    final.Spelled table := by
  refine ⟨hinterned, ?_⟩
  rw [hsymbols]
  exact h.symbols.imp fun _ _ h =>
    ⟨h.name, h.origin, rel_imp h.type fun _ _ hid => hid.grow hgrows⟩

/-- Two expressions are related in a universe. -/
abbrev Expr.SpelledIn (types : Universe) : Expr → Structural.Expr → Prop :=
  Expr.Spelled types.Denotes

theorem Expr.Spelled.grow {types later : Universe} {value : Expr} {value' : Structural.Expr}
    (h : value.Spelled types.Denotes value') (hgrows : types.Grows later) :
    value.Spelled later.Denotes value' :=
  h.imp fun _ _ hid => hid.grow hgrows

theorem Universe.rel_grow {types later : Universe} {type : Option TypeId} {shape : Option Shape}
    (h : Option.Rel types.Denotes type shape) (hgrows : types.Grows later) :
    Option.Rel later.Denotes type shape :=
  rel_imp h fun _ _ hid => hid.grow hgrows

/-! ## Agreement -/

section Agrees

variable {α β γ δ : Type} {stage : CheckM α} {reference : Structural.CheckM β}
  {rel : Universe → α → β → Prop} {s middle : Checking} {table : Structural.SymbolTable}

/-- Both steps have results related by `rel`, in a universe that has grown from `types`,
or both have failed in the same way. -/
inductive ResultsAgree (types : Universe) (rel : Universe → α → β → Prop) :
    EStateM.Result Failure Checking α → EStateM.Result Failure Structural.SymbolTable β →
      Prop where
  | ok {value : α} {result : β} {final : Checking} {table : Structural.SymbolTable} :
      types.Grows final.types → final.Spelled table → rel final.types value result →
      ResultsAgree types rel (.ok value final) (.ok result table)
  | error {failure : Failure} {final : Checking} {table : Structural.SymbolTable} :
      ResultsAgree types rel (.error failure final) (.error failure table)

/-- Run from these states, the two steps agree. -/
def Agrees (stage : CheckM α) (reference : Structural.CheckM β) (s : Checking)
    (table : Structural.SymbolTable) (rel : Universe → α → β → Prop) : Prop :=
  ResultsAgree s.types rel (stage s) (reference table)

theorem ResultsAgree.mono {types later : Universe} {result : EStateM.Result Failure Checking α}
    {result' : EStateM.Result Failure Structural.SymbolTable β}
    (h : ResultsAgree later rel result result') (hgrows : types.Grows later) :
    ResultsAgree types rel result result' := by
  cases h with
  | ok hgrows' hs hrel => exact .ok (hgrows.trans hgrows') hs hrel
  | error => exact .error

theorem agrees_pure {value : α} {result : β} (hs : s.Spelled table)
    (h : rel s.types value result) : Agrees (pure value) (pure result) s table rel :=
  .ok (.refl _) hs h

theorem agrees_refuse (diagnostic : Diagnostic) :
    Agrees (refuse diagnostic) (refuse diagnostic) s table rel :=
  .error

theorem agrees_orRefuse (hs : s.Spelled table) (diagnostic : Diagnostic) {value : Option α}
    {result : Option β} (h : Option.Rel (rel s.types) value result) :
    Agrees (orRefuse diagnostic value) (orRefuse diagnostic result) s table rel := by
  cases h with
  | some h => exact agrees_pure hs h
  | none => exact .error

theorem agrees_orFault (hs : s.Spelled table) (missing : Fault) {value : Option α}
    {result : Option β} (h : Option.Rel (rel s.types) value result) :
    Agrees (orFault missing value) (orFault missing result) s table rel := by
  cases h with
  | some h => exact agrees_pure hs h
  | none => exact .error

/-- Sequences agree if their parts do. -/
theorem Agrees.bind {next : α → CheckM γ} {next' : β → Structural.CheckM δ}
    {rel' : Universe → γ → δ → Prop} (h : Agrees stage reference s table rel)
    (hnext : ∀ value result middle table', s.types.Grows middle.types → middle.Spelled table' →
      rel middle.types value result → Agrees (next value) (next' result) middle table' rel') :
    Agrees (stage >>= next) (reference >>= next') s table rel' := by
  unfold Agrees at h ⊢
  rw [run_bind, run_bind]
  generalize stage s = run at h ⊢
  generalize reference table = run' at h ⊢
  cases h with
  | ok hgrows hs hrel => exact (hnext _ _ _ _ hgrows hs hrel).mono hgrows
  | error => exact .error

/-- A first step that has no counterpart. -/
theorem Agrees.of_run {next : α → CheckM γ} {reference : Structural.CheckM δ}
    {rel' : Universe → γ → δ → Prop} {value : α} (hrun : stage s = .ok value middle)
    (hgrows : s.types.Grows middle.types)
    (hnext : Agrees (next value) reference middle table rel') :
    Agrees (stage >>= next) reference s table rel' := by
  unfold Agrees at hnext ⊢
  rw [run_bind_ok hrun]
  exact hnext.mono hgrows

/-- A first step that has no counterpart and leaves the state as it is. -/
theorem Agrees.of_look {next : α → CheckM γ} {reference : Structural.CheckM δ}
    {rel' : Universe → γ → δ → Prop} {value : α} (hrun : stage s = .ok value s)
    (hnext : Agrees (next value) reference s table rel') :
    Agrees (stage >>= next) reference s table rel' :=
  .of_run hrun (.refl _) hnext

/-- A first step whose counterpart only yields a value. -/
theorem Agrees.of_pure {result : β} {next : α → CheckM γ} {reference : Structural.CheckM δ}
    {rel' : Universe → γ → δ → Prop} (h : Agrees stage (pure result) s table rel)
    (hnext : ∀ value middle, s.types.Grows middle.types → middle.Spelled table →
      rel middle.types value result → Agrees (next value) reference middle table rel') :
    Agrees (stage >>= next) reference s table rel' := by
  unfold Agrees at h ⊢
  rw [run_pure] at h
  rw [run_bind]
  generalize stage s = run at h ⊢
  cases h with
  | ok hgrows hs hrel => exact (hnext _ _ hgrows hs hrel).mono hgrows

theorem Agrees.ite {stage' : CheckM α} {reference' : Structural.CheckM β} {p q : Prop}
    [Decidable p] [Decidable q] (hiff : p ↔ q) (hyes : q → Agrees stage reference s table rel)
    (hno : ¬ q → Agrees stage' reference' s table rel) :
    Agrees (if p then stage else stage') (if q then reference else reference') s table rel := by
  by_cases hq : q
  · rw [if_pos hq, if_pos (hiff.mpr hq)]
    exact hyes hq
  · rw [if_neg hq, if_neg (mt hiff.mp hq)]
    exact hno hq

end Agrees

/-! ## Types -/

namespace Checking.Spelled

variable {s : Checking} {table : Structural.SymbolTable} {id other : TypeId}
  {shape shape' : Shape}

theorem eq_iff (hs : s.Spelled table) (hid : s.types.Denotes id shape)
    (hother : s.types.Denotes other shape') : id = other ↔ shape = shape' := by
  constructor
  · intro heq
    subst heq
    exact Option.some.inj (hid.symm.trans hother)
  · intro heq
    subst heq
    exact hs.interned.eq_of_denotes hid hother

theorem exists_run_typeAt (hs : s.Spelled table) (hid : s.types.Denotes id shape) :
    ∃ ty, Check.typeAt id s = .ok ty s ∧ ty.Spells s.types.Denotes shape := by
  obtain ⟨ty, hty, hspells⟩ := hs.interned.denotes_iff.mp hid
  exact ⟨ty, Check.run_typeAt hty, hspells⟩

theorem run_isFlexible (hs : s.Spelled table) (hid : s.types.Denotes id shape) :
    Check.isFlexible id s = .ok (decide (shape = .flexible)) s := by
  obtain ⟨ty, hty, hspells⟩ := hs.interned.denotes_iff.mp hid
  rw [Check.run_isFlexible hty, decide_eq_decide.mpr hspells.eq_flexible_iff]

theorem run_isStruct (hs : s.Spelled table) (hid : s.types.Denotes id shape) :
    Check.isStruct id s = .ok shape.struct?.isSome s := by
  obtain ⟨ty, hty, hspells⟩ := hs.interned.denotes_iff.mp hid
  rw [Check.run_isStruct hty, hspells.isSome_struct?_eq]

end Checking.Spelled

theorem Universe.Denotes.run_describe {s : Checking} {id : TypeId} {shape : Shape}
    (h : s.types.Denotes id shape) : Check.describe id s = .ok shape.describe s := by
  have htext : s.types.describe? id = some shape.describe := by
    rw [Universe.describe?, show s.types.shape? id = some shape from h]
    rfl
  rw [Check.describe, run_bind_ok (run_get s), htext]
  rfl

section Types

variable {α β : Type} {rel : Universe → α → β → Prop} {s : Checking}
  {table : Structural.SymbolTable} {id left right : TypeId} {shape l r : Shape}

/-- Adding a type to the universe. -/
theorem agrees_intern (hs : s.Spelled table) {ty : Ty}
    (hspells : ty.Spells s.types.Denotes shape) :
    Agrees (Check.intern (Universe.intern ty)) (pure shape) s table Universe.Denotes := by
  obtain ⟨hinterned, hdenotes⟩ := hs.interned.intern hspells
  have hgrows := Universe.grows_intern s.types ty
  exact .ok hgrows (hs.grow hinterned hgrows rfl) hdenotes

theorem agrees_internDefaultInt (hs : s.Spelled table) :
    Agrees (Check.intern Universe.internDefaultInt) (pure Structural.defaultInt) s table
      Universe.Denotes :=
  agrees_intern hs (.int Ascription.defaultWidth)

theorem agrees_mismatch (hl : s.types.Denotes left l) (hr : s.types.Denotes right r) :
    Agrees (Check.mismatch left right) (Structural.mismatch l r) s table rel :=
  .of_look hl.run_describe (.of_look hr.run_describe (agrees_refuse _))

theorem agrees_expectedInt (hid : s.types.Denotes id shape) :
    Agrees (Check.expectedInt id) (Structural.expectedInt shape) s table rel :=
  .of_look hid.run_describe (agrees_refuse _)

theorem agrees_refuseStruct (hs : s.Spelled table) (hid : s.types.Denotes id shape) :
    Agrees (Check.refuseStruct id) (Structural.refuseStruct shape) s table fun _ _ _ => True := by
  refine .of_look (hs.run_isStruct hid) (.ite Iff.rfl (fun _ => ?_) fun _ => ?_)
  · exact agrees_expectedInt hid
  · exact agrees_pure hs trivial

/-- What two handles have in common is what their shapes have in common. -/
inductive Promotion.Spelled (types : Universe) : Promotion → Structural.Promotion → Prop where
  | resolved {id : TypeId} {shape : Shape} : types.Denotes id shape →
      Spelled types (.resolved id) (.resolved shape)
  | stillFlexible : Spelled types .stillFlexible .stillFlexible
  | incompatible : Spelled types .incompatible .incompatible

theorem Checking.Spelled.exists_run_common (hs : s.Spelled table) (hl : s.types.Denotes left l)
    (hr : s.types.Denotes right r) :
    ∃ promotion, Check.common left right s = .ok promotion s ∧
      promotion.Spelled s.types (Structural.common l r) := by
  obtain ⟨leftTy, hleft, hleftSpells⟩ := hs.interned.denotes_iff.mp hl
  obtain ⟨rightTy, hright, hrightSpells⟩ := hs.interned.denotes_iff.mp hr
  obtain ⟨promotion, hrun, hmeets⟩ := Check.run_common hs.interned hleft hright
  have heq := hs.eq_iff hl hr
  refine ⟨promotion, hrun, ?_⟩
  unfold Structural.common
  cases hmeets with
  | equal hid hne =>
      cases hid.symm.trans hleft
      have hshape : l ≠ .flexible := mt hleftSpells.eq_flexible_iff.mpr hne
      rw [if_pos (heq.mp rfl), if_neg hshape]
      exact .resolved hl
  | flexible hid =>
      cases hid.symm.trans hleft
      rw [if_pos (heq.mp rfl), if_pos (hleftSpells.eq_flexible_iff.mp rfl)]
      exact .stillFlexible
  | struct hl' hr' hne hstruct =>
      cases hl'.symm.trans hleft
      cases hr'.symm.trans hright
      rw [hleftSpells.isSome_struct?_eq, hrightSpells.isSome_struct?_eq] at hstruct
      rw [if_neg (mt heq.mpr hne), if_pos (by simpa using hstruct)]
      exact .incompatible
  | int hl' hr' hne hlstruct hrstruct hmerge hid =>
      cases hl'.symm.trans hleft
      cases hr'.symm.trans hright
      have hlnone := hleftSpells.isSome_struct?_eq
      have hrnone := hrightSpells.isSome_struct?_eq
      rw [hleftSpells.intWidth?_eq, hrightSpells.intWidth?_eq] at hmerge
      rw [if_neg (mt heq.mpr hne), if_neg (by simp_all), hmerge]
      exact .resolved (hs.interned.denotes_iff.mpr ⟨_, hid, .int _⟩)
  | neither hl' hr' hne hlstruct hrstruct hlwidth hrwidth =>
      cases hl'.symm.trans hleft
      cases hr'.symm.trans hright
      have hlnone := hleftSpells.isSome_struct?_eq
      have hrnone := hrightSpells.isSome_struct?_eq
      rw [hleftSpells.intWidth?_eq] at hlwidth
      rw [hrightSpells.intWidth?_eq] at hrwidth
      rw [if_neg (mt heq.mpr hne), if_neg (by simp_all), hlwidth, hrwidth]
      exact .stillFlexible

end Types

/-! ## Variables -/

theorem forall₂_set {α β : Type} {r : α → β → Prop} {values : List α} {results : List β}
    (h : List.Forall₂ r values results) {value : α} {result : β} (hnew : r value result)
    (index : Nat) : List.Forall₂ r (values.set index value) (results.set index result) := by
  induction h generalizing index with
  | nil => exact .nil
  | cons hfirst hrest ih =>
      cases index with
      | zero => exact .cons hnew hrest
      | succ index => exact .cons hfirst (ih index)

section Variables

variable {s : Checking} {table : Structural.SymbolTable}

theorem Checking.Spelled.get? (hs : s.Spelled table) (symbol : SymbolId) :
    Option.Rel (Symbol.Spelled s.types.Denotes) (s.symbols.get? symbol) (table.get? symbol) := by
  rw [SymbolTable.get?, Structural.SymbolTable.get?, ← Array.getElem?_toList]
  exact rel_getElem?_of_forall₂ hs.symbols symbol.index

theorem agrees_symbolType? (hs : s.Spelled table) (symbol : SymbolId) :
    Agrees (Check.symbolType? symbol) (Structural.symbolType? symbol) s table
      fun types => Option.Rel types.Denotes := by
  have hknown : Agrees (orFault .unknownSymbol (s.symbols.get? symbol))
      (orFault .unknownSymbol (table.get? symbol)) s table
      fun types => Symbol.Spelled types.Denotes :=
    agrees_orFault hs .unknownSymbol (hs.get? symbol)
  exact hknown.bind fun known known' middle table' _ hs' h => agrees_pure hs' h.type

theorem agrees_setSymbolType (hs : s.Spelled table) (symbol : SymbolId) {id : TypeId}
    {shape : Shape} (hid : s.types.Denotes id shape) :
    Agrees (Check.setSymbolType symbol id) (Structural.setSymbolType symbol shape) s table
      fun _ => Eq := by
  have hknown := hs.get? symbol
  rw [Agrees, Check.setSymbolType, Structural.setSymbolType, run_bind_ok (run_get s),
    run_bind_ok (run_get table), SymbolTable.setType?]
  generalize s.symbols.get? symbol = known at hknown ⊢
  generalize table.get? symbol = known' at hknown ⊢
  cases hknown with
  | none => exact .error
  | @some known known' h =>
      obtain ⟨name, origin, type⟩ := known
      obtain ⟨name', origin', type'⟩ := known'
      obtain ⟨hname, horigin, htype⟩ := h
      cases htype with
      | some _ => exact .ok (.refl _) hs rfl
      | none =>
          have hnew : Symbol.Spelled s.types.Denotes ⟨name, origin, some id⟩
              ⟨name', origin', some shape⟩ := ⟨hname, horigin, .some hid⟩
          refine .ok (.refl _) ⟨hs.interned, ?_⟩ rfl
          rw [Array.toList_setIfInBounds]
          exact forall₂_set hs.symbols hnew symbol.index

end Variables

end FlexWidth
