import FlexWidth.Proofs.Typing.Discipline
import FlexWidth.Proofs.Typing.Erasure
import FlexWidth.Proofs.Typing.Synthesis
import Mathlib

/-!
# The first binding of a symbol fixes its type

The bindings of a program stand in the order in which the check comes to them.  A symbol
has no type before its first binding, which gives it one.  From then on it keeps that
type: a further type may not be written, and further values are converted to it.

One binding is either the first of its symbol (`Check.Settles`) or a later one
(`Check.Stores`), and both persist through the rest of the walk.  The walk over a
numbered program finds every binding in one of these two ways (`Check.binds_stmts`).
What is said of handles and elaboration during the walk is said of spelled out and
synthesized types at its end.
-/

namespace FlexWidth

/-- The type that a binding gives to a new symbol: the written type, or else the
synthesized type of its value, where a flexible value makes a default integer.  A loop
gives its variable the integer type that all of its bounds have been converted to. -/
inductive Binding.Fixes (types : Universe) (symbols : SymbolTable) : Binding → Shape → Prop where
  | written {form : BindingForm} {name : String} {written : Ascription} {values : List Expr}
      {symbol : Option SymbolId} :
      Fixes types symbols ⟨form.origin, name, some written, values, symbol⟩ written.shape
  | value {form : BindingForm} {name : String} {value : Expr} {symbol : Option SymbolId}
      {synthesized : Shape} : value.erase.synth (symbols.shape? types) = some synthesized →
      Fixes types symbols ⟨form.origin, name, none, [value], symbol⟩ synthesized.settled
  | loop {name : String} {bounds : List Expr} {symbol : Option SymbolId} {width : Nat} :
      (∀ bound ∈ bounds, bound.shape? types = some (.int width)) →
      Fixes types symbols ⟨.loopVariable, name, none, bounds, symbol⟩ (.int width)

namespace Check

/-! ## Bindings during the walk -/

/-- In this state the symbol has the type that the binding gives to a new symbol. -/
inductive Settles (s : Checking) (symbol : SymbolId) : Binding → Prop where
  | written {form : BindingForm} {name : String} {written : Ascription} {values : List Expr}
      {id : TypeId} : s.symbols.type? symbol = some id → s.types.get? id = some written.ty →
      Settles s symbol ⟨form.origin, name, some written, values, some symbol⟩
  | value {form : BindingForm} {name : String} {value checked : Expr} {id : TypeId} {ty : Ty} :
      s.symbols.type? symbol = some id → Elaborates s.types s.symbols value.erase checked →
      s.types.HasTy checked ty → s.types.get? id = some ty.settled →
      Settles s symbol ⟨form.origin, name, none, [value], some symbol⟩
  | loop {name : String} {bounds : List Expr} {id : TypeId} {width : Nat} :
      s.symbols.type? symbol = some id → s.types.get? id = some (.int width) →
      (∀ bound ∈ bounds, bound.type? = some id) →
      Settles s symbol ⟨.loopVariable, name, none, bounds, some symbol⟩

/-- In this state the binding has a value of the symbol's type, and no written type. -/
inductive Stores (s : Checking) (symbol : SymbolId) : Binding → Prop where
  | value {form : BindingForm} {name : String} {value : Expr} {id : TypeId} :
      s.symbols.type? symbol = some id → ElaboratesTo s.types s.symbols id value.erase value →
      Stores s symbol ⟨form.origin, name, none, [value], some symbol⟩

variable {s final : Checking} {count next : Nat} {symbol : SymbolId}

theorem Settles.advance {binding : Binding} (h : Settles s symbol binding)
    (hadvances : s.Advances final) : Settles final symbol binding := by
  cases h with
  | written hid hwritten => exact .written (hadvances.keeps hid) (hadvances.grows.get? hwritten)
  | value hid hvalue hty hsettled =>
      exact .value (hadvances.keeps hid) (hvalue.grow hadvances.grows hadvances.keeps)
        (hty.grow hadvances.grows) (hadvances.grows.get? hsettled)
  | loop hid hwidth hbounds =>
      exact .loop (hadvances.keeps hid) (hadvances.grows.get? hwidth) hbounds

theorem Stores.advance {binding : Binding} (h : Stores s symbol binding)
    (hadvances : s.Advances final) : Stores final symbol binding := by
  cases h with
  | value hid hvalue =>
      exact .value (hadvances.keeps hid) (hvalue.grow hadvances.grows hadvances.keeps)

/-- The bindings that a part of the walk comes to, as the state at its end has them. -/
abbrev BindsIn (final : Checking) : Nat → List Binding → Nat → Prop :=
  Binds (Settles final) (Stores final)

theorem BindsIn.advance {bindings : List Binding} (h : BindsIn s count bindings next)
    (hadvances : s.Advances final) : BindsIn final count bindings next :=
  h.mono (fun _ _ hsettles => hsettles.advance hadvances)
    fun _ _ hstores => hstores.advance hadvances

/-! ## The walk -/

section Binding

variable {form : BindingForm} {name : String} {written : Option Ascription}
  {values : Option Expr} {st : Stmt} (hsome : written.isSome ∨ values.isSome)
  (hplain : ∀ e ∈ values, e.BoundBelow count) (hat : s.At count)

include hsome hplain hat

/-- A further binding has no written type, and stores a value. -/
theorem binds_rebind (hlt : symbol.index < count)
    (hrun : stmt (.bind form name written values (some symbol)) s = .ok st final) :
    BindsIn final count st.bindings count := by
  cases written with
  | some written =>
      have hwalks : Walks (stmt (.bind form name (some written) values (some symbol))) s count _
          fun _ _ => False := walks_redeclare hplain hat hlt
      exact (hwalks.post_of_ok hrun).2.2.elim
  | none =>
      have hvalue : values.isSome := hsome.resolve_left (by simp)
      obtain ⟨-, -, hst⟩ := (walks_reassign hplain hat hlt hvalue :
        Walks _ _ _ (Fails [] s) _).post_of_ok hrun
      cases hst with
      | bind hid _ hfinal =>
          rw [← hfinal.erase_eq] at hfinal
          exact .again rfl hlt (.value hid hfinal) .nil

/-- The first binding fixes the type. -/
theorem binds_bind (hlt : count < s.symbols.size)
    (hrun : stmt (.bind form name written values (some ⟨count⟩)) s = .ok st final) :
    BindsIn final count st.bindings (count + 1) := by
  cases written with
  | some written =>
      obtain ⟨-, -, hst⟩ := (walks_declare hplain hat hlt :
        Walks _ _ _ (Fails [] s) _).post_of_ok hrun
      cases hst with
      | declare hid hwritten => exact .first rfl (.written hid hwritten) .nil
      | bind hid hwritten _ => exact .first rfl (.written hid (hwritten written rfl)) .nil
  | none =>
      have hvalue : values.isSome := hsome.resolve_left (by simp)
      obtain ⟨-, -, source, checked, value, id, ty, -, rfl, hid, hchecked, hty, hsettled, hvalue⟩ :=
        (walks_infer hplain hat hlt hvalue : Walks _ _ _ (Fails [] s) _).post_of_ok hrun
      have herase : value.erase = source := hvalue.erase_eq.trans hchecked.erase_eq
      rw [← herase] at hchecked
      exact .first rfl (.value hid hchecked hty hsettled) .nil

end Binding

mutual

/-- Every binding in a statement that checks is the first of its symbol or stores a
value. -/
theorem binds_stmt {st st' : Stmt} {count next : Nat} {s final : Checking}
    (h : Numbered count st next) (hat : s.At count) (hsize : next ≤ s.symbols.size)
    (hrun : stmt st s = .ok st' final) : BindsIn final count st'.bindings next := by
  match h with
  | .rebind hsome hplain hlt => exact binds_rebind hsome hplain hat hlt hrun
  | .bind hsome hplain => exact binds_bind hsome hplain hat hsize hrun
  | .print _ =>
      rw [stmt] at hrun
      obtain ⟨value, middle, -, hrun⟩ := bind_eq_ok_iff.mp hrun
      cases hrun
      exact .nil
  | .evaluate _ =>
      rw [stmt] at hrun
      obtain ⟨value, middle, -, hrun⟩ := bind_eq_ok_iff.mp hrun
      cases hrun
      exact .nil
  | .branch hplain hyes =>
      rw [stmt] at hrun
      obtain ⟨test, middle, htest, hrun⟩ := bind_eq_ok_iff.mp hrun
      obtain ⟨yes, later, hyesRun, hrun⟩ := bind_eq_ok_iff.mp hrun
      cases hrun
      obtain ⟨hadvances, hat⟩ := advances_of_condition hplain hat htest
      exact binds_stmts hyes hat (hadvances.size ▸ hsize) hyesRun
  | .otherwise hplain hyes hno =>
      rw [stmt] at hrun
      obtain ⟨test, middle, htest, hrun⟩ := bind_eq_ok_iff.mp hrun
      obtain ⟨yes, later, hyesRun, hrun⟩ := bind_eq_ok_iff.mp hrun
      obtain ⟨no, last, hnoRun, hrun⟩ := bind_eq_ok_iff.mp hrun
      cases hrun
      obtain ⟨hadvances, hat⟩ := advances_of_condition hplain hat htest
      have hyesSize := hadvances.size ▸ Nat.le_trans hno.le hsize
      obtain ⟨hadvances', hat', -⟩ := (walks_stmts hyes hat hyesSize).post_of_ok hyesRun
      have hnoSize := (hadvances.trans hadvances').size ▸ hsize
      obtain ⟨hadvances'', -, -⟩ := (walks_stmts hno hat' hnoSize).post_of_ok hnoRun
      exact ((binds_stmts hyes hat hyesSize hyesRun).advance hadvances'').append
        (binds_stmts hno hat' hnoSize hnoRun)
  | .whileLoop hplain hbody =>
      rw [stmt] at hrun
      obtain ⟨test, middle, htest, hrun⟩ := bind_eq_ok_iff.mp hrun
      obtain ⟨body, later, hbodyRun, hrun⟩ := bind_eq_ok_iff.mp hrun
      cases hrun
      obtain ⟨hadvances, hat⟩ := advances_of_condition hplain hat htest
      exact binds_stmts hbody hat (hadvances.size ▸ hsize) hbodyRun
  | .forLoop hplain hbody =>
      rw [stmt] at hrun
      obtain ⟨found, _, hfound, hrun⟩ := bind_eq_ok_iff.mp hrun
      cases hfound
      obtain ⟨bounds, middle, hboundsRun, hrun⟩ := bind_eq_ok_iff.mp hrun
      obtain ⟨body, later, hbodyRun, hrun⟩ := bind_eq_ok_iff.mp hrun
      cases hrun
      have hlt := Nat.lt_of_lt_of_le hbody.le hsize
      obtain ⟨hadvances, hat, id, width, hid, hwidth, hbounds⟩ :=
        (walks_loopBounds hplain hat hlt _).post_of_ok hboundsRun
      have hbodySize := hadvances.size ▸ hsize
      obtain ⟨hadvances', -, -⟩ := (walks_stmts hbody hat hbodySize).post_of_ok hbodyRun
      -- all bounds have been converted to the type of the variable
      have htypes : ∀ bound ∈ bounds, bound.type? = some id := by
        refine forall_of_forall₂ hbounds ?_
        rintro _ bound ⟨checked, -, hbound⟩
        exact hbound.type?
      exact .first rfl ((Settles.loop hid hwidth htypes).advance hadvances')
        (binds_stmts hbody hat hbodySize hbodyRun)
  | .block hbody =>
      rw [stmt] at hrun
      obtain ⟨body, later, hbodyRun, hrun⟩ := bind_eq_ok_iff.mp hrun
      cases hrun
      exact binds_stmts hbody hat hsize hbodyRun

theorem binds_stmts {body body' : List Stmt} {count next : Nat} {s final : Checking}
    (h : NumberedAll count body next) (hat : s.At count) (hsize : next ≤ s.symbols.size)
    (hrun : stmts body s = .ok body' final) :
    BindsIn final count (Stmt.bodyBindings body') next := by
  match h with
  | .nil =>
      cases hrun
      exact .nil
  | .cons hfirst hrest =>
      rw [stmts] at hrun
      obtain ⟨first, middle, hfirstRun, hrun⟩ := bind_eq_ok_iff.mp hrun
      obtain ⟨rest, later, hrestRun, hrun⟩ := bind_eq_ok_iff.mp hrun
      cases hrun
      have hfirstSize := Nat.le_trans hrest.le hsize
      obtain ⟨hadvances, hat', -⟩ := (walks_stmt hfirst hat hfirstSize).post_of_ok hfirstRun
      have hrestSize := hadvances.size ▸ hsize
      obtain ⟨hadvances', -, -⟩ := (walks_stmts hrest hat' hrestSize).post_of_ok hrestRun
      exact ((binds_stmt hfirst hat hfirstSize hfirstRun).advance hadvances').append
        (binds_stmts hrest hat' hrestSize hrestRun)

end

/-! ## Spelled out types -/

section Spelled

variable {binding : Binding} (hinterned : s.types.Interned)

include hinterned

theorem Settles.exists_fixes (h : Settles s symbol binding) :
    ∃ shape, s.symbols.shape? s.types symbol = some shape ∧
      binding.Fixes s.types s.symbols shape := by
  have hsymbol {id : TypeId} {ty : Ty} {shape : Shape} (hid : s.symbols.type? symbol = some id)
      (hty : s.types.get? id = some ty) (hspells : ty.Spells s.types.Denotes shape) :
      s.symbols.shape? s.types symbol = some shape := by
    rw [SymbolTable.shape?, hid, Option.bind_some]
    exact hinterned.shape?_eq hty hspells
  cases h with
  | @written _ _ written _ _ hid hwritten =>
      exact ⟨written.shape, hsymbol hid hwritten written.spells_shape, .written⟩
  | value hid hvalue hty hsettled =>
      obtain ⟨synthesized, hshape, hspells⟩ := hty.exists_shape? hinterned
      exact ⟨synthesized.settled, hsymbol hid hsettled hspells.settled,
        .value ((hvalue.synth_eq hinterned).trans hshape)⟩
  | @loop _ _ _ width hid hwidth hbounds =>
      refine ⟨.int width, hsymbol hid hwidth (.int width), .loop fun bound hbound => ?_⟩
      rw [Expr.shape?, hbounds bound hbound, Option.bind_some]
      exact hinterned.shape?_eq hwidth (.int width)

theorem Stores.exists_synth (h : Stores s symbol binding) {shape : Shape}
    (hshape : s.symbols.shape? s.types symbol = some shape) :
    binding.written = none ∧ ∃ value synthesized, binding.values = [value] ∧
      value.erase.synth (s.symbols.shape? s.types) = some synthesized ∧
      shape.Takes synthesized := by
  cases h with
  | @value _ _ value id hid hvalue =>
      rw [SymbolTable.shape?, hid, Option.bind_some] at hshape
      obtain ⟨synthesized, hsynth, htakes⟩ := hvalue.exists_synth hinterned hshape
      exact ⟨rfl, value, synthesized, rfl, hsynth, htakes⟩

end Spelled

end Check

/-! ## Programs -/

/-- A symbol of a checked program and its bindings: the first gives the symbol its name,
its kind and its type, and the later ones store values that this type takes.  Types are
synthesized from the values as they were before checking. -/
structure CheckedProgram.BoundBy (checked : CheckedProgram) (id : SymbolId) (symbol : Symbol)
    (shape : Shape) (first : Binding) (later : List Binding) : Prop where
  found : checked.symbols.get? id = some symbol
  typed : checked.symbols.shape? checked.types id = some shape
  bindings : bindingsOf id (Stmt.bodyBindings checked.body) = first :: later
  name : symbol.name = first.name
  origin : symbol.origin = first.origin
  fixes : first.Fixes checked.types checked.symbols shape
  written : ∀ again ∈ later, again.written = none
  takes : ∀ again ∈ later, ∃ value synthesized, again.values = [value] ∧
    value.erase.synth (checked.symbols.shape? checked.types) = some synthesized ∧
    shape.Takes synthesized

/-- Resolution and checking find the same bindings, up to what checking adds to values. -/
theorem map_bindings_of_typecheck {body : Program} {symbols : SymbolTable}
    {checked : CheckedProgram} {log final : Array Event}
    (h : Frontend.typecheck body symbols log = .ok checked final) (id : SymbolId) :
    (bindingsOf id (Stmt.bodyBindings checked.body)).map (Binding.mapValues Expr.erase) =
      (bindingsOf id (Stmt.bodyBindings body)).map (Binding.mapValues Expr.erase) := by
  have herase := eraseBody_of_typecheck h
  rw [Stmt.eraseBody] at herase
  rw [← bindingsOf_map_mapValues, ← bindingsOf_map_mapValues, ← Stmt.bodyBindings_mapBodyRoots,
    ← Stmt.bodyBindings_mapBodyRoots, herase]

/-- The symbol table lists the first binding of a symbol, also as it is checked. -/
theorem label?_of_typecheck {program body : Program} {symbols : SymbolTable}
    {checked : CheckedProgram} {start log final : Array Event} {id : SymbolId} {first : Binding}
    {later : List Binding} (hresolve : Frontend.resolve program start = .ok (body, symbols) log)
    (hcheck : Frontend.typecheck body symbols log = .ok checked final)
    (hlt : id.index < symbols.size)
    (h : bindingsOf id (Stmt.bodyBindings checked.body) = first :: later) :
    symbols.label? id = some (first.name, first.origin) := by
  obtain ⟨resolved, others, hresolved, hintroduces, -⟩ :=
    (binds_of_resolve hresolve).exists_bindingsOf (Nat.zero_le _) hlt
  have hmap := map_bindings_of_typecheck hcheck id
  rw [h, hresolved, List.map_cons, List.map_cons] at hmap
  obtain ⟨horigin, hname, -⟩ := Binding.mk.inj (List.cons.inj hmap).1
  rw [SymbolTable.Introduces] at hintroduces
  rw [SymbolTable.label?, hintroduces, Option.map_some, hname, horigin]

/-- **The first binding of a symbol fixes its type.**  Whatever the source text that
checks, every symbol has a binding.  The first one, in the order of the walk, determines
the kind of the symbol and its type; no later one has a written type, and each of them
stores a value that the type takes. -/
theorem exists_boundBy_of_checkSource {source : String} {checked : CheckedProgram}
    (h : checkSource source = .ok checked) {id : SymbolId}
    (hlt : id.index < checked.symbols.size) :
    ∃ symbol shape first later, checked.BoundBy id symbol shape first later := by
  obtain ⟨tokens, spelled, body, symbols, start, log, final, htokens, hparse, hresolve, hcheck⟩ :=
    stages_of_checkSource h
  obtain ⟨hnumbered, huntyped⟩ := numberedAll_of_resolve (plain_of_parse htokens hparse) hresolve
  obtain ⟨⟨types, table, events⟩, rfl, rfl, hrun⟩ := stmts_of_typecheck hcheck
  have hat := at_initial huntyped log
  obtain ⟨hadvances, hatEnd, -⟩ :=
    (Check.walks_stmts hnumbered hat (Nat.le_refl _)).post_of_ok hrun
  have hinterned := hatEnd.sound.sound.toInterned
  rw [hadvances.size] at hlt
  obtain ⟨first, later, hbindings, hfirst, hlater⟩ :=
    (Check.binds_stmts hnumbered hat (Nat.le_refl _) hrun).exists_bindingsOf (Nat.zero_le _) hlt
  obtain ⟨shape, hshape, hfixes⟩ := hfirst.exists_fixes hinterned
  -- the walk changes neither the name nor the kind of a symbol
  have hlabel := label?_of_typecheck hresolve hcheck hlt hbindings
  have hsame := congrFun hadvances.labels id
  obtain ⟨symbol, hsymbol, heq⟩ := Option.map_eq_some_iff.mp (hsame.trans hlabel)
  obtain ⟨hname, horigin⟩ := Prod.mk.inj heq
  have hstores := fun again hagain => (hlater again hagain).exists_synth hinterned hshape
  exact ⟨symbol, shape, first, later, hsymbol, hshape, hbindings, hname, horigin, hfixes,
    fun again hagain => (hstores again hagain).1, fun again hagain => (hstores again hagain).2⟩

/-- A flexible value, a written type and a loop give three variables their types, and the
first of them is bound three times. -/
theorem exists_boundBy_of_checkSource_loop :
    ∃ checked,
      (checkSource "x = 1; y : int(8); for (i in 0 : y) \x7b x = i; \x7d x = y < 2;" = .ok checked ∧
        checked.symbols.size = 3 ∧
        checked.symbols.shape? checked.types ⟨0⟩ = some (.int 32) ∧
        checked.symbols.shape? checked.types ⟨2⟩ = some (.int 8) ∧
        (bindingsOf ⟨0⟩ (Stmt.bodyBindings checked.body)).length = 3) ∧
      ∀ id : SymbolId, id.index < 3 →
        ∃ symbol shape first later, checked.BoundBy id symbol shape first later := by
  refine Exists.imp (fun checked h => ⟨h, fun id hlt =>
    exists_boundBy_of_checkSource h.1 (h.2.1 ▸ hlt)⟩) ?_
  exact ⟨_, by cbv, rfl, rfl, rfl, rfl⟩

end FlexWidth
