import FlexWidth.Proofs.Scope.Numbering
import FlexWidth.Proofs.Tree.Erasure

/-!
# What resolution leaves of a program

Resolution writes symbols into a program and changes nothing else in its expressions, so
whatever does not depend on symbols holds of the resolved program if it holds of the
program (`Reference.keeps_stmts`).

The statements that bind symbols are its *bindings*, listed in the order of the walk.
Going through that list, a binding introduces the next symbol or binds one that is
already there.  `Binds` says so, with a condition on the bindings of either kind, and
turns what a walk keeps at every step into what holds of the first binding of a symbol
and of all later ones (`Binds.exists_bindingsOf`).
-/

namespace FlexWidth

/-! ## Expressions of a resolved program -/

theorem Expr.Bare.annotate {value : Expr} (h : value.Bare) (symbolOf : String → Option SymbolId) :
    (value.annotate symbolOf).Bare := by
  induction h with
  | literal hvalue => exact .literal hvalue
  | var => exact .var
  | read => exact .read
  | unary _ ih => exact .unary ih
  | binary _ _ ihleft ihright => exact .binary ihleft ihright
  | glue _ ih =>
      rw [Expr.annotate, annotateFields_eq_map]
      refine .glue fun field hfield => ?_
      obtain ⟨source, hsource, rfl⟩ := List.mem_map.mp hfield
      exact ih source hsource
  | dot _ ih => exact .dot ih
  | index _ ih => exact .index ih

namespace Reference

section Roots

variable {keeps : Expr → Prop}
  (hkeeps : ∀ value symbolOf, keeps value → keeps (value.annotate symbolOf))

include hkeeps

theorem keeps_expr {env : Environment} {value result : Expr} (hvalue : keeps value)
    (h : expr env value = .ok result) : keeps result := by
  obtain ⟨rfl, -⟩ := ifBound_eq_ok h
  exact hkeeps value _ hvalue

theorem keeps_exprs {env : Environment} {values results : List Expr}
    (hvalues : ∀ value ∈ values, keeps value) (h : exprs env values = .ok results) :
    ∀ result ∈ results, keeps result := by
  obtain ⟨rfl, -⟩ := ifBound_eq_ok h
  intro result hresult
  obtain ⟨value, hvalue, rfl⟩ := List.mem_map.mp hresult
  exact hkeeps value _ (hvalues value hvalue)

theorem keeps_expr? {env : Environment} {value result : Option Expr}
    (hvalue : ∀ e ∈ value.toList, keeps e) (h : expr? env value = .ok result) :
    ∀ e ∈ result.toList, keeps e := by
  cases value with
  | none =>
      cases h
      exact hvalue
  | some value =>
      change (expr env value).map some = _ at h
      cases hexpr : expr env value with
      | error diagnostic =>
          rw [hexpr] at h
          cases h
      | ok checked =>
          rw [hexpr] at h
          cases h
          exact List.forall_mem_singleton.mpr
            (keeps_expr hkeeps (List.forall_mem_singleton.mp hvalue) hexpr)

end Roots

mutual

/-- What binding the names of an expression keeps holds of all expressions of the
resolved statement. -/
theorem keeps_stmt {keeps : Expr → Prop}
    (hkeeps : ∀ value symbolOf, keeps value → keeps (value.annotate symbolOf))
    {env env' : Environment} {ledger ledger' : Ledger} : (st : Stmt) →
    {st' : Stmt} → (∀ value ∈ st.roots, keeps value) →
    stmt env ledger st = .ok (st', env', ledger') → ∀ value ∈ st'.roots, keeps value
  | .bind form name written value _, st', hroots, h => by
      rw [stmt] at h
      obtain ⟨value', hvalue, h⟩ := bind_eq_ok_iff.mp h
      cases h
      exact keeps_expr? hkeeps hroots hvalue
  | .print value, st', hroots, h => by
      rw [stmt] at h
      obtain ⟨value', hvalue, h⟩ := bind_eq_ok_iff.mp h
      cases h
      have hkept := keeps_expr hkeeps (List.forall_mem_singleton.mp hroots) hvalue
      exact List.forall_mem_singleton.mpr hkept
  | .evaluate value, st', hroots, h => by
      rw [stmt] at h
      obtain ⟨value', hvalue, h⟩ := bind_eq_ok_iff.mp h
      cases h
      have hkept := keeps_expr hkeeps (List.forall_mem_singleton.mp hroots) hvalue
      exact List.forall_mem_singleton.mpr hkept
  | .branch test yes none, st', hroots, h => by
      rw [stmt] at h
      obtain ⟨test', htest, h⟩ := bind_eq_ok_iff.mp h
      obtain ⟨⟨yes', env₁, ledger₁⟩, hyes, h⟩ := bind_eq_ok_iff.mp h
      cases h
      obtain ⟨htestKept, hyesKept⟩ := List.forall_mem_cons.mp hroots
      exact List.forall_mem_cons.mpr
        ⟨keeps_expr hkeeps htestKept htest, keeps_stmts hkeeps yes hyesKept hyes⟩
  | .branch test yes (some no), st', hroots, h => by
      rw [stmt] at h
      obtain ⟨test', htest, h⟩ := bind_eq_ok_iff.mp h
      obtain ⟨⟨yes', env₁, ledger₁⟩, hyes, h⟩ := bind_eq_ok_iff.mp h
      obtain ⟨⟨no', env₂, ledger₂⟩, hno, h⟩ := bind_eq_ok_iff.mp h
      cases h
      obtain ⟨htestKept, hbodies⟩ := List.forall_mem_cons.mp hroots
      obtain ⟨hyesKept, hnoKept⟩ := List.forall_mem_append.mp hbodies
      exact List.forall_mem_cons.mpr ⟨keeps_expr hkeeps htestKept htest,
        List.forall_mem_append.mpr
          ⟨keeps_stmts hkeeps yes hyesKept hyes, keeps_stmts hkeeps no hnoKept hno⟩⟩
  | .whileLoop test body, st', hroots, h => by
      rw [stmt] at h
      obtain ⟨test', htest, h⟩ := bind_eq_ok_iff.mp h
      obtain ⟨⟨body', env₁, ledger₁⟩, hbody, h⟩ := bind_eq_ok_iff.mp h
      cases h
      obtain ⟨htestKept, hbodyKept⟩ := List.forall_mem_cons.mp hroots
      exact List.forall_mem_cons.mpr
        ⟨keeps_expr hkeeps htestKept htest, keeps_stmts hkeeps body hbodyKept hbody⟩
  | .forLoop name _ bounds body, st', hroots, h => by
      rw [stmt] at h
      obtain ⟨bounds', hbounds, h⟩ := bind_eq_ok_iff.mp h
      obtain ⟨⟨body', env₁, ledger₁⟩, hbody, h⟩ := bind_eq_ok_iff.mp h
      cases h
      obtain ⟨hboundsKept, hbodyKept⟩ := List.forall_mem_append.mp hroots
      exact List.forall_mem_append.mpr
        ⟨keeps_exprs hkeeps hboundsKept hbounds, keeps_stmts hkeeps body hbodyKept hbody⟩
  | .block body, st', hroots, h => by
      rw [stmt] at h
      obtain ⟨⟨body', env₁, ledger₁⟩, hbody, h⟩ := bind_eq_ok_iff.mp h
      cases h
      exact keeps_stmts hkeeps body hroots hbody

theorem keeps_stmts {keeps : Expr → Prop}
    (hkeeps : ∀ value symbolOf, keeps value → keeps (value.annotate symbolOf))
    {env env' : Environment} {ledger ledger' : Ledger} : (body : List Stmt) →
    {body' : List Stmt} → (∀ value ∈ Stmt.bodyRoots body, keeps value) →
    stmts env ledger body = .ok (body', env', ledger') →
    ∀ value ∈ Stmt.bodyRoots body', keeps value
  | [], body', hroots, h => by
      cases h
      exact hroots
  | first :: rest, body', hroots, h => by
      rw [stmts] at h
      obtain ⟨⟨first', env₁, ledger₁⟩, hfirst, h⟩ := bind_eq_ok_iff.mp h
      obtain ⟨⟨rest', env₂, ledger₂⟩, hrest, h⟩ := bind_eq_ok_iff.mp h
      cases h
      obtain ⟨hfirstKept, hrestKept⟩ := List.forall_mem_append.mp hroots
      exact List.forall_mem_append.mpr
        ⟨keeps_stmt hkeeps first hfirstKept hfirst, keeps_stmts hkeeps rest hrestKept hrest⟩

end

end Reference

/-- Resolution keeps bare programs bare. -/
theorem bare_of_resolve {program body : Program} {symbols : SymbolTable}
    {log log' : Array Event} (hbare : ∀ value ∈ Stmt.bodyRoots program, value.Bare)
    (h : Frontend.resolve program log = .ok (body, symbols) log') :
    ∀ value ∈ Stmt.bodyRoots body, value.Bare := by
  obtain ⟨env, ledger, hstmts, -⟩ := reference_of_resolve h
  exact Reference.keeps_stmts (fun _ symbolOf hvalue => hvalue.annotate symbolOf) program hbare
    hstmts

/-! ## Bindings in the order of the walk -/

/-- A statement that binds a symbol: what kind of statement it is, the name, the written
type, the value of a binding or the bounds of a loop, and the symbol. -/
structure Binding where
  origin : Origin
  name : String
  written : Option Ascription
  values : List Expr
  symbol : Option SymbolId

namespace Stmt

mutual

/-- The bindings in a statement, in the order of the walk. -/
def bindings : Stmt → List Binding
  | bind form name written value symbol => [⟨form.origin, name, written, value.toList, symbol⟩]
  | print _ | evaluate _ => []
  | branch _ yes none => bodyBindings yes
  | branch _ yes (some no) => bodyBindings yes ++ bodyBindings no
  | whileLoop _ body => bodyBindings body
  | forLoop name symbol bounds body =>
    ⟨.loopVariable, name, none, bounds, symbol⟩ :: bodyBindings body
  | block body => bodyBindings body

/-- The bindings in some statements, in the order of the walk. -/
def bodyBindings : List Stmt → List Binding
  | [] => []
  | first :: rest => first.bindings ++ bodyBindings rest

end

end Stmt

/-- The binding with another expression in place of each of its values. -/
def Binding.mapValues (f : Expr → Expr) (binding : Binding) : Binding :=
  { binding with values := binding.values.map f }

namespace Stmt

mutual

theorem bindings_mapRoots (f : Expr → Expr) : (st : Stmt) →
    (st.mapRoots f).bindings = st.bindings.map (Binding.mapValues f)
  | bind _ _ _ none _ => rfl
  | bind _ _ _ (some _) _ => rfl
  | print _ => rfl
  | evaluate _ => rfl
  | branch _ yes none => by rw [mapRoots, bindings, bindings, bodyBindings_mapBodyRoots f yes]
  | branch _ yes (some no) => by
      rw [mapRoots, bindings, bindings, bodyBindings_mapBodyRoots f yes,
        bodyBindings_mapBodyRoots f no, List.map_append]
  | whileLoop _ body => by rw [mapRoots, bindings, bindings, bodyBindings_mapBodyRoots f body]
  | forLoop _ _ _ body => by
      rw [mapRoots, bindings, bindings, bodyBindings_mapBodyRoots f body, List.map_cons,
        Binding.mapValues]
  | block body => by rw [mapRoots, bindings, bindings, bodyBindings_mapBodyRoots f body]

theorem bodyBindings_mapBodyRoots (f : Expr → Expr) : (body : List Stmt) →
    bodyBindings (mapBodyRoots f body) = (bodyBindings body).map (Binding.mapValues f)
  | [] => rfl
  | first :: rest => by
      rw [mapBodyRoots, bodyBindings, bodyBindings, bindings_mapRoots f first,
        bodyBindings_mapBodyRoots f rest, List.map_append]

end

end Stmt

/-- Going through the bindings, where `count` symbols are bound before them and `next`
after them: each binds the next new symbol, and then satisfies `first`, or one that was
there before, and then satisfies `again`. -/
inductive Binds (first again : SymbolId → Binding → Prop) : Nat → List Binding → Nat → Prop where
  | nil {count : Nat} : Binds first again count [] count
  | first {count next : Nat} {binding : Binding} {rest : List Binding} :
      binding.symbol = some ⟨count⟩ → first ⟨count⟩ binding →
      Binds first again (count + 1) rest next → Binds first again count (binding :: rest) next
  | again {count next : Nat} {symbol : SymbolId} {binding : Binding} {rest : List Binding} :
      binding.symbol = some symbol → symbol.index < count → again symbol binding →
      Binds first again count rest next → Binds first again count (binding :: rest) next

section Binds

variable {first again : SymbolId → Binding → Prop} {count middle next : Nat}
  {bindings more : List Binding}

theorem Binds.append (h : Binds first again count bindings middle)
    (hmore : Binds first again middle more next) :
    Binds first again count (bindings ++ more) next := by
  induction h with
  | nil => exact hmore
  | first hsymbol hfirst _ ih => exact .first hsymbol hfirst (ih hmore)
  | again hsymbol hlt hagain _ ih => exact .again hsymbol hlt hagain (ih hmore)

theorem Binds.mono {first' again' : SymbolId → Binding → Prop}
    (h : Binds first again count bindings next)
    (hfirst : ∀ symbol binding, first symbol binding → first' symbol binding)
    (hagain : ∀ symbol binding, again symbol binding → again' symbol binding) :
    Binds first' again' count bindings next := by
  induction h with
  | nil => exact .nil
  | first hsymbol hbinding _ ih => exact .first hsymbol (hfirst _ _ hbinding) ih
  | again hsymbol hlt hbinding _ ih => exact .again hsymbol hlt (hagain _ _ hbinding) ih

/-- The bindings of a symbol. -/
def bindingsOf (symbol : SymbolId) (bindings : List Binding) : List Binding :=
  bindings.filter fun binding => binding.symbol = some symbol

theorem bindingsOf_map_mapValues (symbol : SymbolId) (f : Expr → Expr) (bindings : List Binding) :
    bindingsOf symbol (bindings.map (Binding.mapValues f)) =
      (bindingsOf symbol bindings).map (Binding.mapValues f) := by
  rw [bindingsOf, List.filter_map]
  rfl

/-- Symbols that were there before are only bound again. -/
theorem Binds.again_of_lt (h : Binds first again count bindings next) {symbol : SymbolId}
    (hlt : symbol.index < count) :
    ∀ binding ∈ bindingsOf symbol bindings, again symbol binding := by
  induction h with
  | nil => simp [bindingsOf]
  | first hsymbol _ _ ih =>
      have hne : symbol ≠ ⟨_⟩ := fun heq => Nat.lt_irrefl _ (heq ▸ hlt)
      intro binding hbinding
      rw [bindingsOf, List.filter_cons_of_neg (by simp [hsymbol, Ne.symm hne])] at hbinding
      exact ih (Nat.lt_succ_of_lt hlt) binding hbinding
  | @again _ _ other binding rest hsymbol _ hagain _ ih =>
      by_cases heq : other = symbol
      · subst heq
        rw [bindingsOf, List.filter_cons_of_pos (by simp [hsymbol])]
        exact List.forall_mem_cons.mpr ⟨hagain, ih hlt⟩
      · rw [bindingsOf, List.filter_cons_of_neg (by simp [hsymbol, heq])]
        exact ih hlt

/-- **The first binding of a symbol introduces it, and all later ones bind it again.** -/
theorem Binds.exists_bindingsOf (h : Binds first again count bindings next) {symbol : SymbolId}
    (hle : count ≤ symbol.index) (hlt : symbol.index < next) :
    ∃ binding later, bindingsOf symbol bindings = binding :: later ∧ first symbol binding ∧
      ∀ other ∈ later, again symbol other := by
  induction h with
  | nil => omega
  | @first count next binding rest hsymbol hfirst hrest ih =>
      by_cases heq : symbol = ⟨count⟩
      · subst heq
        refine ⟨binding, bindingsOf ⟨count⟩ rest, ?_, hfirst,
          hrest.again_of_lt (Nat.lt_succ_self count)⟩
        rw [bindingsOf, List.filter_cons_of_pos (by simp [hsymbol]), bindingsOf]
      · have hindex : symbol.index ≠ count := fun hindex => heq (by cases symbol; simp_all)
        rw [bindingsOf, List.filter_cons_of_neg (by simp [hsymbol, Ne.symm heq])]
        exact ih (by omega) hlt
  | @again count next other binding rest hsymbol hother _ _ ih =>
      have hne : other ≠ symbol := by
        rintro rfl
        omega
      rw [bindingsOf, List.filter_cons_of_neg (by simp [hsymbol, hne])]
      exact ih hle hlt

end Binds

/-! ## The ledger records first bindings -/

namespace Reference

/-- The ledger has an entry for the symbol, with the name and the kind of the binding. -/
def Records (ledger : Ledger) (symbol : SymbolId) (binding : Binding) : Prop :=
  ledger[symbol.index]? = some (binding.name, binding.origin)

theorem Records.of_isPrefix {ledger later : Ledger} {symbol : SymbolId} {binding : Binding}
    (h : Records ledger symbol binding) (hextends : ledger <+: later) :
    Records later symbol binding := by
  obtain ⟨added, rfl⟩ := hextends
  have hlt : symbol.index < ledger.length := (List.getElem?_eq_some_iff.mp h).1
  rw [Records, List.getElem?_append_left hlt]
  exact h

/-- What a walk from one ledger to another has bound: it has entered its new symbols, in
the order in which it came to them. -/
structure Enters (ledger : Ledger) (bindings : List Binding) (later : Ledger) : Prop where
  isPrefix : ledger <+: later
  binds : Binds (Records later) (fun _ _ => True) ledger.length bindings later.length

theorem enters_nil (ledger : Ledger) : Enters ledger [] ledger :=
  ⟨List.prefix_rfl, .nil⟩

theorem Enters.append {ledger middle later : Ledger} {bindings more : List Binding}
    (h : Enters ledger bindings middle) (hmore : Enters middle more later) :
    Enters ledger (bindings ++ more) later := by
  refine ⟨h.isPrefix.trans hmore.isPrefix, ?_⟩
  refine (h.binds.mono (fun _ _ hrecords => ?_) fun _ _ _ => trivial).append hmore.binds
  exact hrecords.of_isPrefix hmore.isPrefix

theorem enters_again {ledger : Ledger} {symbol : SymbolId} {binding : Binding}
    (hsymbol : binding.symbol = some symbol) (hlt : symbol.index < ledger.length) :
    Enters ledger [binding] ledger :=
  ⟨List.prefix_rfl, .again hsymbol hlt trivial .nil⟩

theorem enters_first {ledger : Ledger} {binding : Binding}
    (hsymbol : binding.symbol = some ⟨ledger.length⟩) :
    Enters ledger [binding] (ledger ++ [(binding.name, binding.origin)]) := by
  refine ⟨List.prefix_append _ _, ?_⟩
  rw [List.length_append]
  exact .first hsymbol (by simp [Records]) .nil

mutual

/-- A statement enters the symbols that it is the first to bind. -/
theorem enters_stmt {env env' : Environment} {ledger ledger' : Ledger} : (st : Stmt) →
    {st' : Stmt} → env.Below ledger.length → stmt env ledger st = .ok (st', env', ledger') →
    Enters ledger st'.bindings ledger' ∧ env'.Below ledger'.length
  | .bind form name written value _, st', henv, h => by
      rw [stmt] at h
      obtain ⟨value', -, h⟩ := bind_eq_ok_iff.mp h
      rcases target_cases henv form name with ⟨symbol, htarget, hold⟩ | ⟨env₁, htarget, henv₁⟩
      · rw [htarget] at h
        cases h
        exact ⟨enters_again rfl hold, henv⟩
      · rw [htarget] at h
        cases h
        refine ⟨enters_first rfl, ?_⟩
        rw [List.length_append]
        exact henv₁
  | .print value, st', henv, h => by
      rw [stmt] at h
      obtain ⟨value', -, h⟩ := bind_eq_ok_iff.mp h
      cases h
      exact ⟨enters_nil ledger, henv⟩
  | .evaluate value, st', henv, h => by
      rw [stmt] at h
      obtain ⟨value', -, h⟩ := bind_eq_ok_iff.mp h
      cases h
      exact ⟨enters_nil ledger, henv⟩
  | .branch test yes none, st', henv, h => by
      rw [stmt] at h
      obtain ⟨test', -, h⟩ := bind_eq_ok_iff.mp h
      obtain ⟨⟨yes', env₁, ledger₁⟩, hyes, h⟩ := bind_eq_ok_iff.mp h
      cases h
      have hyes := (enters_stmts yes (below_enter henv) hyes).1
      exact ⟨hyes, below_mono henv hyes.isPrefix.length_le⟩
  | .branch test yes (some no), st', henv, h => by
      rw [stmt] at h
      obtain ⟨test', -, h⟩ := bind_eq_ok_iff.mp h
      obtain ⟨⟨yes', env₁, ledger₁⟩, hyes, h⟩ := bind_eq_ok_iff.mp h
      obtain ⟨⟨no', env₂, ledger₂⟩, hno, h⟩ := bind_eq_ok_iff.mp h
      cases h
      have hyes := (enters_stmts yes (below_enter henv) hyes).1
      have henv₁ := below_mono henv hyes.isPrefix.length_le
      have hno := (enters_stmts no (below_enter henv₁) hno).1
      exact ⟨hyes.append hno, below_mono henv₁ hno.isPrefix.length_le⟩
  | .whileLoop test body, st', henv, h => by
      rw [stmt] at h
      obtain ⟨test', -, h⟩ := bind_eq_ok_iff.mp h
      obtain ⟨⟨body', env₁, ledger₁⟩, hbody, h⟩ := bind_eq_ok_iff.mp h
      cases h
      have hbody := (enters_stmts body (below_enter henv) hbody).1
      exact ⟨hbody, below_mono henv hbody.isPrefix.length_le⟩
  | .forLoop name _ bounds body, st', henv, h => by
      rw [stmt] at h
      obtain ⟨bounds', -, h⟩ := bind_eq_ok_iff.mp h
      -- the scope of the loop is empty, so its variable is a new symbol
      have hdeclare : declare env.enter ledger name .loopVariable =
          (⟨ledger.length⟩, env.enter.bind name ⟨ledger.length⟩,
            ledger ++ [(name, .loopVariable)]) := rfl
      rw [hdeclare] at h
      obtain ⟨⟨body', env₁, ledger₁⟩, hbody, h⟩ := bind_eq_ok_iff.mp h
      cases h
      have hloop : (env.enter.bind name ⟨ledger.length⟩).Below
          (ledger ++ [(name, Origin.loopVariable)]).length := by
        rw [List.length_append]
        exact below_bind (below_enter henv) name
      have hbody := (enters_stmts body (below_enter hloop) hbody).1
      have hvariable : Enters ledger [⟨.loopVariable, name, none, bounds', some ⟨ledger.length⟩⟩]
          (ledger ++ [(name, Origin.loopVariable)]) := enters_first rfl
      have hall := hvariable.append hbody
      exact ⟨hall, below_mono henv hall.isPrefix.length_le⟩
  | .block body, st', henv, h => by
      rw [stmt] at h
      obtain ⟨⟨body', env₁, ledger₁⟩, hbody, h⟩ := bind_eq_ok_iff.mp h
      cases h
      have hbody := (enters_stmts body (below_enter henv) hbody).1
      exact ⟨hbody, below_mono henv hbody.isPrefix.length_le⟩

theorem enters_stmts {env env' : Environment} {ledger ledger' : Ledger} : (body : List Stmt) →
    {body' : List Stmt} → env.Below ledger.length →
    stmts env ledger body = .ok (body', env', ledger') →
    Enters ledger (Stmt.bodyBindings body') ledger' ∧ env'.Below ledger'.length
  | [], body', henv, h => by
      cases h
      exact ⟨enters_nil ledger, henv⟩
  | first :: rest, body', henv, h => by
      rw [stmts] at h
      obtain ⟨⟨first', env₁, ledger₁⟩, hfirst, h⟩ := bind_eq_ok_iff.mp h
      obtain ⟨⟨rest', env₂, ledger₂⟩, hrest, h⟩ := bind_eq_ok_iff.mp h
      cases h
      obtain ⟨hfirst, henv₁⟩ := enters_stmt first henv hfirst
      obtain ⟨hrest, henv₂⟩ := enters_stmts rest henv₁ hrest
      exact ⟨hfirst.append hrest, henv₂⟩

end

end Reference

/-- The table holds the symbol under the name and the kind of the binding, and without a
type. -/
def SymbolTable.Introduces (symbols : SymbolTable) (symbol : SymbolId) (binding : Binding) :
    Prop :=
  symbols.get? symbol = some ⟨binding.name, binding.origin, none⟩

/-- **The symbol table of a resolved program lists the first bindings of its symbols.** -/
theorem binds_of_resolve {program body : Program} {symbols : SymbolTable} {log log' : Array Event}
    (h : Frontend.resolve program log = .ok (body, symbols) log') :
    Binds symbols.Introduces (fun _ _ => True) 0 (Stmt.bodyBindings body) symbols.size := by
  obtain ⟨env, ledger, hstmts, rfl⟩ := reference_of_resolve h
  have hempty : Environment.empty.Below ([] : Ledger).length := fun _ _ hid => nomatch hid
  have henters := (Reference.enters_stmts program hempty hstmts).1
  have hsize : ledger.table.size = ledger.length := by simp [Ledger.table, SymbolTable.size]
  rw [hsize]
  refine henters.binds.mono (fun symbol binding hrecords => ?_) fun _ _ _ => trivial
  rw [Reference.Records] at hrecords
  simp [SymbolTable.Introduces, SymbolTable.get?, Ledger.table, hrecords]

end FlexWidth
