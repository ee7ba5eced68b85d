import FlexWidth.Proofs.Grammar.Plain
import FlexWidth.Proofs.Scope.Simulation

/-!
# Symbols are numbered in the order of the walk

Resolution numbers symbols in the order in which it creates them, and creates the
symbol of a statement after it has resolved the expressions of that statement.  So
where `count` symbols have been created, exactly the symbols below `count` have been
bound, and a name can only be bound to one of them.

`Numbered count st next` states this of a resolved statement: its names are bound to
symbols that came before, and it binds an old symbol or the next new one.  The
variable of a loop is always new.
-/

namespace FlexWidth

/-- The kind of symbol that a form of binding introduces. -/
def BindingForm.origin : BindingForm → Origin
  | .declaration => .declaration
  | .assignment => .assignment

/-- The symbol is there, and it is one of the first `count`. -/
def SymbolBelow (count : Nat) (symbol : Option SymbolId) : Prop :=
  ∃ id, symbol = some id ∧ id.index < count

/-- A plain expression over the first `count` symbols. -/
abbrev Expr.BoundBelow (count : Nat) (value : Expr) : Prop := value.Plain (SymbolBelow count)

mutual

/-- A resolved statement: `count` symbols are bound before it and `next` after it. -/
inductive Numbered : Nat → Stmt → Nat → Prop where
  | rebind {count : Nat} {form : BindingForm} {name : String} {written : Option Ascription}
      {value : Option Expr} {symbol : SymbolId} : written.isSome ∨ value.isSome →
      (∀ e ∈ value, e.BoundBelow count) → symbol.index < count →
      Numbered count (.bind form name written value (some symbol)) count
  | bind {count : Nat} {form : BindingForm} {name : String} {written : Option Ascription}
      {value : Option Expr} : written.isSome ∨ value.isSome →
      (∀ e ∈ value, e.BoundBelow count) →
      Numbered count (.bind form name written value (some ⟨count⟩)) (count + 1)
  | print {count : Nat} {value : Expr} : value.BoundBelow count →
      Numbered count (.print value) count
  | evaluate {count : Nat} {value : Expr} : value.BoundBelow count →
      Numbered count (.evaluate value) count
  | branch {count next : Nat} {condition : Expr} {yes : List Stmt} :
      condition.BoundBelow count → NumberedAll count yes next →
      Numbered count (.branch condition yes none) next
  | otherwise {count middle next : Nat} {condition : Expr} {yes no : List Stmt} :
      condition.BoundBelow count → NumberedAll count yes middle → NumberedAll middle no next →
      Numbered count (.branch condition yes (some no)) next
  | whileLoop {count next : Nat} {condition : Expr} {body : List Stmt} :
      condition.BoundBelow count → NumberedAll count body next →
      Numbered count (.whileLoop condition body) next
  | forLoop {count next : Nat} {name : String} {bounds : List Expr} {body : List Stmt} :
      (∀ bound ∈ bounds, bound.BoundBelow count) → NumberedAll (count + 1) body next →
      Numbered count (.forLoop name (some ⟨count⟩) bounds body) next
  | block {count next : Nat} {body : List Stmt} : NumberedAll count body next →
      Numbered count (.block body) next

/-- Resolved statements in a row. -/
inductive NumberedAll : Nat → List Stmt → Nat → Prop where
  | nil {count : Nat} : NumberedAll count [] count
  | cons {count middle next : Nat} {first : Stmt} {rest : List Stmt} :
      Numbered count first middle → NumberedAll middle rest next →
      NumberedAll count (first :: rest) next

end

mutual

/-- Symbols are only added. -/
theorem Numbered.le {count next : Nat} {st : Stmt} (h : Numbered count st next) :
    count ≤ next := by
  match h with
  | .rebind _ _ _ => exact Nat.le_refl _
  | .bind _ _ => exact Nat.le_succ _
  | .print _ => exact Nat.le_refl _
  | .evaluate _ => exact Nat.le_refl _
  | .branch _ hyes => exact hyes.le
  | .otherwise _ hyes hno => exact Nat.le_trans hyes.le hno.le
  | .whileLoop _ hbody => exact hbody.le
  | .forLoop _ hbody => exact Nat.le_of_succ_le hbody.le
  | .block hbody => exact hbody.le

theorem NumberedAll.le {count next : Nat} {body : List Stmt} (h : NumberedAll count body next) :
    count ≤ next := by
  match h with
  | .nil => exact Nat.le_refl _
  | .cons hfirst hrest => exact Nat.le_trans hfirst.le hrest.le

end

/-! ## Expressions -/

theorem annotateFields_eq_map (symbolOf : String → Option SymbolId) (fields : GlueFields) :
    annotateFields symbolOf fields =
      fields.map fun field => (field.1, field.2.annotate symbolOf) := by
  induction fields with
  | nil => rfl
  | cons field rest ih => rw [annotateFields, ih, List.map_cons]

theorem fieldUses_eq_flatMap (fields : GlueFields) :
    fieldUses fields = fields.flatMap fun field => field.2.uses := by
  induction fields with
  | nil => rfl
  | cons field rest ih => rw [fieldUses, ih, List.flatMap_cons]

/-- Binding the names of a plain expression leaves it plain. -/
theorem Expr.Plain.annotate {bound bound' : Option SymbolId → Prop} {value : Expr}
    {symbolOf : String → Option SymbolId} (h : value.Plain bound)
    (huses : ∀ name ∈ value.uses, bound' (symbolOf name)) :
    (value.annotate symbolOf).Plain bound' := by
  induction h with
  | literal => exact .literal
  | var => exact .var (huses _ (List.mem_singleton_self _))
  | read => exact .read
  | sign _ ih => exact .sign (ih huses)
  | binary hclass _ _ ihleft ihright =>
      refine .binary hclass (ihleft fun name hname => ?_) (ihright fun name hname => ?_)
      · exact huses name (List.mem_append_left _ hname)
      · exact huses name (List.mem_append_right _ hname)
  | glue _ ih =>
      rw [Expr.uses, fieldUses_eq_flatMap] at huses
      rw [Expr.annotate, annotateFields_eq_map]
      refine .glue fun field hfield => ?_
      obtain ⟨source, hsource, rfl⟩ := List.mem_map.mp hfield
      refine ih source hsource fun name hname => ?_
      exact huses name (List.mem_flatMap.mpr ⟨_, hsource, hname⟩)
  | dot _ ih => exact .dot (ih huses)
  | index _ ih => exact .index (ih huses)

/-- The names in sight are bound to the first `count` symbols. -/
def Environment.Below (env : Environment) (count : Nat) : Prop :=
  ∀ name id, env.visible name = some id → id.index < count

namespace Reference

variable {env env' : Environment} {ledger ledger' : Ledger}

theorem bind_eq_ok_iff {α β : Type} {first : Except Diagnostic α} {next : α → Except Diagnostic β}
    {result : β} : (first >>= next) = .ok result ↔ ∃ value, first = .ok value ∧
      next value = .ok result := by
  cases first with
  | ok value =>
      constructor
      · exact fun h => ⟨value, rfl, h⟩
      · rintro ⟨_, ⟨⟩, h⟩
        exact h
  | error diagnostic =>
      constructor
      · exact fun h => nomatch h
      · rintro ⟨_, ⟨⟩, -⟩

theorem ifBound_eq_ok {α : Type} {symbolOf : String → Option SymbolId} {names : List String}
    {value result : α} (h : ifBound symbolOf names value = .ok result) :
    result = value ∧ ∀ name ∈ names, ∃ id, symbolOf name = some id := by
  unfold ifBound at h
  split at h
  · cases h
  · rename_i hnone
    cases h
    refine ⟨rfl, fun name hname => ?_⟩
    have hbound := List.find?_eq_none.mp hnone name hname
    simpa [Option.ne_none_iff_exists'] using hbound

theorem boundBelow_expr {value result : Expr} (hplain : value.Plain fun _ => True) {count : Nat}
    (henv : env.Below count) (h : expr env value = .ok result) : result.BoundBelow count := by
  obtain ⟨rfl, hnames⟩ := ifBound_eq_ok h
  refine hplain.annotate fun name hname => ?_
  obtain ⟨id, hid⟩ := hnames name hname
  exact ⟨id, hid, henv name id hid⟩

theorem boundBelow_exprs {values results : List Expr}
    (hplain : ∀ value ∈ values, value.Plain fun _ => True) {count : Nat} (henv : env.Below count)
    (h : exprs env values = .ok results) : ∀ result ∈ results, result.BoundBelow count := by
  obtain ⟨rfl, hnames⟩ := ifBound_eq_ok h
  intro result hresult
  obtain ⟨value, hvalue, rfl⟩ := List.mem_map.mp hresult
  refine (hplain value hvalue).annotate fun name hname => ?_
  obtain ⟨id, hid⟩ := hnames name (List.mem_flatMap.mpr ⟨value, hvalue, hname⟩)
  exact ⟨id, hid, henv name id hid⟩

theorem boundBelow_expr? {value result : Option Expr} (hplain : ∀ e ∈ value, e.Plain fun _ => True)
    {count : Nat} (henv : env.Below count) (h : expr? env value = .ok result) :
    (∀ e ∈ result, e.BoundBelow count) ∧ result.isSome = value.isSome := by
  cases value with
  | none =>
      cases h
      exact ⟨by simp, rfl⟩
  | some value =>
      change (expr env value).map some = _ at h
      cases hexpr : expr env value with
      | error diagnostic =>
          rw [hexpr] at h
          cases h
      | ok result =>
          rw [hexpr] at h
          cases h
          refine ⟨fun e he => ?_, rfl⟩
          cases he
          exact boundBelow_expr (hplain value rfl) henv hexpr

/-! ## Statements -/

theorem below_enter {count : Nat} (h : env.Below count) : env.enter.Below count := h

theorem below_mono {count next : Nat} (h : env.Below count) (hle : count ≤ next) :
    env.Below next :=
  fun name id hid => Nat.lt_of_lt_of_le (h name id hid) hle

theorem below_bind {count : Nat} (h : env.Below count) (name : String) :
    (env.bind name ⟨count⟩).Below (count + 1) := by
  intro other id hid
  unfold Environment.visible Environment.bind at hid
  dsimp only at hid
  split at hid
  · cases hid
    exact Nat.lt_succ_self _
  · exact Nat.lt_succ_of_lt (h other id hid)

/-- What a statement binds: an old symbol, or the next one, which it enters into the
ledger. -/
theorem declare_cases (henv : env.Below ledger.length) (name : String) (origin : Origin) :
    (∃ symbol : SymbolId, declare env ledger name origin = (symbol, env, ledger) ∧
        symbol.index < ledger.length) ∨
      ∃ env', declare env ledger name origin =
          (⟨ledger.length⟩, env', ledger ++ [(name, origin)]) ∧
        env'.Below (ledger.length + 1) := by
  unfold declare
  cases hinner : env.inner name with
  | some symbol =>
      refine Or.inl ⟨symbol, rfl, henv name symbol ?_⟩
      rw [Environment.visible, hinner, Option.some_or]
  | none => exact Or.inr ⟨_, rfl, below_bind henv name⟩

theorem target_cases (henv : env.Below ledger.length) (form : BindingForm) (name : String) :
    (∃ symbol : SymbolId, target env ledger form name = (symbol, env, ledger) ∧
        symbol.index < ledger.length) ∨
      ∃ env', target env ledger form name =
          (⟨ledger.length⟩, env', ledger ++ [(name, form.origin)]) ∧
        env'.Below (ledger.length + 1) := by
  cases form with
  | declaration => exact declare_cases henv name .declaration
  | assignment =>
      unfold target
      cases hvisible : env.visible name with
      | some symbol => exact Or.inl ⟨symbol, rfl, henv name symbol hvisible⟩
      | none => exact declare_cases henv name .assignment

mutual

/-- A statement is numbered as the ledger is. -/
theorem numbered_stmt {env env' : Environment} {ledger ledger' : Ledger} : (st : Stmt) →
    {st' : Stmt} → st.Plain → env.Below ledger.length →
    stmt env ledger st = .ok (st', env', ledger') →
    Numbered ledger.length st' ledger'.length ∧ env'.Below ledger'.length
  | .bind form name written value _, st', hplain, henv, h => by
      rw [stmt] at h
      obtain ⟨value', hvalue, h⟩ := bind_eq_ok_iff.mp h
      cases hplain with
      | bind hsome hplain =>
          obtain ⟨hbound, hisSome⟩ := boundBelow_expr? hplain henv hvalue
          rw [← hisSome] at hsome
          rcases target_cases henv form name with ⟨symbol, htarget, hold⟩ |
            ⟨env₁, htarget, henv₁⟩
          · rw [htarget] at h
            cases h
            exact ⟨.rebind hsome hbound hold, henv⟩
          · rw [htarget] at h
            cases h
            rw [List.length_append]
            exact ⟨.bind hsome hbound, henv₁⟩
  | .print value, st', hplain, henv, h => by
      rw [stmt] at h
      obtain ⟨value', hvalue, h⟩ := bind_eq_ok_iff.mp h
      cases h
      cases hplain with
      | print hplain => exact ⟨.print (boundBelow_expr hplain henv hvalue), henv⟩
  | .evaluate value, st', hplain, henv, h => by
      rw [stmt] at h
      obtain ⟨value', hvalue, h⟩ := bind_eq_ok_iff.mp h
      cases h
      cases hplain with
      | evaluate hplain => exact ⟨.evaluate (boundBelow_expr hplain henv hvalue), henv⟩
  | .branch condition yes none, st', hplain, henv, h => by
      rw [stmt] at h
      obtain ⟨condition', hcondition, h⟩ := bind_eq_ok_iff.mp h
      obtain ⟨⟨yes', env₁, ledger₁⟩, hyes, h⟩ := bind_eq_ok_iff.mp h
      cases h
      cases hplain with
      | branch hplain hyesPlain _ =>
          have hyes := (numbered_stmts yes hyesPlain (below_enter henv) hyes).1
          exact ⟨.branch (boundBelow_expr hplain henv hcondition) hyes, below_mono henv hyes.le⟩
  | .branch condition yes (some no), st', hplain, henv, h => by
      rw [stmt] at h
      obtain ⟨condition', hcondition, h⟩ := bind_eq_ok_iff.mp h
      obtain ⟨⟨yes', env₁, ledger₁⟩, hyes, h⟩ := bind_eq_ok_iff.mp h
      obtain ⟨⟨no', env₂, ledger₂⟩, hno, h⟩ := bind_eq_ok_iff.mp h
      cases h
      cases hplain with
      | branch hplain hyesPlain hnoPlain =>
          -- the names of the first block are forgotten, but its symbols are not
          have hyes := (numbered_stmts yes hyesPlain (below_enter henv) hyes).1
          have henv₁ := below_mono henv hyes.le
          have hno := (numbered_stmts no (hnoPlain no rfl) (below_enter henv₁) hno).1
          exact ⟨.otherwise (boundBelow_expr hplain henv hcondition) hyes hno,
            below_mono henv₁ hno.le⟩
  | .whileLoop condition body, st', hplain, henv, h => by
      rw [stmt] at h
      obtain ⟨condition', hcondition, h⟩ := bind_eq_ok_iff.mp h
      obtain ⟨⟨body', env₁, ledger₁⟩, hbody, h⟩ := bind_eq_ok_iff.mp h
      cases h
      cases hplain with
      | whileLoop hplain hbodyPlain =>
          have hbody := (numbered_stmts body hbodyPlain (below_enter henv) hbody).1
          exact ⟨.whileLoop (boundBelow_expr hplain henv hcondition) hbody,
            below_mono henv hbody.le⟩
  | .forLoop name _ bounds body, st', hplain, henv, h => by
      rw [stmt] at h
      obtain ⟨bounds', hbounds, h⟩ := bind_eq_ok_iff.mp h
      -- the scope of the loop is empty, so its variable is a new symbol
      have hdeclare : declare env.enter ledger name .loopVariable =
          (⟨ledger.length⟩, env.enter.bind name ⟨ledger.length⟩,
            ledger ++ [(name, .loopVariable)]) := rfl
      rw [hdeclare] at h
      obtain ⟨⟨body', env₁, ledger₁⟩, hbody, h⟩ := bind_eq_ok_iff.mp h
      cases h
      cases hplain with
      | forLoop hplain hbodyPlain =>
          have hloop : (env.enter.bind name ⟨ledger.length⟩).Below
              (ledger ++ [(name, Origin.loopVariable)]).length := by
            rw [List.length_append]
            exact below_bind (below_enter henv) name
          have hbody := (numbered_stmts body hbodyPlain (below_enter hloop) hbody).1
          rw [List.length_append] at hbody
          exact ⟨.forLoop (boundBelow_exprs hplain (below_enter henv) hbounds) hbody,
            below_mono henv (Nat.le_of_succ_le hbody.le)⟩
  | .block body, st', hplain, henv, h => by
      rw [stmt] at h
      obtain ⟨⟨body', env₁, ledger₁⟩, hbody, h⟩ := bind_eq_ok_iff.mp h
      cases h
      cases hplain with
      | block hplain =>
          have hbody := (numbered_stmts body hplain (below_enter henv) hbody).1
          exact ⟨.block hbody, below_mono henv hbody.le⟩

/-- Statements in a row are numbered as the ledger is. -/
theorem numbered_stmts {env env' : Environment} {ledger ledger' : Ledger} : (body : List Stmt) →
    {body' : List Stmt} → (∀ st ∈ body, st.Plain) → env.Below ledger.length →
    stmts env ledger body = .ok (body', env', ledger') →
    NumberedAll ledger.length body' ledger'.length ∧ env'.Below ledger'.length
  | [], body', hplain, henv, h => by
      cases h
      exact ⟨.nil, henv⟩
  | first :: rest, body', hplain, henv, h => by
      rw [stmts] at h
      obtain ⟨⟨first', env₁, ledger₁⟩, hfirst, h⟩ := bind_eq_ok_iff.mp h
      obtain ⟨⟨rest', env₂, ledger₂⟩, hrest, h⟩ := bind_eq_ok_iff.mp h
      cases h
      obtain ⟨hfirstPlain, hrestPlain⟩ := List.forall_mem_cons.mp hplain
      obtain ⟨hfirst, henv₁⟩ := numbered_stmt first hfirstPlain henv hfirst
      obtain ⟨hrest, henv₂⟩ := numbered_stmts rest hrestPlain henv₁ hrest
      exact ⟨.cons hfirst hrest, henv₂⟩

end

end Reference

/-- What resolution yields is what the environments yield. -/
theorem reference_of_resolve {program body : Program} {symbols : SymbolTable}
    {log log' : Array Event} (h : Frontend.resolve program log = .ok (body, symbols) log') :
    ∃ env ledger, Reference.stmts Environment.empty [] program = .ok (body, env, ledger) ∧
      symbols = ledger.table := by
  have hmirrors := mirrors_program program log
  cases hreference : Reference.program program with
  | error diagnostic =>
      rw [hreference] at hmirrors
      obtain ⟨final, hrun⟩ := hmirrors
      rw [Frontend.resolve, hrun] at h
      cases h
  | ok expected =>
      rw [hreference] at hmirrors
      obtain ⟨_, final, hrun, rfl, hsymbols⟩ := hmirrors
      rw [Frontend.resolve, hrun] at h
      cases h
      rw [hsymbols]
      unfold Reference.program at hreference
      obtain ⟨⟨body', env, ledger⟩, hstmts, heq⟩ := Reference.bind_eq_ok_iff.mp hreference
      cases heq
      exact ⟨env, ledger, hstmts, rfl⟩

/-- Resolution gives no symbol a type. -/
theorem untyped_of_resolve {program body : Program} {symbols : SymbolTable}
    {log log' : Array Event} (h : Frontend.resolve program log = .ok (body, symbols) log')
    {id : SymbolId} {symbol : Symbol} (hid : symbols.get? id = some symbol) :
    symbol.type = none := by
  obtain ⟨env, ledger, -, rfl⟩ := reference_of_resolve h
  simp only [Ledger.table, SymbolTable.get?, List.getElem?_toArray, List.getElem?_map,
    Option.map_eq_some_iff] at hid
  obtain ⟨entry, -, rfl⟩ := hid
  rfl

/-- **A resolved program is numbered in the order of the walk**, all symbols of its
table occur in it, and none has a type yet. -/
theorem numberedAll_of_resolve {body body' : Program} {symbols : SymbolTable}
    {log log' : Array Event} (hplain : ∀ st ∈ body, st.Plain)
    (h : Frontend.resolve body log = .ok (body', symbols) log') :
    NumberedAll 0 body' symbols.size ∧
      ∀ id symbol, symbols.get? id = some symbol → symbol.type = none := by
  refine ⟨?_, fun id symbol hid => untyped_of_resolve h hid⟩
  obtain ⟨env, ledger, hstmts, rfl⟩ := reference_of_resolve h
  have hempty : Environment.empty.Below ([] : Ledger).length := fun _ _ hid => nomatch hid
  have hnumbered := (Reference.numbered_stmts body hplain hempty hstmts).1
  simpa [Ledger.table, SymbolTable.size] using hnumbered

end FlexWidth
