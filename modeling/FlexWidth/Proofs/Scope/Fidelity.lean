import FlexWidth.Proofs.Scope.Bindings
import FlexWidth.Proofs.Tree.Labels

/-!
# Resolution only fills the slots for symbols

The result of resolution is the program with symbols in its slots: clearing the slots of
both gives the same tree.  Every label of the result has a symbol, and the symbol table has
it under the name of the label.

The link between names and symbols is an invariant of the environment: a name in sight is
bound to a symbol under which the ledger has that name (`Environment.Named`).  The ledger
only grows, so this holds for as long as the name is in sight, and a label that was right
when it was written stays right.
-/

namespace FlexWidth

/-- The label with an empty slot for its symbol. -/
def clearLabel (label : Label) : Label := (label.1, none)

/-! ## Expressions -/

mutual

/-- Binding the names of an expression changes its symbols only. -/
theorem relabel_clearLabel_annotate (symbolOf : String → Option SymbolId) : (value : Expr) →
    (value.annotate symbolOf).relabel clearLabel = value.relabel clearLabel
  | .literal .. | .var .. | .read .. => rfl
  | .unary _ operand _ => by
      rw [Expr.annotate, Expr.relabel, Expr.relabel, relabel_clearLabel_annotate symbolOf operand]
  | .binary _ left right _ => by
      rw [Expr.annotate, Expr.relabel, Expr.relabel, relabel_clearLabel_annotate symbolOf left,
        relabel_clearLabel_annotate symbolOf right]
  | .conversion operand _ => by
      rw [Expr.annotate, Expr.relabel, Expr.relabel, relabel_clearLabel_annotate symbolOf operand]
  | .load place _ => by
      rw [Expr.annotate, Expr.relabel, Expr.relabel, relabel_clearLabel_annotate symbolOf place]
  | .glue fields _ => by
      rw [Expr.annotate, Expr.relabel, Expr.relabel,
        relabelFields_clearLabel_annotateFields symbolOf fields]
  | .dot base _ _ _ => by
      rw [Expr.annotate, Expr.relabel, Expr.relabel, relabel_clearLabel_annotate symbolOf base]
  | .index base _ _ => by
      rw [Expr.annotate, Expr.relabel, Expr.relabel, relabel_clearLabel_annotate symbolOf base]

theorem relabelFields_clearLabel_annotateFields (symbolOf : String → Option SymbolId) :
    (fields : GlueFields) →
    Expr.relabelFields clearLabel (annotateFields symbolOf fields) =
      Expr.relabelFields clearLabel fields
  | [] => rfl
  | (_, value) :: rest => by
      rw [annotateFields, Expr.relabelFields, Expr.relabelFields,
        relabel_clearLabel_annotate symbolOf value,
        relabelFields_clearLabel_annotateFields symbolOf rest]

end

mutual

/-- The labels of an expression are its uses of names, each with its symbol. -/
theorem labels_annotate (symbolOf : String → Option SymbolId) : (value : Expr) →
    (value.annotate symbolOf).labels = value.uses.map fun name => (name, symbolOf name)
  | .literal .. | .var .. | .read .. => rfl
  | .unary _ operand _ => labels_annotate symbolOf operand
  | .binary _ left right _ => by
      rw [Expr.annotate, Expr.labels, Expr.uses, labels_annotate symbolOf left,
        labels_annotate symbolOf right, List.map_append]
  | .conversion operand _ => labels_annotate symbolOf operand
  | .load place _ => labels_annotate symbolOf place
  | .glue fields _ => fieldLabels_annotateFields symbolOf fields
  | .dot base _ _ _ => labels_annotate symbolOf base
  | .index base _ _ => labels_annotate symbolOf base

theorem fieldLabels_annotateFields (symbolOf : String → Option SymbolId) :
    (fields : GlueFields) → Expr.fieldLabels (annotateFields symbolOf fields) =
      (fieldUses fields).map fun name => (name, symbolOf name)
  | [] => rfl
  | (_, value) :: rest => by
      rw [annotateFields, Expr.fieldLabels, fieldUses, labels_annotate symbolOf value,
        fieldLabels_annotateFields symbolOf rest, List.map_append]

end

/-! ## Labels and the ledger -/

/-- The label has a symbol, and the ledger has it under the name of the label. -/
def Ledger.Confirms (ledger : Ledger) (label : Label) : Prop :=
  ∃ id origin, label.2 = some id ∧ ledger[id.index]? = some (label.1, origin)

theorem Ledger.Confirms.of_isPrefix {ledger later : Ledger} {label : Label}
    (h : ledger.Confirms label) (hextends : ledger <+: later) : later.Confirms label := by
  obtain ⟨id, origin, hid, hentry⟩ := h
  obtain ⟨added, rfl⟩ := hextends
  have hlt : id.index < ledger.length := (List.getElem?_eq_some_iff.mp hentry).1
  exact ⟨id, origin, hid, (List.getElem?_append_left hlt).trans hentry⟩

/-- Every name in sight is bound to a symbol of that name. -/
def Environment.Named (env : Environment) (ledger : Ledger) : Prop :=
  ∀ name id, env.visible name = some id → ledger.Confirms (name, some id)

theorem Environment.Named.of_isPrefix {env : Environment} {ledger later : Ledger}
    (h : env.Named ledger) (hextends : ledger <+: later) : env.Named later :=
  fun name id hid => (h name id hid).of_isPrefix hextends

theorem Environment.Named.enter {env : Environment} {ledger : Ledger} (h : env.Named ledger) :
    env.enter.Named ledger := h

namespace Reference

variable {env env' : Environment} {ledger ledger' : Ledger}

/-- A walk from one ledger to another has only added to it, and its labels are confirmed. -/
structure Covers (ledger : Ledger) (labels : List Label) (later : Ledger) : Prop where
  isPrefix : ledger <+: later
  confirms : ∀ label ∈ labels, later.Confirms label

theorem covers_nil (ledger : Ledger) : Covers ledger [] ledger :=
  ⟨List.prefix_rfl, List.forall_mem_nil _⟩

theorem Covers.append {middle later : Ledger} {labels more : List Label}
    (h : Covers ledger labels middle) (hmore : Covers middle more later) :
    Covers ledger (labels ++ more) later := by
  refine ⟨h.isPrefix.trans hmore.isPrefix, List.forall_mem_append.mpr ⟨?_, hmore.confirms⟩⟩
  exact fun label hlabel => (h.confirms label hlabel).of_isPrefix hmore.isPrefix

section Expressions

variable (henv : env.Named ledger)

include henv

theorem confirms_uses {names : List String} (h : ∀ name ∈ names, ∃ id, env.visible name = some id) :
    ∀ label ∈ names.map fun name => (name, env.visible name), ledger.Confirms label := by
  intro label hlabel
  obtain ⟨name, hname, rfl⟩ := List.mem_map.mp hlabel
  obtain ⟨id, hid⟩ := h name hname
  rw [hid]
  exact henv name id hid

theorem covers_expr {value result : Expr} (h : expr env value = .ok result) :
    result.relabel clearLabel = value.relabel clearLabel ∧ Covers ledger result.labels ledger := by
  obtain ⟨rfl, hnames⟩ := ifBound_eq_ok h
  refine ⟨relabel_clearLabel_annotate _ value, List.prefix_rfl, ?_⟩
  rw [labels_annotate]
  exact confirms_uses henv hnames

theorem covers_exprs {values results : List Expr} (h : exprs env values = .ok results) :
    results.map (Expr.relabel clearLabel) = values.map (Expr.relabel clearLabel) ∧
      Covers ledger (results.flatMap Expr.labels) ledger := by
  obtain ⟨rfl, hnames⟩ := ifBound_eq_ok h
  refine ⟨?_, List.prefix_rfl, ?_⟩
  · rw [List.map_map]
    exact List.map_congr_left fun value _ => relabel_clearLabel_annotate _ value
  · intro label hlabel
    obtain ⟨result, hresult, hmem⟩ := List.mem_flatMap.mp hlabel
    obtain ⟨value, hvalue, rfl⟩ := List.mem_map.mp hresult
    rw [labels_annotate] at hmem
    refine confirms_uses henv (fun name hname => ?_) label hmem
    exact hnames name (List.mem_flatMap.mpr ⟨value, hvalue, hname⟩)

theorem covers_expr? {value result : Option Expr} (h : expr? env value = .ok result) :
    result.map (Expr.relabel clearLabel) = value.map (Expr.relabel clearLabel) ∧
      Covers ledger (result.toList.flatMap Expr.labels) ledger := by
  cases value with
  | none =>
      cases h
      exact ⟨rfl, covers_nil ledger⟩
  | some value =>
      change (expr env value).map some = _ at h
      cases hexpr : expr env value with
      | error diagnostic =>
          rw [hexpr] at h
          cases h
      | ok checked =>
          rw [hexpr] at h
          cases h
          obtain ⟨hclear, hcovers⟩ := covers_expr henv hexpr
          refine ⟨congrArg some hclear, ?_⟩
          rwa [Option.toList_some, List.flatMap_singleton]

end Expressions

/-! ## Statements -/

/-- What binding a name does: its symbol is confirmed, and so are all names in sight. -/
structure Declares (ledger : Ledger) (name : String) (found : SymbolId × Environment × Ledger) :
    Prop where
  covers : Covers ledger [(name, some found.1)] found.2.2
  named : found.2.1.Named found.2.2

theorem declares_old {symbol : SymbolId} {name : String} (henv : env.Named ledger)
    (h : env.visible name = some symbol) : Declares ledger name (symbol, env, ledger) :=
  ⟨⟨List.prefix_rfl, List.forall_mem_singleton.mpr (henv name symbol h)⟩, henv⟩

theorem declares_declare (henv : env.Named ledger) (name : String) (origin : Origin) :
    Declares ledger name (declare env ledger name origin) := by
  unfold declare
  cases hinner : env.inner name with
  | some symbol =>
      refine declares_old henv ?_
      rw [Environment.visible, hinner, Option.some_or]
  | none =>
      have hnew : Ledger.Confirms (ledger ++ [(name, origin)]) (name, some ⟨ledger.length⟩) :=
        ⟨_, origin, rfl, by simp⟩
      refine ⟨⟨List.prefix_append _ _, List.forall_mem_singleton.mpr hnew⟩, ?_⟩
      intro other id hid
      unfold Environment.visible Environment.bind at hid
      dsimp only at hid
      split at hid
      · rename_i hother
        cases hid
        rw [hother]
        exact hnew
      · exact (henv other id hid).of_isPrefix (List.prefix_append _ _)

theorem declares_target (henv : env.Named ledger) (form : BindingForm) (name : String) :
    Declares ledger name (target env ledger form name) := by
  cases form with
  | declaration => exact declares_declare henv name .declaration
  | assignment =>
      unfold target
      cases hvisible : env.visible name with
      | some symbol => exact declares_old henv hvisible
      | none => exact declares_declare henv name .assignment

mutual

/-- A resolved statement is the statement with confirmed symbols in its slots. -/
theorem covers_stmt {env env' : Environment} {ledger ledger' : Ledger} : (st : Stmt) →
    {st' : Stmt} → env.Named ledger → stmt env ledger st = .ok (st', env', ledger') →
    st'.relabel clearLabel = st.relabel clearLabel ∧ Covers ledger st'.labels ledger' ∧
      env'.Named ledger'
  | .bind form name written value _, st', henv, h => by
      rw [stmt] at h
      obtain ⟨value', hvalue, h⟩ := bind_eq_ok_iff.mp h
      obtain ⟨hclear, hcovers⟩ := covers_expr? henv hvalue
      have hdeclares := declares_target henv form name
      cases h
      refine ⟨?_, hcovers.append hdeclares.covers, hdeclares.named⟩
      rw [Stmt.relabel, Stmt.relabel, hclear]
      rfl
  | .print value, st', henv, h => by
      rw [stmt] at h
      obtain ⟨value', hvalue, h⟩ := bind_eq_ok_iff.mp h
      obtain ⟨hclear, hcovers⟩ := covers_expr henv hvalue
      cases h
      exact ⟨congrArg Stmt.print hclear, hcovers, henv⟩
  | .evaluate value, st', henv, h => by
      rw [stmt] at h
      obtain ⟨value', hvalue, h⟩ := bind_eq_ok_iff.mp h
      obtain ⟨hclear, hcovers⟩ := covers_expr henv hvalue
      cases h
      exact ⟨congrArg Stmt.evaluate hclear, hcovers, henv⟩
  | .branch test yes none, st', henv, h => by
      rw [stmt] at h
      obtain ⟨test', htest, h⟩ := bind_eq_ok_iff.mp h
      obtain ⟨⟨yes', env₁, ledger₁⟩, hyes, h⟩ := bind_eq_ok_iff.mp h
      obtain ⟨htestClear, htestCovers⟩ := covers_expr henv htest
      obtain ⟨hyesClear, hyesCovers, -⟩ := covers_stmts yes henv.enter hyes
      cases h
      refine ⟨?_, htestCovers.append hyesCovers, henv.of_isPrefix hyesCovers.isPrefix⟩
      rw [Stmt.relabel, Stmt.relabel, htestClear, hyesClear]
  | .branch test yes (some no), st', henv, h => by
      rw [stmt] at h
      obtain ⟨test', htest, h⟩ := bind_eq_ok_iff.mp h
      obtain ⟨⟨yes', env₁, ledger₁⟩, hyes, h⟩ := bind_eq_ok_iff.mp h
      obtain ⟨⟨no', env₂, ledger₂⟩, hno, h⟩ := bind_eq_ok_iff.mp h
      obtain ⟨htestClear, htestCovers⟩ := covers_expr henv htest
      obtain ⟨hyesClear, hyesCovers, -⟩ := covers_stmts yes henv.enter hyes
      have henv₁ := henv.of_isPrefix hyesCovers.isPrefix
      obtain ⟨hnoClear, hnoCovers, -⟩ := covers_stmts no henv₁.enter hno
      cases h
      refine ⟨?_, htestCovers.append (hyesCovers.append hnoCovers),
        henv₁.of_isPrefix hnoCovers.isPrefix⟩
      rw [Stmt.relabel, Stmt.relabel, htestClear, hyesClear, hnoClear]
  | .whileLoop test body, st', henv, h => by
      rw [stmt] at h
      obtain ⟨test', htest, h⟩ := bind_eq_ok_iff.mp h
      obtain ⟨⟨body', env₁, ledger₁⟩, hbody, h⟩ := bind_eq_ok_iff.mp h
      obtain ⟨htestClear, htestCovers⟩ := covers_expr henv htest
      obtain ⟨hbodyClear, hbodyCovers, -⟩ := covers_stmts body henv.enter hbody
      cases h
      refine ⟨?_, htestCovers.append hbodyCovers, henv.of_isPrefix hbodyCovers.isPrefix⟩
      rw [Stmt.relabel, Stmt.relabel, htestClear, hbodyClear]
  | .forLoop name _ bounds body, st', henv, h => by
      rw [stmt] at h
      obtain ⟨bounds', hbounds, h⟩ := bind_eq_ok_iff.mp h
      obtain ⟨⟨body', env₁, ledger₁⟩, hbody, h⟩ := bind_eq_ok_iff.mp h
      obtain ⟨hboundsClear, hboundsCovers⟩ := covers_exprs henv.enter hbounds
      have hdeclares := declares_declare henv.enter name .loopVariable
      obtain ⟨hbodyClear, hbodyCovers, -⟩ := covers_stmts body hdeclares.named.enter hbody
      cases h
      have hall := hboundsCovers.append (hdeclares.covers.append hbodyCovers)
      refine ⟨?_, hall, henv.of_isPrefix hall.isPrefix⟩
      rw [Stmt.relabel, Stmt.relabel, hboundsClear, hbodyClear]
      rfl
  | .block body, st', henv, h => by
      rw [stmt] at h
      obtain ⟨⟨body', env₁, ledger₁⟩, hbody, h⟩ := bind_eq_ok_iff.mp h
      obtain ⟨hbodyClear, hbodyCovers, -⟩ := covers_stmts body henv.enter hbody
      cases h
      exact ⟨congrArg Stmt.block hbodyClear, hbodyCovers,
        henv.of_isPrefix hbodyCovers.isPrefix⟩

theorem covers_stmts {env env' : Environment} {ledger ledger' : Ledger} : (body : List Stmt) →
    {body' : List Stmt} → env.Named ledger →
    stmts env ledger body = .ok (body', env', ledger') →
    Stmt.relabelBody clearLabel body' = Stmt.relabelBody clearLabel body ∧
      Covers ledger (Stmt.bodyLabels body') ledger' ∧ env'.Named ledger'
  | [], body', henv, h => by
      cases h
      exact ⟨rfl, covers_nil ledger, henv⟩
  | first :: rest, body', henv, h => by
      rw [stmts] at h
      obtain ⟨⟨first', env₁, ledger₁⟩, hfirst, h⟩ := bind_eq_ok_iff.mp h
      obtain ⟨⟨rest', env₂, ledger₂⟩, hrest, h⟩ := bind_eq_ok_iff.mp h
      obtain ⟨hfirstClear, hfirstCovers, henv₁⟩ := covers_stmt first henv hfirst
      obtain ⟨hrestClear, hrestCovers, henv₂⟩ := covers_stmts rest henv₁ hrest
      cases h
      refine ⟨?_, hfirstCovers.append hrestCovers, henv₂⟩
      rw [Stmt.relabelBody, Stmt.relabelBody, hfirstClear, hrestClear]

end

end Reference

/-! ## Symbols in the order of their first bindings -/

/-- A symbol that is new in a list of bindings is introduced by one of them, and the new
symbols bound before that one are those with smaller numbers. -/
theorem Binds.exists_split {first again : SymbolId → Binding → Prop} {count next : Nat}
    {bindings : List Binding} (h : Binds first again count bindings next) {symbol : SymbolId}
    (hle : count ≤ symbol.index) (hlt : symbol.index < next) :
    ∃ before binding after, bindings = before ++ binding :: after ∧
      binding.symbol = some symbol ∧ first symbol binding ∧
      ∀ other : SymbolId, count ≤ other.index →
        (some other ∈ before.map Binding.symbol ↔ other.index < symbol.index) := by
  induction h with
  | nil => omega
  | @first count next binding rest hsymbol hfirst _ ih =>
      by_cases heq : symbol = ⟨count⟩
      · subst heq
        exact ⟨[], binding, rest, rfl, hsymbol, hfirst, fun other hother => by simp [hother]⟩
      · have hindex : symbol.index ≠ count := fun hindex => heq (by cases symbol; simp_all)
        obtain ⟨before, binding', after, rfl, hsymbol', hfirst', hbefore⟩ := ih (by omega) hlt
        refine ⟨binding :: before, binding', after, rfl, hsymbol', hfirst', fun other hother => ?_⟩
        rw [List.map_cons, List.mem_cons, hsymbol, Option.some_inj]
        by_cases hother' : other = ⟨count⟩
        · subst hother'
          exact iff_of_true (Or.inl rfl) (show count < symbol.index by omega)
        · have hother'' : other.index ≠ count := fun hindex => hother' (by cases other; simp_all)
          rw [or_iff_right hother', hbefore other (by omega)]
  | @again count next old binding rest hsymbol hold _ _ ih =>
      obtain ⟨before, binding', after, rfl, hsymbol', hfirst', hbefore⟩ := ih hle hlt
      refine ⟨binding :: before, binding', after, rfl, hsymbol', hfirst', fun other hother => ?_⟩
      have hne : other ≠ old := by
        rintro rfl
        omega
      rw [List.map_cons, List.mem_cons, hsymbol, Option.some_inj, or_iff_right hne,
        hbefore other hother]

/-! ## Resolved programs -/

theorem Ledger.Confirms.exists_symbol {ledger : Ledger} {label : Label}
    (h : ledger.Confirms label) :
    ∃ id symbol, label.2 = some id ∧ ledger.table.get? id = some symbol ∧
      symbol.name = label.1 := by
  obtain ⟨id, origin, hid, hentry⟩ := h
  refine ⟨id, ⟨label.1, origin, none⟩, hid, ?_, rfl⟩
  simp [SymbolTable.get?, Ledger.table, hentry]

theorem SymbolTable.lt_size_of_get? {symbols : SymbolTable} {id : SymbolId} {symbol : Symbol}
    (h : symbols.get? id = some symbol) : id.index < symbols.size :=
  (Array.getElem?_eq_some_iff.mp h).1

/-- The second program is the first with symbols of the table in its slots. -/
structure FillsSlots (program body : Program) (symbols : SymbolTable) : Prop where
  /-- Without their symbols the two are the same tree. -/
  clear : Stmt.relabelBody clearLabel body = Stmt.relabelBody clearLabel program
  /-- Every variable, binding and loop has a symbol of its name. -/
  labels : ∀ label ∈ Stmt.bodyLabels body, ∃ id symbol, label.2 = some id ∧
    id.index < symbols.size ∧ symbols.get? id = some symbol ∧ symbol.name = label.1
  /-- Every symbol is introduced by a binding of its name and kind, and the symbols bound
  before that binding are those with smaller numbers. -/
  introduced : ∀ id symbol, symbols.get? id = some symbol →
    ∃ before binding after, Stmt.bodyBindings body = before ++ binding :: after ∧
      binding.symbol = some id ∧ binding.name = symbol.name ∧ binding.origin = symbol.origin ∧
      ∀ other : SymbolId, some other ∈ before.map Binding.symbol ↔ other.index < id.index
  /-- No symbol has a type. -/
  untyped : ∀ id symbol, symbols.get? id = some symbol → symbol.type = none

theorem exists_introducing_of_resolve {program body : Program} {symbols : SymbolTable}
    {log log' : Array Event} (h : Frontend.resolve program log = .ok (body, symbols) log')
    {id : SymbolId} {symbol : Symbol} (hsymbol : symbols.get? id = some symbol) :
    ∃ before binding after, Stmt.bodyBindings body = before ++ binding :: after ∧
      binding.symbol = some id ∧ symbol = ⟨binding.name, binding.origin, none⟩ ∧
      ∀ other : SymbolId, some other ∈ before.map Binding.symbol ↔ other.index < id.index := by
  obtain ⟨before, binding, after, hsplit, hbinding, hintroduces, hbefore⟩ :=
    (binds_of_resolve h).exists_split (Nat.zero_le _) (SymbolTable.lt_size_of_get? hsymbol)
  have hentry : symbol = ⟨binding.name, binding.origin, none⟩ :=
    Option.some_inj.mp (hsymbol.symm.trans hintroduces)
  exact ⟨before, binding, after, hsplit, hbinding, hentry,
    fun other => hbefore other (Nat.zero_le _)⟩

/-- **Resolution fills the slots for symbols and changes nothing else.** -/
theorem resolve_fillsSlots {program body : Program} {symbols : SymbolTable}
    {log log' : Array Event} (h : Frontend.resolve program log = .ok (body, symbols) log') :
    FillsSlots program body symbols := by
  obtain ⟨env, ledger, hstmts, hledger⟩ := reference_of_resolve h
  have hempty : Environment.empty.Named [] := fun _ _ hid => by cases hid
  obtain ⟨hclear, hcovers, -⟩ := Reference.covers_stmts program hempty hstmts
  refine ⟨hclear, fun label hlabel => ?_, fun id symbol hsymbol => ?_, fun id symbol hsymbol => ?_⟩
  · obtain ⟨id, symbol, hid, hget, hname⟩ := (hcovers.confirms label hlabel).exists_symbol
    rw [← hledger] at hget
    exact ⟨id, symbol, hid, SymbolTable.lt_size_of_get? hget, hget, hname⟩
  · obtain ⟨before, binding, after, hsplit, hbinding, rfl, hbefore⟩ :=
      exists_introducing_of_resolve h hsymbol
    exact ⟨before, binding, after, hsplit, hbinding, rfl, rfl, hbefore⟩
  · obtain ⟨-, -, -, -, -, rfl, -⟩ := exists_introducing_of_resolve h hsymbol
    rfl

/-- A block and a loop bind a name again that is bound around them, and both assign to
another one outside; symbols that stood in the slots before are replaced. -/
theorem resolve_fillsSlots_shadowing :
    ∃ program body symbols log',
      (program = [
          .bind .assignment "x" none (some (.literal 1 none)) none,
          .bind .declaration "y" none (some (.var "x" (some ⟨7⟩) none)) none,
          .block [
            .bind .declaration "x" none (some (.var "x" none none)) (some ⟨9⟩),
            .bind .assignment "y" none (some (.var "x" none none)) none],
          .forLoop "x" none [.var "x" none none] [
            .bind .assignment "y" none (some (.var "x" none none)) none]] ∧
        Frontend.resolve program #[] = .ok (body, symbols) log' ∧ symbols.size = 4) ∧
      FillsSlots program body symbols :=
  ⟨_, _, _, _, ⟨rfl, rfl, rfl⟩, resolve_fillsSlots rfl⟩

end FlexWidth
