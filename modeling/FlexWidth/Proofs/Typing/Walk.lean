import FlexWidth.Proofs.Typing.StmtCheck

/-!
# The walk over a resolved program

Checking gives the symbols of a program their types in the order in which resolution
numbered them.  Where `count` symbols are bound, exactly the first `count` symbols have
types (`Checking.At`).  So a name that is used has a type, and the variable of a loop
has none when the loop is reached.

`Arrives` says which statements the walk comes to, and in which states.  A statement
promises a `Walks`: it leads from the symbols before it to the symbols after it, or it
fails in one of the ways that `Fails` admits.
-/

namespace FlexWidth

/-- The state where `count` symbols are bound: they have types, the others do not. -/
structure Checking.At (s : Checking) (count : Nat) : Prop where
  sound : s.Sound
  typed : Check.TypedBelow s count
  fresh : ∀ symbol : SymbolId, count ≤ symbol.index → s.symbols.type? symbol = none

/-- The name and the kind of a symbol, which it has from the start. -/
def SymbolTable.label? (table : SymbolTable) (id : SymbolId) : Option (String × Origin) :=
  (table.get? id).map fun symbol => (symbol.name, symbol.origin)

/-- A later state of the walk: types and symbols keep what they have. -/
structure Checking.Advances (s final : Checking) : Prop where
  grows : s.types.Grows final.types
  keeps : s.symbols.Keeps final.symbols
  size : final.symbols.size = s.symbols.size
  labels : final.symbols.label? = s.symbols.label?

theorem Checking.Advances.refl (s : Checking) : s.Advances s :=
  ⟨.refl _, fun hid => hid, rfl, rfl⟩

theorem Checking.Advances.trans {s middle final : Checking} (h : s.Advances middle)
    (h' : middle.Advances final) : s.Advances final :=
  ⟨h.grows.trans h'.grows, fun hid => h'.keeps (h.keeps hid), h'.size.trans h.size,
    h'.labels.trans h.labels⟩

theorem Checking.Reaches.advances {s final : Checking} (h : s.Reaches final) : s.Advances final :=
  ⟨h.grows, h.keeps, congrArg SymbolTable.size h.symbols, congrArg SymbolTable.label? h.symbols⟩

theorem Checking.At.reach {s final : Checking} {count : Nat} (h : s.At count)
    (hreaches : s.Reaches final) : final.At count := by
  refine ⟨hreaches.sound, h.typed.reach hreaches, fun symbol hle => ?_⟩
  rw [hreaches.symbols]
  exact h.fresh symbol hle

namespace Check

/-! ## The statements that are reached -/

/-- Checking the statements from the first state on comes to a statement, in the
second state. -/
inductive Arrives : List Stmt → Checking → Stmt → Checking → Prop where
  | here {first : Stmt} {rest : List Stmt} {s : Checking} : Arrives (first :: rest) s first s
  | later {first first' st : Stmt} {rest : List Stmt} {s middle t : Checking} :
      stmt first s = .ok first' middle → Arrives rest middle st t → Arrives (first :: rest) s st t
  | yes {test test' : Expr} {yes rest : List Stmt} {no : Option (List Stmt)} {st : Stmt}
      {s middle t : Checking} : condition test s = .ok test' middle → Arrives yes middle st t →
      Arrives (.branch test yes no :: rest) s st t
  | no {test test' : Expr} {yes yes' no rest : List Stmt} {st : Stmt}
      {s middle later t : Checking} : condition test s = .ok test' middle →
      stmts yes middle = .ok yes' later → Arrives no later st t →
      Arrives (.branch test yes (some no) :: rest) s st t
  | whileLoop {test test' : Expr} {body rest : List Stmt} {st : Stmt} {s middle t : Checking} :
      condition test s = .ok test' middle → Arrives body middle st t →
      Arrives (.whileLoop test body :: rest) s st t
  | forLoop {name : String} {symbol : SymbolId} {bounds bounds' : List Expr}
      {body rest : List Stmt} {st : Stmt} {s middle t : Checking} :
      loopBounds name symbol bounds s = .ok bounds' middle → Arrives body middle st t →
      Arrives (.forLoop name (some symbol) bounds body :: rest) s st t
  | block {body rest : List Stmt} {st : Stmt} {s t : Checking} : Arrives body s st t →
      Arrives (.block body :: rest) s st t

/-- What comes after a statement does not matter for what is reached inside it. -/
theorem Arrives.append {first st : Stmt} {s t : Checking} (h : Arrives [first] s st t)
    (rest : List Stmt) : Arrives (first :: rest) s st t := by
  cases h with
  | here => exact .here
  | later _ h => cases h
  | yes htest h => exact .yes htest h
  | no htest hyes h => exact .no htest hyes h
  | whileLoop htest h => exact .whileLoop htest h
  | forLoop hbounds h => exact .forLoop hbounds h
  | block h => exact .block h

end Check

/-- The reasons for which a resolved program can be refused. -/
def Diagnostic.refusesProgram : Diagnostic → Bool
  | duplicateDeclaration _ | duplicateField _ | typeMismatch _ _ | literalOutOfRange _ _
  | invalidWidth _ | unknownField _ _ | invalidFieldAccess _ => true
  | _ => false

namespace Check

/-- The walk reaches a binding with a written type whose variable has a type, and
refuses it. -/
def Redeclares (body : List Stmt) (s : Checking) (name : String) : Prop :=
  ∃ form written value symbol t type, ∃ final : Checking,
    Arrives body s (.bind form name (some written) value (some symbol)) t ∧
      t.symbols.type? symbol = some type ∧
      stmt (.bind form name (some written) value (some symbol)) t =
        .error (.refused (.duplicateDeclaration name)) final

/-- How checking statements can fail: for a reason of the program, and a double
declaration comes from a written type. -/
def Fails (body : List Stmt) (s : Checking) (failure : Failure) : Prop :=
  ∃ diagnostic, failure = .refused diagnostic ∧ diagnostic.refusesProgram = true ∧
    ∀ name, diagnostic = .duplicateDeclaration name → Redeclares body s name

theorem Fails.of_refusesExpr {body : List Stmt} {s : Checking} {failure : Failure}
    (h : RefusesExpr failure) : Fails body s failure := by
  obtain ⟨diagnostic, rfl, hexpr⟩ := h
  refine ⟨diagnostic, rfl, ?_, ?_⟩
  · cases diagnostic <;> first | rfl | cases hexpr
  · rintro name rfl
    cases hexpr

/-- A failure further on in the walk is a failure of the walk. -/
theorem Fails.lift {body later : List Stmt} {s middle : Checking} {failure : Failure}
    (h : Fails later middle failure)
    (harrives : ∀ st t, Arrives later middle st t → Arrives body s st t) :
    Fails body s failure := by
  obtain ⟨diagnostic, rfl, hprogram, hname⟩ := h
  refine ⟨diagnostic, rfl, hprogram, fun name heq => ?_⟩
  obtain ⟨form, written, value, symbol, t, type, final, hreached, hrest⟩ := hname name heq
  exact ⟨form, written, value, symbol, t, type, final, harrives _ _ hreached, hrest⟩

/-! ## Promises of the walk -/

/-- From its start the stage leads to a state where `next` symbols are bound, or it
fails as `failed` says. -/
def Walks {α : Type} (stage : CheckM α) (s : Checking) (next : Nat) (failed : Failure → Prop)
    (post : α → Checking → Prop) : Prop :=
  Ends stage s (fun value final => s.Advances final ∧ final.At next ∧ post value final)
    fun failure _ => failed failure

section Rules

variable {α β : Type} {stage : CheckM α} {s : Checking} {count next : Nat}
  {failed : Failure → Prop} {post : α → Checking → Prop}

theorem walks_pure {value : α} (hat : s.At next) (h : post value s) :
    Walks (pure value) s next failed post :=
  ends_pure ⟨.refl s, hat, h⟩

theorem Walks.bind {step : α → CheckM β} {post' : β → Checking → Prop}
    (h : Walks stage s count failed post)
    (hstep : ∀ value middle, stage s = .ok value middle → s.Advances middle → middle.At count →
      post value middle → Walks (step value) middle next failed post') :
    Walks (stage >>= step) s next failed post' := by
  cases hrun : stage s with
  | ok value middle =>
      obtain ⟨hadvances, hat, hpost⟩ := h.post_of_ok hrun
      refine .of_bind hrun ((hstep value middle hrun hadvances hat hpost).weaken ?_ fun _ _ h => h)
      rintro result final ⟨hadvances', hat', hpost'⟩
      exact ⟨hadvances.trans hadvances', hat', hpost'⟩
  | error failure middle =>
      exact .of_error (run_bind_error hrun step) (h.failed_of_error hrun)

theorem Checks.walks (h : Checks stage s post) (hat : s.At count)
    (hfailed : ∀ failure, RefusesExpr failure → failed failure) :
    Walks stage s count failed post := by
  refine Ends.weaken h ?_ fun failure _ hrefuses => hfailed failure hrefuses
  rintro value final ⟨hreaches, hpost⟩
  exact ⟨hreaches.advances, hat.reach hreaches, hpost⟩

/-- The check of an expression as a step of the walk. -/
theorem Checks.step {body : List Stmt} {start : Checking} (h : Checks stage s post)
    (hat : s.At count) : Walks stage s count (Fails body start) post :=
  h.walks hat fun _ => .of_refusesExpr

theorem Walks.weaken {post' : α → Checking → Prop} {failed' : Failure → Prop}
    (h : Walks stage s count failed post)
    (hpost : ∀ value final, s.Advances final → post value final → post' value final)
    (hfailed : ∀ failure, failed failure → failed' failure) :
    Walks stage s count failed' post' :=
  Ends.weaken h (fun value final h => ⟨h.1, h.2.1, hpost value final h.1 h.2.2⟩)
    fun failure _ h => hfailed failure h

/-- A walk that is part of a longer one. -/
theorem Walks.lift {body later : List Stmt} {start : Checking}
    (h : Walks stage s count (Fails later s) post)
    (harrives : ∀ st t, Arrives later s st t → Arrives body start st t) :
    Walks stage s count (Fails body start) post :=
  h.weaken (fun _ _ _ h => h) fun _ hfails => hfails.lift harrives

end Rules

end Check

/-! ## Types of symbols -/

section SymbolTypes

variable {table : SymbolTable} {id : SymbolId} {old type : TypeId}

theorem SymbolTable.setType?_of_typed (h : table.type? id = some old) (type : TypeId) :
    table.setType? id type = some (false, table) := by
  obtain ⟨symbol, hsymbol, htype⟩ := Option.bind_eq_some_iff.mp h
  simp only [setType?, hsymbol, htype]

/-- A symbol without a type receives one, and nothing else changes. -/
theorem SymbolTable.exists_setType?_of_fresh (hlt : id.index < table.size)
    (h : table.type? id = none) (type : TypeId) :
    ∃ later, table.setType? id type = some (true, later) ∧ later.size = table.size ∧
      later.label? = table.label? ∧
      ∀ other, later.type? other = if other = id then some type else table.type? other := by
  obtain ⟨symbol, hsymbol⟩ : ∃ symbol, table.get? id = some symbol :=
    ⟨_, Array.getElem?_eq_getElem hlt⟩
  have htype : symbol.type = none := by rwa [type?, hsymbol, Option.bind_some] at h
  have hset : table.setType? id type = some (true,
      ⟨table.symbols.setIfInBounds id.index { symbol with type := some type }⟩) := by
    simp only [setType?, hsymbol, htype]
  have hself : (SymbolTable.mk (table.symbols.setIfInBounds id.index
      { symbol with type := some type })).get? id = some { symbol with type := some type } := by
    rw [get?, Array.getElem?_setIfInBounds_self_of_lt hlt]
  have hothers {other : SymbolId} (hother : other ≠ id) :
      (SymbolTable.mk (table.symbols.setIfInBounds id.index
        { symbol with type := some type })).get? other = table.get? other := by
    have hindex : id.index ≠ other.index := fun heq => hother (by cases other; cases id; simp_all)
    rw [get?, Array.getElem?_setIfInBounds_ne hindex, get?]
  refine ⟨_, hset, Array.size_setIfInBounds, funext fun other => ?_, fun other => ?_⟩
  · by_cases hother : other = id
    · rw [hother, label?, label?, hself, hsymbol, Option.map_some, Option.map_some]
    · rw [label?, label?, hothers hother]
  · by_cases hother : other = id
    · rw [hother, if_pos rfl, type?, hself, Option.bind_some]
    · rw [if_neg hother, type?, type?, hothers hother]

end SymbolTypes

namespace Check

variable {s : Checking} {count : Nat} {type : TypeId}

theorem run_setSymbolType_typed {symbol : SymbolId} {old : TypeId}
    (h : s.symbols.type? symbol = some old) (type : TypeId) :
    setSymbolType symbol type s = .ok false s := by
  rw [setSymbolType, run_bind_ok (run_get s), SymbolTable.setType?_of_typed h]
  rfl

/-- The next symbol receives its type. -/
theorem walks_setSymbolType {failed : Failure → Prop} (hat : s.At count)
    (hlt : count < s.symbols.size) (hconcrete : s.types.Concrete type) :
    Walks (setSymbolType ⟨count⟩ type) s (count + 1) failed fun done final =>
      done = true ∧ final.types = s.types ∧ final.symbols.type? ⟨count⟩ = some type := by
  have hfresh := hat.fresh ⟨count⟩ (Nat.le_refl count)
  obtain ⟨symbols, hset, hsize, hlabels, htype⟩ :=
    SymbolTable.exists_setType?_of_fresh hlt hfresh type
  have hrun : setSymbolType ⟨count⟩ type s = .ok true { s with symbols := symbols } := by
    rw [setSymbolType, run_bind_ok (run_get s), hset]
    rfl
  have hkeeps : s.symbols.Keeps symbols := by
    intro id old hid
    rw [htype, if_neg, hid]
    rintro rfl
    cases hfresh.symm.trans hid
  have hself : symbols.type? ⟨count⟩ = some type := by rw [htype, if_pos rfl]
  refine Ends.of_ok hrun
    ⟨⟨.refl _, hkeeps, hsize, hlabels⟩, ⟨⟨hat.sound.sound, ?_⟩, ?_, ?_⟩, rfl, rfl, hself⟩
  · intro id other hid
    rw [htype] at hid
    split at hid
    · cases hid
      exact hconcrete
    · exact hat.sound.concrete hid
  · -- a symbol below the new count is the new one, or had a type before
    intro symbol hbelow
    by_cases hother : symbol = ⟨count⟩
    · exact ⟨type, hother ▸ hself⟩
    · have hindex : symbol.index ≠ count := fun heq => hother (by cases symbol; simp_all)
      obtain ⟨old, hold⟩ := hat.typed symbol (by omega)
      exact ⟨old, hkeeps hold⟩
  · intro symbol habove
    rw [htype, if_neg]
    · exact hat.fresh symbol (Nat.le_of_succ_le habove)
    · rintro rfl
      exact Nat.not_succ_le_self _ habove

end Check

end FlexWidth
