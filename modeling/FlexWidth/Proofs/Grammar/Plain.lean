import FlexWidth.Proofs.Grammar.StmtSoundness

/-!
# Plain trees

The trees that programs are written as.  A *plain* expression has no types, no
conversions and no loads, and its operators are operators of the language; what its
names may be bound to is a parameter.  A plain statement has plain expressions, and
a binding has a written type or a value.

Later stages need no more of the grammar than that every spelled tree is plain.
-/

namespace FlexWidth

/-- An expression as it is written, its names bound as `bound` says. -/
inductive Expr.Plain (bound : Option SymbolId → Prop) : Expr → Prop where
  | literal {value : Nat} : Plain bound (.literal value none)
  | var {name : String} {symbol : Option SymbolId} : bound symbol →
      Plain bound (.var name symbol none)
  | read : Plain bound (.read none)
  | sign {operand : Expr} : Plain bound operand → Plain bound (.unary "-" operand none)
  | binary {operator : String} {operatorClass : OperatorClass} {left right : Expr} :
      OperatorClass.of? operator = some operatorClass → Plain bound left → Plain bound right →
      Plain bound (.binary operator left right none)
  | glue {fields : GlueFields} : (∀ field ∈ fields, Plain bound field.2) →
      Plain bound (.glue fields none)
  | dot {base : Expr} {field : String} : Plain bound base →
      Plain bound (.dot base field none none)
  | index {base : Expr} {position : Nat} : Plain bound base →
      Plain bound (.index base position none)

/-- A statement as it is written. -/
inductive Stmt.Plain : Stmt → Prop where
  | bind {form : BindingForm} {name : String} {written : Option Ascription} {value : Option Expr}
      {symbol : Option SymbolId} : written.isSome ∨ value.isSome →
      (∀ e ∈ value, e.Plain fun _ => True) → Plain (.bind form name written value symbol)
  | print {value : Expr} : (value.Plain fun _ => True) → Plain (.print value)
  | evaluate {value : Expr} : (value.Plain fun _ => True) → Plain (.evaluate value)
  | branch {condition : Expr} {yes : List Stmt} {no : Option (List Stmt)} :
      (condition.Plain fun _ => True) → (∀ st ∈ yes, Plain st) →
      (∀ body ∈ no, ∀ st ∈ body, Plain st) → Plain (.branch condition yes no)
  | whileLoop {condition : Expr} {body : List Stmt} : (condition.Plain fun _ => True) →
      (∀ st ∈ body, Plain st) → Plain (.whileLoop condition body)
  | forLoop {name : String} {symbol : Option SymbolId} {bounds : List Expr} {body : List Stmt} :
      (∀ bound ∈ bounds, bound.Plain fun _ => True) → (∀ st ∈ body, Plain st) →
      Plain (.forLoop name symbol bounds body)
  | block {body : List Stmt} : (∀ st ∈ body, Plain st) → Plain (.block body)

/-! ## Spelled expressions are plain -/

/-- The operators of the strata are operators of the language. -/
theorem Stratum.exists_operatorClass {stratum : Stratum} {operator : TokenKind}
    (h : operator ∈ stratum.operators) :
    ∃ operatorClass, OperatorClass.of? operator.spelling = some operatorClass := by
  cases stratum <;> cases operator <;> first | exact ⟨_, rfl⟩ | exact absurd h (by decide)

mutual

theorem SpellsExpr.isPlain {stratum : Stratum} {tokens : List Token} {value : Expr}
    (h : SpellsExpr stratum tokens value) : value.Plain fun _ => True := by
  match h with
  | .tighter h => exact h.isPlain
  | .binary hoperator hleft hright =>
      obtain ⟨operatorClass, hclass⟩ := Stratum.exists_operatorClass hoperator
      exact .binary hclass hleft.isPlain hright.isPlain
  | .sign hoperand => exact .sign hoperand.isPlain
  | .dot hbase => exact .dot hbase.isPlain
  | .index hbase _ => exact .index hbase.isPlain
  | .literal _ => exact .literal
  | .var => exact .var trivial
  | .read _ => exact .read
  | .group hvalue => exact hvalue.isPlain
  | .glue hfirst hrest _ => exact .glue (List.forall_mem_cons.mpr ⟨hfirst.isPlain, hrest.isPlain⟩)

theorem SpellsField.isPlain {tokens : List Token} {field : Option String × Expr}
    (h : SpellsField tokens field) : field.2.Plain fun _ => True := by
  match h with
  | .named hvalue => exact hvalue.isPlain
  | .positional hvalue => exact hvalue.isPlain

theorem SpellsFields.isPlain {tokens : List Token} {fields : GlueFields}
    (h : SpellsFields tokens fields) : ∀ field ∈ fields, field.2.Plain fun _ => True := by
  match h with
  | .none => exact fun _ hfield => nomatch hfield
  | .trailing => exact fun _ hfield => nomatch hfield
  | .more hfirst hrest => exact List.forall_mem_cons.mpr ⟨hfirst.isPlain, hrest.isPlain⟩

end

/-! ## Spelled statements are plain -/

theorem SpellsBounds.isPlain {tokens : List Token} {bounds : List Expr}
    (h : SpellsBounds tokens bounds) : ∀ bound ∈ bounds, bound.Plain fun _ => True := by
  induction h with
  | none => exact fun _ hbound => nomatch hbound
  | more hbound _ ih => exact List.forall_mem_cons.mpr ⟨hbound.isPlain, ih⟩

mutual

theorem SpellsStmt.isPlain {tokens : List Token} {st : Stmt} (h : SpellsStmt tokens st) :
    st.Plain := by
  match h with
  | .declareTyped _ hvalue =>
      refine .bind (.inl rfl) fun e he => ?_
      cases he
      exact hvalue.isPlain
  | .declareInferred hvalue =>
      refine .bind (.inr rfl) fun e he => ?_
      cases he
      exact hvalue.isPlain
  | .declareOnly _ => exact .bind (.inl rfl) fun _ he => nomatch he
  | .assign hvalue =>
      refine .bind (.inr rfl) fun e he => ?_
      cases he
      exact hvalue.isPlain
  | .print _ hvalue => exact .print hvalue.isPlain
  | .branch hbranch => exact hbranch.isPlain
  | .whileLoop hcondition hbody => exact .whileLoop hcondition.isPlain hbody.isPlain
  | .forLoop hbound hrest hbody =>
      exact .forLoop (List.forall_mem_cons.mpr ⟨hbound.isPlain, hrest.isPlain⟩) hbody.isPlain
  | .block hbody => exact .block hbody.isPlain
  | .evaluate hvalue => exact .evaluate hvalue.isPlain

theorem SpellsBranch.isPlain {tokens : List Token} {st : Stmt} (h : SpellsBranch tokens st) :
    st.Plain := by
  match h with
  | .plain hcondition hyes => exact .branch hcondition.isPlain hyes.isPlain fun _ hno => nomatch hno
  | .otherwise hcondition hyes hno =>
      refine .branch hcondition.isPlain hyes.isPlain fun body hbody => ?_
      cases hbody
      exact hno.isPlain
  | .chained hcondition hyes hnext =>
      refine .branch hcondition.isPlain hyes.isPlain fun body hbody => ?_
      cases hbody
      exact List.forall_mem_singleton.mpr hnext.isPlain

theorem SpellsBlock.isPlain {tokens : List Token} {body : List Stmt} (h : SpellsBlock tokens body) :
    ∀ st ∈ body, st.Plain := by
  match h with
  | .braces hbody => exact hbody.isPlain

theorem SpellsStmts.isPlain {tokens : List Token} {body : List Stmt} (h : SpellsStmts tokens body) :
    ∀ st ∈ body, st.Plain := by
  match h with
  | .nil => exact fun _ hst => nomatch hst
  | .cons hfirst hrest => exact List.forall_mem_cons.mpr ⟨hfirst.isPlain, hrest.isPlain⟩

end

/-- What a source text spells is plain. -/
theorem plain_of_parse {source : String} {tokens : List Token} {body : Program}
    (htokens : tokenize source = .ok tokens) (hbody : parse tokens = .ok body) :
    ∀ st ∈ body, st.Plain := by
  obtain ⟨items, rfl, hlexed⟩ := exists_lexed_of_tokenize htokens
  exact (spellsStmts_of_parse_eq_ok hlexed hbody).isPlain

end FlexWidth
