import FlexWidth.Proofs.Grammar.Plain
import FlexWidth.Proofs.Grammar.StmtWriting

/-!
# What is read can be written

The names in a spelled tree are the texts of identifiers.  If the tokens come from a source text,
these are words that are not reserved, and so the tree is one that can be written
(`Stmt.Surface`).  Together with the converse, that every program that can be written is spelled
by some source text, this says exactly which programs source texts spell.
-/

namespace FlexWidth

open FlexWidth.Parser (AllLexed)

/-! ## Identifiers are names -/

/-- Whether a pattern is not a mark that stands for an identifier. -/
def Pattern.marksNoName : Pattern → Bool
  | .mark kind _ _ => kind != .identifier
  | _ => true

theorem Pattern.marksNoName_of_mem_table {pattern : Pattern} (h : pattern ∈ table) :
    pattern.marksNoName = true :=
  List.all_eq_true.mp (show table.all marksNoName = true by decide +kernel) pattern h

/-- An identifier of a source text is a name. -/
theorem Token.Lexed.isName {name : String} (h : Token.Lexed ⟨.identifier, name⟩) :
    isName name = true := by
  obtain ⟨-, source, tokens, htokens, hmem⟩ := h
  obtain ⟨lexemes, hlexemes, rfl⟩ := tokenize_eq_ok htokens
  rcases List.mem_append.mp hmem with hmem | hmem
  · obtain ⟨⟨pattern, text⟩, hlexeme, htoken⟩ := List.mem_filterMap.mp hmem
    obtain ⟨htable, before, after, hsplit⟩ := Lexeme.split?_of_mem_ofText hlexemes hlexeme
    cases pattern with
    | word =>
        have hforms : formsWord text = true := by
          obtain ⟨c, tail, hfirst, rfl⟩ := Pattern.splitRun?_eq_some hsplit
          rw [formsWord, hfirst, List.all_takeWhile]
          rfl
        obtain ⟨hkind, rfl⟩ := Token.mk.inj (Option.some.inj htoken)
        rw [FlexWidth.isName, String.toList_ofList, hforms, decide_eq_true hkind]
        rfl
    | digits => cases htoken
    | blank => cases htoken
    | comment => cases htoken
    | mark kind first later =>
        cases htoken
        exact absurd rfl (bne_iff_ne.mp (Pattern.marksNoName_of_mem_table htable))
  · cases List.mem_singleton.mp hmem

/-- A name is made of the characters of words. -/
theorem continuesWord_of_isName {name : String} (h : isName name = true) :
    ∀ c ∈ name.toList, continuesWord c = true := by
  have hforms := (Bool.and_eq_true_iff.mp h).1
  revert hforms
  cases name.toList with
  | nil => simp
  | cons first rest =>
      intro hforms
      obtain ⟨hfirst, hrest⟩ := Bool.and_eq_true_iff.mp hforms
      refine List.forall_mem_cons.mpr ⟨?_, List.all_eq_true.mp hrest⟩
      rw [continuesWord, hfirst, Bool.true_or]

theorem isName_of_mem {tokens : List Token} {name : String} (hlexed : AllLexed tokens)
    (hmem : ⟨.identifier, name⟩ ∈ tokens) : isName name = true :=
  (hlexed _ hmem).isName

/-! ## Spelled trees can be written -/

mutual

theorem SpellsExpr.surface {stratum : Stratum} {tokens : List Token} {value : Expr}
    (h : SpellsExpr stratum tokens value) (hlexed : AllLexed tokens) : value.Surface := by
  match h with
  | .tighter h => exact h.surface hlexed
  | .binary hoperator hleft hright =>
      obtain ⟨hleftLexed, hrightLexed⟩ := List.forall_mem_append.mp hlexed
      obtain ⟨operatorClass, hclass⟩ := Stratum.exists_operatorClass hoperator
      exact .binary (Option.isSome_iff_exists.mpr ⟨operatorClass, hclass⟩)
        (hleft.surface hleftLexed) (hright.surface (List.forall_mem_cons.mp hrightLexed).2)
  | .sign hoperand => exact .sign (hoperand.surface (List.forall_mem_cons.mp hlexed).2)
  | .dot hbase =>
      exact .dot (isName_of_mem hlexed (by simp))
        (hbase.surface (List.forall_mem_append.mp hlexed).1)
  | .index hbase hposition =>
      exact .index hposition.value_lt (hbase.surface (List.forall_mem_append.mp hlexed).1)
  | .literal hvalue => exact .literal hvalue.value_lt
  | .var => exact .var (isName_of_mem hlexed List.mem_cons_self)
  | .read _ => exact .read
  | .group hvalue =>
      exact hvalue.surface (List.forall_mem_append.mp (List.forall_mem_cons.mp hlexed).2).1
  | .glue hfirst hrest _ =>
      have hinside := (List.forall_mem_append.mp (List.forall_mem_cons.mp hlexed).2).1
      obtain ⟨hfirstLexed, hrestLexed⟩ := List.forall_mem_append.mp hinside
      obtain ⟨hname, hvalue⟩ := hfirst.surface hfirstLexed
      obtain ⟨hnames, hvalues⟩ := hrest.surface hrestLexed
      exact .glue (List.cons_ne_nil _ _) (List.forall_mem_cons.mpr ⟨hname, hnames⟩)
        (List.forall_mem_cons.mpr ⟨hvalue, hvalues⟩)

theorem SpellsField.surface {tokens : List Token} {field : Option String × Expr}
    (h : SpellsField tokens field) (hlexed : AllLexed tokens) :
    (∀ name ∈ field.1, isName name = true) ∧ field.2.Surface := by
  match h with
  | .named hvalue =>
      obtain ⟨hname, hrest⟩ := List.forall_mem_cons.mp hlexed
      refine ⟨fun name hmem => ?_, hvalue.surface (List.forall_mem_cons.mp hrest).2⟩
      cases hmem
      exact hname.isName
  | .positional hvalue => exact ⟨by simp, hvalue.surface hlexed⟩

theorem SpellsFields.surface {tokens : List Token} {fields : GlueFields}
    (h : SpellsFields tokens fields) (hlexed : AllLexed tokens) :
    (∀ field ∈ fields, ∀ name ∈ field.1, isName name = true) ∧
      ∀ field ∈ fields, field.2.Surface := by
  match h with
  | .none => exact ⟨by simp, by simp⟩
  | .trailing => exact ⟨by simp, by simp⟩
  | .more hfirst hrest =>
      obtain ⟨hfirstLexed, hrestLexed⟩ := List.forall_mem_append.mp hlexed
      obtain ⟨hname, hvalue⟩ := hfirst.surface (List.forall_mem_cons.mp hfirstLexed).2
      obtain ⟨hnames, hvalues⟩ := hrest.surface hrestLexed
      exact ⟨List.forall_mem_cons.mpr ⟨hname, hnames⟩, List.forall_mem_cons.mpr ⟨hvalue, hvalues⟩⟩

end

theorem SpellsAscription.surface {tokens : List Token} {written : Ascription}
    (h : SpellsAscription tokens written) : written.Surface := by
  cases h with
  | int => exact (by decide : Ascription.defaultWidth < Text.widthLimit)
  | sized hwidth => exact hwidth.value_lt
  | bool => trivial

theorem SpellsBounds.surface {tokens : List Token} {bounds : List Expr}
    (h : SpellsBounds tokens bounds) (hlexed : AllLexed tokens) :
    ∀ bound ∈ bounds, bound.Surface := by
  induction h with
  | none => simp
  | more hbound _ ih =>
      obtain ⟨hfirst, hrest⟩ := List.forall_mem_append.mp hlexed
      exact List.forall_mem_cons.mpr
        ⟨hbound.surface (List.forall_mem_cons.mp hfirst).2, ih hrest⟩

mutual

theorem SpellsStmt.surface {tokens : List Token} {st : Stmt} (h : SpellsStmt tokens st)
    (hlexed : AllLexed tokens) : st.Surface := by
  match h with
  | .declareTyped hwritten hvalue =>
      refine .declare (isName_of_mem hlexed (by simp)) (Or.inl rfl)
        (fun ascription hascription => ?_) fun e he => ?_
      · cases hascription
        exact hwritten.surface
      · cases he
        exact hvalue.surface fun item hitem => hlexed item (by simp [hitem])
  | .declareInferred hvalue =>
      refine .declare (isName_of_mem hlexed (by simp)) (Or.inr rfl) (by simp) fun e he => ?_
      cases he
      exact hvalue.surface fun item hitem => hlexed item (by simp [hitem])
  | .declareOnly hwritten =>
      refine .declare (isName_of_mem hlexed (by simp)) (Or.inl rfl)
        (fun ascription hascription => ?_) (by simp)
      cases hascription
      exact hwritten.surface
  | .assign hvalue =>
      exact .assign (isName_of_mem hlexed (by simp))
        (hvalue.surface fun item hitem => hlexed item (by simp [hitem]))
  | .print _ hvalue =>
      exact .print (hvalue.surface fun item hitem => hlexed item (by simp [hitem]))
  | .branch hbranch => exact hbranch.surface hlexed
  | .whileLoop hcondition hbody =>
      exact .whileLoop (hcondition.surface fun item hitem => hlexed item (by simp [hitem]))
        (hbody.surface fun item hitem => hlexed item (by simp [hitem]))
  | .forLoop hbound hrest hbody =>
      refine .forLoop (isName_of_mem hlexed (by simp)) (List.cons_ne_nil _ _)
        (List.forall_mem_cons.mpr ⟨hbound.surface fun item hitem => hlexed item (by simp [hitem]),
          hrest.surface fun item hitem => hlexed item (by simp [hitem])⟩) ?_
      exact hbody.surface fun item hitem => hlexed item (by simp [hitem])
  | .block hbody => exact .block (hbody.surface hlexed)
  | .evaluate hvalue =>
      exact .evaluate (hvalue.surface fun item hitem => hlexed item (by simp [hitem]))

theorem SpellsBranch.surface {tokens : List Token} {st : Stmt} (h : SpellsBranch tokens st)
    (hlexed : AllLexed tokens) : st.Surface := by
  match h with
  | .plain hcondition hyes =>
      exact .branch (hcondition.surface fun item hitem => hlexed item (by simp [hitem]))
        (hyes.surface fun item hitem => hlexed item (by simp [hitem])) (by simp)
  | .otherwise hcondition hyes hno =>
      refine .branch (hcondition.surface fun item hitem => hlexed item (by simp [hitem]))
        (hyes.surface fun item hitem => hlexed item (by simp [hitem])) fun body hbody => ?_
      cases hbody
      exact hno.surface fun item hitem => hlexed item (by simp [hitem])
  | .chained hcondition hyes hnext =>
      refine .branch (hcondition.surface fun item hitem => hlexed item (by simp [hitem]))
        (hyes.surface fun item hitem => hlexed item (by simp [hitem])) fun body hbody => ?_
      cases hbody
      exact List.forall_mem_singleton.mpr
        (hnext.surface fun item hitem => hlexed item (by simp [hitem]))

theorem SpellsBlock.surface {tokens : List Token} {body : List Stmt} (h : SpellsBlock tokens body)
    (hlexed : AllLexed tokens) : ∀ st ∈ body, st.Surface := by
  match h with
  | .braces hbody => exact hbody.surface fun item hitem => hlexed item (by simp [hitem])

theorem SpellsStmts.surface {tokens : List Token} {body : List Stmt} (h : SpellsStmts tokens body)
    (hlexed : AllLexed tokens) : ∀ st ∈ body, st.Surface := by
  match h with
  | .nil => simp
  | .cons hfirst hrest =>
      obtain ⟨hfirstLexed, hrestLexed⟩ := List.forall_mem_append.mp hlexed
      exact List.forall_mem_cons.mpr ⟨hfirst.surface hfirstLexed, hrest.surface hrestLexed⟩

end

/-- What a source text spells can be written. -/
theorem surface_of_parse {source : String} {tokens : List Token} {body : Program}
    (htokens : tokenize source = .ok tokens) (hbody : parse tokens = .ok body) :
    ∀ st ∈ body, st.Surface := by
  obtain ⟨items, rfl, hlexed⟩ := exists_lexed_of_tokenize htokens
  exact (spellsStmts_of_parse_eq_ok hlexed hbody).surface hlexed

end FlexWidth
