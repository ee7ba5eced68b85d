import FlexWidth.Frontend
import FlexWidth.Proofs.Grammar.ExprWriting
import FlexWidth.Proofs.Grammar.StmtCompleteness

/-!
# Writing programs

`Stmt.writeBody` gives the tokens of a program, in a style: where the language leaves
two ways to write the same tree, the style chooses.

* What is written spells the program in every style (`Stmt.Surface.spells_writeBody`),
  so a text of the written tokens, set apart by blanks, is parsed as the original.
* No spelling of the program is shorter than the terse style
  (`SpellsStmts.length_writeBody_le`), so no parentheses can be spared.
-/

namespace FlexWidth

open TokenKind (token spelling)
open FlexWidth.Parser (AllLexed isFixed allLexed_token allLexed_identifier allLexed_number
  isWord_zero)

/-! ## Writing statements -/

/-- How to write what can be written in two ways. -/
structure Style where
  /-- Whether the width of an integer type is written also where it is the default. -/
  sized : Bool
  /-- Whether an `if` that is all of an `else` block stands there without braces. -/
  chained : Bool

/-- The style that writes the fewest tokens. -/
def Style.terse : Style := ⟨false, true⟩

/-- The tokens of a written type. -/
def Ascription.write (style : Style) : Ascription → List Token
  | .int width =>
    if width = defaultWidth ∧ style.sized = false then [token .intWord]
    else [token .intWord, token .openParen, ⟨.number, toString width⟩, token .closeParen]
  | .bool => [token .boolWord]

namespace Stmt

/-- What stands between the name of a binding and its value. -/
def writeForm (style : Style) : BindingForm → Option Ascription → List Token
  | .declaration, none => [token .colon]
  | .declaration, some written => token .colon :: written.write style
  | .assignment, _ => []

/-- The value of a binding after its sign. -/
def writeValue : Option Expr → List Token
  | none => []
  | some value => token .assignment :: value.write

/-- The bounds of a loop, set apart by colons. -/
def writeBounds : List Expr → List Token
  | [] => []
  | first :: rest => first.write ++ rest.flatMap fun bound => token .colon :: bound.write

/-- Tokens in parentheses. -/
def inParens (tokens : List Token) : List Token :=
  token .openParen :: tokens ++ [token .closeParen]

/-- Tokens in braces. -/
def inBraces (tokens : List Token) : List Token :=
  token .openCurly :: tokens ++ [token .closeCurly]

/-- Whether the statements are one `if`. -/
def isBranch : List Stmt → Bool
  | [branch ..] => true
  | _ => false

mutual

/-- The tokens of a statement. -/
def write (style : Style) : Stmt → List Token
  | bind form name written value _ =>
    ⟨.identifier, name⟩ :: writeForm style form written ++ writeValue value ++ [token .semicolon]
  | print value =>
    token .outputWord :: inParens (⟨.number, "0"⟩ :: token .comma :: value.write) ++
      [token .semicolon]
  | evaluate value => value.write ++ [token .semicolon]
  | branch condition yes none =>
    token .ifWord :: inParens condition.write ++ inBraces (writeBody style yes)
  | branch condition yes (some no) =>
    token .ifWord :: inParens condition.write ++ inBraces (writeBody style yes) ++
      token .elseWord ::
        if style.chained && isBranch no then writeBody style no
        else inBraces (writeBody style no)
  | whileLoop condition body =>
    token .whileWord :: inParens condition.write ++ inBraces (writeBody style body)
  | forLoop name _ bounds body =>
    token .forWord :: inParens (⟨.identifier, name⟩ :: token .inWord :: writeBounds bounds) ++
      inBraces (writeBody style body)
  | block body => inBraces (writeBody style body)

/-- The tokens of some statements. -/
def writeBody (style : Style) : List Stmt → List Token
  | [] => []
  | first :: rest => first.write style ++ writeBody style rest

end

end Stmt

/-- A type that can be written. -/
def Ascription.Surface : Ascription → Prop
  | .int width => width < Text.widthLimit
  | .bool => True

/-- A statement that can be written. -/
inductive Stmt.Surface : Stmt → Prop where
  | declare {name : String} {written : Option Ascription} {value : Option Expr} :
      isName name = true → written.isSome ∨ value.isSome →
      (∀ ascription ∈ written, ascription.Surface) → (∀ e ∈ value, e.Surface) →
      Surface (.bind .declaration name written value none)
  | assign {name : String} {value : Expr} : isName name = true → value.Surface →
      Surface (.bind .assignment name none (some value) none)
  | print {value : Expr} : value.Surface → Surface (.print value)
  | evaluate {value : Expr} : value.Surface → Surface (.evaluate value)
  | branch {condition : Expr} {yes : List Stmt} {no : Option (List Stmt)} :
      condition.Surface → (∀ st ∈ yes, Surface st) → (∀ body ∈ no, ∀ st ∈ body, Surface st) →
      Surface (.branch condition yes no)
  | whileLoop {condition : Expr} {body : List Stmt} : condition.Surface →
      (∀ st ∈ body, Surface st) → Surface (.whileLoop condition body)
  | forLoop {name : String} {bounds : List Expr} {body : List Stmt} : isName name = true →
      bounds ≠ [] → (∀ bound ∈ bounds, bound.Surface) → (∀ st ∈ body, Surface st) →
      Surface (.forLoop name none bounds body)
  | block {body : List Stmt} : (∀ st ∈ body, Surface st) → Surface (.block body)

/-! ## Written statements are spelled -/

/-- Any expression may stand where the loosest may. -/
theorem Expr.Surface.spells {value : Expr} (h : value.Surface) :
    SpellsExpr .disjunction value.write value :=
  (Expr.Surface.spells_write value h).loosen (by cases value.stratum <;> decide)

theorem Ascription.Surface.spells_write {written : Ascription} (h : written.Surface)
    (style : Style) : SpellsAscription (written.write style) written := by
  cases written with
  | bool => exact .bool
  | int width =>
      rw [Ascription.write]
      split
      · rename_i hdefault
        rw [hdefault.1]
        exact .int
      · exact .sized (Text.isNumeral_toString h)

theorem spellsBounds_flatMap {bounds : List Expr} (h : ∀ bound ∈ bounds, bound.Surface) :
    SpellsBounds (bounds.flatMap fun bound => token .colon :: bound.write) bounds := by
  induction bounds with
  | nil => exact .none
  | cons bound rest ih =>
      obtain ⟨hbound, hrest⟩ := List.forall_mem_cons.mp h
      exact .more hbound.spells (ih hrest)

/-- A declaration has a type, a value or both. -/
theorem spellsStmt_declare {name : String} {written : Option Ascription} {value : Option Expr}
    (hsome : written.isSome ∨ value.isSome) (hwritten : ∀ ascription ∈ written, ascription.Surface)
    (hvalue : ∀ e ∈ value, e.Surface) (style : Style) :
    SpellsStmt ((Stmt.bind .declaration name written value none).write style)
      (.bind .declaration name written value none) := by
  cases written with
  | none =>
      cases value with
      | none => simp at hsome
      | some value => exact .declareInferred (hvalue value rfl).spells
  | some ascription =>
      have hspells := (hwritten ascription rfl).spells_write style
      cases value with
      | none =>
          simpa [Stmt.write, Stmt.writeForm, Stmt.writeValue] using
            SpellsStmt.declareOnly hspells
      | some value => exact .declareTyped hspells (hvalue value rfl).spells

theorem SpellsStmt.spellsBranch {tokens : List Token} {condition : Expr} {yes : List Stmt}
    {no : Option (List Stmt)} (h : SpellsStmt tokens (.branch condition yes no)) :
    SpellsBranch tokens (.branch condition yes no) := by
  cases h with
  | branch hbranch => exact hbranch

theorem SpellsStmts.spellsBranch {tokens : List Token} {body : List Stmt}
    (h : SpellsStmts tokens body) (hbranch : Stmt.isBranch body = true) :
    ∃ next, body = [next] ∧ SpellsBranch tokens next := by
  unfold Stmt.isBranch at hbranch
  split at hbranch
  · rename_i condition yes no
    cases h with
    | cons hfirst hrest =>
        cases hrest
        rw [List.append_nil]
        exact ⟨_, rfl, hfirst.spellsBranch⟩
  · cases hbranch

mutual

/-- What is written for a statement spells it. -/
theorem Stmt.Surface.spells_write (style : Style) : (st : Stmt) → st.Surface →
    SpellsStmt (st.write style) st
  | .bind _ _ _ _ _, h => by
      cases h with
      | declare _ hsome hwritten hvalue => exact spellsStmt_declare hsome hwritten hvalue style
      | assign _ hvalue => exact .assign hvalue.spells
  | .print value, h => by
      cases h with
      | print hvalue =>
          simpa [Stmt.write, Stmt.inParens] using SpellsStmt.print isWord_zero hvalue.spells
  | .evaluate value, h => by
      cases h with
      | evaluate hvalue => exact .evaluate hvalue.spells
  | .branch condition yes none, h => by
      cases h with
      | branch hcondition hyes _ =>
          have hbody := spells_writeBody style yes hyes
          simpa [Stmt.write, Stmt.inParens, Stmt.inBraces] using
            SpellsStmt.branch (.plain hcondition.spells (.braces hbody))
  | .branch condition yes (some no), h => by
      cases h with
      | branch hcondition hyes hno =>
          have hfirst := spells_writeBody style yes hyes
          have hsecond := spells_writeBody style no (hno no rfl)
          rw [Stmt.write]
          split
          · rename_i hchained
            obtain ⟨next, rfl, hnext⟩ :=
              hsecond.spellsBranch (Bool.and_eq_true_iff.mp hchained).2
            simpa [Stmt.inParens, Stmt.inBraces] using
              SpellsStmt.branch (.chained hcondition.spells (.braces hfirst) hnext)
          · simpa [Stmt.inParens, Stmt.inBraces] using
              SpellsStmt.branch (.otherwise hcondition.spells (.braces hfirst) (.braces hsecond))
  | .whileLoop condition body, h => by
      cases h with
      | whileLoop hcondition hbody =>
          simpa [Stmt.write, Stmt.inParens, Stmt.inBraces] using
            SpellsStmt.whileLoop hcondition.spells (.braces (spells_writeBody style body hbody))
  | .forLoop name _ bounds body, h => by
      cases h with
      | forLoop _ hnonempty hbounds hbody =>
          obtain ⟨first, rest, rfl⟩ := List.exists_cons_of_ne_nil hnonempty
          obtain ⟨hfirst, hrest⟩ := List.forall_mem_cons.mp hbounds
          simpa [Stmt.write, Stmt.writeBounds, Stmt.inParens, Stmt.inBraces] using
            SpellsStmt.forLoop hfirst.spells (spellsBounds_flatMap hrest)
              (.braces (spells_writeBody style body hbody))
  | .block body, h => by
      cases h with
      | block hbody => exact .block (.braces (spells_writeBody style body hbody))

/-- What is written for a program spells it. -/
theorem Stmt.Surface.spells_writeBody (style : Style) : (body : List Stmt) →
    (∀ st ∈ body, st.Surface) → SpellsStmts (Stmt.writeBody style body) body
  | [], _ => .nil
  | first :: rest, h => by
      obtain ⟨hfirst, hrest⟩ := List.forall_mem_cons.mp h
      exact .cons (spells_write style first hfirst) (spells_writeBody style rest hrest)

end

/-! ## Written statements consist of tokens of the language -/

theorem Ascription.Surface.allLexed_write {written : Ascription} (h : written.Surface)
    (style : Style) : AllLexed (written.write style) := by
  cases written with
  | bool => exact allLexed_token rfl
  | int width =>
      rw [Ascription.write]
      split
      · exact allLexed_token rfl
      · exact ((allLexed_token rfl).append (allLexed_token rfl)).append
          ((allLexed_number (Text.isNumeral_toString h)).append (allLexed_token rfl))

theorem allLexed_writeForm {written : Option Ascription}
    (h : ∀ ascription ∈ written, ascription.Surface) (style : Style) (form : BindingForm) :
    AllLexed (Stmt.writeForm style form written) := by
  cases form with
  | assignment => exact List.forall_mem_nil _
  | declaration =>
      cases written with
      | none => exact allLexed_token rfl
      | some ascription =>
          exact (allLexed_token rfl).append ((h ascription rfl).allLexed_write style)

theorem allLexed_writeValue {value : Option Expr} (h : ∀ e ∈ value, e.Surface) :
    AllLexed (Stmt.writeValue value) := by
  cases value with
  | none => exact List.forall_mem_nil _
  | some value =>
      exact (allLexed_token rfl).append (Expr.Surface.allLexed_write value (h value rfl))

theorem allLexed_bind {name : String} {written : Option Ascription} {value : Option Expr}
    (hname : isName name = true) (hwritten : ∀ ascription ∈ written, ascription.Surface)
    (hvalue : ∀ e ∈ value, e.Surface) (style : Style) (form : BindingForm) :
    AllLexed ((Stmt.bind form name written value none).write style) :=
  (((allLexed_identifier hname).append (allLexed_writeForm hwritten style form)).append
    (allLexed_writeValue hvalue)).append (allLexed_token rfl)

theorem allLexed_writeBounds {bounds : List Expr} (h : ∀ bound ∈ bounds, bound.Surface) :
    AllLexed (Stmt.writeBounds bounds) := by
  have hrest : ∀ rest : List Expr, (∀ bound ∈ rest, bound.Surface) →
      AllLexed (rest.flatMap fun bound => token .colon :: bound.write) := by
    intro rest hrest item hitem
    obtain ⟨bound, hbound, hmem⟩ := List.mem_flatMap.mp hitem
    exact (allLexed_token rfl).append (Expr.Surface.allLexed_write bound (hrest bound hbound))
      item hmem
  cases bounds with
  | nil => exact List.forall_mem_nil _
  | cons first rest =>
      obtain ⟨hfirst, hothers⟩ := List.forall_mem_cons.mp h
      exact (Expr.Surface.allLexed_write first hfirst).append (hrest rest hothers)

theorem Parser.AllLexed.inParens {tokens : List Token} (h : AllLexed tokens) :
    AllLexed (Stmt.inParens tokens) :=
  ((allLexed_token rfl).append h).append (allLexed_token rfl)

theorem Parser.AllLexed.inBraces {tokens : List Token} (h : AllLexed tokens) :
    AllLexed (Stmt.inBraces tokens) :=
  ((allLexed_token rfl).append h).append (allLexed_token rfl)

/-- A word, something in parentheses and something in braces. -/
theorem allLexed_headed {kind : TokenKind} (hkind : isFixed kind = true) {head body : List Token}
    (hhead : AllLexed head) (hbody : AllLexed body) :
    AllLexed (token kind :: Stmt.inParens head ++ Stmt.inBraces body) :=
  ((allLexed_token hkind).append hhead.inParens).append hbody.inBraces

mutual

theorem Stmt.Surface.allLexed_write (style : Style) : (st : Stmt) → st.Surface →
    AllLexed (st.write style)
  | .bind _ _ _ _ _, h => by
      cases h with
      | declare hname _ hwritten hvalue => exact allLexed_bind hname hwritten hvalue style _
      | assign hname hvalue =>
          refine allLexed_bind hname (fun _ hnone => by simp at hnone) ?_ style _
          intro e he
          cases he
          exact hvalue
  | .print value, h => by
      cases h with
      | print hvalue =>
          have hinside : AllLexed (⟨.number, "0"⟩ :: token .comma :: value.write) :=
            ((allLexed_number isWord_zero).append (allLexed_token rfl)).append
              (Expr.Surface.allLexed_write value hvalue)
          exact ((allLexed_token rfl).append hinside.inParens).append (allLexed_token rfl)
  | .evaluate value, h => by
      cases h with
      | evaluate hvalue =>
          exact (Expr.Surface.allLexed_write value hvalue).append (allLexed_token rfl)
  | .branch condition yes none, h => by
      cases h with
      | branch hcondition hyes _ =>
          exact allLexed_headed rfl (Expr.Surface.allLexed_write condition hcondition)
            (allLexed_writeBody style yes hyes)
  | .branch condition yes (some no), h => by
      cases h with
      | branch hcondition hyes hno =>
          have hsecond := allLexed_writeBody style no (hno no rfl)
          have helse : AllLexed (if style.chained && Stmt.isBranch no then Stmt.writeBody style no
              else Stmt.inBraces (Stmt.writeBody style no)) := by
            split
            · exact hsecond
            · exact hsecond.inBraces
          exact (allLexed_headed rfl (Expr.Surface.allLexed_write condition hcondition)
            (allLexed_writeBody style yes hyes)).append ((allLexed_token rfl).append helse)
  | .whileLoop condition body, h => by
      cases h with
      | whileLoop hcondition hbody =>
          exact allLexed_headed rfl (Expr.Surface.allLexed_write condition hcondition)
            (allLexed_writeBody style body hbody)
  | .forLoop name _ bounds body, h => by
      cases h with
      | forLoop hname _ hbounds hbody =>
          have hinside :
              AllLexed (⟨.identifier, name⟩ :: token .inWord :: Stmt.writeBounds bounds) :=
            ((allLexed_identifier hname).append (allLexed_token rfl)).append
              (allLexed_writeBounds hbounds)
          exact allLexed_headed rfl hinside (allLexed_writeBody style body hbody)
  | .block body, h => by
      cases h with
      | block hbody => exact (allLexed_writeBody style body hbody).inBraces

theorem Stmt.Surface.allLexed_writeBody (style : Style) : (body : List Stmt) →
    (∀ st ∈ body, st.Surface) → AllLexed (Stmt.writeBody style body)
  | [], _ => List.forall_mem_nil _
  | first :: rest, h => by
      obtain ⟨hfirst, hrest⟩ := List.forall_mem_cons.mp h
      exact (allLexed_write style first hfirst).append (allLexed_writeBody style rest hrest)

end

/-! ## Programs in the terse style are shortest -/

theorem SpellsAscription.length_write_le {tokens : List Token} {written : Ascription}
    (h : SpellsAscription tokens written) : (written.write .terse).length ≤ tokens.length := by
  cases h with
  | int => exact Nat.le_refl _
  | sized _ =>
      rw [Ascription.write]
      split
      · simp
      · exact Nat.le_refl _
  | bool => exact Nat.le_refl _

theorem SpellsBounds.length_write_le {tokens : List Token} {bounds : List Expr}
    (h : SpellsBounds tokens bounds) :
    (bounds.flatMap fun bound => token .colon :: bound.write).length ≤ tokens.length := by
  induction h with
  | none => exact Nat.le_refl _
  | more hbound _ ih =>
      have hlength := hbound.length_write_le_of_disjunction
      simp only [List.flatMap_cons, List.length_append, List.length_cons]
      omega

theorem Stmt.length_inParens (tokens : List Token) :
    (Stmt.inParens tokens).length = tokens.length + 2 := by
  simp [inParens]

theorem Stmt.length_inBraces (tokens : List Token) :
    (Stmt.inBraces tokens).length = tokens.length + 2 := by
  simp [inBraces]

mutual

theorem SpellsStmt.length_write_le {tokens : List Token} {st : Stmt} (h : SpellsStmt tokens st) :
    (st.write .terse).length ≤ tokens.length := by
  match h with
  | .declareTyped hwritten hvalue =>
      have htype := hwritten.length_write_le
      have hlength := hvalue.length_write_le_of_disjunction
      simp only [Stmt.write, Stmt.writeForm, Stmt.writeValue, List.length_append, List.length_cons]
      omega
  | .declareInferred hvalue =>
      have hlength := hvalue.length_write_le_of_disjunction
      simp only [Stmt.write, Stmt.writeForm, Stmt.writeValue, List.length_append, List.length_cons,
        List.length_nil]
      omega
  | .declareOnly hwritten =>
      have htype := hwritten.length_write_le
      simp only [Stmt.write, Stmt.writeForm, Stmt.writeValue, List.length_append, List.length_cons,
        List.length_nil]
      omega
  | .assign hvalue =>
      have hlength := hvalue.length_write_le_of_disjunction
      simp only [Stmt.write, Stmt.writeForm, Stmt.writeValue, List.length_append, List.length_cons,
        List.length_nil]
      omega
  | .print _ hvalue =>
      have hlength := hvalue.length_write_le_of_disjunction
      simp only [Stmt.write, Stmt.length_inParens, List.length_append, List.length_cons,
        List.length_nil]
      omega
  | .branch hbranch => exact hbranch.length_write_le
  | .whileLoop hcondition hbody =>
      have htest := hcondition.length_write_le_of_disjunction
      have hlength := hbody.length_write_le
      simp only [Stmt.write, Stmt.length_inParens, Stmt.length_inBraces, List.length_append,
        List.length_cons]
      omega
  | .forLoop hbound hrest hbody =>
      have hfirst := hbound.length_write_le_of_disjunction
      have hmore := hrest.length_write_le
      have hlength := hbody.length_write_le
      simp only [Stmt.write, Stmt.writeBounds, Stmt.length_inParens, Stmt.length_inBraces,
        List.length_append, List.length_cons]
      omega
  | .block hbody =>
      rw [Stmt.write, Stmt.length_inBraces]
      exact hbody.length_write_le
  | .evaluate hvalue =>
      have hlength := hvalue.length_write_le_of_disjunction
      simp only [Stmt.write, List.length_append]
      omega

theorem SpellsBranch.length_write_le {tokens : List Token} {st : Stmt}
    (h : SpellsBranch tokens st) : (st.write .terse).length ≤ tokens.length := by
  match h with
  | .plain hcondition hyes =>
      have htest := hcondition.length_write_le_of_disjunction
      have hfirst := hyes.length_write_le
      simp only [Stmt.write, Stmt.length_inParens, Stmt.length_inBraces, List.length_append,
        List.length_cons]
      omega
  | .otherwise hcondition hyes hno =>
      have htest := hcondition.length_write_le_of_disjunction
      have hfirst := hyes.length_write_le
      have hsecond := hno.length_write_le
      simp only [Stmt.write, Stmt.length_inParens, Stmt.length_inBraces, List.length_append,
        List.length_cons]
      split
      · omega
      · rw [Stmt.length_inBraces]
        omega
  | @SpellsBranch.chained _ _ _ _ _ next hcondition hyes hnext =>
      have htest := hcondition.length_write_le_of_disjunction
      have hfirst := hyes.length_write_le
      have hsecond := hnext.length_write_le
      have hbranch : (Style.terse.chained && Stmt.isBranch [next]) = true := by
        cases hnext <;> rfl
      simp only [Stmt.write, Stmt.writeBody, Stmt.length_inParens, Stmt.length_inBraces,
        List.length_append, List.length_cons, List.append_nil, if_pos hbranch]
      omega

/-- With its braces. -/
theorem SpellsBlock.length_write_le {tokens : List Token} {body : List Stmt}
    (h : SpellsBlock tokens body) :
    (Stmt.writeBody .terse body).length + 2 ≤ tokens.length := by
  match h with
  | .braces hbody =>
      have hlength := hbody.length_writeBody_le
      simp only [List.length_append, List.length_cons, List.length_nil]
      omega

/-- No spelling of a program is shorter than what is written for it. -/
theorem SpellsStmts.length_writeBody_le {tokens : List Token} {body : List Stmt}
    (h : SpellsStmts tokens body) : (Stmt.writeBody .terse body).length ≤ tokens.length := by
  match h with
  | .nil => exact Nat.le_refl _
  | .cons hfirst hrest =>
      have hone := hfirst.length_write_le
      have hmore := hrest.length_writeBody_le
      simp only [Stmt.writeBody, List.length_append]
      omega

end

/-! ## Written programs are read back -/

theorem parseSource_of_tokenize {source : String} {tokens : List Token} {body : Program}
    (htokens : tokenize source = .ok tokens) (hbody : parse tokens = .ok body) :
    parseSource source = .ok body := by
  have hread : Frontend.tokens source #[] = .ok tokens #[.tokenized tokens.length] := by
    rw [Frontend.tokens, htokens]
    rfl
  rw [parseSource, Frontend.sourceProgram, run_bind_ok hread, Frontend.program, hbody]
  rfl

/-- **Text round trip.**  Take a program that can be written.  Whatever the style, and
whatever blanks set the written tokens apart, the text is parsed as that program.  And
no token list that is parsed as the program is shorter than the terse style, so the
only parentheses it writes are those that the program cannot do without. -/
theorem parseSource_writeBody {body : Program} (hsurface : ∀ st ∈ body, st.Surface) :
    (∀ (style : Style) (source : String), Spaces (Stmt.writeBody style body) source.toList →
      parseSource source = .ok body) ∧
    ∀ tokens : List Token, (∀ item ∈ tokens, item.Lexed) →
      parse (tokens ++ [Token.endOfInput]) = .ok body →
      (Stmt.writeBody .terse body).length ≤ tokens.length := by
  constructor
  · intro style source hspaces
    have htokens := tokenize_of_spaces hspaces
      (Stmt.Surface.allLexed_writeBody style body hsurface)
    have hspells := Stmt.Surface.spells_writeBody style body hsurface
    exact parseSource_of_tokenize htokens (parse_eq_ok_of_spellsStmts hspells)
  · intro tokens hlexed hparse
    exact (spellsStmts_of_parse_eq_ok hlexed hparse).length_writeBody_le

/-- Parentheses around a difference that is subtracted and around one that is negated,
but none around a sign that is multiplied; a comma for the only field of a struct
literal; and an `else if`. -/
theorem parseSource_writeBody_parens :
    let difference : Expr :=
      .binary "-" (.literal 1 none) (.binary "-" (.literal 2 none) (.literal 3 none) none) none
    let body : Program :=
      [.bind .declaration "x" (some (.int 8))
          (some (.binary "*" (.unary "-" difference none) (.index (.var "a" none none) 0 none)
            none)) none,
        .branch (.var "b" none none) []
          (some [.branch (.var "c" none none)
            [.evaluate (.glue [(none, .var "d" none none)] none)] none])]
    (∀ st ∈ body, st.Surface) ∧
      parseSource ("x : int ( 8 ) = - ( 1 - ( 2 - 3 ) ) * a . 0 ; " ++
        "if ( b ) \x7b \x7d else if ( c ) \x7b ( d , ) ; \x7d ") = .ok body := by
  intro difference body
  have hdifference : difference.Surface :=
    .binary rfl (.literal (by decide))
      (.binary rfl (.literal (by decide)) (.literal (by decide)))
  have hfield : (Expr.glue [(none, .var "d" none none)] none).Surface := by
    refine .glue (List.cons_ne_nil _ _) ?_ ?_
    · simp
    · intro field hfield
      rw [List.mem_singleton.mp hfield]
      exact .var (by decide)
  have hsurface : ∀ st ∈ body, st.Surface := by
    refine List.forall_mem_cons.mpr ⟨?_, List.forall_mem_singleton.mpr ?_⟩
    · refine .declare (by decide) (.inl rfl) ?_ ?_
      · intro ascription hascription
        cases hascription
        exact show 8 < Text.widthLimit by decide
      · intro e he
        cases he
        exact .binary rfl (.sign hdifference) (.index (by decide) (.var (by decide)))
    · refine .branch (.var (by decide)) (List.forall_mem_nil _) ?_
      intro no hno
      cases hno
      refine List.forall_mem_singleton.mpr (.branch (.var (by decide)) ?_ ?_)
      · exact List.forall_mem_singleton.mpr (.evaluate hfield)
      · intro no hno
        cases hno
  refine ⟨hsurface, (parseSource_writeBody hsurface).1 .terse _ ?_⟩
  have htext : ("x : int ( 8 ) = - ( 1 - ( 2 - 3 ) ) * a . 0 ; " ++
      "if ( b ) \x7b \x7d else if ( c ) \x7b ( d , ) ; \x7d ").toList =
      spacedText (Stmt.writeBody .terse body) := by
    cbv
  rw [htext]
  exact spaces_spacedText _

end FlexWidth
