import FlexWidth.Proofs.Grammar.ExprCompleteness
import FlexWidth.Proofs.Token.Spacing

/-!
# Writing expressions

`Expr.write` gives the tokens of an expression.  An operand stands in parentheses
exactly where its operator is looser than the place allows (`Expr.enclose`), and a
struct literal ends in a comma exactly where nothing else tells it from a group.

* What is written spells the expression (`Expr.Surface.spells_write`), with tokens
  that occur in source texts (`Expr.Surface.allLexed_write`).
* No other spelling is shorter (`SpellsExpr.length_write_le`), so no parentheses can
  be spared.
-/

namespace FlexWidth

open TokenKind (token spelling)
open FlexWidth.Parser (AllLexed isFixed allLexed_token allLexed_identifier allLexed_number
  isWord_zero)

/-! ## Writing expressions -/

/-- The kind of the token that a binary operator is written as. -/
def operatorKind : String → TokenKind
  | "||" => .or
  | "&&" => .and
  | "<" => .less
  | ">" => .greater
  | "<=" => .lessEquals
  | ">=" => .greaterEquals
  | "==" => .equals
  | "!=" => .notEquals
  | "+" => .plus
  | "-" => .dash
  | "*" => .star
  | "/" => .slash
  | _ => .endOfInput

/-- The stratum of the expressions that a binary operator makes. -/
def Stratum.ofOperator : String → Stratum
  | "||" => disjunction
  | "&&" => conjunction
  | "<" | ">" | "<=" | ">=" | "==" | "!=" => comparison
  | "+" | "-" => sum
  | "*" | "/" => product
  | _ => access

namespace Expr

/-- The tightest stratum in which an expression can be written without parentheses. -/
def stratum : Expr → Stratum
  | unary .. => .signed
  | binary operator _ _ _ => .ofOperator operator
  | _ => .access

/-- The tokens of an expression at a place for expressions of a stratum: in parentheses
if it is looser. -/
def enclose (place : Stratum) (value : Expr) (tokens : List Token) : List Token :=
  if place.rank ≤ value.stratum.rank then tokens
  else token .openParen :: tokens ++ [token .closeParen]

/-- What stands before the value of a field. -/
def writeLabel : Option String → List Token
  | some name => [⟨.identifier, name⟩, token .colon]
  | none => []

mutual

/-- The tokens of an expression.  Conversions and loads, which cannot be written, leave
none. -/
def write : Expr → List Token
  | literal value _ => [⟨.number, toString value⟩]
  | var name _ _ => [⟨.identifier, name⟩]
  | read _ => [token .inputWord, token .openParen, ⟨.number, "0"⟩, token .closeParen]
  | unary _ operand _ => token .dash :: operand.enclose .signed operand.write
  | binary operator left right _ =>
    left.enclose (.ofOperator operator) left.write ++
      token (operatorKind operator) ::
        right.enclose (Stratum.ofOperator operator).tighter right.write
  | conversion _ _ | load _ _ => []
  | glue fields _ => token .openParen :: writeFirst fields ++ [token .closeParen]
  | dot base field _ _ => base.enclose .access base.write ++ [token .dot, ⟨.identifier, field⟩]
  | index base position _ =>
    base.enclose .access base.write ++ [token .dot, ⟨.number, toString position⟩]

/-- The tokens of the fields of a struct literal.  A comma ends a positional field that
is alone. -/
def writeFirst : GlueFields → List Token
  | [] => []
  | (label, value) :: rest =>
    writeLabel label ++ value.write ++
      if label.isNone && rest.isEmpty then [token .comma] else writeFields rest

/-- The tokens of the fields after the first, each after a comma. -/
def writeFields : GlueFields → List Token
  | [] => []
  | (label, value) :: rest =>
    token .comma :: (writeLabel label ++ value.write) ++ writeFields rest

end

end Expr

/-- An expression that can be written. -/
inductive Expr.Surface : Expr → Prop where
  | literal {value : Nat} : value < Text.wordLimit → Surface (.literal value none)
  | var {name : String} : isName name = true → Surface (.var name none none)
  | read : Surface (.read none)
  | sign {operand : Expr} : Surface operand → Surface (.unary "-" operand none)
  | binary {operator : String} {left right : Expr} : (OperatorClass.of? operator).isSome →
      Surface left → Surface right → Surface (.binary operator left right none)
  | glue {fields : GlueFields} : fields ≠ [] →
      (∀ field ∈ fields, ∀ name ∈ field.1, isName name = true) →
      (∀ field ∈ fields, Surface field.2) → Surface (.glue fields none)
  | dot {base : Expr} {field : String} : isName field = true → Surface base →
      Surface (.dot base field none none)
  | index {base : Expr} {position : Nat} : position < Text.wordLimit → Surface base →
      Surface (.index base position none)

/-! ## Written numbers -/

/-- The text of a number is its numeral. -/
theorem Text.isNumeral_toString {limit value : Nat} (h : value < limit) :
    IsNumeral limit (toString value) value := by
  have htext : (toString value).toList = Nat.toDigits 10 value := by
    rw [Nat.toString_eq_ofList_toDigits, String.toList_ofList]
  refine ⟨?_, ?_, ?_, h⟩
  · rw [htext]
    exact Nat.toDigits_ne_nil
  · rw [htext, List.all_eq_true]
    exact fun c hc => Nat.isDigit_of_mem_toDigits (by decide) (by decide) hc
  · rw [htext]
    exact (Nat.ofDigitChars_toDigits (by decide) (by decide)).symm

/-! ## Written expressions are spelled -/

/-- The twelve operators are those of the strata. -/
theorem operatorKind_mem_operators {operator : String} (h : (OperatorClass.of? operator).isSome) :
    operatorKind operator ∈ (Stratum.ofOperator operator).operators ∧
      spelling (operatorKind operator) = operator := by
  unfold OperatorClass.of? at h
  split at h
  all_goals first | exact ⟨by decide, rfl⟩ | cases h

theorem Stratum.isFixed_of_mem_operators {stratum : Stratum} {operator : TokenKind}
    (h : operator ∈ stratum.operators) : isFixed operator = true := by
  cases stratum <;> cases operator <;> first | rfl | exact absurd h (by decide)

theorem SpellsExpr.enclose {value : Expr} {tokens : List Token}
    (h : SpellsExpr value.stratum tokens value) (place : Stratum) :
    SpellsExpr place (value.enclose place tokens) value := by
  have hloosest : ∀ stratum : Stratum, Stratum.disjunction.rank ≤ stratum.rank ∧
      stratum.rank ≤ Stratum.access.rank := by
    intro stratum
    cases stratum <;> decide
  unfold Expr.enclose
  split
  · rename_i hle
    exact h.loosen hle
  · exact (SpellsExpr.group (h.loosen (hloosest _).1)).loosen (hloosest place).2

theorem spellsField_write {label : Option String} {value : Expr} {tokens : List Token}
    (h : SpellsExpr value.stratum tokens value) :
    SpellsField (Expr.writeLabel label ++ tokens) (label, value) := by
  have hvalue : SpellsExpr .disjunction tokens value := h.loosen (by cases value.stratum <;> decide)
  cases label with
  | none => exact .positional hvalue
  | some name => exact .named hvalue

mutual

/-- What is written for an expression spells it, in its own stratum. -/
theorem Expr.Surface.spells_write : (value : Expr) → value.Surface →
    SpellsExpr value.stratum value.write value
  | .literal value _, h => by
      cases h with
      | literal hvalue => exact .literal (Text.isNumeral_toString hvalue)
  | .var name _ _, h => by
      cases h
      exact .var
  | .read _, h => by
      cases h
      exact .read isWord_zero
  | .unary _ operand _, h => by
      cases h with
      | sign hoperand => exact .sign ((spells_write operand hoperand).enclose .signed)
  | .binary operator left right _, h => by
      cases h with
      | binary hoperator hleft hright =>
          obtain ⟨hmem, hspelling⟩ := operatorKind_mem_operators hoperator
          have hspells := SpellsExpr.binary hmem ((spells_write left hleft).enclose _)
            ((spells_write right hright).enclose _)
          rwa [hspelling] at hspells
  | .conversion _ _, h => by cases h
  | .load _ _, h => by cases h
  | .glue fields _, h => by
      cases h with
      | glue hnonempty _ hvalues => exact spells_writeFirst fields hnonempty hvalues
  | .dot base field _ _, h => by
      cases h with
      | dot _ hbase => exact .dot ((spells_write base hbase).enclose .access)
  | .index base position _, h => by
      cases h with
      | index hposition hbase =>
          exact .index ((spells_write base hbase).enclose .access)
            (Text.isNumeral_toString hposition)

theorem Expr.Surface.spells_writeFirst : (fields : GlueFields) → fields ≠ [] →
    (∀ field ∈ fields, field.2.Surface) →
    SpellsExpr .access (token .openParen :: Expr.writeFirst fields ++ [token .closeParen])
      (.glue fields none)
  | [], hnonempty, _ => absurd rfl hnonempty
  | (label, value) :: rest, _, h => by
      obtain ⟨hvalue, hrest⟩ := List.forall_mem_cons.mp h
      have hfirst : SpellsField (Expr.writeLabel label ++ value.write) (label, value) :=
        spellsField_write (spells_write value hvalue)
      have hmore := spells_writeFields rest hrest
      simp only [Expr.writeFirst]
      split
      · rename_i halone
        obtain ⟨-, hempty⟩ := Bool.and_eq_true_iff.mp halone
        obtain rfl := List.isEmpty_iff.mp hempty
        exact .glue hfirst .trailing (.inr (List.cons_ne_nil _ _))
      · rename_i hglue
        refine .glue hfirst hmore ?_
        -- a label, or a second field after a comma
        cases label with
        | some name => exact .inl rfl
        | none =>
            cases rest with
            | nil => exact absurd rfl hglue
            | cons field rest => exact .inr (List.cons_ne_nil _ _)

theorem Expr.Surface.spells_writeFields : (fields : GlueFields) →
    (∀ field ∈ fields, field.2.Surface) → SpellsFields (Expr.writeFields fields) fields
  | [], _ => .none
  | (label, value) :: rest, h => by
      obtain ⟨hvalue, hrest⟩ := List.forall_mem_cons.mp h
      exact .more (spellsField_write (spells_write value hvalue)) (spells_writeFields rest hrest)

end

/-! ## Written expressions consist of tokens of the language -/

theorem Parser.AllLexed.enclose {tokens : List Token} (h : AllLexed tokens) (value : Expr)
    (place : Stratum) : AllLexed (value.enclose place tokens) := by
  unfold Expr.enclose
  split
  · exact h
  · exact ((allLexed_token rfl).append h).append (allLexed_token rfl)

theorem allLexed_writeLabel {label : Option String} (h : ∀ name ∈ label, isName name = true) :
    AllLexed (Expr.writeLabel label) := by
  cases label with
  | none => exact List.forall_mem_nil _
  | some name => exact (allLexed_identifier (h name rfl)).append (allLexed_token rfl)

mutual

theorem Expr.Surface.allLexed_write : (value : Expr) → value.Surface → AllLexed value.write
  | .literal value _, h => by
      cases h with
      | literal hvalue => exact allLexed_number (Text.isNumeral_toString hvalue)
  | .var name _ _, h => by
      cases h with
      | var hname => exact allLexed_identifier hname
  | .read _, _ => ((allLexed_token rfl).append (allLexed_token rfl)).append
      ((allLexed_number isWord_zero).append (allLexed_token rfl))
  | .unary _ operand _, h => by
      cases h with
      | sign hoperand =>
          exact (allLexed_token rfl).append ((allLexed_write operand hoperand).enclose operand _)
  | .binary operator left right _, h => by
      cases h with
      | binary hoperator hleft hright =>
          have hfixed : isFixed (operatorKind operator) = true :=
            Stratum.isFixed_of_mem_operators (operatorKind_mem_operators hoperator).1
          exact ((allLexed_write left hleft).enclose left _).append
            ((allLexed_token hfixed).append ((allLexed_write right hright).enclose right _))
  | .conversion _ _, h => by cases h
  | .load _ _, h => by cases h
  | .glue fields _, h => by
      cases h with
      | glue _ hlabels hvalues =>
          exact ((allLexed_token rfl).append (allLexed_writeFirst fields hlabels hvalues)).append
            (allLexed_token rfl)
  | .dot base field _ _, h => by
      cases h with
      | dot hfield hbase =>
          exact ((allLexed_write base hbase).enclose base _).append
            ((allLexed_token rfl).append (allLexed_identifier hfield))
  | .index base position _, h => by
      cases h with
      | index hposition hbase =>
          exact ((allLexed_write base hbase).enclose base _).append
            ((allLexed_token rfl).append (allLexed_number (Text.isNumeral_toString hposition)))

theorem Expr.Surface.allLexed_writeFirst : (fields : GlueFields) →
    (∀ field ∈ fields, ∀ name ∈ field.1, isName name = true) →
    (∀ field ∈ fields, field.2.Surface) → AllLexed (Expr.writeFirst fields)
  | [], _, _ => List.forall_mem_nil _
  | (label, value) :: rest, hlabels, hvalues => by
      obtain ⟨hlabel, hlabels⟩ := List.forall_mem_cons.mp hlabels
      obtain ⟨hvalue, hvalues⟩ := List.forall_mem_cons.mp hvalues
      refine ((allLexed_writeLabel hlabel).append (allLexed_write value hvalue)).append ?_
      split
      · exact allLexed_token rfl
      · exact allLexed_writeFields rest hlabels hvalues

theorem Expr.Surface.allLexed_writeFields : (fields : GlueFields) →
    (∀ field ∈ fields, ∀ name ∈ field.1, isName name = true) →
    (∀ field ∈ fields, field.2.Surface) → AllLexed (Expr.writeFields fields)
  | [], _, _ => List.forall_mem_nil _
  | (label, value) :: rest, hlabels, hvalues => by
      obtain ⟨hlabel, hlabels⟩ := List.forall_mem_cons.mp hlabels
      obtain ⟨hvalue, hvalues⟩ := List.forall_mem_cons.mp hvalues
      exact ((allLexed_token rfl).append
        ((allLexed_writeLabel hlabel).append (allLexed_write value hvalue))).append
        (allLexed_writeFields rest hlabels hvalues)

end

/-! ## Written expressions are shortest -/

namespace Expr

theorem enclose_eq_self {place : Stratum} {value : Expr} (h : place.rank ≤ value.stratum.rank)
    (tokens : List Token) : value.enclose place tokens = tokens :=
  if_pos h

theorem length_le_length_enclose (place : Stratum) (value : Expr) (tokens : List Token) :
    tokens.length ≤ (value.enclose place tokens).length := by
  unfold enclose
  split
  · exact Nat.le_refl _
  · simp only [List.length_append, List.length_cons]
    omega

theorem length_enclose_le (place : Stratum) (value : Expr) (tokens : List Token) :
    (value.enclose place tokens).length ≤ tokens.length + 2 := by
  unfold enclose
  split
  · omega
  · simp

/-- A looser place asks for no more tokens. -/
theorem length_enclose_mono {loose place : Stratum} (h : loose.rank ≤ place.rank) (value : Expr)
    (tokens : List Token) :
    (value.enclose loose tokens).length ≤ (value.enclose place tokens).length := by
  by_cases hloose : loose.rank ≤ value.stratum.rank
  · rw [enclose_eq_self hloose]
    exact length_le_length_enclose place value tokens
  · have hplace : ¬ place.rank ≤ value.stratum.rank := by omega
    apply Nat.le_of_eq
    rw [enclose, enclose, if_neg hloose, if_neg hplace]

end Expr

theorem Stratum.ofOperator_spelling {stratum : Stratum} {operator : TokenKind}
    (h : operator ∈ stratum.operators) : ofOperator (spelling operator) = stratum := by
  cases stratum <;> cases operator <;> first | rfl | exact absurd h (by decide)

mutual

theorem SpellsExpr.length_write_le {stratum : Stratum} {tokens : List Token} {value : Expr}
    (h : SpellsExpr stratum tokens value) :
    (value.enclose stratum value.write).length ≤ tokens.length := by
  match h with
  | .tighter h =>
      exact Nat.le_trans (Expr.length_enclose_mono (Stratum.rank_le_rank_tighter _) _ _)
        h.length_write_le
  | @SpellsExpr.binary _ operator left right l r hoperator hleft hright =>
      have hstratum := Stratum.ofOperator_spelling hoperator
      have hl := hleft.length_write_le
      have hr := hright.length_write_le
      rw [Expr.enclose_eq_self (by exact Nat.le_of_eq (congrArg Stratum.rank hstratum.symm)),
        Expr.write, hstratum]
      simp only [List.length_append, List.length_cons]
      omega
  | .sign hoperand =>
      exact Nat.succ_le_succ hoperand.length_write_le
  | .dot hbase =>
      have hlength := hbase.length_write_le
      rw [Expr.enclose_eq_self (by exact Nat.le_refl _), Expr.write]
      simp only [List.length_append, List.length_cons]
      omega
  | .index hbase _ =>
      have hlength := hbase.length_write_le
      rw [Expr.enclose_eq_self (by exact Nat.le_refl _), Expr.write]
      simp only [List.length_append, List.length_cons]
      omega
  | .literal _ => exact Nat.le_refl _
  | .var => exact Nat.le_refl _
  | .read _ => exact Nat.le_refl _
  | @SpellsExpr.group inner value hvalue =>
      have hinner := hvalue.length_write_le
      have hwrite := Expr.length_le_length_enclose .disjunction value value.write
      have henclose := Expr.length_enclose_le .access value value.write
      simp only [List.length_append, List.length_cons, List.length_nil]
      omega
  | @SpellsExpr.glue tokens more (label, value) rest hfirst hrest hglue =>
      have hone := hfirst.length_write_le
      have hmore := hrest.length_write_le
      rw [Expr.enclose_eq_self (by exact Nat.le_refl _), Expr.write, Expr.writeFirst]
      simp only [List.length_append, List.length_cons, List.length_nil] at hone ⊢
      split
      · rename_i halone
        -- nothing but a comma tells this literal from a group
        have hcomma : more ≠ [] := by
          rcases hglue with hlabel | hcomma
          · cases label <;> simp at hlabel halone
          · exact hcomma
        have hpositive := List.length_pos_iff.mpr hcomma
        simp only [List.length_cons, List.length_nil]
        omega
      · omega

theorem SpellsField.length_write_le {tokens : List Token} {field : Option String × Expr}
    (h : SpellsField tokens field) :
    (Expr.writeLabel field.1 ++ field.2.write).length ≤ tokens.length := by
  match h with
  | @SpellsField.named _ _ value hvalue =>
      have hlength := hvalue.length_write_le
      have hwrite := Expr.length_le_length_enclose .disjunction value value.write
      simp only [Expr.writeLabel, List.length_append, List.length_cons, List.length_nil]
      omega
  | @SpellsField.positional _ value hvalue =>
      exact Nat.le_trans (Expr.length_le_length_enclose .disjunction value value.write)
        hvalue.length_write_le

theorem SpellsFields.length_write_le {tokens : List Token} {fields : GlueFields}
    (h : SpellsFields tokens fields) : (Expr.writeFields fields).length ≤ tokens.length := by
  match h with
  | .none => exact Nat.le_refl _
  | .trailing => exact Nat.zero_le _
  | @SpellsFields.more _ _ (label, value) rest hfirst hrest =>
      have hone := hfirst.length_write_le
      have hmore := hrest.length_write_le
      simp only [Expr.writeFields, List.length_append, List.length_cons] at hone ⊢
      omega

end

/-- In a place for any expression none is enclosed. -/
theorem SpellsExpr.length_write_le_of_disjunction {tokens : List Token} {value : Expr}
    (h : SpellsExpr .disjunction tokens value) : value.write.length ≤ tokens.length :=
  Nat.le_trans (Expr.length_le_length_enclose .disjunction value value.write) h.length_write_le

end FlexWidth
