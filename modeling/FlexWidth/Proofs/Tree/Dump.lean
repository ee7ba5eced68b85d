import FlexWidth.Proofs.Grammar.Surface
import FlexWidth.Proofs.Tree.Rendering
import FlexWidth.Proofs.Typing.Discipline
import Mathlib

/-!
# Dumps are faithful

The outline of a program that can be written determines the program.  The label of a node shows
what kind of node it is, and all that the node holds besides its parts.  Its parts stand below it
without any delimiters, but what is optional among them can be told by its label, and what may be
repeated is followed by a label that closes it.

With that, and since an outline can be read back from its text (`Outline.render_inj`), so can
a program.
-/

namespace FlexWidth

/-- The first characters of the root's label, which tell what kind of node it is. -/
def Outline.kind : Outline → List Char
  | node label _ => label.toList.take 3

theorem Outline.kind_append (before after : String) (children : List Outline)
    (h : 3 ≤ before.toList.length) :
    (node (before ++ after) children).kind = before.toList.take 3 := by
  rw [kind, String.toList_append, List.take_append_of_le_length h]

namespace Expr

/-- The kind of the expression's outline. -/
def outlineKind : Expr → List Char
  | literal .. => ['I', 'n', 't']
  | var .. => ['I', 'd', ' ']
  | read .. => ['I', 'n', 'p']
  | unary .. => ['U', 'n', 'a']
  | binary .. => ['B', 'i', 'n']
  | conversion .. => ['C', 'o', 'n']
  | load .. => ['L', 'V', 'a']
  | glue .. => ['G', 'l', 'u']
  | dot .. => ['D', 'o', 't']
  | index .. => ['I', 'n', 'd']

variable {value other : Expr}

theorem typedLabel_none (value : Expr) : value.typedLabel (fun _ => none) = value.label := by
  rw [typedLabel, Option.bind_fun_none]

theorem kind_outline (value : Expr) :
    (value.outline fun _ => none).kind = value.outlineKind := by
  cases value <;> simp [outline, Outline.kind, typedLabel_none, label, outlineKind]

theorem outlineKind_eq (h : (value.outline fun _ => none) = other.outline fun _ => none) :
    value.outlineKind = other.outlineKind := by
  rw [← kind_outline, h, kind_outline]

/-- The nodes of named fields and of written types are not those of expressions. -/
theorem node_ne_outline {label : String} {children : List Outline}
    (h : label.toList.head? = some 'F' ∨ label.toList.head? = some 'T') (value : Expr) :
    Outline.node label children ≠ value.outline fun _ => none := by
  intro heq
  have hhead : label.toList.head? = value.outlineKind.head? := by
    rw [← kind_outline, ← heq, Outline.kind, List.head?_take, if_neg (by decide)]
  rcases h with h | h <;> rw [h] at hhead <;> cases value <;> simp [outlineKind] at hhead

/-- What a label shows in brackets can be told from it. -/
theorem bracketed_inj {before text text' : String}
    (h : before ++ text ++ "]" = before ++ text' ++ "]") : text = text' := by
  have htext := congrArg String.toList h
  simp only [String.toList_append, List.append_assoc] at htext
  exact String.toList_inj.mp (List.append_cancel_right (List.append_cancel_left htext))

mutual

/-- The outline of an expression that can be written determines it. -/
theorem outline_inj : (value other : Expr) → value.Surface → other.Surface →
    (value.outline fun _ => none) = (other.outline fun _ => none) → value = other
  | literal number _, other, hvalue, hother, h => by
      cases hvalue
      cases hother with
      | literal =>
          rw [Nat.repr_inj.mp (bracketed_inj (Outline.node.inj h).1)]
      | _ => exact absurd (outlineKind_eq h) (by simp [outlineKind])
  | var name _ _, other, hvalue, hother, h => by
      cases hvalue
      cases hother with
      | var => rw [bracketed_inj (Outline.node.inj h).1]
      | _ => exact absurd (outlineKind_eq h) (by simp [outlineKind])
  | read _, other, hvalue, hother, h => by
      cases hvalue
      cases hother with
      | read => rfl
      | _ => exact absurd (outlineKind_eq h) (by simp [outlineKind])
  | unary _ operand _, other, hvalue, hother, h => by
      cases hvalue with
      | sign hoperand =>
          cases hother with
          | sign hoperand' =>
              have hparts := (List.cons.inj (Outline.node.inj h).2).1
              rw [outline_inj operand _ hoperand hoperand' hparts]
          | _ => exact absurd (outlineKind_eq h) (by simp [outlineKind])
  | binary operator left right _, other, hvalue, hother, h => by
      cases hvalue with
      | binary _ hleft hright =>
          cases hother with
          | binary _ hleft' hright' =>
              obtain ⟨hlabel, hparts⟩ := Outline.node.inj h
              obtain ⟨hl, hr⟩ := List.cons.inj hparts
              rw [bracketed_inj hlabel, outline_inj left _ hleft hleft' hl,
                outline_inj right _ hright hright' (List.cons.inj hr).1]
          | _ => exact absurd (outlineKind_eq h) (by simp [outlineKind])
  | conversion _ _, _, hvalue, _, _ => by cases hvalue
  | load _ _, _, hvalue, _, _ => by cases hvalue
  | glue fields _, other, hvalue, hother, h => by
      cases hvalue with
      | glue _ _ hfields =>
          cases hother with
          | glue _ _ hfields' =>
              rw [fieldOutlines_inj fields _ hfields hfields' (Outline.node.inj h).2]
          | _ => exact absurd (outlineKind_eq h) (by simp [outlineKind])
  | dot base field _ _, other, hvalue, hother, h => by
      cases hvalue with
      | dot _ hbase =>
          cases hother with
          | dot _ hbase' =>
              obtain ⟨hlabel, hparts⟩ := Outline.node.inj h
              rw [bracketed_inj hlabel, outline_inj base _ hbase hbase' (List.cons.inj hparts).1]
          | _ => exact absurd (outlineKind_eq h) (by simp [outlineKind])
  | index base position _, other, hvalue, hother, h => by
      cases hvalue with
      | index _ hbase =>
          cases hother with
          | index _ hbase' =>
              obtain ⟨hlabel, hparts⟩ := Outline.node.inj h
              rw [Nat.repr_inj.mp (bracketed_inj hlabel),
                outline_inj base _ hbase hbase' (List.cons.inj hparts).1]
          | _ => exact absurd (outlineKind_eq h) (by simp [outlineKind])

/-- The outlines of fields determine them: a named field has a node of its own. -/
theorem fieldOutlines_inj : (fields others : GlueFields) →
    (∀ field ∈ fields, field.2.Surface) → (∀ field ∈ others, field.2.Surface) →
    fieldOutlines (fun _ => none) fields = fieldOutlines (fun _ => none) others → fields = others
  | [], [], _, _, _ => rfl
  | [], (some _, _) :: _, _, _, h => by cases h
  | [], (none, _) :: _, _, _, h => by cases h
  | (some _, _) :: _, [], _, _, h => by cases h
  | (none, _) :: _, [], _, _, h => by cases h
  | (some name, value) :: rest, (some name', value') :: rest', hfields, hothers, h => by
      obtain ⟨hvalue, hrest⟩ := List.forall_mem_cons.mp hfields
      obtain ⟨hvalue', hrest'⟩ := List.forall_mem_cons.mp hothers
      obtain ⟨hfirst, hlater⟩ := List.cons.inj h
      obtain ⟨hlabel, hparts⟩ := Outline.node.inj hfirst
      rw [bracketed_inj hlabel, outline_inj value value' hvalue hvalue' (List.cons.inj hparts).1,
        fieldOutlines_inj rest rest' hrest hrest' hlater]
  | (none, value) :: rest, (none, value') :: rest', hfields, hothers, h => by
      obtain ⟨hvalue, hrest⟩ := List.forall_mem_cons.mp hfields
      obtain ⟨hvalue', hrest'⟩ := List.forall_mem_cons.mp hothers
      obtain ⟨hfirst, hlater⟩ := List.cons.inj h
      rw [outline_inj value value' hvalue hvalue' hfirst,
        fieldOutlines_inj rest rest' hrest hrest' hlater]
  | (some _, _) :: _, (none, value') :: _, _, _, h =>
      absurd (List.cons.inj h).1 (node_ne_outline (Or.inl (by simp)) value')
  | (none, value) :: _, (some _, _) :: _, _, _, h =>
      absurd (List.cons.inj h).1.symm (node_ne_outline (Or.inl (by simp)) value)

end

theorem outlines_inj {values others : List Expr} (hvalues : ∀ value ∈ values, value.Surface)
    (hothers : ∀ value ∈ others, value.Surface)
    (h : values.map (outline fun _ => none) = others.map (outline fun _ => none)) :
    values = others := by
  induction values generalizing others with
  | nil => exact (List.map_eq_nil_iff.mp h.symm).symm
  | cons first rest ih =>
      cases others with
      | nil => cases h
      | cons other others =>
          obtain ⟨hfirst, hrest⟩ := List.forall_mem_cons.mp hvalues
          obtain ⟨hother, hothers⟩ := List.forall_mem_cons.mp hothers
          obtain ⟨heq, hlater⟩ := List.cons.inj h
          rw [outline_inj first other hfirst hother heq, ih hrest hothers hlater]

end Expr

/-! ## Statements -/

theorem Ascription.text_inj {written other : Ascription} (h : written.text = other.text) :
    written = other := by
  have htext := congrArg String.toList h
  cases written with
  | int width =>
      cases other with
      | int width' =>
          simp only [text, String.toList_append, List.append_assoc] at htext
          have hwidth := List.append_cancel_right (List.append_cancel_left htext)
          rw [Nat.repr_inj.mp (String.toList_inj.mp hwidth)]
      | bool => simp [text] at htext
  | bool =>
      cases other with
      | int width => simp [text] at htext
      | bool => rfl

namespace Stmt

/-- The parts of a binding: the written type, if there is one, and the value. -/
def bindingOutlines (written : Option Ascription) (value : Option Expr) : List Outline :=
  (written.map fun written => .node ("TypeSpec [" ++ written.text ++ "]") []).toList ++
    (value.map (Expr.outline fun _ => none)).toList

/-- The parts of a binding determine it, though either may be missing. -/
theorem bindingOutlines_inj {written written' : Option Ascription} {value value' : Option Expr}
    (hvalue : ∀ e ∈ value, e.Surface) (hvalue' : ∀ e ∈ value', e.Surface)
    (h : bindingOutlines written value = bindingOutlines written' value') :
    written = written' ∧ value = value' := by
  have hvalues (hparts : (value.map (Expr.outline fun _ => none)).toList =
      (value'.map (Expr.outline fun _ => none)).toList) : value = value' := by
    cases value with
    | none => cases value' with
      | none => rfl
      | some e' => cases hparts
    | some e => cases value' with
      | none => cases hparts
      | some e' =>
          rw [Expr.outline_inj e e' (hvalue e rfl) (hvalue' e' rfl) (List.cons.inj hparts).1]
  cases written with
  | none => cases written' with
    | none => exact ⟨rfl, hvalues h⟩
    | some other => cases value with
      | none => cases h
      | some e => exact absurd (List.cons.inj h).1.symm (Expr.node_ne_outline (Or.inr (by simp)) e)
  | some written => cases written' with
    | none => cases value' with
      | none => cases h
      | some e => exact absurd (List.cons.inj h).1 (Expr.node_ne_outline (Or.inr (by simp)) e)
    | some other =>
        obtain ⟨hlabel, hrest⟩ := List.cons.inj h
        have htext := Expr.bracketed_inj (Outline.node.inj hlabel).1
        exact ⟨congrArg some (Ascription.text_inj htext), hvalues hrest⟩

/-- What the label of a binding says before the name. -/
def bindingHead : BindingForm → String
  | .declaration => "Declaration [Name: "
  | .assignment => "Assignment [Name: "

theorem bindingLabel_eq (form : BindingForm) (name : String) :
    bindingLabel form name = bindingHead form ++ name ++ "]" := by
  cases form <;> rfl

/-- The kind of the statement's outline. -/
def outlineKind : Stmt → List Char
  | bind .declaration _ _ _ _ => ['D', 'e', 'c']
  | bind .assignment _ _ _ _ => ['A', 's', 's']
  | print _ => ['O', 'u', 't']
  | evaluate _ => ['E', 'x', 'p']
  | branch _ _ _ => ['I', 'f']
  | whileLoop _ _ => ['W', 'h', 'i']
  | forLoop _ _ _ _ => ['F', 'o', 'r']
  | block _ => ['B', 'l', 'o']

theorem kind_outline (st : Stmt) : (st.outline fun _ => none).kind = st.outlineKind := by
  cases st with
  | bind form name =>
      rw [outline, bindingLabel_eq, String.append_assoc,
        Outline.kind_append _ _ _ (by cases form <;> decide)]
      cases form <;> simp [bindingHead, outlineKind]
  | branch _ _ no => cases no <;> simp [outline, Outline.kind, outlineKind]
  | _ => simp [outline, Outline.kind, outlineKind]

theorem outlineKind_eq {st other : Stmt}
    (h : (st.outline fun _ => none) = other.outline fun _ => none) :
    st.outlineKind = other.outlineKind := by
  rw [← kind_outline, h, kind_outline]

mutual

/-- The outline of a statement that can be written determines it. -/
theorem outline_inj : (st other : Stmt) → st.Surface → other.Surface →
    (st.outline fun _ => none) = (other.outline fun _ => none) → st = other
  | bind .declaration name written value _, other, hst, hother, h => by
      cases hst with
      | declare _ _ _ hvalue =>
          cases hother with
          | declare _ _ _ hvalue' =>
              obtain ⟨hlabel, hparts⟩ := Outline.node.inj h
              obtain ⟨rfl, rfl⟩ := bindingOutlines_inj hvalue hvalue' hparts
              rw [Expr.bracketed_inj hlabel]
          | _ => exact absurd (outlineKind_eq h) (by simp [outlineKind])
  | bind .assignment name written value _, other, hst, hother, h => by
      cases hst with
      | assign _ hvalue =>
          cases hother with
          | assign _ hvalue' =>
              obtain ⟨hlabel, hparts⟩ := Outline.node.inj h
              rw [Expr.bracketed_inj hlabel,
                Expr.outline_inj _ _ hvalue hvalue' (List.cons.inj hparts).1]
          | _ => exact absurd (outlineKind_eq h) (by simp [outlineKind])
  | print value, other, hst, hother, h => by
      cases hst with
      | print hvalue =>
          cases hother with
          | print hvalue' =>
              have hparts := (Outline.node.inj h).2
              rw [Expr.outline_inj value _ hvalue hvalue' (List.cons.inj hparts).1]
          | _ => exact absurd (outlineKind_eq h) (by simp [outlineKind])
  | evaluate value, other, hst, hother, h => by
      cases hst with
      | evaluate hvalue =>
          cases hother with
          | evaluate hvalue' =>
              have hparts := (Outline.node.inj h).2
              rw [Expr.outline_inj value _ hvalue hvalue' (List.cons.inj hparts).1]
          | _ => exact absurd (outlineKind_eq h) (by simp [outlineKind])
  | branch condition yes none, other, hst, hother, h => by
      cases hst with
      | branch hcondition hyes _ =>
          cases hother with
          | @branch condition' yes' no' hcondition' hyes' _ =>
              cases no' with
              | none =>
                  obtain ⟨htest, hparts⟩ := List.cons.inj (Outline.node.inj h).2
                  have hyesParts := (Outline.node.inj (List.cons.inj hparts).1).2
                  rw [Expr.outline_inj condition condition' hcondition hcondition' htest,
                    outlines_inj yes yes' hyes hyes' hyesParts]
              | some no' => cases (List.cons.inj (List.cons.inj (Outline.node.inj h).2).2).2
          | _ => exact absurd (outlineKind_eq h) (by simp [outlineKind])
  | branch condition yes (some no), other, hst, hother, h => by
      cases hst with
      | branch hcondition hyes hno =>
          cases hother with
          | @branch condition' yes' no' hcondition' hyes' hno' =>
              cases no' with
              | none => cases (List.cons.inj (List.cons.inj (Outline.node.inj h).2).2).2
              | some no' =>
                  obtain ⟨htest, hparts⟩ := List.cons.inj (Outline.node.inj h).2
                  obtain ⟨hthen, helse⟩ := List.cons.inj hparts
                  have hnoParts := (Outline.node.inj (List.cons.inj helse).1).2
                  rw [Expr.outline_inj condition condition' hcondition hcondition' htest,
                    outlines_inj yes yes' hyes hyes' (Outline.node.inj hthen).2,
                    outlines_inj no no' (hno no rfl) (hno' no' rfl) hnoParts]
          | _ => exact absurd (outlineKind_eq h) (by simp [outlineKind])
  | whileLoop condition body, other, hst, hother, h => by
      cases hst with
      | whileLoop hcondition hbody =>
          cases hother with
          | whileLoop hcondition' hbody' =>
              obtain ⟨htest, hparts⟩ := List.cons.inj (Outline.node.inj h).2
              have hbodyParts := (Outline.node.inj (List.cons.inj hparts).1).2
              rw [Expr.outline_inj condition _ hcondition hcondition' htest,
                outlines_inj body _ hbody hbody' hbodyParts]
          | _ => exact absurd (outlineKind_eq h) (by simp [outlineKind])
  | forLoop name _ bounds body, other, hst, hother, h => by
      cases hst with
      | forLoop _ _ hbounds hbody =>
          cases hother with
          | forLoop _ _ hbounds' hbody' =>
              obtain ⟨hlabel, hparts⟩ := Outline.node.inj h
              -- the body stands last
              obtain ⟨hboundParts, hlast⟩ := List.append_inj' hparts rfl
              have hbodyParts := (Outline.node.inj (List.cons.inj hlast).1).2
              rw [Expr.bracketed_inj hlabel, Expr.outlines_inj hbounds hbounds' hboundParts,
                outlines_inj body _ hbody hbody' hbodyParts]
          | _ => exact absurd (outlineKind_eq h) (by simp [outlineKind])
  | block body, other, hst, hother, h => by
      cases hst with
      | block hbody =>
          cases hother with
          | block hbody' => rw [outlines_inj body _ hbody hbody' (Outline.node.inj h).2]
          | _ => exact absurd (outlineKind_eq h) (by simp [outlineKind])

/-- The outlines of statements determine them. -/
theorem outlines_inj : (body others : List Stmt) → (∀ st ∈ body, st.Surface) →
    (∀ st ∈ others, st.Surface) → outlines (fun _ => none) body = outlines (fun _ => none) others →
    body = others
  | [], [], _, _, _ => rfl
  | [], _ :: _, _, _, h => by cases h
  | _ :: _, [], _, _, h => by cases h
  | first :: rest, other :: others, hbody, hothers, h => by
      obtain ⟨hfirst, hrest⟩ := List.forall_mem_cons.mp hbody
      obtain ⟨hother, hothers⟩ := List.forall_mem_cons.mp hothers
      obtain ⟨heq, hlater⟩ := List.cons.inj h
      rw [outline_inj first other hfirst hother heq, outlines_inj rest others hrest hothers hlater]

end

end Stmt

/-! ## Labels are printable -/

theorem PrintableLabel.append {before after : String} (h : PrintableLabel before)
    (hbefore : before.toList ≠ []) (hafter : '\n' ∉ after.toList) :
    PrintableLabel (before ++ after) := by
  constructor
  · rw [String.toList_append, List.mem_append]
    exact not_or.mpr ⟨h.newline, hafter⟩
  · rw [String.toList_append, List.head?_append_of_ne_nil _ hbefore]
    exact h.head

/-- A label that shows a text in brackets. -/
theorem PrintableLabel.bracketed {before text : String} (h : PrintableLabel before)
    (hbefore : before.toList ≠ []) (htext : '\n' ∉ text.toList) :
    PrintableLabel (before ++ text ++ "]") := by
  rw [String.append_assoc]
  refine h.append hbefore ?_
  rw [String.toList_append, List.mem_append]
  exact not_or.mpr ⟨htext, by decide⟩

theorem newline_notMem_toString (number : Nat) : '\n' ∉ (toString number).toList := by
  intro hmem
  have hdigits := (Text.isNumeral_toString (Nat.lt_succ_self number)).digits
  exact absurd (List.all_eq_true.mp hdigits '\n' hmem) (by decide)

theorem newline_notMem_of_isName {name : String} (h : isName name = true) : '\n' ∉ name.toList := by
  intro hmem
  exact absurd (continuesWord_of_isName h '\n' hmem) (by decide)

theorem newline_notMem_of_operator {operator : String} (h : (OperatorClass.of? operator).isSome) :
    '\n' ∉ operator.toList := by
  unfold OperatorClass.of? at h
  split at h <;> first | decide | cases h

theorem Ascription.newline_notMem_text (written : Ascription) : '\n' ∉ written.text.toList := by
  cases written with
  | bool => decide
  | int width =>
      rw [text, String.toList_append, String.toList_append, List.mem_append, List.mem_append]
      exact not_or.mpr ⟨not_or.mpr ⟨by decide, newline_notMem_toString width⟩, by decide⟩

mutual

theorem Expr.Surface.printable : (value : Expr) → value.Surface →
    (value.outline fun _ => none).Printable
  | .literal number _, h => by
      cases h
      exact .node (.bracketed ⟨by decide, by decide⟩ (by decide) (newline_notMem_toString number))
        (by simp)
  | .var name _ _, h => by
      cases h with
      | var hname =>
          exact .node (.bracketed ⟨by decide, by decide⟩ (by decide)
            (newline_notMem_of_isName hname)) (by simp)
  | .read _, h => by
      cases h
      exact .node ⟨by decide, by decide⟩ (by simp)
  | .unary _ operand _, h => by
      cases h with
      | sign hoperand =>
          have hlabel : PrintableLabel "UnaryExpr [-]" := ⟨by decide, by decide⟩
          exact .node hlabel
            (List.forall_mem_singleton.mpr (Expr.Surface.printable operand hoperand))
  | .binary operator left right _, h => by
      cases h with
      | binary hoperator hleft hright =>
          refine .node (.bracketed ⟨by decide, by decide⟩ (by decide)
            (newline_notMem_of_operator hoperator)) (List.forall_mem_cons.mpr ⟨?_, ?_⟩)
          · exact Expr.Surface.printable left hleft
          · exact List.forall_mem_singleton.mpr (Expr.Surface.printable right hright)
  | .conversion _ _, h => by cases h
  | .load _ _, h => by cases h
  | .glue fields _, h => by
      cases h with
      | glue _ hnames hfields =>
          have hlabel : PrintableLabel "Glue" := ⟨by decide, by decide⟩
          exact .node hlabel (Expr.Surface.printable_fields fields hnames hfields)
  | .dot base field _ _, h => by
      cases h with
      | dot hfield hbase =>
          exact .node (.bracketed ⟨by decide, by decide⟩ (by decide)
            (newline_notMem_of_isName hfield))
            (List.forall_mem_singleton.mpr (Expr.Surface.printable base hbase))
  | .index base position _, h => by
      cases h with
      | index _ hbase =>
          exact .node (.bracketed ⟨by decide, by decide⟩ (by decide)
            (newline_notMem_toString position))
            (List.forall_mem_singleton.mpr (Expr.Surface.printable base hbase))

theorem Expr.Surface.printable_fields : (fields : GlueFields) →
    (∀ field ∈ fields, ∀ name ∈ field.1, isName name = true) →
    (∀ field ∈ fields, field.2.Surface) →
    ∀ outline ∈ Expr.fieldOutlines (fun _ => none) fields, outline.Printable
  | [], _, _ => fun outline houtline => by cases houtline
  | (some name, value) :: rest, hnames, hfields => by
      obtain ⟨hname, hnames⟩ := List.forall_mem_cons.mp hnames
      obtain ⟨hvalue, hfields⟩ := List.forall_mem_cons.mp hfields
      refine List.forall_mem_cons.mpr
        ⟨.node (.bracketed ⟨by decide, by decide⟩ (by decide) ?_) ?_, ?_⟩
      · exact newline_notMem_of_isName (hname name rfl)
      · exact List.forall_mem_singleton.mpr (Expr.Surface.printable value hvalue)
      · exact Expr.Surface.printable_fields rest hnames hfields
  | (none, value) :: rest, hnames, hfields => by
      obtain ⟨hvalue, hfields⟩ := List.forall_mem_cons.mp hfields
      exact List.forall_mem_cons.mpr ⟨Expr.Surface.printable value hvalue,
        Expr.Surface.printable_fields rest (List.forall_mem_cons.mp hnames).2 hfields⟩

end

theorem Stmt.printable_bind {form : BindingForm} {name : String} {written : Option Ascription}
    {value : Option Expr} {symbol : Option SymbolId} (hname : isName name = true)
    (hvalue : ∀ e ∈ value, e.Surface) :
    ((Stmt.bind form name written value symbol).outline fun _ => none).Printable := by
  rw [Stmt.outline, bindingLabel_eq]
  refine .node (.bracketed ?_ ?_ (newline_notMem_of_isName hname))
    (List.forall_mem_append.mpr ⟨?_, ?_⟩)
  · cases form <;> exact ⟨by decide, by decide⟩
  · cases form <;> decide
  · intro outline houtline
    obtain ⟨ascription, -, rfl⟩ := Option.map_eq_some_iff.mp (Option.mem_toList.mp houtline)
    exact .node (.bracketed ⟨by decide, by decide⟩ (by decide) ascription.newline_notMem_text)
      (by simp)
  · intro outline houtline
    obtain ⟨e, he, rfl⟩ := Option.map_eq_some_iff.mp (Option.mem_toList.mp houtline)
    exact Expr.Surface.printable e (hvalue e he)

mutual

theorem Stmt.Surface.printable : (st : Stmt) → st.Surface →
    (st.outline fun _ => none).Printable
  | .bind _ _ _ _ _, h => by
      cases h with
      | declare hname _ _ hvalue => exact Stmt.printable_bind hname hvalue
      | assign hname hvalue =>
          exact Stmt.printable_bind hname fun e he => (Option.some.inj he) ▸ hvalue
  | .print value, h => by
      cases h with
      | print hvalue =>
          exact .node ⟨by decide, by decide⟩
            (List.forall_mem_singleton.mpr (Expr.Surface.printable value hvalue))
  | .evaluate value, h => by
      cases h with
      | evaluate hvalue =>
          exact .node ⟨by decide, by decide⟩
            (List.forall_mem_singleton.mpr (Expr.Surface.printable value hvalue))
  | .branch condition yes none, h => by
      cases h with
      | branch hcondition hyes _ =>
          refine .node ⟨by decide, by decide⟩ (List.forall_mem_cons.mpr
            ⟨Expr.Surface.printable condition hcondition, List.forall_mem_singleton.mpr ?_⟩)
          exact .node ⟨by decide, by decide⟩ (Stmt.Surface.printable_body yes hyes)
  | .branch condition yes (some no), h => by
      cases h with
      | branch hcondition hyes hno =>
          refine .node ⟨by decide, by decide⟩ (List.forall_mem_cons.mpr
            ⟨Expr.Surface.printable condition hcondition, List.forall_mem_cons.mpr
              ⟨?_, List.forall_mem_singleton.mpr ?_⟩⟩)
          · exact .node ⟨by decide, by decide⟩ (Stmt.Surface.printable_body yes hyes)
          · exact .node ⟨by decide, by decide⟩ (Stmt.Surface.printable_body no (hno no rfl))
  | .whileLoop condition body, h => by
      cases h with
      | whileLoop hcondition hbody =>
          refine .node ⟨by decide, by decide⟩ (List.forall_mem_cons.mpr
            ⟨Expr.Surface.printable condition hcondition, List.forall_mem_singleton.mpr ?_⟩)
          exact .node ⟨by decide, by decide⟩ (Stmt.Surface.printable_body body hbody)
  | .forLoop name _ bounds body, h => by
      cases h with
      | forLoop hname _ hbounds hbody =>
          refine .node (.bracketed ⟨by decide, by decide⟩ (by decide)
            (newline_notMem_of_isName hname)) (List.forall_mem_append.mpr
              ⟨List.forall_mem_map.mpr fun bound hbound => ?_, List.forall_mem_singleton.mpr ?_⟩)
          · exact Expr.Surface.printable bound (hbounds bound hbound)
          · exact .node ⟨by decide, by decide⟩ (Stmt.Surface.printable_body body hbody)
  | .block body, h => by
      cases h with
      | block hbody => exact .node ⟨by decide, by decide⟩ (Stmt.Surface.printable_body body hbody)

theorem Stmt.Surface.printable_body : (body : List Stmt) → (∀ st ∈ body, st.Surface) →
    ∀ outline ∈ Stmt.outlines (fun _ => none) body, outline.Printable
  | [], _ => fun outline houtline => by cases houtline
  | first :: rest, h => by
      obtain ⟨hfirst, hrest⟩ := List.forall_mem_cons.mp h
      exact List.forall_mem_cons.mpr ⟨Stmt.Surface.printable first hfirst,
        Stmt.Surface.printable_body rest hrest⟩

end

/-! ## Programs -/

/-- What a source text spells can be written. -/
theorem surface_of_parseSource {source : String} {program : Program}
    (h : parseSource source = .ok program) : ∀ st ∈ program, st.Surface := by
  obtain ⟨log, hrun⟩ := outcome_eq_ok_iff.mp h
  obtain ⟨tokens, _, htokens, hprogram⟩ := bind_eq_ok_iff.mp hrun
  exact surface_of_parse (Frontend.tokenize_of_tokens htokens)
    (Frontend.parse_of_program hprogram)

theorem Program.printable {program : Program} (h : ∀ st ∈ program, st.Surface) :
    (program.outline fun _ => none).Printable :=
  .node ⟨by decide, by decide⟩ (Stmt.Surface.printable_body program h)

/-- **The dump is faithful.**  Two programs that source texts spell have the same dump exactly if
they are the same program. -/
theorem dump_eq_iff_of_parseSource {source other : String} {program program' : Program}
    (h : parseSource source = .ok program) (h' : parseSource other = .ok program') :
    program.dump (fun _ => none) = program'.dump (fun _ => none) ↔ program = program' := by
  have hsurface := surface_of_parseSource h
  have hsurface' := surface_of_parseSource h'
  refine ⟨fun hdump => ?_, fun heq => by rw [heq]⟩
  have houtline := Outline.render_inj (Program.printable hsurface) (Program.printable hsurface')
    hdump
  exact Stmt.outlines_inj program program' hsurface hsurface' (Outline.node.inj houtline).2

/-- Whether a statement is the last one of a block or comes after it shows in its margin only. -/
theorem dump_eq_iff_of_parseSource_nested :
    ∃ program program',
      (parseSource "while (x) \x7b x = (1, a: 2).a; \x7d -x;" = .ok program ∧
        parseSource "while (x) \x7b x = (1, a: 2).a; -x; \x7d" = .ok program') ∧
      program.dump (fun _ => none) ≠ program'.dump (fun _ => none) := by
  have hruns : ∃ program program',
      parseSource "while (x) \x7b x = (1, a: 2).a; \x7d -x;" = .ok program ∧
        parseSource "while (x) \x7b x = (1, a: 2).a; -x; \x7d" = .ok program' ∧
        program.length ≠ program'.length :=
    ⟨_, _, by cbv, by cbv, by cbv⟩
  obtain ⟨program, program', h, h', hlength⟩ := hruns
  refine ⟨program, program', ⟨h, h'⟩, fun hdump => hlength ?_⟩
  rw [(dump_eq_iff_of_parseSource h h').mp hdump]

end FlexWidth
