import FlexWidth.Proofs.Typing.Judgement
import FlexWidth.Proofs.Typing.Progress
import Mathlib

/-!
# Elaboration is sound

What checking makes of a program keeps the rules of `HasType` and `StmtTyped`.  While
an expression is being checked, parts of it may be flexible, so the induction says of a
checked expression that it is typed *unless* its type is flexible
(`Elaborates.hasType`).  Every place where an expression ends up asks for a concrete
type, and a conversion to such a type leaves nothing flexible behind
(`Converts.hasValue`).
-/

namespace FlexWidth

/-! ## From elaboration to the rules -/

theorem Widens.of_widens {s t : Ty} (h : Check.widens s t = true) : Widens s t := by
  cases s with
  | bool => cases t <;> first | exact .bool | cases h
  | int source =>
      cases t with
      | int target => exact .int (of_decide_eq_true h)
      | bool => cases h
      | flexible => cases h
      | struct struct => cases h
  | flexible => cases h
  | struct struct => cases h

theorem Ty.struct?_join {left right : Ty} (hleft : left.struct? = none) :
    (left.join right).struct? = none := by
  unfold Ty.join
  split
  · exact hleft
  · split <;> rfl

theorem Ty.struct?_settled {ty : Ty} (h : ty.struct? = none) : ty.settled.struct? = none := by
  cases ty <;> first | rfl | exact h

section Elaboration

variable {types : Universe} {symbols : SymbolTable} {source value final : Expr} {id target : TypeId}

/-- The value of a place is loaded from it. -/
theorem HasType.loaded (h : HasType types symbols value id) :
    HasValue types symbols value.loaded id := by
  refine ⟨?_, value.denotesStorage_loaded⟩
  unfold Expr.loaded
  split
  · rename_i hstorage
    rw [h.type?]
    exact .load h hstorage
  · exact h

/-- A flexible tree that takes an integer type is typed. -/
theorem Expr.IsFlexible.hasValue_retype {width : Nat} (h : value.IsFlexible id)
    (htarget : types.get? target = some (.int width)) :
    HasValue types symbols (value.retype target) target := by
  have hscalar : types.Scalar target := ⟨_, htarget, rfl⟩
  induction h with
  | literal => exact ⟨.literal htarget, rfl⟩
  | read => exact ⟨.read htarget, rfl⟩
  | sign _ ih => exact ⟨.sign ih.hasType ih.noStorage hscalar, rfl⟩
  | binary hclass _ _ ihleft ihright =>
      exact ⟨.arithmetic hclass ihleft.hasType ihleft.noStorage ihright.hasType ihright.noStorage
        hscalar, rfl⟩

theorem Elaborates.isConversion (h : Elaborates types symbols source value) :
    value.loaded.isConversion = false := by
  cases h <;> rfl

/-- Nothing but a place is a struct. -/
theorem Elaborates.denotesStorage_of_struct {struct : StructTy}
    (h : Elaborates types symbols source value) (hty : types.HasTy value (.struct struct)) :
    value.denotesStorage = true := by
  obtain ⟨id, hid, hty⟩ := hty
  have hscalar : ¬ types.Scalar id := by
    rintro ⟨ty, hty', hstruct⟩
    cases hty.symm.trans hty'
    cases hstruct
  cases h with
  | var | glue | dot | index => rfl
  | literal hflexible | read hflexible =>
      cases hid
      exact absurd ⟨_, hflexible, rfl⟩ hscalar
  | sign _ _ hty' hstruct =>
      cases hid
      exact absurd ⟨_, hty', hstruct⟩ hscalar
  | flexible _ _ _ hflexible =>
      cases hid
      exact absurd ⟨_, hflexible, rfl⟩ hscalar
  | arithmetic _ _ _ _ _ hleft _ _ htarget =>
      cases hid
      exact absurd ⟨_, htarget, Ty.struct?_join hleft⟩ hscalar
  | relational _ _ _ _ _ _ _ _ _ _ hbool =>
      cases hid
      exact absurd ⟨_, hbool, rfl⟩ hscalar

/-- Conversion to a concrete type, given that the expression is typed unless it is
flexible. -/
theorem Converts.hasValue (h : Converts types value target final)
    (hvalue : ∀ id, value.type? = some id → types.Concrete id → HasType types symbols value id)
    (hconversion : value.loaded.isConversion = false) (htarget : types.Concrete target) :
    HasValue types symbols final target := by
  cases h with
  | same htype => exact (hvalue target htype htarget).loaded
  | widen hsource hs ht hwidens =>
      have hwidens := Widens.of_widens hwidens
      -- nothing widens the flexible type, so the operand is typed as it is
      have hconcrete : types.Concrete _ := ⟨_, hs, by cases hwidens <;> simp⟩
      have hloaded := (hvalue _ hsource hconcrete).loaded
      exact ⟨.widen hloaded.hasType hloaded.noStorage hconversion hs ht hwidens, rfl⟩
  | retype _ hflexible htarget _ => exact hflexible.hasValue_retype htarget

mutual

/-- **A checked expression is typed**, unless it is flexible. -/
theorem Elaborates.hasType {source value : Expr} {id : TypeId}
    (h : Elaborates types symbols source value) (hid : value.type? = some id)
    (hconcrete : types.Concrete id) : HasType types symbols value id := by
  -- rules that yield a flexible type do not apply here
  have hflexible : types.get? id ≠ some .flexible := by
    obtain ⟨ty, hty, hne⟩ := hconcrete
    rintro heq
    exact hne (Option.some.inj (hty.symm.trans heq))
  match h with
  | .literal hty =>
      cases hid
      exact absurd hty hflexible
  | .var hsymbol =>
      cases hid
      exact .var hsymbol
  | .read hty =>
      cases hid
      exact absurd hty hflexible
  | .sign hoperand hoperandId hty hstruct =>
      cases hid
      have hloaded := (hoperand.hasType hoperandId hconcrete).loaded
      exact .sign hloaded.hasType hloaded.noStorage ⟨_, hty, hstruct⟩
  | .flexible _ _ _ hty _ _ =>
      cases hid
      exact absurd hty hflexible
  | .arithmetic hclass hleft hright _ _ hstruct _ _ htarget hl hr =>
      cases hid
      have hl' := hl.hasValue (fun _ => hleft.hasType) hleft.isConversion hconcrete
      have hr' := hr.hasValue (fun _ => hright.hasType) hright.isConversion hconcrete
      exact .arithmetic hclass hl'.hasType hl'.noStorage hr'.hasType hr'.noStorage
        ⟨_, htarget, Ty.struct?_join hstruct⟩
  | .relational hclass hleft hright _ _ hstruct _ htarget hl hr hbool =>
      cases hid
      have hsettled : types.Concrete _ := ⟨_, htarget, Ty.settled_ne_flexible _⟩
      have hl' := hl.hasValue (fun _ => hleft.hasType) hleft.isConversion hsettled
      have hr' := hr.hasValue (fun _ => hright.hasType) hright.isConversion hsettled
      exact .relational hclass hl'.hasType hl'.noStorage hr'.hasType hr'.noStorage
        ⟨_, htarget, Ty.struct?_settled (Ty.struct?_join hstruct)⟩ hbool
  | .glue hfields _ hstruct htypes _ =>
      cases hid
      exact .glue hstruct (hfields.haveTypes htypes)
  | .dot hbase hbaseTy hposition hfield =>
      cases hid
      have hstorage := hbase.denotesStorage_of_struct hbaseTy
      obtain ⟨baseId, hbaseId, hstruct⟩ := hbaseTy
      exact .dot (hbase.hasType hbaseId ⟨_, hstruct, by simp⟩) hstorage hstruct hposition hfield
  | .index hbase hbaseTy hfield =>
      cases hid
      have hstorage := hbase.denotesStorage_of_struct hbaseTy
      obtain ⟨baseId, hbaseId, hstruct⟩ := hbaseTy
      exact .index (hbase.hasType hbaseId ⟨_, hstruct, by simp⟩) hstorage hstruct hfield

theorem ElaboratesFields.haveTypes {fields checked : GlueFields} {ids : List TypeId}
    (h : ElaboratesFields types symbols fields checked)
    (hids : checked.map (fun field => field.2.type?) = ids.map some) :
    HaveTypes types symbols checked ids := by
  match h, ids with
  | .nil, [] => exact .nil
  | .cons hvalue _ htarget hfinal hrest, id :: ids =>
      obtain ⟨hid, hrestIds⟩ := List.cons.inj hids
      cases hid.symm.trans hfinal.type?
      have hfinal' := hfinal.hasValue (fun _ => hvalue.hasType) hvalue.isConversion
        ⟨_, htarget, Ty.settled_ne_flexible _⟩
      exact .cons hfinal'.hasType hfinal'.noStorage (hrest.haveTypes hrestIds)

end

theorem ElaboratesTo.hasValue (h : ElaboratesTo types symbols target source final)
    (htarget : types.Concrete target) : HasValue types symbols final target := by
  obtain ⟨value, hvalue, hfinal⟩ := h
  exact hfinal.hasValue (fun _ => hvalue.hasType) hvalue.isConversion htarget

theorem ElaboratesTest.isCondition (h : ElaboratesTest types symbols source final) :
    IsCondition types symbols final := by
  obtain ⟨value, target, htarget, hvalue, hfinal⟩ := h
  cases hfinal with
  | bool htype => exact .bool (hvalue.hasType htype ⟨_, htarget, by simp⟩).loaded htarget
  | int htype hty =>
      exact .test (hvalue.hasType htype ⟨_, hty, by simp⟩).loaded hvalue.isConversion hty htarget
  | flexible _ hflexible hty _ =>
      exact .test (hflexible.hasValue_retype hty) (by cases hflexible <;> rfl) hty htarget

mutual

theorem ElaboratesStmt.stmtTyped {st st' : Stmt} (hcontext : SoundContext types symbols)
    (h : ElaboratesStmt types symbols st st') : StmtTyped types symbols st' := by
  match h with
  | .declare hid hwritten => exact .bind hid (by simpa using hwritten) (by simp)
  | .bind hid hwritten hvalue =>
      exact .bind hid hwritten (by simpa using hvalue.hasValue (hcontext.concrete hid))
  | .print htarget hvalue => exact .print (hvalue.hasValue ⟨_, htarget, by simp⟩) htarget
  | .evaluate hvalue hty hflexible =>
      obtain ⟨id, hid, hty⟩ := hty
      exact .evaluate (hvalue.hasType hid ⟨_, hty, hflexible⟩)
  | .evaluateFlexible htarget hvalue =>
      exact .evaluate (hvalue.hasValue ⟨_, htarget, by simp⟩).hasType
  | .branch htest hyes => exact .branch htest.isCondition (hyes.stmtsTyped hcontext)
  | .otherwise htest hyes hno =>
      exact .otherwise htest.isCondition (hyes.stmtsTyped hcontext) (hno.stmtsTyped hcontext)
  | .whileLoop htest hbody => exact .whileLoop htest.isCondition (hbody.stmtsTyped hcontext)
  | .forLoop hid hty hbounds hbody =>
      have hvalues := forall_of_forall₂ hbounds fun _ _ h => h.hasValue (hcontext.concrete hid)
      exact .forLoop hid hty hvalues (hbody.stmtsTyped hcontext)
  | .block hbody => exact .block (hbody.stmtsTyped hcontext)

theorem ElaboratesStmts.stmtsTyped {body body' : List Stmt} (hcontext : SoundContext types symbols)
    (h : ElaboratesStmts types symbols body body') : StmtsTyped types symbols body' := by
  match h with
  | .nil => exact .nil
  | .cons hfirst hrest => exact .cons (hfirst.stmtTyped hcontext) (hrest.stmtsTyped hcontext)

end

end Elaboration

/-! ## Checked programs -/

/-- What lowering asks of a checked program: no type in it is flexible, no integer is
without bits, and its statements and expressions keep the rules above. -/
structure CheckedProgram.WellTyped (checked : CheckedProgram) : Prop where
  widths : ∀ id width, checked.types.get? id = some (.int width) → 1 ≤ width
  fields : ∀ id struct, checked.types.get? id = some (.struct struct) →
    ∀ field ∈ struct.fields, checked.types.Concrete field
  symbols : ∀ id : SymbolId, id.index < checked.symbols.size →
    ∃ type, checked.symbols.type? id = some type ∧ checked.types.Concrete type
  nodes : ∀ node ∈ Stmt.bodyNodes checked.body, node.HasConcreteType checked.types
  body : StmtsTyped checked.types checked.symbols checked.body

theorem Frontend.tokenize_of_tokens {source : String} {tokens : List Token}
    {log final : Array Event} (h : Frontend.tokens source log = .ok tokens final) :
    tokenize source = .ok tokens := by
  unfold Frontend.tokens at h
  obtain ⟨items, _, hitems, h⟩ := bind_eq_ok_iff.mp h
  cases h
  cases hrun : tokenize source with
  | ok items =>
      rw [hrun] at hitems
      cases hitems
      rfl
  | error diagnostic =>
      rw [hrun] at hitems
      cases hitems

theorem Frontend.parse_of_program {tokens : List Token} {body : Program} {log final : Array Event}
    (h : Frontend.program tokens log = .ok body final) : parse tokens = .ok body := by
  unfold Frontend.program at h
  cases hrun : parse tokens with
  | ok items =>
      rw [hrun] at h
      cases h
      rfl
  | error failure =>
      rw [hrun] at h
      cases h

/-- A source text that checks has gone through every stage. -/
theorem stages_of_checkSource {source : String} {checked : CheckedProgram}
    (h : checkSource source = .ok checked) :
    ∃ tokens spelled body symbols start log final, tokenize source = .ok tokens ∧
      parse tokens = .ok spelled ∧ Frontend.resolve spelled start = .ok (body, symbols) log ∧
      Frontend.typecheck body symbols log = .ok checked final := by
  obtain ⟨final, hrun⟩ := outcome_eq_ok_iff.mp h
  obtain ⟨spelled, start, hsource, hcheck⟩ := bind_eq_ok_iff.mp hrun
  obtain ⟨tokens, _, htokens, hprogram⟩ := bind_eq_ok_iff.mp hsource
  obtain ⟨⟨body, symbols⟩, log, hresolve, htypecheck⟩ := bind_eq_ok_iff.mp hcheck
  exact ⟨tokens, spelled, body, symbols, start, log, final, Frontend.tokenize_of_tokens htokens,
    Frontend.parse_of_program hprogram, hresolve, htypecheck⟩

/-- What checking makes of a program that is parsed and resolved. -/
theorem elaborates_of_typecheck {source : String} {tokens : List Token} {spelled body : Program}
    {symbols : SymbolTable} {checked : CheckedProgram} {start log final : Array Event}
    (htokens : tokenize source = .ok tokens) (hparse : parse tokens = .ok spelled)
    (hresolve : Frontend.resolve spelled start = .ok (body, symbols) log)
    (hcheck : Frontend.typecheck body symbols log = .ok checked final) :
    SoundContext checked.types checked.symbols ∧ checked.symbols.size = symbols.size ∧
      ElaboratesStmts checked.types checked.symbols body checked.body := by
  obtain ⟨hnumbered, huntyped⟩ := numberedAll_of_resolve (plain_of_parse htokens hparse) hresolve
  obtain ⟨hcontext, hsize, -, hbody⟩ :=
    (ends_typecheck hnumbered (at_initial huntyped log)).post_of_ok hcheck
  exact ⟨hcontext, hsize, hbody⟩

/-- **Elaboration is sound.**  Whatever the source text, a program that checks is one that
can be lowered. -/
theorem wellTyped_of_checkSource {source : String} {checked : CheckedProgram}
    (h : checkSource source = .ok checked) : checked.WellTyped := by
  obtain ⟨tokens, spelled, body, symbols, start, log, final, htokens, hparse, hresolve, hcheck⟩ :=
    stages_of_checkSource h
  obtain ⟨hnumbered, huntyped⟩ := numberedAll_of_resolve (plain_of_parse htokens hparse) hresolve
  obtain ⟨hcontext, hsize, htyped, hbody⟩ :=
    (ends_typecheck hnumbered (at_initial huntyped log)).post_of_ok hcheck
  have hstmts := hbody.stmtsTyped hcontext
  refine ⟨fun id width hid => hcontext.sound.admits hid,
    fun id struct hid => (hcontext.sound.admits hid).1, fun id hlt => ?_,
    hstmts.forall_nodes hcontext, hstmts⟩
  obtain ⟨type, htype⟩ := htyped id (hsize ▸ hlt)
  exact ⟨type, htype, hcontext.concrete htype⟩

/-- A program with a load, a struct, a comparison of literals, a tested integer and a
truth value that is printed. -/
theorem wellTyped_of_checkSource_struct :
    let int8 : TypeId := ⟨1⟩
    let int32 : TypeId := ⟨2⟩
    let bool : TypeId := ⟨3⟩
    let pair : TypeId := ⟨4⟩
    let x : Expr := .load (.var "x" (some ⟨0⟩) int8) int8
    let less : Expr := .binary "<" (.literal 2 int32) (.literal 3 int32) bool
    let second : Expr := .load (.index (.var "y" (some ⟨1⟩) pair) 1 bool) bool
    ∃ checked,
      (checkSource "x : int(8) = 1; y = (a: x, 2 < 3); if (x + 3) \x7b output(0, -y.1); \x7d" =
          .ok checked ∧
        checked.body =
          [.bind .declaration "x" (some (.int 8)) (some (.literal 1 int8)) (some ⟨0⟩),
            .bind .assignment "y" none
              (some (.load (.glue [(some "a", x), (none, less)] pair) pair)) (some ⟨1⟩),
            .branch (.conversion (.binary "+" x (.literal 3 int8) int8) bool)
              [.print (.conversion (.unary "-" second bool) int32)] none]) ∧
      checked.WellTyped := by
  intro int8 int32 bool pair x less second
  refine Exists.imp (fun checked h => ⟨h, wellTyped_of_checkSource h.1⟩) ?_
  exact ⟨_, by cbv, rfl⟩

end FlexWidth
