import FlexWidth.Proofs.Typing.Discipline
import FlexWidth.Proofs.Typing.Erasure
import Mathlib

/-!
# Literals are representable

A literal stands for its value or, right under a minus sign, for the negative of it.
Checking makes sure that the integer it stands for can be represented in its type, with
the test `literalFits`.

The first part is about the test alone: it decides whether an integer is representable
(`literalFits_iff`), and on machine words it can be carried out without leaving 128 bits
(`wordLiteralFits_eq`).  The second part finds the literals of a checked program.  While
an expression is being checked a literal may be flexible; once it has a width, it fits.
-/

namespace FlexWidth

/-! ## The range test -/

/-- The integer can be represented in two's complement with this many bits. -/
def Representable (width : Nat) (integer : Int) : Prop :=
  1 ≤ width ∧ -2 ^ (width - 1) ≤ integer ∧ integer ≤ 2 ^ (width - 1) - 1

/-- The integer that a literal stands for. -/
def literalInteger (value : Nat) (negated : Bool) : Int := if negated then -value else value

theorem literalLimit_eq (width : Nat) : literalLimit width = 2 ^ (width - 1) := by
  rw [literalLimit, Nat.one_shiftLeft]

/-- A width above 64 has room for every machine word. -/
theorem lt_literalLimit_of_lt {value width : Nat} (hvalue : value < Text.wordLimit)
    (hwidth : 64 < width) : value < literalLimit width := by
  have hle : 2 ^ 64 ≤ 2 ^ (width - 1) := Nat.pow_le_pow_right (by decide) (by omega)
  rw [literalLimit_eq]
  exact Nat.lt_of_lt_of_le hvalue (by simpa [Text.wordLimit] using hle)

/-- The test asks whether the literal lies below the limit of its width, or at most at the
limit if it is negated. -/
theorem literalFits_eq_true_iff {value width : Nat} (hvalue : value < Text.wordLimit)
    (negated : Bool) :
    literalFits value width negated = true ↔ 1 ≤ width ∧
      if negated then value ≤ literalLimit width else value < literalLimit width := by
  unfold literalFits
  by_cases hzero : width = 0
  · simp [hzero]
  · have hpos : 1 ≤ width := Nat.one_le_iff_ne_zero.mpr hzero
    rw [if_neg hzero]
    by_cases hwide : 64 < width
    · have hlt := lt_literalLimit_of_lt hvalue hwide
      have hle := Nat.le_of_lt hlt
      cases negated <;> simp [hwide, hpos, hlt, hle]
    · cases negated <;> simp [hwide, hpos]

/-- **The range test is exact**: a literal fits a width if and only if the integer that it
stands for can be represented. -/
theorem literalFits_iff {value width : Nat} (hvalue : value < Text.wordLimit) (negated : Bool) :
    literalFits value width negated = true ↔
      Representable width (literalInteger value negated) := by
  rw [literalFits_eq_true_iff hvalue, literalLimit_eq, Representable, literalInteger]
  have hcast : ((2 ^ (width - 1) : Nat) : Int) = 2 ^ (width - 1) := by push_cast; rfl
  have hpos : 1 ≤ 2 ^ (width - 1) := Nat.one_le_two_pow
  rw [← hcast]
  cases negated <;> simp only [if_true, Bool.false_eq_true, if_false] <;> omega

/-! ## The range test on machine words -/

/-- Subtraction of words, if the difference is not negative. -/
def checkedSub {size : Nat} (left right : BitVec size) : Option (BitVec size) :=
  if right ≤ left then some (left - right) else none

/-- A word shifted to the left, if the distance is less than its size and no bit is
lost. -/
def checkedShift {size distanceSize : Nat} (word : BitVec size) (distance : BitVec distanceSize) :
    Option (BitVec size) :=
  if distance.toNat < size ∧ word.toNat <<< distance.toNat < 2 ^ size then
    some (word <<< distance.toNat)
  else none

/-- The range test for a literal of 64 bits and a width of 32 bits, in arithmetic of 128
bits; `none` if an operation leaves its range. -/
def wordLiteralFits (value : BitVec 64) (width : BitVec 32) (negated : Bool) : Option Bool :=
  if width = 0 then some false
  else if 64 < width then some true
  else do
    let distance ← checkedSub width 1
    let limit ← checkedShift (1 : BitVec 128) distance
    let wide := value.setWidth 128
    return if negated then wide ≤ limit else wide < limit

/-- The limit of a width up to 64 is a word of 128 bits. -/
theorem exists_checkedShift {width : BitVec 32} (hpos : 1 ≤ width.toNat)
    (hle : width.toNat ≤ 64) :
    ∃ distance limit, checkedSub width 1 = some distance ∧
      checkedShift (1 : BitVec 128) distance = some limit ∧
      limit.toNat = literalLimit width.toNat := by
  have hsub : (width - 1).toNat = width.toNat - 1 := by
    rw [BitVec.toNat_sub_of_le (by simpa [BitVec.le_def] using hpos)]
    rfl
  have hlimit : (1 : BitVec 128).toNat <<< (width - 1).toNat = literalLimit width.toNat := by
    rw [hsub, literalLimit]
    rfl
  have hlt : literalLimit width.toNat < 2 ^ 128 := by
    rw [literalLimit_eq]
    exact Nat.pow_lt_pow_right (by decide) (by omega)
  refine ⟨width - 1, (1 : BitVec 128) <<< (width - 1).toNat, ?_, ?_, ?_⟩
  · rw [checkedSub, if_pos (by simpa [BitVec.le_def] using hpos)]
  · rw [checkedShift, if_pos ⟨by omega, by rwa [hlimit]⟩]
  · rw [BitVec.toNat_shiftLeft, hlimit, Nat.mod_eq_of_lt hlt]

/-- Whatever the words, the range test stays within its arithmetic and has the answer of
`literalFits`. -/
theorem wordLiteralFits_eq (value : BitVec 64) (width : BitVec 32) (negated : Bool) :
    wordLiteralFits value width negated =
      some (literalFits value.toNat width.toNat negated) := by
  have hzero : width = 0 ↔ width.toNat = 0 := by
    rw [← BitVec.toNat_inj]
    rfl
  have hwide : 64 < width ↔ 64 < width.toNat := BitVec.lt_def
  unfold wordLiteralFits literalFits
  simp only [hzero, hwide]
  split
  · rfl
  · split
    · rfl
    · have hpos : 1 ≤ width.toNat := by omega
      have hle : width.toNat ≤ 64 := by omega
      obtain ⟨distance, limit, hdistance, hlimit, heq⟩ := exists_checkedShift hpos hle
      have hvalue : (value.setWidth 128).toNat = value.toNat :=
        BitVec.toNat_setWidth_of_le (by decide)
      simp only [hdistance, hlimit, Option.bind_eq_bind, Option.bind_some, BitVec.le_def,
        BitVec.lt_def, hvalue, heq]
      rfl

/-! ## The literals of an expression -/

/-- A literal of a program: its value, whether it stands right under a minus sign, and its
type. -/
structure Literal where
  value : Nat
  negated : Bool
  type : Option TypeId

/-- The integer that the literal stands for. -/
def Literal.integer (literal : Literal) : Int := literalInteger literal.value literal.negated

namespace Expr

mutual

/-- The literals of an expression, which itself stands right under a minus sign if
`negated` says so. -/
def literals (negated : Bool) : Expr → List Literal
  | literal value type => [⟨value, negated, type⟩]
  | var .. | read .. => []
  | unary operator operand _ => operand.literals (operator = "-")
  | binary _ left right _ => left.literals false ++ right.literals false
  | conversion operand _ => operand.literals false
  | load place _ => place.literals false
  | glue fields _ => fieldLiterals fields
  | dot base _ _ _ => base.literals false
  | index base _ _ => base.literals false

/-- The literals in the fields of a struct literal. -/
def fieldLiterals : GlueFields → List Literal
  | [] => []
  | (_, value) :: rest => value.literals false ++ fieldLiterals rest

end

/-- What lies at a place is no literal. -/
theorem literals_loaded (value : Expr) (negated : Bool) :
    value.loaded.literals negated = value.literals negated := by
  unfold loaded
  split
  · rename_i hstorage
    cases value <;> first | rfl | cases hstorage
  · rfl

mutual

theorem mem_nodes_of_mem_literals : (value : Expr) → {negated : Bool} → {found : Literal} →
    found ∈ value.literals negated → .literal found.value found.type ∈ value.nodes
  | .literal _ _, _, _, h => by
      rw [literals, List.mem_singleton] at h
      subst h
      exact .head _
  | .var .., _, _, h => by cases h
  | .read .., _, _, h => by cases h
  | .unary _ operand _, _, _, h => .tail _ (mem_nodes_of_mem_literals operand h)
  | .binary _ left right _, _, _, h => by
      refine .tail _ (List.mem_append.mpr ((List.mem_append.mp h).imp ?_ ?_))
      · exact mem_nodes_of_mem_literals left
      · exact mem_nodes_of_mem_literals right
  | .conversion operand _, _, _, h => .tail _ (mem_nodes_of_mem_literals operand h)
  | .load place _, _, _, h => .tail _ (mem_nodes_of_mem_literals place h)
  | .glue fields _, _, _, h => .tail _ (mem_fieldNodes_of_mem_fieldLiterals fields h)
  | .dot base _ _ _, _, _, h => .tail _ (mem_nodes_of_mem_literals base h)
  | .index base _ _, _, _, h => .tail _ (mem_nodes_of_mem_literals base h)

theorem mem_fieldNodes_of_mem_fieldLiterals : (fields : GlueFields) → {found : Literal} →
    found ∈ fieldLiterals fields → .literal found.value found.type ∈ fieldNodes fields
  | [], _, h => by cases h
  | (_, value) :: rest, _, h => by
      refine List.mem_append.mpr ((List.mem_append.mp h).imp ?_ ?_)
      · exact mem_nodes_of_mem_literals value
      · exact mem_fieldNodes_of_mem_fieldLiterals rest

end

mutual

/-- The literals of an expression are machine words, if it was read as such. -/
theorem lt_wordLimit_of_bare : (value : Expr) → value.erase.Bare → {negated : Bool} →
    {found : Literal} → found ∈ value.literals negated → found.value < Text.wordLimit
  | .literal _ _, hbare, _, _, h => by
      rw [literals, List.mem_singleton] at h
      subst h
      cases hbare with
      | literal hlt => exact hlt
  | .var .., _, _, _, h => by cases h
  | .read .., _, _, _, h => by cases h
  | .unary _ operand _, hbare, _, _, h => by
      cases hbare with
      | unary hoperand => exact lt_wordLimit_of_bare operand hoperand h
  | .binary _ left right _, hbare, _, _, h => by
      cases hbare with
      | binary hleft hright =>
          rcases List.mem_append.mp h with h | h
          · exact lt_wordLimit_of_bare left hleft h
          · exact lt_wordLimit_of_bare right hright h
  | .conversion operand _, hbare, _, _, h => lt_wordLimit_of_bare operand hbare h
  | .load place _, hbare, _, _, h => lt_wordLimit_of_bare place hbare h
  | .glue fields _, hbare, _, _, h => by
      cases hbare with
      | glue hfields => exact lt_wordLimit_of_bare_fields fields hfields h
  | .dot base _ _ _, hbare, _, _, h => by
      cases hbare with
      | dot hbase => exact lt_wordLimit_of_bare base hbase h
  | .index base _ _, hbare, _, _, h => by
      cases hbare with
      | index hbase => exact lt_wordLimit_of_bare base hbase h

theorem lt_wordLimit_of_bare_fields : (fields : GlueFields) →
    (∀ field ∈ eraseFields fields, field.2.Bare) → {found : Literal} →
    found ∈ fieldLiterals fields → found.value < Text.wordLimit
  | [], _, _, h => by cases h
  | (_, value) :: rest, hbare, _, h => by
      obtain ⟨hvalue, hrest⟩ := List.forall_mem_cons.mp hbare
      rcases List.mem_append.mp h with h | h
      · exact lt_wordLimit_of_bare value hvalue h
      · exact lt_wordLimit_of_bare_fields rest hrest h

end

end Expr

/-! ## Literals that have been checked -/

/-- The literal is still flexible, or it fits the width of its type. -/
def Literal.Fits (types : Universe) (literal : Literal) : Prop :=
  ∃ id, literal.type = some id ∧ (types.get? id = some .flexible ∨
    ∃ width, types.get? id = some (.int width) ∧
      literalFits literal.value width literal.negated = true)

section Checked

variable {types : Universe} {symbols : SymbolTable} {value final : Expr} {flex target : TypeId}

/-- A flexible tree that takes a width has literals that fit it, if the test says so. -/
theorem Expr.IsFlexible.forall_fits {width : Nat} (h : value.IsFlexible flex)
    (htarget : types.get? target = some (.int width)) (hfit : value.literalsFit width = true) :
    ∀ found ∈ (value.retype target).literals false, found.Fits types := by
  induction h with
  | literal => exact List.forall_mem_singleton.mpr ⟨target, rfl, .inr ⟨width, htarget, hfit⟩⟩
  | read => exact fun _ hfound => nomatch hfound
  | @sign operand hoperand ih =>
      cases hoperand with
      | literal => exact List.forall_mem_singleton.mpr ⟨target, rfl, .inr ⟨width, htarget, hfit⟩⟩
      | read => exact ih hfit
      | sign hinner => exact ih hfit
      | binary => exact ih hfit
  | binary _ _ _ ihleft ihright =>
      rw [literalsFit, Bool.and_eq_true] at hfit
      exact List.forall_mem_append.mpr ⟨ihleft hfit.1, ihright hfit.2⟩

theorem Converts.forall_fits (h : Converts types value target final)
    (hvalue : ∀ found ∈ value.literals false, found.Fits types) :
    ∀ found ∈ final.literals false, found.Fits types := by
  cases h with
  | same _ =>
      rw [Expr.literals_loaded]
      exact hvalue
  | widen _ _ _ _ =>
      rw [Expr.literals, Expr.literals_loaded]
      exact hvalue
  | retype _ hflexible htarget hfit => exact hflexible.forall_fits htarget hfit

theorem Tests.forall_fits (h : Tests types value target final)
    (hvalue : ∀ found ∈ value.literals false, found.Fits types) :
    ∀ found ∈ final.literals false, found.Fits types := by
  cases h with
  | bool _ =>
      rw [Expr.literals_loaded]
      exact hvalue
  | int _ _ =>
      rw [Expr.literals, Expr.literals_loaded]
      exact hvalue
  | flexible _ hflexible htarget hfit => exact hflexible.forall_fits htarget hfit

mutual

/-- The literals of a checked expression are flexible or fit. -/
theorem Elaborates.forall_fits {source value : Expr}
    (h : Elaborates types symbols source value) (negated : Bool) :
    ∀ found ∈ value.literals negated, found.Fits types := by
  match h with
  | .literal hid => exact List.forall_mem_singleton.mpr ⟨_, rfl, .inl hid⟩
  | .var _ => exact fun _ hfound => nomatch hfound
  | .read _ => exact fun _ hfound => nomatch hfound
  | .sign hoperand _ _ _ =>
      rw [Expr.literals, Expr.literals_loaded]
      exact hoperand.forall_fits _
  | .flexible _ hleft hright _ _ _ =>
      exact List.forall_mem_append.mpr ⟨hleft.forall_fits false, hright.forall_fits false⟩
  | .arithmetic _ hleft hright _ _ _ _ _ _ hl hr =>
      exact List.forall_mem_append.mpr
        ⟨hl.forall_fits (hleft.forall_fits false), hr.forall_fits (hright.forall_fits false)⟩
  | .relational _ hleft hright _ _ _ _ _ hl hr _ =>
      exact List.forall_mem_append.mpr
        ⟨hl.forall_fits (hleft.forall_fits false), hr.forall_fits (hright.forall_fits false)⟩
  | .glue hfields _ _ _ _ => exact hfields.forall_fits
  | .dot hbase _ _ _ => exact hbase.forall_fits false
  | .index hbase _ _ => exact hbase.forall_fits false

theorem ElaboratesFields.forall_fits {fields checked : GlueFields}
    (h : ElaboratesFields types symbols fields checked) :
    ∀ found ∈ Expr.fieldLiterals checked, found.Fits types := by
  match h with
  | .nil => exact fun _ hfound => nomatch hfound
  | .cons hvalue _ _ hfinal hrest =>
      exact List.forall_mem_append.mpr
        ⟨hfinal.forall_fits (hvalue.forall_fits false), hrest.forall_fits⟩

end

theorem ElaboratesTo.forall_fits {source : Expr}
    (h : ElaboratesTo types symbols target source final) :
    ∀ found ∈ final.literals false, found.Fits types := by
  obtain ⟨value, hvalue, hfinal⟩ := h
  exact hfinal.forall_fits (hvalue.forall_fits false)

theorem ElaboratesTest.forall_fits {source : Expr}
    (h : ElaboratesTest types symbols source final) :
    ∀ found ∈ final.literals false, found.Fits types := by
  obtain ⟨value, target, -, hvalue, hfinal⟩ := h
  exact hfinal.forall_fits (hvalue.forall_fits false)

mutual

theorem ElaboratesStmt.forall_fits {st st' : Stmt} (h : ElaboratesStmt types symbols st st') :
    ∀ value ∈ st'.roots, ∀ found ∈ value.literals false, found.Fits types := by
  match h with
  | .declare _ _ => simp [Stmt.roots]
  | .bind _ _ hvalue => exact List.forall_mem_singleton.mpr hvalue.forall_fits
  | .print _ hvalue => exact List.forall_mem_singleton.mpr hvalue.forall_fits
  | .evaluate hvalue _ _ => exact List.forall_mem_singleton.mpr (hvalue.forall_fits false)
  | .evaluateFlexible _ hvalue => exact List.forall_mem_singleton.mpr hvalue.forall_fits
  | .branch htest hyes => exact List.forall_mem_cons.mpr ⟨htest.forall_fits, hyes.forall_fits⟩
  | .otherwise htest hyes hno =>
      exact List.forall_mem_cons.mpr
        ⟨htest.forall_fits, List.forall_mem_append.mpr ⟨hyes.forall_fits, hno.forall_fits⟩⟩
  | .whileLoop htest hbody =>
      exact List.forall_mem_cons.mpr ⟨htest.forall_fits, hbody.forall_fits⟩
  | .forLoop _ _ hbounds hbody =>
      have hfits := forall_of_forall₂ hbounds fun _ _ h => h.forall_fits
      exact List.forall_mem_append.mpr ⟨hfits, hbody.forall_fits⟩
  | .block hbody => exact hbody.forall_fits

theorem ElaboratesStmts.forall_fits {body body' : List Stmt}
    (h : ElaboratesStmts types symbols body body') :
    ∀ value ∈ Stmt.bodyRoots body', ∀ found ∈ value.literals false, found.Fits types := by
  match h with
  | .nil => simp [Stmt.bodyRoots]
  | .cons hfirst hrest =>
      exact List.forall_mem_append.mpr ⟨hfirst.forall_fits, hrest.forall_fits⟩

end

end Checked

/-! ## The literals of a program -/

/-- The literals of some statements. -/
def Stmt.bodyLiterals (body : List Stmt) : List Literal :=
  (bodyRoots body).flatMap (Expr.literals false)

mutual

theorem Stmt.nodes_eq_flatMap : (st : Stmt) → st.nodes = st.roots.flatMap Expr.nodes
  | .bind .. => rfl
  | .print _ => by rw [nodes, roots, List.flatMap_singleton]
  | .evaluate _ => by rw [nodes, roots, List.flatMap_singleton]
  | .branch _ yes none => by rw [nodes, roots, List.flatMap_cons, bodyNodes_eq_flatMap yes]
  | .branch _ yes (some no) => by
      rw [nodes, roots, List.flatMap_cons, List.flatMap_append, bodyNodes_eq_flatMap yes,
        bodyNodes_eq_flatMap no, List.append_assoc]
  | .whileLoop _ body => by rw [nodes, roots, List.flatMap_cons, bodyNodes_eq_flatMap body]
  | .forLoop _ _ _ body => by rw [nodes, roots, List.flatMap_append, bodyNodes_eq_flatMap body]
  | .block body => by rw [nodes, roots, bodyNodes_eq_flatMap body]

/-- The expressions in some statements are those in the expressions that stand there. -/
theorem Stmt.bodyNodes_eq_flatMap : (body : List Stmt) →
    bodyNodes body = (bodyRoots body).flatMap Expr.nodes
  | [] => rfl
  | first :: rest => by
      rw [bodyNodes, bodyRoots, List.flatMap_append, nodes_eq_flatMap first,
        bodyNodes_eq_flatMap rest]

end

/-- **Literals are representable.**  In every source text that checks, each literal has an
integer type, and the integer it stands for lies in the range of that type.  And the test
which makes sure of this is exact, and carried out on machine words it never leaves the
range of its arithmetic, whatever literal and width it is asked about. -/
theorem representable_of_checkSource {source : String} {checked : CheckedProgram}
    (h : checkSource source = .ok checked) :
    (∀ found ∈ Stmt.bodyLiterals checked.body, found.value < 2 ^ 64 ∧ ∃ id width,
      found.type = some id ∧ checked.types.get? id = some (.int width) ∧
        Representable width found.integer) ∧
      ∀ (value : BitVec 64) (width : BitVec 32) (negated : Bool),
        wordLiteralFits value width negated =
            some (literalFits value.toNat width.toNat negated) ∧
          (literalFits value.toNat width.toNat negated = true ↔
            Representable width.toNat (literalInteger value.toNat negated)) := by
  refine ⟨fun found hfound => ?_, fun value width negated =>
    ⟨wordLiteralFits_eq value width negated, literalFits_iff value.isLt negated⟩⟩
  obtain ⟨tokens, spelled, body, symbols, start, log, final, htokens, hparse, hresolve, hcheck⟩ :=
    stages_of_checkSource h
  obtain ⟨hcontext, -, hbody⟩ := elaborates_of_typecheck htokens hparse hresolve hcheck
  obtain ⟨root, hroot, hliteral⟩ := List.mem_flatMap.mp hfound
  have hword : found.value < Text.wordLimit :=
    root.lt_wordLimit_of_bare (bare_erase_of_typecheck hparse hresolve hcheck root hroot) hliteral
  refine ⟨hword, ?_⟩
  -- the literal is flexible or fits, and no type in a checked program is flexible
  obtain ⟨id, hid, hflexible | ⟨width, hwidth, hfits⟩⟩ :=
    hbody.forall_fits root hroot found hliteral
  · have hnode : Expr.literal found.value found.type ∈ Stmt.bodyNodes checked.body := by
      rw [Stmt.bodyNodes_eq_flatMap]
      exact List.mem_flatMap.mpr ⟨root, hroot, root.mem_nodes_of_mem_literals hliteral⟩
    obtain ⟨id', hid', ty, hty, hne⟩ := (hbody.stmtsTyped hcontext).forall_nodes hcontext _ hnode
    cases hid.symm.trans hid'
    cases hflexible.symm.trans hty
    exact absurd rfl hne
  · exact ⟨id, width, hid, hwidth, (literalFits_iff hword found.negated).mp hfits⟩

/-- The least integer of eight bits, and a literal of a hundred bits. -/
theorem representable_of_checkSource_limits :
    ∃ checked,
      (checkSource "x : int(8) = -128; y : int(100) = 255;" = .ok checked ∧
        Stmt.bodyLiterals checked.body =
          [⟨128, true, some ⟨1⟩⟩, ⟨255, false, some ⟨2⟩⟩]) ∧
      (∀ found ∈ Stmt.bodyLiterals checked.body, found.value < 2 ^ 64 ∧ ∃ id width,
        found.type = some id ∧ checked.types.get? id = some (.int width) ∧
          Representable width found.integer) := by
  refine Exists.imp (fun checked h => ⟨h, (representable_of_checkSource h.1).1⟩) ?_
  exact ⟨_, by cbv, by cbv⟩

end FlexWidth
