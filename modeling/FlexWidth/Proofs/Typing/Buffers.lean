import FlexWidth.Buffer
import FlexWidth.Proofs.Grammar.StmtWriting
import FlexWidth.Proofs.Grammar.Surface
import FlexWidth.Proofs.Scope.Fidelity
import FlexWidth.Proofs.Token.Joining
import FlexWidth.Proofs.Types.Widths
import FlexWidth.Proofs.Typing.Discipline
import FlexWidth.Proofs.Typing.Keeps
import Mathlib

/-!
# Buffers for what is read and printed

An integer that a program reads or prints passes through a buffer of 64-bit words, and
`bufferWords` tells how many of them its width takes.

Three facts make up the picture.  The number of words is the least that holds the width
(`isLeast_words`).  What is read or printed in a checked program has an integer type, of at least
one bit (`StmtsTyped.hasTy_of_mem_transfers`).  And its width lies below 2 ^ 32
(`widthsFit_of_typecheck`): a width that is not the default is written somewhere in the source
text, and from there on it only passes from one integer type to another.  All widths from 1 to
2 ^ 32 - 1 do occur (`check_echo`), and the last 63 of them are too close to the limit for
rounding up.
-/

namespace FlexWidth

/-! ## Words -/

/-- Rounding up gives the least number of words that holds the width. -/
theorem isLeast_words (width : Nat) : IsLeast {words | width ≤ 64 * words} ((width + 63) / 64) := by
  constructor
  · show width ≤ 64 * ((width + 63) / 64)
    omega
  · intro words hwords
    have hwords : width ≤ 64 * words := hwords
    omega

/-- Rounding up overflows for the 63 greatest widths. -/
theorem bufferWords_eq (width : Nat) :
    bufferWords width =
      if width ≤ 2 ^ 32 - 64 then .ok ((width + 63) / 64) else .error .widthOverflow := by
  have hlimit : width + 63 < Text.widthLimit ↔ width ≤ 2 ^ 32 - 64 := by
    rw [show Text.widthLimit = 2 ^ 32 from rfl]
    omega
  simp only [bufferWords, hlimit]

/-! ## Widths that are written -/

namespace Stmt

mutual

theorem ascriptions_relabel (f : Label → Label) : (st : Stmt) →
    (st.relabel f).ascriptions = st.ascriptions
  | bind .. => rfl
  | print _ => rfl
  | evaluate _ => rfl
  | branch _ yes none => bodyAscriptions_relabelBody f yes
  | branch _ yes (some no) =>
      congrArg₂ (· ++ ·) (bodyAscriptions_relabelBody f yes) (bodyAscriptions_relabelBody f no)
  | whileLoop _ body => bodyAscriptions_relabelBody f body
  | forLoop _ _ _ body => bodyAscriptions_relabelBody f body
  | block body => bodyAscriptions_relabelBody f body

/-- Labels have no part in the types that are written. -/
theorem bodyAscriptions_relabelBody (f : Label → Label) : (body : List Stmt) →
    bodyAscriptions (relabelBody f body) = bodyAscriptions body
  | [] => rfl
  | first :: rest =>
      congrArg₂ (· ++ ·) (ascriptions_relabel f first) (bodyAscriptions_relabelBody f rest)

end

mutual

theorem surface_of_mem_ascriptions : (st : Stmt) → st.Surface →
    ∀ written ∈ st.ascriptions, written.Surface
  | bind _ _ written _ _, h => by
      cases h with
      | declare _ _ hwritten _ => exact fun _ hmem => hwritten _ (Option.mem_toList.mp hmem)
      | assign _ _ => simp [ascriptions]
  | print _, _ => by simp [ascriptions]
  | evaluate _, _ => by simp [ascriptions]
  | branch _ yes none, h => by
      cases h with
      | branch _ hyes _ => exact surface_of_mem_bodyAscriptions yes hyes
  | branch _ yes (some no), h => by
      cases h with
      | branch _ hyes hno =>
          exact List.forall_mem_append.mpr ⟨surface_of_mem_bodyAscriptions yes hyes,
            surface_of_mem_bodyAscriptions no (hno no rfl)⟩
  | whileLoop _ body, h => by
      cases h with
      | whileLoop _ hbody => exact surface_of_mem_bodyAscriptions body hbody
  | forLoop _ _ _ body, h => by
      cases h with
      | forLoop _ _ _ hbody => exact surface_of_mem_bodyAscriptions body hbody
  | block body, h => by
      cases h with
      | block hbody => exact surface_of_mem_bodyAscriptions body hbody

theorem surface_of_mem_bodyAscriptions : (body : List Stmt) → (∀ st ∈ body, st.Surface) →
    ∀ written ∈ bodyAscriptions body, written.Surface
  | [], _ => by simp [bodyAscriptions]
  | first :: rest, h => by
      obtain ⟨hfirst, hrest⟩ := List.forall_mem_cons.mp h
      exact List.forall_mem_append.mpr
        ⟨surface_of_mem_ascriptions first hfirst, surface_of_mem_bodyAscriptions rest hrest⟩

end

end Stmt

/-- The widths in a resolved source text are numbers that were read as widths. -/
theorem lt_widthLimit_of_resolve {source : String} {tokens : List Token} {spelled body : Program}
    {symbols : SymbolTable} {start log : Array Event} (htokens : tokenize source = .ok tokens)
    (hparse : parse tokens = .ok spelled)
    (hresolve : Frontend.resolve spelled start = .ok (body, symbols) log) (width : Nat)
    (hwidth : .int width ∈ Stmt.bodyAscriptions body) : width < Text.widthLimit := by
  obtain ⟨env, ledger, hstmts, -⟩ := reference_of_resolve hresolve
  have hempty : Environment.empty.Named [] := fun _ _ hid => by cases hid
  obtain ⟨hclear, -, -⟩ := Reference.covers_stmts spelled hempty hstmts
  have hsame : Stmt.bodyAscriptions body = Stmt.bodyAscriptions spelled := by
    calc Stmt.bodyAscriptions body
        = Stmt.bodyAscriptions (Stmt.relabelBody clearLabel body) :=
          (Stmt.bodyAscriptions_relabelBody clearLabel body).symm
      _ = Stmt.bodyAscriptions (Stmt.relabelBody clearLabel spelled) := by rw [hclear]
      _ = Stmt.bodyAscriptions spelled := Stmt.bodyAscriptions_relabelBody clearLabel spelled
  rw [hsame] at hwidth
  exact Stmt.surface_of_mem_bodyAscriptions spelled (surface_of_parse htokens hparse) _ hwidth

/-! ## Widths of types -/

/-- Widths stay in their range as long as those that are written do. -/
theorem Check.invariant_widthsFit :
    Check.Invariant (fun s => s.types.WidthsFit) (fun _ => True) (fun _ => True)
      fun width => width < Text.widthLimit where
  intern := by
    intro s ty hs _ hgrants id width hid
    unfold Universe.intern at hid
    split at hid
    · exact hs hid
    · rw [Universe.get?_add] at hid
      split at hid
      · rcases hgrants width (Option.some.inj hid) with hwritten | rfl | ⟨id, hid⟩
        · exact hwritten
        · decide
        · exact hs hid
      · exact hs hid
  setType hs _ := hs
  note _ hs := hs
  refused _ := trivial
  broken _ := trivial
  position _ _ _ _ := trivial

theorem widthsFit_of_typecheck {source : String} {tokens : List Token} {spelled body : Program}
    {symbols : SymbolTable} {checked : CheckedProgram} {start log final : Array Event}
    (htokens : tokenize source = .ok tokens) (hparse : parse tokens = .ok spelled)
    (hresolve : Frontend.resolve spelled start = .ok (body, symbols) log)
    (hcheck : Frontend.typecheck body symbols log = .ok checked final) :
    checked.types.WidthsFit := by
  obtain ⟨state, hstate, -, hrun⟩ := stmts_of_typecheck hcheck
  have hkeeps := Check.keeps_stmts_of_widths Check.invariant_widthsFit body
    (fun value _ => Check.allows_true value) (lt_widthLimit_of_resolve htokens hparse hresolve)
  have hempty : Universe.empty.WidthsFit := by
    intro id width hid
    simp [Universe.empty, Universe.get?] at hid
  intro id width hid
  rw [← hstate] at hid
  exact (hkeeps _ hempty).post_of_ok hrun hid

/-! ## What is read and printed -/

/-- Whether the expression reads an integer. -/
def Expr.isRead : Expr → Bool
  | .read _ => true
  | _ => false

namespace Stmt

mutual

/-- The values that a statement prints. -/
def printed : Stmt → List Expr
  | print value => [value]
  | bind .. | evaluate _ => []
  | branch _ yes none => bodyPrinted yes
  | branch _ yes (some no) => bodyPrinted yes ++ bodyPrinted no
  | whileLoop _ body | forLoop _ _ _ body | block body => bodyPrinted body

/-- The values that some statements print. -/
def bodyPrinted : List Stmt → List Expr
  | [] => []
  | first :: rest => first.printed ++ bodyPrinted rest

end

/-- The expressions whose values pass through a buffer: all that are read and all that are
printed. -/
def transfers (body : List Stmt) : List Expr :=
  (bodyNodes body).filter Expr.isRead ++ bodyPrinted body

end Stmt

section Transfers

variable {types : Universe} {symbols : SymbolTable}

mutual

theorem StmtTyped.hasTy_of_mem_printed {st : Stmt} (h : StmtTyped types symbols st) :
    ∀ value ∈ st.printed, ∃ width, types.HasTy value (.int width) := by
  match h with
  | .bind _ _ _ => simp [Stmt.printed]
  | .print hvalue hid =>
      exact List.forall_mem_singleton.mpr ⟨_, _, hvalue.hasType.type?, hid⟩
  | .evaluate _ => simp [Stmt.printed]
  | .branch _ hyes => exact hyes.hasTy_of_mem_bodyPrinted
  | .otherwise _ hyes hno =>
      exact List.forall_mem_append.mpr
        ⟨hyes.hasTy_of_mem_bodyPrinted, hno.hasTy_of_mem_bodyPrinted⟩
  | .whileLoop _ hbody => exact hbody.hasTy_of_mem_bodyPrinted
  | .forLoop _ _ _ hbody => exact hbody.hasTy_of_mem_bodyPrinted
  | .block hbody => exact hbody.hasTy_of_mem_bodyPrinted

theorem StmtsTyped.hasTy_of_mem_bodyPrinted {body : List Stmt}
    (h : StmtsTyped types symbols body) :
    ∀ value ∈ Stmt.bodyPrinted body, ∃ width, types.HasTy value (.int width) := by
  match h with
  | .nil => simp [Stmt.bodyPrinted]
  | .cons hfirst hrest =>
      exact List.forall_mem_append.mpr
        ⟨hfirst.hasTy_of_mem_printed, hrest.hasTy_of_mem_bodyPrinted⟩

end

/-- What is read has an integer type. -/
theorem Expr.IsTyped.hasTy_of_isRead {value : Expr} (h : value.IsTyped types symbols)
    (hread : value.isRead = true) : ∃ width, types.HasTy value (.int width) := by
  have hrule {id : TypeId} (hid : HasType types symbols value id) :
      ∃ width, types.HasTy value (.int width) := by
    cases hid with
    | read hid => exact ⟨_, _, rfl, hid⟩
    | _ => cases hread
  rcases h with ⟨id, hid⟩ | hcondition
  · exact hrule hid
  · cases hcondition with
    | bool hvalue _ => exact hrule hvalue.hasType
    | test _ _ _ _ => cases hread

/-- Whatever passes through a buffer is an integer. -/
theorem StmtsTyped.hasTy_of_mem_transfers {body : List Stmt} (h : StmtsTyped types symbols body) :
    ∀ value ∈ Stmt.transfers body, ∃ width, types.HasTy value (.int width) := by
  intro value hvalue
  rcases List.mem_append.mp hvalue with hmem | hmem
  · obtain ⟨hnode, hread⟩ := List.mem_filter.mp hmem
    exact (h.forall_isTyped value hnode).hasTy_of_isRead hread
  · exact h.hasTy_of_mem_bodyPrinted value hmem

end Transfers

/-! ## Every width -/

/-- A program that can be written is checked as some source text. -/
theorem exists_checkSource_of_check {body : Program} (hsurface : ∀ st ∈ body, st.Surface) :
    ∃ source log, ∀ checked final, Frontend.check body log = .ok checked final →
      checkSource source = .ok checked := by
  let source := joinTexts (fun _ => " ") (Stmt.writeBody .terse body)
  have hspaces : Spaces (Stmt.writeBody .terse body) source.toList :=
    spaces_joinTexts (fun _ => ⟨' ', [], rfl, rfl, by simp⟩) _
  have htokens := tokenize_of_spaces hspaces (Stmt.Surface.allLexed_writeBody .terse body hsurface)
  have hparse := parse_eq_ok_of_spellsStmts (Stmt.Surface.spells_writeBody .terse body hsurface)
  obtain ⟨log, hprogram⟩ :=
    outcome_eq_ok_iff.mp (parseSource_of_tokenize htokens hparse)
  refine ⟨source, log, fun checked final hcheck => outcome_eq_ok_iff.mpr ⟨final, ?_⟩⟩
  rw [run_bind_ok hprogram, hcheck]

/-- The program that reads an integer of the given width and prints it. -/
def echo (width : Nat) : Program :=
  [.bind .declaration "x" (some (.int width)) (some (.read none)) none,
    .print (.var "x" none none)]

theorem surface_echo {width : Nat} (h : width < Text.widthLimit) :
    ∀ st ∈ echo width, st.Surface := by
  refine List.forall_mem_cons.mpr ⟨?_, List.forall_mem_singleton.mpr (.print (.var (by decide)))⟩
  refine .declare (by decide) (.inl rfl) ?_ ?_
  · rintro ascription ⟨⟩
    exact h
  · rintro value ⟨⟩
    exact .read

/-- Any width but zero checks, and both the integer that is read and the one that is printed have
it. -/
theorem check_echo {width : Nat} (h : 0 < width) (log : Array Event) :
    ∃ checked final, Frontend.check (echo width) log = .ok checked final ∧
      (Stmt.bodyNodes checked.body).filter Expr.isRead = [.read (some ⟨1⟩)] ∧
      Stmt.bodyPrinted checked.body =
        [.load (.var "x" (some ⟨0⟩) (some ⟨1⟩)) (some ⟨1⟩)] ∧
      checked.types.get? ⟨1⟩ = some (.int width) := by
  obtain ⟨width, rfl⟩ := Nat.exists_eq_succ_of_ne_zero h.ne'
  refine ⟨_, _, by cbv, ?_, ?_, ?_⟩
  · rfl
  · rfl
  · rfl

/-- **Buffers hold what passes through them, except for the widest integers.**  In every source
text that checks, whatever is read or printed has an integer type, whose width is at least 1 and
less than 2 ^ 32.  Up to a width of 2 ^ 32 - 64 its buffer has the least number of words that
holds it, and beyond there is none: rounding up overflows.  Nothing keeps these 63 widths out,
since for every width of the range some source text checks that reads an integer of that width
and prints it. -/
theorem bufferWords_of_checkSource {source : String} {checked : CheckedProgram}
    (h : checkSource source = .ok checked) :
    (∀ value ∈ Stmt.transfers checked.body, ∃ width words,
      checked.types.HasTy value (.int width) ∧ 0 < width ∧ width < 2 ^ 32 ∧
        IsLeast {n | width ≤ 64 * n} words ∧
        bufferWords width =
          if width ≤ 2 ^ 32 - 64 then .ok words else .error .widthOverflow) ∧
      ∀ width, 0 < width → width < 2 ^ 32 → ∃ source checked read printed,
        checkSource source = .ok checked ∧
          (Stmt.bodyNodes checked.body).filter Expr.isRead = [read] ∧
          Stmt.bodyPrinted checked.body = [printed] ∧
          checked.types.HasTy read (.int width) ∧ checked.types.HasTy printed (.int width) := by
  constructor
  · intro value hvalue
    obtain ⟨tokens, spelled, body, symbols, start, log, final, htokens, hparse, hresolve, hcheck⟩ :=
      stages_of_checkSource h
    obtain ⟨hcontext, -, hbody⟩ := elaborates_of_typecheck htokens hparse hresolve hcheck
    obtain ⟨width, id, hvalueId, hid⟩ :=
      (hbody.stmtsTyped hcontext).hasTy_of_mem_transfers value hvalue
    have hpos : 0 < width := hcontext.sound.admits hid
    have hlt : width < 2 ^ 32 := widthsFit_of_typecheck htokens hparse hresolve hcheck hid
    refine ⟨width, (width + 63) / 64, ⟨id, hvalueId, hid⟩, hpos, hlt, isLeast_words width, ?_⟩
    exact bufferWords_eq width
  · intro width hpos hlt
    obtain ⟨source, log, hsource⟩ := exists_checkSource_of_check (surface_echo hlt)
    obtain ⟨checked, final, hcheck, hread, hprinted, hid⟩ := check_echo hpos log
    exact ⟨source, checked, _, _, hsource checked final hcheck, hread, hprinted, ⟨_, rfl, hid⟩,
      ⟨_, rfl, hid⟩⟩

/-- A sum of an integer of 65 bits and one that is read, and a truth value that is printed as an
integer; and the greatest width. -/
theorem bufferWords_of_checkSource_wide :
    ∃ checked,
      (checkSource "x : int(65) = 1; output(0, x + input(0)); output(0, 1 < 2);" = .ok checked ∧
        (Stmt.transfers checked.body).map Expr.type? = [some ⟨1⟩, some ⟨1⟩, some ⟨2⟩] ∧
        checked.types.get? ⟨1⟩ = some (.int 65) ∧ checked.types.get? ⟨2⟩ = some (.int 32)) ∧
      (∀ value ∈ Stmt.transfers checked.body, ∃ width words,
        checked.types.HasTy value (.int width) ∧ 0 < width ∧ width < 2 ^ 32 ∧
          IsLeast {n | width ≤ 64 * n} words ∧
          bufferWords width =
            if width ≤ 2 ^ 32 - 64 then .ok words else .error .widthOverflow) ∧
      ∃ source checked read printed, checkSource source = .ok checked ∧
        (Stmt.bodyNodes checked.body).filter Expr.isRead = [read] ∧
        Stmt.bodyPrinted checked.body = [printed] ∧
        checked.types.HasTy read (.int (2 ^ 32 - 1)) ∧
        checked.types.HasTy printed (.int (2 ^ 32 - 1)) := by
  refine Exists.imp (fun checked h => ⟨h, (bufferWords_of_checkSource h.1).1,
    (bufferWords_of_checkSource h.1).2 (2 ^ 32 - 1) (by decide) (by decide)⟩) ?_
  exact ⟨_, by cbv, by cbv, by cbv, by cbv⟩

/-- The widest integer can be read and printed, but it has no buffer, although 2 ^ 26 words would
hold it. -/
theorem bufferWords_widest :
    ∃ checked,
      checkSource "x : int(4294967295) = input(0); output(0, x);" = .ok checked ∧
        (Stmt.transfers checked.body).map Expr.type? = [some ⟨1⟩, some ⟨1⟩] ∧
        checked.types.get? ⟨1⟩ = some (.int 4294967295) ∧
        bufferWords 4294967295 = .error .widthOverflow ∧
        IsLeast {n | 4294967295 ≤ 64 * n} 67108864 := by
  have hchecks : (checkSource "x : int(4294967295) = input(0); output(0, x);").toOption.map
      (fun checked => ((Stmt.transfers checked.body).map Expr.type?, checked.types.get? ⟨1⟩)) =
        some ([some ⟨1⟩, some ⟨1⟩], some (.int 4294967295)) := by
    decide +kernel
  obtain ⟨checked, hchecked, hobserved⟩ := Option.map_eq_some_iff.mp hchecks
  obtain ⟨htypes, hwidth⟩ := Prod.mk.inj hobserved
  refine ⟨checked, ?_, htypes, hwidth, rfl, isLeast_words 4294967295⟩
  cases hrun : checkSource "x : int(4294967295) = input(0); output(0, x);" with
  | ok result =>
      rw [hrun] at hchecked
      exact congrArg Except.ok (Option.some.inj hchecked)
  | error failure =>
      rw [hrun] at hchecked
      cases hchecked

end FlexWidth
