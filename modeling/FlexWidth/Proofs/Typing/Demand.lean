import FlexWidth.Proofs.Typing.Literals
import FlexWidth.Proofs.Typing.Promotion
import Mathlib

/-!
# Demand propagation

A flexible expression waits for a width.  When a value of an integer type is wanted, every
node of the expression takes that type and nothing else about it changes, provided that the
literals fit; if they do not, the leftmost misfit is refused.  A truth value is wanted by way
of the default integer, around which one conversion is put.

How the demand travels is the subject of `Check.retypes_tree`.  Here the outcome is put in
terms of the literals of the expression, in the order in which they are written, and of the
integers they stand for.
-/

namespace FlexWidth

/-! ## Literals in order -/

namespace Expr

variable {value : Expr} {flex target : TypeId} {width : Nat}

/-- Every literal in the expression stands for an integer of the width. -/
def FitsIn (width : Nat) (value : Expr) : Prop :=
  ∀ found ∈ value.literals false, Representable width found.integer

/-- The literal is the leftmost in the expression that stands for an integer which is not of
the width. -/
def FirstMisfit (width : Nat) (value : Expr) (found : Literal) : Prop :=
  ∃ before after, value.literals false = before ++ found :: after ∧
    (∀ earlier ∈ before, Representable width earlier.integer) ∧
      ¬ Representable width found.integer

theorem FirstMisfit.not_fitsIn {found : Literal} (h : value.FirstMisfit width found) :
    ¬ value.FitsIn width := by
  obtain ⟨before, after, hliterals, -, hmisfit⟩ := h
  intro hfits
  refine hmisfit (hfits found ?_)
  rw [hliterals]
  exact List.mem_append_right _ List.mem_cons_self

/-- Only a literal can be right under a sign. -/
theorem literals_of_ne_literal (h : ∀ number own, value ≠ .literal number own) (negated : Bool) :
    value.literals negated = value.literals false := by
  cases value <;> first | rfl | exact absurd rfl (h _ _)

/-- The test of a flexible tree looks at each of its literals. -/
theorem IsFlexible.literalsFit_iff (h : value.IsFlexible flex) :
    value.literalsFit width = true ↔
      ∀ found ∈ value.literals false, literalFits found.value width found.negated = true := by
  induction h with
  | literal => simp [literalsFit, literals]
  | read => simp [literalsFit, literals]
  | @sign operand hoperand ih =>
      cases hoperand with
      | literal => simp [literalsFit, literals]
      | read => exact ih
      | sign => exact ih
      | binary => exact ih
  | binary _ _ _ ihleft ihright =>
      rw [literalsFit, Bool.and_eq_true, ihleft, ihright, literals, List.forall_mem_append]

/-- The test of a literal that is a machine word is about the integer it stands for. -/
theorem literalFits_iff_of_mem {found : Literal} (hbare : value.erase.Bare)
    (hfound : found ∈ value.literals false) :
    literalFits found.value width found.negated = true ↔ Representable width found.integer :=
  literalFits_iff (lt_wordLimit_of_bare value hbare hfound) found.negated

theorem IsFlexible.literalsFit_iff_fitsIn (h : value.IsFlexible flex) (hbare : value.erase.Bare) :
    value.literalsFit width = true ↔ value.FitsIn width := by
  rw [h.literalsFit_iff]
  exact forall₂_congr fun found hfound => literalFits_iff_of_mem hbare hfound

/-- Every node of a retyped tree has the new type. -/
theorem IsFlexible.type?_of_mem_nodes (h : value.IsFlexible flex) (target : TypeId) :
    ∀ node ∈ (value.retype target).nodes, node.type? = some target := by
  induction h with
  | literal => exact List.forall_mem_singleton.mpr rfl
  | read => exact List.forall_mem_singleton.mpr rfl
  | sign _ ih => exact List.forall_mem_cons.mpr ⟨rfl, ih⟩
  | binary _ _ _ ihleft ihright =>
      exact List.forall_mem_cons.mpr ⟨rfl, List.forall_mem_append.mpr ⟨ihleft, ihright⟩⟩

end Expr

namespace Check

variable {s : Checking} {value : Expr} {flex target : TypeId} {width number : Nat}
  {negated : Bool}

/-- The misfit of a flexible tree among its literals. -/
theorem Misfits.exists_literals (h : Misfits width value number negated)
    (hvalue : value.IsFlexible flex) :
    ∃ before type after, value.literals false = before ++ ⟨number, negated, type⟩ :: after ∧
      (∀ earlier ∈ before, literalFits earlier.value width earlier.negated = true) ∧
        literalFits number width negated = false := by
  induction h with
  | literal hfit => exact ⟨[], _, [], rfl, by simp, hfit⟩
  | negatedLiteral hfit =>
      cases hvalue
      exact ⟨[], _, [], rfl, by simp, hfit⟩
  | sign hliteral _ ih =>
      cases hvalue with
      | sign hoperand =>
          rw [Expr.literals, Expr.literals_of_ne_literal hliteral]
          exact ih hoperand
  | @left _ left right _ _ _ _ ih =>
      cases hvalue with
      | binary _ hleft _ =>
          obtain ⟨before, type, after, hliterals, hmisfit⟩ := ih hleft
          refine ⟨before, type, after ++ right.literals false, ?_, hmisfit⟩
          rw [Expr.literals, hliterals, List.append_assoc, List.cons_append]
  | @right _ left right _ _ _ hfit _ ih =>
      cases hvalue with
      | binary _ hleft hright =>
          -- what comes before the misfit are all literals on the left and some on the right
          obtain ⟨before, type, after, hliterals, hbefore, hmisfit⟩ := ih hright
          refine ⟨left.literals false ++ before, type, after, ?_, ?_, hmisfit⟩
          · rw [Expr.literals, hliterals, List.append_assoc]
          · exact List.forall_mem_append.mpr ⟨hleft.literalsFit_iff.mp hfit, hbefore⟩

theorem Blames.exists_firstMisfit {failure : Failure} (h : Blames value width failure)
    (hvalue : value.IsFlexible flex) (hbare : value.erase.Bare) :
    ∃ found, value.FirstMisfit width found ∧
      failure = outOfRange found.value found.negated width := by
  obtain ⟨number, negated, hmisfits, rfl⟩ := h
  obtain ⟨before, type, after, hliterals, hbefore, hmisfit⟩ := hmisfits.exists_literals hvalue
  refine ⟨⟨number, negated, type⟩, ⟨before, after, hliterals, fun earlier hearlier => ?_, ?_⟩, rfl⟩
  · have hmem : earlier ∈ value.literals false := hliterals ▸ List.mem_append_left _ hearlier
    exact (Expr.literalFits_iff_of_mem hbare hmem).mp (hbefore earlier hearlier)
  · have hmem : (⟨number, negated, type⟩ : Literal) ∈ value.literals false :=
      hliterals ▸ List.mem_append_right _ List.mem_cons_self
    rw [← Expr.literalFits_iff_of_mem hbare hmem, hmisfit]
    decide

/-- What comes of a demand for integers of the width on the expression: it is met exactly if
all literals fit, and then the result is as `made` says; otherwise the leftmost misfit is
refused. -/
structure MeetsDemand (stage : CheckM Expr) (s : Checking) (value : Expr) (width : Nat)
    (made : Expr → Checking → Prop) : Prop where
  succeeds_iff : (∃ result final, stage s = .ok result final) ↔ value.FitsIn width
  made : ∀ result final, stage s = .ok result final → made result final
  refused : ∀ failure final, stage s = .error failure final →
    ∃ found, value.FirstMisfit width found ∧
      failure = .refused (.literalOutOfRange (literalText found.value found.negated)
        (Shape.int width).describe)

theorem meetsDemand_of_ends {stage : CheckM Expr} {made : Expr → Checking → Prop}
    (hvalue : value.IsFlexible flex) (hbare : value.erase.Bare)
    (h : Ends stage s (fun result final => value.literalsFit width = true ∧ made result final)
      fun failure _ => Blames value width failure) : MeetsDemand stage s value width made where
  succeeds_iff := by
    constructor
    · rintro ⟨result, final, hrun⟩
      exact (hvalue.literalsFit_iff_fitsIn hbare).mp (h.post_of_ok hrun).1
    · intro hfits
      cases hrun : stage s with
      | ok result final => exact ⟨result, final, rfl⟩
      | error failure final =>
          obtain ⟨found, hfound, -⟩ := (h.failed_of_error hrun).exists_firstMisfit hvalue hbare
          exact absurd hfits hfound.not_fitsIn
  made result final hrun := (h.post_of_ok hrun).2
  refused failure final hrun := (h.failed_of_error hrun).exists_firstMisfit hvalue hbare

/-- An integer is wanted. -/
theorem meetsDemand_int (hflex : s.types.get? flex = some .flexible)
    (hvalue : value.IsFlexible flex) (hbare : value.erase.Bare) (hs : s.Sound)
    (htarget : s.types.get? target = some (.int width)) :
    MeetsDemand (convert value target) s value width fun result final =>
      result = value.retype target ∧ (∀ node ∈ result.nodes, node.type? = some target) ∧
        final = s := by
  refine meetsDemand_of_ends hvalue hbare (Ends.weaken (retypes_convertWith htarget hflex hvalue
    (canRecheck_within _ hs.sound.toInterned hflex hvalue (Nat.lt_succ_self _) htarget)) ?_ ?_)
  · rintro _ final ⟨rfl, rfl, hfit⟩
    exact ⟨hfit, rfl, hvalue.type?_of_mem_nodes target, rfl⟩
  · exact fun _ _ h => h.1

/-- A truth value is wanted. -/
theorem meetsDemand_bool (hflex : s.types.get? flex = some .flexible)
    (hvalue : value.IsFlexible flex) (hbare : value.erase.Bare) (hs : s.Sound)
    (htarget : s.types.get? target = some .bool) :
    MeetsDemand (convert value target) s value 32 fun result final =>
      ∃ default, final.types.get? default = some (.int 32) ∧
        result = .conversion (value.retype default) (some target) ∧
        (∀ node ∈ (value.retype default).nodes, node.type? = some default) ∧
        s.types.internDefaultInt = (default, final.types) ∧ final.symbols = s.symbols := by
  refine meetsDemand_of_ends hvalue hbare (Ends.weaken (ends_convertWith_bool_flexible hs hflex
    hvalue (canRecheck_within _) htarget) ?_ fun _ _ h => h)
  rintro _ final ⟨hsymbols, default, hfound, hdefault, rfl, hfit⟩
  exact ⟨hfit, default, hdefault, rfl, hvalue.type?_of_mem_nodes default, hfound, hsymbols⟩

end Check

/-- **Demand propagation.**  In every state that the check of a parsed and resolved program
comes to, let a bare expression be checked and turn out flexible.  From then on, whatever
types are added, converting it to an integer type gives every node of it that type and leaves
the state alone; converting it to truth values wraps it, as a default integer, in one
conversion.  Both succeed exactly if all its literals fit, and else refuse the leftmost that
does not. -/
theorem meetsDemand_of_reached {tokens : List Token} {spelled body : Program}
    {symbols : SymbolTable} {start log : Array Event} (hparse : parse tokens = .ok spelled)
    (hresolve : Frontend.resolve spelled start = .ok (body, symbols) log) {s t : Checking}
    (hreached : Check.Reached body (Checking.initial symbols log) s) {source value : Expr}
    (hbare : source.Bare) (hrun : Check.expr source s = .ok value t)
    (hflexible : value.shape? t.types = some .flexible) :
    t.Sound ∧ ∀ u : Checking, u.Sound → t.types.Grows u.types → ∀ target,
      (∀ width, u.types.get? target = some (.int width) →
        Check.MeetsDemand (Check.convert value target) u value width fun result final =>
          result = value.retype target ∧ (∀ node ∈ result.nodes, node.type? = some target) ∧
            final = u) ∧
      (u.types.get? target = some .bool →
        Check.MeetsDemand (Check.convert value target) u value 32 fun result final =>
          ∃ default, final.types.get? default = some (.int 32) ∧
            result = .conversion (value.retype default) (some target) ∧
            (∀ node ∈ (value.retype default).nodes, node.type? = some default) ∧
            u.types.internDefaultInt = (default, final.types) ∧ final.symbols = u.symbols) := by
  have hs : s.Sound := sound_of_reached hparse hresolve hreached
  obtain ⟨hreaches, helaborates⟩ := (Check.infers_expr hbare hs).post_of_ok hrun
  obtain ⟨ty, ⟨flex, hflexId, hty, htree⟩⟩ := helaborates.exists_checked hreaches.sound
  obtain ⟨shape, hshape, hspells⟩ := hreaches.sound.sound.toInterned.exists_spells hty
  rw [Expr.shape?, hflexId, Option.bind_some, hshape] at hflexible
  cases hflexible
  cases hspells
  have hvalue := htree rfl
  rw [← helaborates.erase_eq] at hbare
  refine ⟨hreaches.sound, fun u hu hgrows target => ⟨fun width htarget => ?_, fun htarget => ?_⟩⟩
  · exact Check.meetsDemand_int (hgrows.get? hty) hvalue hbare hu htarget
  · exact Check.meetsDemand_bool (hgrows.get? hty) hvalue hbare hu htarget

/-- The sum of -128 and 128 is no integer of eight bits, because of its second literal, but it
can be tested. -/
theorem meetsDemand_of_reached_sum :
    ∃ tokens spelled body symbols log, ∃ s t final later : Checking,
      ∃ source value result : Expr, ∃ eight boolean : TypeId, ∃ failure,
      (tokenize "x : int(8) = 1 < 2;" = .ok tokens ∧ parse tokens = .ok spelled ∧
        Frontend.resolve spelled #[] = .ok (body, symbols) log ∧
        Check.Reached body (Checking.initial symbols log) s ∧
        source = .binary "+" (.unary "-" (.literal 128 none) none) (.literal 128 none) none ∧
        source.Bare ∧ Check.expr source s = .ok value t ∧
        value.shape? t.types = some .flexible ∧ t.types.get? eight = some (.int 8) ∧
        t.types.get? boolean = some .bool) ∧
      (Check.convert value eight t = .error failure final ∧
        ∃ found, value.FirstMisfit 8 found ∧
          failure = .refused (.literalOutOfRange
            (Check.literalText found.value found.negated) (Shape.int 8).describe)) ∧
      Check.convert value boolean t = .ok result later ∧
        ∃ default, later.types.get? default = some (.int 32) ∧
          result = .conversion (value.retype default) (some boolean) := by
  have hruns : ∃ tokens spelled symbols log first first' source value result eight boolean failure,
      ∃ s t final later : Checking,
      tokenize "x : int(8) = 1 < 2;" = .ok tokens ∧ parse tokens = .ok spelled ∧
        Frontend.resolve spelled #[] = .ok ([first], symbols) log ∧
        Check.stmt first (Checking.initial symbols log) = .ok first' s ∧
        source = .binary "+" (.unary "-" (.literal 128 none) none) (.literal 128 none) none ∧
        Check.expr source s = .ok value t ∧ value.shape? t.types = some .flexible ∧
        s.symbols.type? ⟨0⟩ = some eight ∧ t.types.get? eight = some (.int 8) ∧
        t.types.boolean = some boolean ∧ t.types.get? boolean = some .bool ∧
        Check.convert value eight t = .error failure final ∧
        Check.convert value boolean t = .ok result later :=
    ⟨_, _, _, _, _, _, _, _, _, _, _, _, _, _, _, _, by cbv, by cbv, by cbv, by cbv, rfl, by cbv,
      by cbv, by cbv, by cbv, by cbv, by cbv, by cbv, by cbv⟩
  obtain ⟨tokens, spelled, symbols, log, first, first', source, value, result, eight, boolean,
    failure, s, t, final, later, htokens, hparse, hresolve, hfirst, hsource, hvalue, hflexible, -,
    height, -, hboolean, hrefused, hconverted⟩ := hruns
  have hreached : Check.Reached [first] (Checking.initial symbols log) s := .ends .here hfirst
  have hbare : source.Bare := by
    rw [hsource]
    exact .binary (.unary (.literal (by decide))) (.literal (by decide))
  obtain ⟨hsound, hmeets⟩ :=
    meetsDemand_of_reached hparse hresolve hreached hbare hvalue hflexible
  refine ⟨tokens, spelled, [first], symbols, log, s, t, final, later, source, value, result, eight,
    boolean, failure, ⟨htokens, hparse, hresolve, hreached, hsource, hbare, hvalue, hflexible,
      height, hboolean⟩, ⟨hrefused, ?_⟩, hconverted, ?_⟩
  · exact ((hmeets t hsound (.refl _) eight).1 8 height).refused failure final hrefused
  · obtain ⟨default, hdefault, hresult, -⟩ :=
      ((hmeets t hsound (.refl _) boolean).2 hboolean).made result later hconverted
    exact ⟨default, hdefault, hresult⟩

end FlexWidth
