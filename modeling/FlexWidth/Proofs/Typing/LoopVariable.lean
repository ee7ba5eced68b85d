import FlexWidth.Proofs.Typing.Frame
import FlexWidth.Proofs.Typing.Promotion
import Mathlib

/-!
# The type of a loop variable

The bounds of a loop are joined from left to right, and its variable takes the type in which
they meet, or the default integer if that is no integer.  The join of two bounds is that of two
operands.  It is not associative: a truth value and a flexible bound meet in the default integer,
while either of them gives way to an integer beside it.  So the order of the bounds matters, but
in one case only, that both come before the first integer (`Shape.MixedFirst`), and then only as
long as all integers are narrower than the default one.

`Shape.loopWidth` is the width of the variable, and `Shape.exists_foldlM_join` says that joining
from left to right finds it.
-/

namespace FlexWidth

namespace Shape

/-- The greatest width of the integers among the shapes. -/
def widest? (shapes : List Shape) : Option Nat := (shapes.filterMap intWidth?).max?

/-- The shapes before the first integer. -/
def beforeInts (shapes : List Shape) : List Shape :=
  shapes.takeWhile fun shape => shape.intWidth?.isNone

/-- A truth value and a flexible shape come before the first integer. -/
def MixedFirst (shapes : List Shape) : Prop :=
  bool ∈ beforeInts shapes ∧ flexible ∈ beforeInts shapes

instance (shapes : List Shape) : Decidable (MixedFirst shapes) :=
  inferInstanceAs (Decidable (_ ∧ _))

/-- The width of the variable of a loop whose bounds have the given shapes. -/
def loopWidth (shapes : List Shape) : Nat :=
  let width := (widest? shapes).getD Ascription.defaultWidth
  if MixedFirst shapes then max Ascription.defaultWidth width else width

/-- The width that a loop variable takes from the shape in which its bounds meet. -/
def widthOrDefault (shape : Shape) : Nat := shape.intWidth?.getD Ascription.defaultWidth

/-! ## Joining from left to right -/

variable {shape : Shape} {shapes other : List Shape}

theorem widest?_int (width : Nat) (shapes : List Shape) :
    widest? (int width :: shapes) = some ((shapes.filterMap intWidth?).foldl max width) := by
  rw [widest?, List.filterMap_cons_some (f := intWidth?) rfl, List.max?_cons']

theorem widest?_cons_of_noWidth (h : shape.intWidth? = none) (shapes : List Shape) :
    widest? (shape :: shapes) = widest? shapes := by
  rw [widest?, List.filterMap_cons_none h, widest?]

theorem beforeInts_cons_of_noWidth (h : shape.intWidth? = none) (shapes : List Shape) :
    beforeInts (shape :: shapes) = shape :: beforeInts shapes :=
  List.takeWhile_cons_of_pos (by rw [h]; rfl)

theorem not_mixedFirst_int (width : Nat) (shapes : List Shape) :
    ¬ MixedFirst (int width :: shapes) := by
  rintro ⟨hbool, -⟩
  cases hbool

/-- Once there is an integer, the others can only widen it. -/
theorem foldlM_join_int (h : ∀ shape ∈ shapes, shape.struct? = none) (width : Nat) :
    shapes.foldlM join (int width) = some (int ((shapes.filterMap intWidth?).foldl max width)) := by
  induction shapes generalizing width with
  | nil => rfl
  | cons first rest ih =>
      obtain ⟨hfirst, hrest⟩ := List.forall_mem_cons.mp h
      rw [List.foldlM_cons]
      cases first with
      | int width' => exact ih hrest (max width width')
      | bool => exact ih hrest width
      | flexible => exact ih hrest width
      | struct => cases hfirst

theorem foldl_max_defaultWidth (shapes : List Shape) :
    (shapes.filterMap intWidth?).foldl max Ascription.defaultWidth =
      max Ascription.defaultWidth ((widest? shapes).getD Ascription.defaultWidth) :=
  List.foldl_max

/-- A shape that is met twice in a row counts once. -/
theorem loopWidth_cons_self (h : shape.intWidth? = none) (shapes : List Shape) :
    loopWidth (shape :: shape :: shapes) = loopWidth (shape :: shapes) := by
  simp only [loopWidth, MixedFirst, widest?_cons_of_noWidth h, beforeInts_cons_of_noWidth h,
    List.mem_cons, or_self_left]

theorem loopWidth_noWidth_int (h : shape.intWidth? = none) (width : Nat) (shapes : List Shape) :
    loopWidth (shape :: int width :: shapes) = (shapes.filterMap intWidth?).foldl max width := by
  have hmixed : ¬ MixedFirst (shape :: int width :: shapes) := by
    have hbefore : beforeInts (int width :: shapes) = [] := rfl
    rw [MixedFirst, beforeInts_cons_of_noWidth h, hbefore, List.mem_singleton, List.mem_singleton]
    rintro ⟨rfl, hflexible⟩
    cases hflexible
  rw [loopWidth, if_neg hmixed, widest?_cons_of_noWidth h, widest?_int, Option.getD_some]

theorem loopWidth_of_mixed (h : MixedFirst shapes) :
    loopWidth shapes = (shapes.filterMap intWidth?).foldl max Ascription.defaultWidth := by
  rw [loopWidth, if_pos h, foldl_max_defaultWidth]

/-- What is no integer and no struct gives way to an integer, stays beside itself, and meets
anything else in the default integer. -/
theorem join_of_noWidth {next : Shape} (hshape : shape.struct? = none)
    (hwidth : shape.intWidth? = none) (hnext : next.struct? = none) :
    (∃ width, next = int width ∧ shape.join next = some next) ∨
      next.intWidth? = none ∧ (next = shape ∧ shape.join next = some shape ∨
        (∀ rest, MixedFirst (shape :: next :: rest)) ∧
          shape.join next = some (int Ascription.defaultWidth)) := by
  cases next with
  | struct => cases hnext
  | int width =>
      refine Or.inl ⟨width, rfl, ?_⟩
      cases shape with
      | int => cases hwidth
      | struct => cases hshape
      | bool => rfl
      | flexible => rfl
  | bool =>
      refine Or.inr ⟨rfl, ?_⟩
      cases shape with
      | int => cases hwidth
      | struct => cases hshape
      | bool => exact Or.inl ⟨rfl, rfl⟩
      | flexible =>
          exact Or.inr ⟨fun rest => ⟨List.mem_cons_of_mem _ List.mem_cons_self,
            List.mem_cons_self⟩, rfl⟩
  | flexible =>
      refine Or.inr ⟨rfl, ?_⟩
      cases shape with
      | int => cases hwidth
      | struct => cases hshape
      | flexible => exact Or.inl ⟨rfl, rfl⟩
      | bool =>
          exact Or.inr ⟨fun rest => ⟨List.mem_cons_self,
            List.mem_cons_of_mem _ List.mem_cons_self⟩, rfl⟩

/-- Shapes that are no structs meet from left to right, in an integer of the width that
`loopWidth` gives or in a shape that stands for the default one. -/
theorem exists_foldlM_join (hshape : shape.struct? = none)
    (hshapes : ∀ other ∈ shapes, other.struct? = none) :
    ∃ joined, shapes.foldlM join shape = some joined ∧ joined.struct? = none ∧
      joined.widthOrDefault = loopWidth (shape :: shapes) := by
  cases hwidth : shape.intWidth? with
  | some width =>
      obtain rfl : shape = int width := by
        cases shape <;> cases hwidth
        rfl
      refine ⟨_, foldlM_join_int hshapes width, rfl, ?_⟩
      rw [loopWidth, if_neg (not_mixedFirst_int _ _), widest?_int]
      rfl
  | none =>
      -- the shape stays until an integer or a different shape is met
      induction shapes with
      | nil =>
          refine ⟨shape, rfl, hshape, ?_⟩
          cases shape <;> rfl
      | cons next rest ih =>
          obtain ⟨hnext, hrest⟩ := List.forall_mem_cons.mp hshapes
          rw [List.foldlM_cons]
          rcases join_of_noWidth hshape hwidth hnext with
            ⟨width, rfl, hjoin⟩ | ⟨hnone, ⟨rfl, hjoin⟩ | ⟨hmixed, hjoin⟩⟩
          · refine ⟨_, by rw [hjoin]; exact foldlM_join_int hrest width, rfl, ?_⟩
            rw [loopWidth_noWidth_int hwidth]
            rfl
          · rw [loopWidth_cons_self hwidth, hjoin]
            exact ih hrest
          · refine ⟨_, by rw [hjoin]; exact foldlM_join_int hrest _, rfl, ?_⟩
            rw [loopWidth_of_mixed (hmixed rest), List.filterMap_cons_none hwidth,
              List.filterMap_cons_none hnone]
            rfl

/-- Shapes that are no structs meet in one that is none. -/
theorem exists_join {left right : Shape} (hleft : left.struct? = none)
    (hright : right.struct? = none) :
    ∃ joined, left.join right = some joined ∧ joined.struct? = none := by
  cases left with
  | struct => cases hleft
  | _ =>
      cases right with
      | struct => cases hright
      | _ => exact ⟨_, rfl, rfl⟩

/-- The greatest width does not depend on the order. -/
theorem widest?_perm (h : other.Perm shapes) : widest? other = widest? shapes := by
  have hwidths := h.filterMap intWidth?
  refine Option.ext fun width => ?_
  simp only [widest?, List.max?_eq_some_iff, hwidths.mem_iff]

end Shape

/-! ## Checking the bounds -/

namespace Check

variable {s t : Checking} {current bound : TypeId} {shape next : Shape} {checked : List Expr}
  {type : TypeId}

theorem checks_joinBound_shape (hs : s.Sound) (hcurrent : s.types.shape? current = some shape)
    (hshape : shape.struct? = none) (hbound : s.types.shape? bound = some next)
    (hnext : next.struct? = none) :
    Checks (joinBound current bound) s fun joined final =>
      final.types.shape? joined = shape.join next := by
  obtain ⟨currentTy, hcurrentTy, hcurrentSpells⟩ := hs.sound.toInterned.denotes_iff.mp hcurrent
  obtain ⟨boundTy, hboundTy, hboundSpells⟩ := hs.sound.toInterned.denotes_iff.mp hbound
  have hcurrentStruct := hcurrentSpells.ty_struct?_eq_none hshape
  have hboundStruct := hboundSpells.ty_struct?_eq_none hnext
  refine (checks_joinBound_join hs hcurrentTy hcurrentStruct hboundTy hboundStruct).weaken ?_
  intro joined final hreaches hjoined
  obtain ⟨meeting, hmeeting, hspells⟩ :=
    hcurrentSpells.exists_join hboundSpells hcurrentStruct hboundStruct
  rw [hmeeting]
  exact hreaches.sound.sound.toInterned.shape?_eq hjoined
    (hspells.imp fun _ _ _ _ _ hdenotes => hdenotes.grow hreaches.grows)

/-- The shapes of checked expressions, none of which is a struct. -/
structure HaveScalarShapes (types : Universe) (values : List Expr) (shapes : List Shape) :
    Prop where
  shape? : List.Forall₂ (fun value shape => value.shape? types = some shape) values shapes
  scalar : ∀ shape ∈ shapes, shape.struct? = none

theorem HaveScalarShapes.grow {types later : Universe} {values : List Expr} {shapes : List Shape}
    (h : HaveScalarShapes types values shapes) (hgrows : types.Grows later) :
    HaveScalarShapes later values shapes := by
  refine ⟨h.shape?.imp fun value shape hshape => ?_, h.scalar⟩
  obtain ⟨id, hid, hdenotes⟩ := Option.bind_eq_some_iff.mp hshape
  rw [Expr.shape?, hid, Option.bind_some]
  exact hgrows.shapeWithin hdenotes

/-- Bounds are joined from left to right. -/
theorem checks_joinBounds_foldlM (hs : s.Sound)
    (hchecked : ∀ value ∈ checked, ∃ ty, s.types.HasTy value ty)
    (hcurrent : s.types.shape? current = some shape) (hshape : shape.struct? = none) :
    Checks (joinBounds (some current) checked) s fun joined final => ∃ id shapes,
      joined = some id ∧ HaveScalarShapes final.types checked shapes ∧
        final.types.shape? id = shapes.foldlM Shape.join shape := by
  induction checked generalizing s current shape with
  | nil => exact checks_pure hs ⟨current, [], rfl, ⟨.nil, by simp⟩, hcurrent⟩
  | cons first rest ih =>
      obtain ⟨⟨ty, id, hid, hty⟩, hrest⟩ := List.forall_mem_cons.mp hchecked
      obtain ⟨next, hnext, hspells⟩ := hs.sound.toInterned.exists_spells hty
      rw [joinBounds]
      refine .of_bind (run_typeOf hid) ((checks_refuseStruct hs hty).bind ?_)
      rintro _ _ - ⟨rfl, hstruct⟩
      have hscalar := hspells.struct?_eq_none hstruct
      refine (checks_joinBound_shape hs hcurrent hshape hnext hscalar).bind ?_
      intro joined middle hreaches hjoined
      obtain ⟨meeting, hmeeting, hmeetingScalar⟩ := Shape.exists_join hshape hscalar
      rw [hmeeting] at hjoined
      refine (ih hreaches.sound (fun value hvalue => ?_) hjoined hmeetingScalar).weaken ?_
      · obtain ⟨ty', hty'⟩ := hrest value hvalue
        exact ⟨ty', hty'.grow hreaches.grows⟩
      · rintro _ final hreaches' ⟨id', shapes, rfl, hshapes, hfold⟩
        have hfirst : first.shape? final.types = some next := by
          rw [Expr.shape?, hid, Option.bind_some]
          exact (hreaches.trans hreaches').grows.shapeWithin hnext
        refine ⟨id', next :: shapes, rfl, ⟨.cons hfirst hshapes.shape?, ?_⟩, ?_⟩
        · exact List.forall_mem_cons.mpr ⟨hscalar, hshapes.scalar⟩
        · rw [List.foldlM_cons, hmeeting]
          exact hfold

theorem checks_defaultedLoop (hs : s.Sound) (name : String) :
    Checks (do note (.defaultedLoop name); intern Universe.internDefaultInt) s fun id final =>
      final.types.get? id = some (.int Ascription.defaultWidth) := by
  refine (checks_note hs _).bind fun _ middle hreaches _ => ?_
  exact checks_internDefaultInt hreaches.sound

/-- The variable of a loop is an integer of the width that the shapes of the bounds give. -/
theorem checks_loopType_width (hs : s.Sound)
    (hchecked : ∀ value ∈ checked, ∃ ty, s.types.HasTy value ty) (name : String) :
    Checks (loopType name checked) s fun id final => ∃ shapes,
      HaveScalarShapes final.types checked shapes ∧
        final.types.get? id = some (.int (Shape.loopWidth shapes)) := by
  rw [loopType]
  cases checked with
  | nil =>
      refine .of_bind (run_pure _ _) ((checks_defaultedLoop hs name).weaken ?_)
      exact fun id final _ hid => ⟨[], ⟨.nil, by simp⟩, hid⟩
  | cons first rest =>
      obtain ⟨⟨ty, id, hid, hty⟩, hrest⟩ := List.forall_mem_cons.mp hchecked
      obtain ⟨shape, hshape, hspells⟩ := hs.sound.toInterned.exists_spells hty
      -- the first bound is what the others are joined to
      have hjoin : Checks (joinBounds none (first :: rest)) s fun joined final =>
          ∃ id shapes meeting, joined = some id ∧
            HaveScalarShapes final.types (first :: rest) shapes ∧
              final.types.shape? id = some meeting ∧ meeting.struct? = none ∧
                meeting.widthOrDefault = Shape.loopWidth shapes := by
        rw [joinBounds]
        refine .of_bind (run_typeOf hid) ((checks_refuseStruct hs hty).bind ?_)
        rintro _ _ - ⟨rfl, hstruct⟩
        have hscalar := hspells.struct?_eq_none hstruct
        refine (checks_joinBounds_foldlM hs hrest hshape hscalar).weaken ?_
        rintro _ final hreaches ⟨id', shapes, rfl, hshapes, hfold⟩
        obtain ⟨meeting, hmeeting, hresult⟩ := Shape.exists_foldlM_join hscalar hshapes.scalar
        have hfirst : first.shape? final.types = some shape := by
          rw [Expr.shape?, hid, Option.bind_some]
          exact hreaches.grows.shapeWithin hshape
        exact ⟨id', shape :: shapes, meeting, rfl,
          ⟨.cons hfirst hshapes.shape?, List.forall_mem_cons.mpr ⟨hscalar, hshapes.scalar⟩⟩,
          hfold.trans hmeeting, hresult⟩
      refine hjoin.bind ?_
      rintro _ middle hreaches ⟨id', shapes, meeting, rfl, hshapes, hmeeting, hscalar, hwidth⟩
      obtain ⟨ty', hty', hspells'⟩ := hreaches.sound.sound.toInterned.denotes_iff.mp hmeeting
      have hdefault (h : meeting.widthOrDefault = Ascription.defaultWidth) :
          Checks (do note (.defaultedLoop name); intern Universe.internDefaultInt) middle
            fun id final => ∃ shapes, HaveScalarShapes final.types (first :: rest) shapes ∧
              final.types.get? id = some (.int (Shape.loopWidth shapes)) := by
        refine (checks_defaultedLoop hreaches.sound name).weaken fun id final hlater hid => ?_
        rw [← h, hwidth] at hid
        exact ⟨shapes, hshapes.grow hlater.grows, hid⟩
      refine .of_bind (run_typeAt hty') ?_
      cases hspells' with
      | flexible => exact hdefault rfl
      | bool => exact hdefault rfl
      | int width => exact checks_pure hreaches.sound ⟨shapes, hshapes, hwidth ▸ hty'⟩
      | struct => cases hscalar

/-- The shapes of checked bounds are the synthesized ones. -/
theorem map_synth_eq_of_forall₂ {types : Universe} {symbols : SymbolTable} {bounds : List Expr}
    {shapes : List Shape} (hinterned : types.Interned)
    (h : List.Forall₂ (Elaborates types symbols) bounds checked)
    (hshapes : List.Forall₂ (fun value shape => value.shape? types = some shape) checked shapes) :
    bounds.map (·.synth (symbols.shape? types)) = shapes.map some := by
  induction h generalizing shapes with
  | nil =>
      cases hshapes
      rfl
  | cons hfirst _ ih =>
      cases hshapes with
      | cons hshape hrest =>
          rw [List.map_cons, List.map_cons, hfirst.synth_eq hinterned, hshape, ih hrest]

/-- A symbol that has just received a type has it. -/
theorem type?_of_run_setSymbolType {symbol : SymbolId} {final : Checking}
    (hrun : setSymbolType symbol type s = .ok true final) :
    final.symbols.type? symbol = some type ∧ final.types = s.types := by
  have hfresh : s.symbols.type? symbol = none := by
    cases htype : s.symbols.type? symbol with
    | none => rfl
    | some old =>
        rw [run_setSymbolType_typed htype type] at hrun
        cases hrun
  have hlt : symbol.index < s.symbols.size := by
    by_contra hge
    have hnone : s.symbols.get? symbol = none := Array.getElem?_eq_none (Nat.le_of_not_lt hge)
    rw [setSymbolType, run_bind_ok (run_get s)] at hrun
    simp [SymbolTable.setType?, hnone] at hrun
  obtain ⟨later, hset, -, -, htypes⟩ := SymbolTable.exists_setType?_of_fresh hlt hfresh type
  rw [setSymbolType, run_bind_ok (run_get s), hset] at hrun
  cases hrun
  exact ⟨(htypes symbol).trans (if_pos rfl), rfl⟩

/-- Checking the bounds of a loop gives its variable their type. -/
theorem shape?_of_run_loopBounds {name : String} {symbol : SymbolId} {bounds results : List Expr}
    {final : Checking} (hbare : ∀ bound ∈ bounds, bound.Bare) (hs : s.Sound)
    (hrun : loopBounds name symbol bounds s = .ok results final) :
    ∃ shapes : List Shape, (∀ shape ∈ shapes, shape.struct? = none) ∧
      bounds.map (·.synth (s.symbols.shape? s.types)) = shapes.map some ∧
      final.symbols.shape? final.types symbol = some (.int (Shape.loopWidth shapes)) := by
  rw [loopBounds] at hrun
  obtain ⟨checked, middle, hexprs, hrun⟩ := bind_eq_ok_iff.mp hrun
  obtain ⟨type, later, htype, hrun⟩ := bind_eq_ok_iff.mp hrun
  obtain ⟨done, last, hset, hrun⟩ := bind_eq_ok_iff.mp hrun
  obtain ⟨hreaches, hchecked⟩ := (checksOr_bareExprs hbare hs).post_of_ok hexprs
  have htyped : ∀ value ∈ checked, ∃ ty, middle.types.HasTy value ty := by
    refine forall_of_forall₂ hchecked fun source value helaborates => ?_
    obtain ⟨id, ty, hid, hty, -⟩ := helaborates.exists_type hreaches.sound
    exact ⟨ty, id, hid, hty⟩
  obtain ⟨hreaches', shapes, hshapes, hwidth⟩ :=
    (checks_loopType_width hreaches.sound htyped name).post_of_ok htype
  have hpath := hreaches.trans hreaches'
  have hinterned := hpath.sound.sound.toInterned
  refine ⟨shapes, hshapes.scalar, ?_, ?_⟩
  · rw [← hpath.shape?_eq hs]
    exact map_synth_eq_of_forall₂ hinterned (hchecked.imp fun _ _ h => h.reach hreaches')
      hshapes.shape?
  · cases done with
    | false => cases hrun
    | true =>
        obtain ⟨hsymbol, htypes⟩ := type?_of_run_setSymbolType hset
        have hadvances : last.Advances final :=
          (keeps_convertAll (invariant_advances last) type (fun value _ => allows_true value) last
            (.refl last)).post_of_ok hrun
        have hget := hinterned.shape?_eq hwidth (.int _)
        rw [SymbolTable.shape?, hadvances.keeps hsymbol, Option.bind_some]
        rw [← htypes] at hget
        exact hadvances.grows.shapeWithin hget

end Check

/-- **The order of the bounds matters in one case.**  Where the check of a program that has been
parsed, from whatever tokens, and resolved accepts a `for` statement, every bound has a
synthesized type that is no struct, and the loop variable is an integer of the width that these
types give: the greatest width among the integers, or the default width if there is none, but at
least the default width if a truth value and a flexible bound come before the first integer.
Orders in which they do not all give the greatest width. -/
theorem loopVariable_of_arrives {tokens : List Token} {spelled body : Program}
    {symbols : SymbolTable} {start log : Array Event} (hparse : parse tokens = .ok spelled)
    (hresolve : Frontend.resolve spelled start = .ok (body, symbols) log) {name : String}
    {symbol : SymbolId} {bounds : List Expr} {inner : List Stmt} {st : Stmt} {t final : Checking}
    (harrives : Check.Arrives body (Checking.initial symbols log)
      (.forLoop name (some symbol) bounds inner) t)
    (hrun : Check.stmt (.forLoop name (some symbol) bounds inner) t = .ok st final) :
    ∃ shapes : List Shape, (∀ shape ∈ shapes, shape.struct? = none) ∧
      bounds.map (·.synth (t.symbols.shape? t.types)) = shapes.map some ∧
      final.symbols.shape? final.types symbol = some (.int (Shape.loopWidth shapes)) ∧
      ∀ other, other.Perm shapes → ¬ Shape.MixedFirst other →
        Shape.loopWidth other = (Shape.widest? shapes).getD Ascription.defaultWidth := by
  obtain ⟨hbare, hsound⟩ := bare_and_sound_of_resolve hparse hresolve
  obtain ⟨ht, hroots⟩ := harrives.sound hbare hsound
  rw [Stmt.roots] at hroots
  rw [Check.stmt] at hrun
  obtain ⟨_, _, hsymbol, hrun⟩ := bind_eq_ok_iff.mp hrun
  cases hsymbol
  obtain ⟨results, middle, hbounds, hrun⟩ := bind_eq_ok_iff.mp hrun
  obtain ⟨inner', last, hinner, hrun⟩ := bind_eq_ok_iff.mp hrun
  cases hrun
  obtain ⟨shapes, hscalar, hsynth, hshape⟩ := Check.shape?_of_run_loopBounds
    (fun bound hbound => (List.forall_mem_append.mp hroots).1 bound hbound) ht hbounds
  refine ⟨shapes, hscalar, hsynth, ?_, fun other hperm hmixed => ?_⟩
  · obtain ⟨type, htype, hget⟩ := Option.bind_eq_some_iff.mp hshape
    have hadvances : middle.Advances final :=
      (Check.keeps_stmts (Check.invariant_advances middle) inner
        (fun value _ => Check.allows_true value) middle
        (.refl middle)).post_of_ok hinner
    rw [SymbolTable.shape?, hadvances.keeps htype, Option.bind_some]
    exact hadvances.grows.shapeWithin hget
  · rw [Shape.loopWidth, if_neg hmixed, Shape.widest?_perm hperm]

/-- A literal, a comparison and a narrow variable as bounds. -/
theorem loopVariable_of_arrives_mixed :
    ∃ tokens spelled body symbols log bounds st, ∃ t final : Checking,
      (tokenize "x : int(8) = 0; for (i in 1 : 1 < 2 : x) \x7b \x7d" = .ok tokens ∧
        parse tokens = .ok spelled ∧ Frontend.resolve spelled #[] = .ok (body, symbols) log ∧
        Check.Arrives body (Checking.initial symbols log) (.forLoop "i" (some ⟨1⟩) bounds []) t ∧
        Check.stmt (.forLoop "i" (some ⟨1⟩) bounds []) t = .ok st final) ∧
      bounds.map (·.synth (t.symbols.shape? t.types)) =
        [some .flexible, some .bool, some (.int 8)] ∧
      final.symbols.shape? final.types ⟨1⟩ = some (.int 32) := by
  have hruns : ∃ tokens spelled symbols log first first' bounds st, ∃ t final : Checking,
      tokenize "x : int(8) = 0; for (i in 1 : 1 < 2 : x) \x7b \x7d" = .ok tokens ∧
        parse tokens = .ok spelled ∧
        Frontend.resolve spelled #[] =
          .ok ([first, .forLoop "i" (some ⟨1⟩) bounds []], symbols) log ∧
        Check.stmt first (Checking.initial symbols log) = .ok first' t ∧
        Check.stmt (.forLoop "i" (some ⟨1⟩) bounds []) t = .ok st final ∧
        bounds.map (·.synth (t.symbols.shape? t.types)) =
          [some .flexible, some .bool, some (.int 8)] :=
    ⟨_, _, _, _, _, _, _, _, _, _, by cbv, by cbv, by cbv, by cbv, by cbv, by cbv⟩
  obtain ⟨tokens, spelled, symbols, log, first, first', bounds, st, t, final, htokens, hparse,
    hresolve, hfirst, hrun, hsynth⟩ := hruns
  have harrives : Check.Arrives [first, .forLoop "i" (some ⟨1⟩) bounds []]
      (Checking.initial symbols log) (.forLoop "i" (some ⟨1⟩) bounds []) t := .later hfirst .here
  obtain ⟨shapes, -, hshapes, hshape, -⟩ := loopVariable_of_arrives hparse hresolve harrives hrun
  have hmap : shapes.map some = [Shape.flexible, .bool, .int 8].map some := by
    rw [← hshapes, hsynth]
    rfl
  rw [List.map_injective_iff.mpr (Option.some_injective _) hmap] at hshape
  exact ⟨tokens, spelled, _, symbols, log, bounds, st, t, final,
    ⟨htokens, hparse, hresolve, harrives, hrun⟩, hsynth, hshape⟩

/-- The same bounds in two orders give the loop variable two types. -/
theorem loopVariable_order :
    ∃ program reordered,
      checkSource "x : int(8) = 0; for (i in 1 : 1 < 2 : x) \x7b \x7d" = .ok program ∧
      program.symbols.shape? program.types ⟨1⟩ = some (.int 32) ∧
      checkSource "x : int(8) = 0; for (i in x : 1 : 1 < 2) \x7b \x7d" = .ok reordered ∧
      reordered.symbols.shape? reordered.types ⟨1⟩ = some (.int 8) :=
  ⟨_, _, by cbv, by cbv, by cbv, by cbv⟩

end FlexWidth
