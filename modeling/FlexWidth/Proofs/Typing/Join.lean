import FlexWidth.Proofs.Typing.StmtCheck
import Mathlib

/-!
# Promotion is a join

What two handles have in common does not depend on their order (`Universe.Meets.symm`) and is
told by their types (`Universe.Meets.tells`).  On types that are not flexible it is a partial
join: `Ty.common?` is idempotent and associative, with "nothing in common" on top.

A join comes with an order: a type is below another one if the other is what both have in
common.  Conversion of values is written down elsewhere.  It goes up this order
(`Ty.common?_eq_right_iff`), and nowhere else except that an integer may become a truth value
(`Check.ends_convertWith_concrete`).
-/

namespace FlexWidth

/-! ## Types -/

namespace Ty

/-- The type that two types have in common, if there is one. -/
def common? : Ty → Ty → Option Ty
  | int width, int width' => some (int (max width width'))
  | int width, bool | int width, flexible | bool, int width | flexible, int width =>
    some (int width)
  | bool, bool => some bool
  | struct written, struct written' =>
    if written = written' then some (struct written) else none
  | _, _ => none

theorem common?_self {ty : Ty} (h : ty ≠ flexible) : ty.common? ty = some ty := by
  cases ty with
  | flexible => exact absurd rfl h
  | int width => simp [common?]
  | bool => rfl
  | struct written => simp [common?]

/-- Concrete types can be joined in any order. -/
theorem common?_assoc {left right third : Ty} (hleft : left ≠ flexible) (hright : right ≠ flexible)
    (hthird : third ≠ flexible) :
    (left.common? right).bind (·.common? third) = (right.common? third).bind left.common? := by
  cases left <;> cases right <;> cases third <;>
    simp only [common?, Option.bind_some, Option.bind_none, Nat.max_assoc, ne_eq, not_true] at *
  case struct.struct.struct first second third =>
    by_cases hlater : second = third
    · by_cases hearlier : first = third <;> simp [hlater, hearlier, common?]
    · by_cases hearlier : first = second <;> simp [hlater, hearlier, common?]
  -- two structs, equal or not, beside something else
  all_goals split <;> rfl

/-- A concrete type is below another one exactly if its values are widened to it, or if it is
the same. -/
theorem common?_eq_right_iff {left right : Ty} (hleft : left ≠ flexible)
    (hright : right ≠ flexible) :
    left.common? right = some right ↔ left = right ∨ Check.widens left right = true := by
  cases left <;> cases right <;> simp [common?, Check.widens] at *
  exact Nat.le_iff_lt_or_eq.trans or_comm

theorem ne_flexible_of_common? {left right ty : Ty} (h : left.common? right = some ty) :
    ty ≠ flexible := by
  rintro rfl
  cases left <;> cases right <;> simp [common?] at h

/-- Neither type fixes a width, and one of them leaves it open. -/
structure Open (left right : Ty) : Prop where
  noWidth : left.intWidth? = none ∧ right.intWidth? = none
  noStruct : left.struct? = none ∧ right.struct? = none
  someFlexible : left = flexible ∨ right = flexible

/-- The types differ, and one of them is a struct. -/
structure Clash (left right : Ty) : Prop where
  someStruct : left.struct?.isSome ∨ right.struct?.isSome
  ne : left ≠ right

theorem Open.common?_eq_none {left right : Ty} (h : left.Open right) :
    left.common? right = none := by
  obtain ⟨⟨hlwidth, hrwidth⟩, ⟨hlstruct, hrstruct⟩, hflexible⟩ := h
  cases left <;> cases right <;> simp_all [common?, struct?, intWidth?]

theorem Clash.common?_eq_none {left right : Ty} (h : left.Clash right) :
    left.common? right = none := by
  obtain ⟨hstruct, hne⟩ := h
  cases left <;> cases right <;> simp_all [common?, struct?]

theorem Clash.not_open {left right : Ty} (h : left.Clash right) : ¬ left.Open right := by
  intro hopen
  rcases h.someStruct with hstruct | hstruct
  · simp [hopen.noStruct.1] at hstruct
  · simp [hopen.noStruct.2] at hstruct

/-- The wider integer is what two types have in common that are not structs. -/
theorem common?_of_merge {left right : Ty} {width : Nat} (hleft : left.struct? = none)
    (hright : right.struct? = none)
    (h : Option.merge max left.intWidth? right.intWidth? = some width) :
    left.common? right = some (int width) := by
  cases left <;> cases right <;> simp_all [common?, struct?, intWidth?]

end Ty

/-! ## Handles -/

namespace Universe

variable {types : Universe} {left right third id : TypeId} {l r m : Ty} {promotion : Promotion}

/-- How a promotion tells what two types have in common. -/
inductive Tells (types : Universe) (l r : Ty) : Promotion → Prop where
  | resolved {id : TypeId} {ty : Ty} : l.common? r = some ty → types.get? id = some ty →
      Tells types l r (.resolved id)
  | stillFlexible : l.Open r → Tells types l r .stillFlexible
  | incompatible : l.Clash r → Tells types l r .incompatible

theorem Meets.tells (hmeets : types.Meets left right promotion) (h : types.Interned)
    (hl : types.get? left = some l) (hr : types.get? right = some r) :
    types.Tells l r promotion := by
  cases hmeets with
  | equal hty hne =>
      cases hl.symm.trans hty
      cases hr.symm.trans hty
      exact .resolved (Ty.common?_self hne) hty
  | flexible hty =>
      cases hl.symm.trans hty
      cases hr.symm.trans hty
      exact .stillFlexible ⟨⟨rfl, rfl⟩, ⟨rfl, rfl⟩, Or.inl rfl⟩
  | struct hl' hr' hne hstruct =>
      cases hl.symm.trans hl'
      cases hr.symm.trans hr'
      exact .incompatible ⟨hstruct, h.ne_of_get? hl hr hne⟩
  | int hl' hr' hne hlstruct hrstruct hmerge hid =>
      cases hl.symm.trans hl'
      cases hr.symm.trans hr'
      exact .resolved (Ty.common?_of_merge hlstruct hrstruct hmerge) hid
  | neither hl' hr' hne hlstruct hrstruct hlwidth hrwidth =>
      cases hl.symm.trans hl'
      cases hr.symm.trans hr'
      -- two truth values would have one handle
      have hflexible : l = .flexible ∨ r = .flexible := by
        have hdiffer := h.ne_of_get? hl hr hne
        cases l <;> cases r <;> simp_all [Ty.struct?, Ty.intWidth?]
      exact .stillFlexible ⟨⟨hlwidth, hrwidth⟩, ⟨hlstruct, hrstruct⟩, hflexible⟩

theorem Tells.eq_stillFlexible_iff (h : types.Tells l r promotion) :
    promotion = .stillFlexible ↔ l.Open r := by
  cases h with
  | resolved hcommon _ =>
      refine ⟨fun heq => (by cases heq), fun hopen => ?_⟩
      cases hopen.common?_eq_none.symm.trans hcommon
  | stillFlexible hopen => exact ⟨fun _ => hopen, fun _ => rfl⟩
  | incompatible hclash =>
      exact ⟨fun heq => (by cases heq), fun hopen => absurd hopen hclash.not_open⟩

theorem Tells.eq_incompatible_iff (h : types.Tells l r promotion) :
    promotion = .incompatible ↔ l.Clash r := by
  cases h with
  | resolved hcommon _ =>
      refine ⟨fun heq => (by cases heq), fun hclash => ?_⟩
      cases hclash.common?_eq_none.symm.trans hcommon
  | stillFlexible hopen =>
      exact ⟨fun heq => (by cases heq), fun hclash => absurd hopen hclash.not_open⟩
  | incompatible hclash => exact ⟨fun _ => hclash, fun _ => rfl⟩

theorem Tells.eq_resolved_iff (htells : types.Tells l r promotion) (h : types.Interned) :
    promotion = .resolved id ↔ ∃ ty, l.common? r = some ty ∧ types.get? id = some ty := by
  constructor
  · rintro rfl
    cases htells with
    | resolved hcommon hid => exact ⟨_, hcommon, hid⟩
  · rintro ⟨ty, hcommon, hid⟩
    cases htells with
    | resolved hcommon' hid' =>
        cases hcommon.symm.trans hcommon'
        rw [h.eq_of_get? hid hid']
    | stillFlexible hopen => cases hopen.common?_eq_none.symm.trans hcommon
    | incompatible hclash => cases hclash.common?_eq_none.symm.trans hcommon

/-- The search for a common type finds what the handles meet in. -/
theorem Interned.common?_of_meets (h : types.Interned) (hmeets : types.Meets left right promotion) :
    types.common? left right = some (promotion, types) := by
  cases hmeets with
  | equal hty hne => simp [common?, hty, hne]
  | flexible hty => simp [common?, hty]
  | struct hl hr hne hstruct => simp [common?, hl, hr, hne, hstruct]
  | int hl hr hne hlstruct hrstruct hmerge hid =>
      have hfind := h.find?_eq_some_iff.mpr hid
      simp [common?, hl, hr, hne, hlstruct, hrstruct, hmerge, internInt_eq_intern, Universe.intern,
        hfind]
  | neither hl hr hne hlstruct hrstruct hlwidth hrwidth =>
      simp [common?, hl, hr, hne, hlstruct, hrstruct, hlwidth, hrwidth]

theorem Meets.symm (h : types.Meets left right promotion) : types.Meets right left promotion := by
  cases h with
  | equal hty hne => exact .equal hty hne
  | flexible hty => exact .flexible hty
  | struct hl hr hne hstruct => exact .struct hr hl hne.symm hstruct.symm
  | int hl hr hne hlstruct hrstruct hmerge hid =>
      refine .int hr hl hne.symm hrstruct hlstruct ?_ hid
      rw [← hmerge]
      exact Std.Commutative.comm _ _
  | neither hl hr hne hlstruct hrstruct hlwidth hrwidth =>
      exact .neither hr hl hne.symm hrstruct hlstruct hrwidth hlwidth

/-! ## Joining promotions -/

/-- A promotion among concrete types stands for the type that they have in common, if there is
one. -/
inductive Shows (types : Universe) : Promotion → Option Ty → Prop where
  | resolved {id : TypeId} {ty : Ty} : types.get? id = some ty → ty ≠ .flexible →
      Shows types (.resolved id) (some ty)
  | incompatible : Shows types .incompatible none

/-- What two promotions have in common.  Nothing has anything in common with incompatible
types. -/
def joined? (types : Universe) : Promotion → Promotion → Option (Promotion × Universe)
  | .incompatible, _ | _, .incompatible => some (.incompatible, types)
  | .resolved left, .resolved right => types.common? left right
  | _, _ => some (.stillFlexible, types)

theorem Tells.shows (h : types.Tells l r promotion) (hl : l ≠ .flexible) (hr : r ≠ .flexible) :
    types.Shows promotion (l.common? r) := by
  cases h with
  | resolved hcommon hid =>
      rw [hcommon]
      exact .resolved hid (Ty.ne_flexible_of_common? hcommon)
  | stillFlexible hopen => exact (hopen.someFlexible.elim hl hr).elim
  | incompatible hclash =>
      rw [hclash.common?_eq_none]
      exact .incompatible

theorem Shows.unique (h : types.Interned) {other : Promotion} {ty? : Option Ty}
    (hshows : types.Shows promotion ty?) (hother : types.Shows other ty?) : promotion = other := by
  cases hshows with
  | resolved hid _ =>
      cases hother with
      | resolved hid' _ => rw [h.eq_of_get? hid hid']
  | incompatible =>
      cases hother
      rfl

theorem Shows.exists_joined? (h : types.Interned) {other : Promotion} {left? right? : Option Ty}
    (hshows : types.Shows promotion left?) (hother : types.Shows other right?) :
    ∃ join, types.joined? promotion other = some (join, types) ∧
      types.Shows join (left?.bind fun l => right?.bind l.common?) := by
  cases hshows with
  | incompatible => exact ⟨_, rfl, .incompatible⟩
  | resolved hl hlne =>
      cases hother with
      | incompatible => exact ⟨_, rfl, .incompatible⟩
      | resolved hr hrne =>
          obtain ⟨join, hcommon, hmeets⟩ := h.common?_eq ⟨_, hl⟩ ⟨_, hr⟩
          exact ⟨join, hcommon, (hmeets.tells h hl hr).shows hlne hrne⟩

/-- Joining is associative on concrete types. -/
theorem exists_joined?_assoc (h : types.Interned) (hl : types.get? left = some l)
    (hm : types.get? third = some m) (hlne : l ≠ .flexible)
    (hrne : r ≠ .flexible) (hmne : m ≠ .flexible) {earlier later : Promotion}
    (hearlier : types.Tells l r earlier) (hlater : types.Tells r m later) :
    ∃ join, types.joined? earlier (.resolved third) = some (join, types) ∧
      types.joined? (.resolved left) later = some (join, types) := by
  obtain ⟨join, hjoin, hshows⟩ :=
    (hearlier.shows hlne hrne).exists_joined? h (.resolved hm hmne)
  obtain ⟨join', hjoin', hshows'⟩ :=
    Shows.exists_joined? h (.resolved hl hlne) (hlater.shows hrne hmne)
  -- both stand for what the three types have in common
  have hassoc := Ty.common?_assoc hlne hrne hmne
  simp only [Option.bind_some] at hshows hshows'
  rw [← hassoc] at hshows'
  cases hshows.unique h hshows'
  exact ⟨join, hjoin, hjoin'⟩

/-- Concrete types resolve to the second one if the first is below it. -/
theorem Tells.eq_resolved_iff_le (htells : types.Tells l r promotion) (h : types.Interned)
    (hr : types.get? right = some r) (hlne : l ≠ .flexible) (hrne : r ≠ .flexible) :
    promotion = .resolved right ↔ l = r ∨ Check.widens l r = true := by
  rw [htells.eq_resolved_iff h, ← Ty.common?_eq_right_iff hlne hrne]
  constructor
  · rintro ⟨ty, hcommon, hid⟩
    cases hr.symm.trans hid
    exact hcommon
  · intro hcommon
    exact ⟨r, hcommon, hr⟩

end Universe

/-! ## Conversion -/

namespace Check

variable {s : Checking} {left right : TypeId} {l r : Ty} {value : Expr}

theorem exists_run_mismatch {α : Type} (hinterned : s.types.Interned)
    (hl : s.types.get? left = some l) (hr : s.types.get? right = some r) :
    ∃ failure, (mismatch left right : CheckM α) s = .error failure s := by
  obtain ⟨expected, hexpected⟩ := exists_run_describe hinterned hl
  obtain ⟨received, hreceived⟩ := exists_run_describe hinterned hr
  refine ⟨.refused (.typeMismatch expected received), ?_⟩
  rw [mismatch, run_bind_ok hexpected, run_bind_ok hreceived, run_refuse]

/-- Conversion between concrete types.  It adds a conversion if this widens the value or makes
an integer a truth value, and it fails if the types differ in another way. -/
theorem ends_convertWith_concrete {recheck : Expr → CheckM Expr} (hinterned : s.types.Interned)
    (hvalue : value.type? = some left) (hl : s.types.get? left = some l)
    (hr : s.types.get? right = some r) (hlne : l ≠ .flexible) (hrne : r ≠ .flexible) :
    Ends (convertWith recheck value right) s
      (fun result _ => (l = r ∧ result = value.loaded) ∨
        (l ≠ r ∧ (widens l r = true ∨ l.intWidth?.isSome ∧ r = .bool) ∧
          result = .conversion value.loaded (some right)))
      (fun _ _ => l ≠ r ∧ ¬ widens l r = true) := by
  have htype : value.loaded.type? = some left := (Expr.type?_loaded value).trans hvalue
  obtain ⟨failure, hmismatch⟩ := exists_run_mismatch (α := Expr) hinterned hr hl
  obtain ⟨log, hwrap⟩ := exists_run_wrapConversion_of_interned hinterned htype hl hr
  unfold convertWith
  rw [Ends, run_bind_ok (run_materialize hvalue), run_bind_ok (run_typeOf htype)]
  by_cases heq : left = right
  · subst heq
    rw [if_pos rfl]
    exact Or.inl ⟨Option.some.inj (hl.symm.trans hr), rfl⟩
  have hne : l ≠ r := hinterned.ne_of_get? hl hr heq
  rw [if_neg heq, run_bind_ok (run_typeAt hr), if_neg hrne]
  by_cases hbool : r = .bool
  · subst hbool
    rw [if_pos rfl, convertToBool, run_bind_ok (run_settle_of_ne hl hlne),
      run_bind_ok (run_typeOf htype), run_bind_ok (run_typeAt hl)]
    cases l with
    | flexible => exact absurd rfl hlne
    | bool => exact absurd rfl hne
    | int width =>
        simp only [hwrap]
        exact Or.inr ⟨hne, Or.inr ⟨rfl, trivial⟩, trivial⟩
    | struct written =>
        simp only [hmismatch]
        exact ⟨hne, by simp [widens]⟩
  · rw [if_neg hbool, run_bind_ok (run_typeAt hl), if_neg hlne]
    by_cases hwidens : widens l r = true
    · rw [if_pos hwidens, hwrap]
      exact Or.inr ⟨hne, Or.inl hwidens, rfl⟩
    · rw [if_neg hwidens, hmismatch]
      exact ⟨hne, hwidens⟩

/-- The conversions that lose nothing go up. -/
theorem le_iff_exists_convert (hinterned : s.types.Interned) (hvalue : value.type? = some left)
    (hl : s.types.get? left = some l) (hr : s.types.get? right = some r) (hlne : l ≠ .flexible)
    (hrne : r ≠ .flexible) :
    l = r ∨ widens l r = true ↔
      ∃ result final, convert value right s = .ok result final ∧
        (result = value.loaded ∨ result = .conversion value.loaded (some right) ∧
          ¬ (l.intWidth?.isSome ∧ r = .bool)) := by
  have hends : Ends (convert value right) s _ _ :=
    ends_convertWith_concrete hinterned hvalue hl hr hlne hrne
  constructor
  · intro hle
    cases hrun : convert value right s with
    | error failure final =>
        obtain ⟨hne, hwidens⟩ := hends.failed_of_error hrun
        exact (hle.elim hne hwidens).elim
    | ok result final =>
        refine ⟨result, final, rfl, ?_⟩
        rcases hends.post_of_ok hrun with ⟨-, hresult⟩ | ⟨hne, -, hresult⟩
        · exact Or.inl hresult
        · refine Or.inr ⟨hresult, ?_⟩
          rintro ⟨-, rfl⟩
          -- nothing is widened to a truth value
          cases l <;> simp_all [widens]
  · rintro ⟨result, final, hrun, hshape⟩
    rcases hends.post_of_ok hrun with ⟨heq, -⟩ | ⟨-, hwidens, hresult⟩
    · exact Or.inl heq
    · rcases hshape with hloaded | ⟨-, hkind⟩
      · have hsize := congrArg sizeOf (hresult.symm.trans hloaded)
        simp at hsize
        omega
      · exact Or.inr (hwidens.resolve_right hkind)

end Check

/-- Looking for what two valid handles have in common adds no type and does not depend on
their order.  It finds the wider of two integers, an integer beside a truth value or a flexible
type, and the type itself beside itself.  Flexible types stay open beside what fixes no width,
and a struct has nothing in common with another type.  On concrete types this is a join, and
its order is that of the conversions that lose nothing. -/
theorem common?_isJoin {types : Universe} (h : types.Interned) (left right third : TypeId)
    {l r m : Ty} (hl : types.get? left = some l) (hr : types.get? right = some r)
    (hm : types.get? third = some m) :
    ∃ promotion, types.common? left right = some (promotion, types) ∧
      types.common? right left = some (promotion, types) ∧
      (∀ width width', l = .int width → r = .int width' → ∃ id, promotion = .resolved id ∧
        types.get? id = some (.int (max width width'))) ∧
      (l.intWidth?.isSome → r = .bool ∨ r = .flexible → promotion = .resolved left) ∧
      (l = r → l ≠ .flexible → promotion = .resolved left) ∧
      (promotion = .stillFlexible ↔ l.Open r) ∧
      (promotion = .incompatible ↔ l.Clash r) ∧
      (l ≠ .flexible → r ≠ .flexible → m ≠ .flexible → ∃ later join,
        types.common? right third = some (later, types) ∧
        types.joined? promotion (.resolved third) = some (join, types) ∧
        types.joined? (.resolved left) later = some (join, types)) ∧
      (l ≠ .flexible → r ≠ .flexible → ∀ (s : Checking) (value : Expr), s.types = types →
        value.type? = some left →
        (promotion = .resolved right ↔
          ∃ result final, Check.convert value right s = .ok result final ∧
            (result = value.loaded ∨ result = .conversion value.loaded (some right) ∧
              ¬ (l.intWidth?.isSome ∧ r = .bool)))) := by
  obtain ⟨promotion, hcommon, hmeets⟩ := h.common?_eq ⟨l, hl⟩ ⟨r, hr⟩
  have htells := hmeets.tells h hl hr
  refine ⟨promotion, hcommon, h.common?_of_meets hmeets.symm, ?_, ?_, ?_,
    htells.eq_stillFlexible_iff, htells.eq_incompatible_iff, ?_, ?_⟩
  · rintro width width' rfl rfl
    cases htells with
    | resolved hwider hid =>
        cases hwider
        exact ⟨_, rfl, hid⟩
    | stillFlexible hopen => cases hopen.common?_eq_none
    | incompatible hclash => cases hclash.common?_eq_none
  · intro hwidth hother
    refine (htells.eq_resolved_iff h).mpr ⟨l, ?_, hl⟩
    obtain ⟨width, hwidth⟩ := Option.isSome_iff_exists.mp hwidth
    cases Universe.eq_int_of_intWidth? hwidth
    rcases hother with rfl | rfl <;> rfl
  · rintro rfl hne
    exact (htells.eq_resolved_iff h).mpr ⟨l, Ty.common?_self hne, hl⟩
  · intro hlne hrne hmne
    obtain ⟨later, hlater, hmeets'⟩ := h.common?_eq ⟨r, hr⟩ ⟨m, hm⟩
    obtain ⟨join, hjoin, hjoin'⟩ := Universe.exists_joined?_assoc h hl hm hlne hrne hmne htells
      (hmeets'.tells h hr hm)
    exact ⟨later, join, hlater, hjoin, hjoin'⟩
  · rintro hlne hrne s value rfl hvalue
    rw [htells.eq_resolved_iff_le h hr hlne hrne]
    exact Check.le_iff_exists_convert h hvalue hl hr hlne hrne

/-- A truth value beside an integer is that integer, and the struct of both is beside neither. -/
theorem common?_isJoin_pair :
    ∃ (types : Universe) (pair : StructTy), types.Interned ∧ types.get? ⟨0⟩ = some (.int 8) ∧
      types.get? ⟨1⟩ = some .bool ∧ types.get? ⟨2⟩ = some (.struct pair) ∧
      pair.fields = [⟨0⟩, ⟨1⟩] ∧
      types.common? ⟨0⟩ ⟨1⟩ = some (.resolved ⟨0⟩, types) ∧
      types.common? ⟨1⟩ ⟨0⟩ = some (.resolved ⟨0⟩, types) ∧
      types.common? ⟨1⟩ ⟨2⟩ = some (.incompatible, types) := by
  let scalars := (Universe.empty.add (.int 8)).add .bool
  let pair : StructTy := ⟨[⟨0⟩, ⟨1⟩], .empty⟩
  have hscalars : scalars.Interned :=
    (Universe.interned_empty.add rfl (fun _ h => by cases h)).add rfl (fun _ h => by cases h)
  have hinterned : (scalars.add (.struct pair)).Interned := by
    refine hscalars.add rfl ?_
    rintro struct heq field hfield
    cases heq
    rw [Universe.holds_iff]
    revert field
    decide
  obtain ⟨promotion, hcommon, hcommon', -, hwidth, -⟩ :=
    common?_isJoin hinterned ⟨0⟩ ⟨1⟩ ⟨2⟩ rfl rfl rfl
  obtain ⟨other, hother, -, -, -, -, -, hclash, -⟩ :=
    common?_isJoin hinterned ⟨1⟩ ⟨2⟩ ⟨0⟩ rfl rfl rfl
  cases hwidth rfl (Or.inl rfl)
  cases hclash.mpr ⟨Or.inr rfl, fun heq => (by cases heq)⟩
  exact ⟨_, pair, hinterned, rfl, rfl, rfl, rfl, hcommon, hcommon', hother⟩

end FlexWidth
