import FlexWidth.Proofs.Types.Requests
import Mathlib

/-!
# The width of a type is the width of its leaves

A struct is as wide as its fields together, and a field may itself be a struct.  Widths are
added from left to right, struct by struct, and every single addition has to stay in the range
of widths.  Spelled out in full a type has *leaves*, the integers, truth values and flexible
types that are left when all structs are opened.

* `bitWidth_eq_checked`: if no leaf is flexible, the outcome depends on the sum over the leaves
  alone.  An addition on the way leaves the range only if the whole sum does, since what is
  still to come can only make it larger.
* `bitWidth_ne_of_flexible`: a flexible leaf leaves no width, although an addition before it
  may leave the range first.

The width of a handle is computed from the handles of its fields.  `Measures` has the rules of
this computation and nothing that bounds its depth, so that to be measured means that the
computation comes to an end.  It does because a struct is younger than its fields.
-/

namespace FlexWidth

namespace Shape

/-! ## Leaves -/

mutual

/-- The types without fields that a type consists of, from left to right. -/
def leaves : Shape → List Shape
  | int width => [int width]
  | bool => [bool]
  | flexible => [flexible]
  | struct fields _ => fieldLeaves fields

/-- The leaves of some fields. -/
def fieldLeaves : List Shape → List Shape
  | [] => []
  | field :: rest => field.leaves ++ fieldLeaves rest

end

/-- The number of bits of a leaf; a truth value is one bit. -/
def leafWidth : Shape → Nat
  | int width => width
  | bool => 1
  | flexible | struct .. => 0

/-- The number of bits of some leaves together. -/
def totalWidth (parts : List Shape) : Nat := (parts.map leafWidth).sum

@[simp] theorem totalWidth_nil : totalWidth [] = 0 := rfl

@[simp] theorem totalWidth_append (parts more : List Shape) :
    totalWidth (parts ++ more) = totalWidth parts + totalWidth more := by
  simp [totalWidth]

/-- The order of the leaves does not matter. -/
theorem totalWidth_perm {parts more : List Shape} (h : parts.Perm more) :
    totalWidth parts = totalWidth more :=
  (h.map leafWidth).sum_eq

/-- A number of bits, if it is in the range of widths. -/
def checkedWidth (total : Nat) : Except Fault (Option Nat) :=
  if total < Text.widthLimit then .ok (some total) else .error .widthOverflow

theorem checkedWidth_of_lt {total : Nat} (h : total < Text.widthLimit) :
    checkedWidth total = .ok (some total) := if_pos h

theorem checkedWidth_of_le {total : Nat} (h : Text.widthLimit ≤ total) :
    checkedWidth total = .error .widthOverflow := if_neg (Nat.not_lt.mpr h)

/-! ## Sums of widths -/

mutual

/-- Without a flexible leaf, the width of a type is the sum over its leaves, checked once. -/
theorem bitWidth_eq_checked : (shape : Shape) → flexible ∉ shape.leaves →
    (∀ width, int width ∈ shape.leaves → width < Text.widthLimit) →
    shape.bitWidth = checkedWidth (totalWidth shape.leaves)
  | int width, _, hfit => by
      have hlt : width < Text.widthLimit := hfit width (by simp [leaves])
      have htotal : totalWidth (int width).leaves = width := by simp [leaves, totalWidth, leafWidth]
      rw [htotal, checkedWidth_of_lt hlt, bitWidth]
  | bool, _, _ => by
      have htotal : totalWidth bool.leaves = 1 := by simp [leaves, totalWidth, leafWidth]
      rw [htotal, checkedWidth_of_lt (by decide), bitWidth]
  | flexible, hflexible, _ => absurd (by simp [leaves]) hflexible
  | struct fields _, hflexible, hfit => by
      rw [leaves] at hflexible hfit ⊢
      rw [bitWidth, sumWidths_eq_checked fields hflexible hfit (by decide), Nat.zero_add]

/-- The sum before some fields is in the range, so it leaves the range at one of them or not
at all. -/
theorem sumWidths_eq_checked : (fields : List Shape) → flexible ∉ fieldLeaves fields →
    (∀ width, int width ∈ fieldLeaves fields → width < Text.widthLimit) →
    {before : Nat} → before < Text.widthLimit →
    sumWidths before fields = checkedWidth (before + totalWidth (fieldLeaves fields))
  | [], _, _, before, hbefore => by
      rw [sumWidths, fieldLeaves, totalWidth_nil, Nat.add_zero, checkedWidth_of_lt hbefore]
  | field :: rest, hflexible, hfit, before, hbefore => by
      rw [fieldLeaves, List.mem_append, not_or] at hflexible
      simp only [fieldLeaves, List.mem_append] at hfit
      have hfield := bitWidth_eq_checked field hflexible.1 fun width h => hfit width (.inl h)
      have hrest {sum : Nat} (hsum : sum < Text.widthLimit) :=
        sumWidths_eq_checked rest hflexible.2 (fun width h => hfit width (.inr h)) hsum
      rw [sumWidths, hfield, fieldLeaves, totalWidth_append, ← Nat.add_assoc]
      by_cases hwide : totalWidth field.leaves < Text.widthLimit
      · rw [checkedWidth_of_lt hwide]
        by_cases hsum : before + totalWidth field.leaves < Text.widthLimit
        · simp only [if_pos hsum, hrest hsum]
        · simp only [if_neg hsum]
          rw [checkedWidth_of_le (by omega)]
      · rw [checkedWidth_of_le (by omega), checkedWidth_of_le (by omega)]

end

mutual

/-- A type with a flexible leaf has no width. -/
theorem bitWidth_ne_of_flexible : (shape : Shape) → flexible ∈ shape.leaves → (width : Nat) →
    shape.bitWidth ≠ .ok (some width)
  | int _, hflexible, _ => by simp [leaves] at hflexible
  | bool, hflexible, _ => by simp [leaves] at hflexible
  | flexible, _, _ => by simp [bitWidth]
  | struct fields _, hflexible, width => by
      rw [leaves] at hflexible
      rw [bitWidth]
      exact sumWidths_ne_of_flexible fields hflexible 0 width

theorem sumWidths_ne_of_flexible : (fields : List Shape) → flexible ∈ fieldLeaves fields →
    (before width : Nat) → sumWidths before fields ≠ .ok (some width)
  | [], hflexible, _, _ => by simp [fieldLeaves] at hflexible
  | field :: rest, hflexible, before, width => by
      rw [fieldLeaves, List.mem_append] at hflexible
      rw [sumWidths]
      split
      · rename_i fieldWidth hfield
        -- the field has a width, so the flexible leaf is further on
        have hrest : flexible ∈ fieldLeaves rest :=
          hflexible.resolve_left fun h => bitWidth_ne_of_flexible field h fieldWidth hfield
        split
        · exact sumWidths_ne_of_flexible rest hrest _ width
        · simp
      · simp
      · simp

end

end Shape

/-! ## Widths of handles -/

namespace Universe

mutual

/-- The outcome of computing the width of a handle. -/
inductive Measures (types : Universe) : TypeId → Except Fault (Option Nat) → Prop where
  | int {id : TypeId} {width : Nat} : types.get? id = some (.int width) →
      Measures types id (.ok (some width))
  | bool {id : TypeId} : types.get? id = some .bool → Measures types id (.ok (some 1))
  | flexible {id : TypeId} : types.get? id = some .flexible → Measures types id (.ok none)
  | struct {id : TypeId} {struct : StructTy} {result : Except Fault (Option Nat)} :
      types.get? id = some (.struct struct) → MeasuresFields types 0 struct.fields result →
      Measures types id result

/-- The outcome of adding the widths of some fields to those before them. -/
inductive MeasuresFields (types : Universe) :
    Nat → List TypeId → Except Fault (Option Nat) → Prop where
  | nil {before : Nat} : MeasuresFields types before [] (.ok (some before))
  | add {before width : Nat} {field : TypeId} {rest : List TypeId}
      {result : Except Fault (Option Nat)} : Measures types field (.ok (some width)) →
      before + width < Text.widthLimit → MeasuresFields types (before + width) rest result →
      MeasuresFields types before (field :: rest) result
  | overflow {before width : Nat} {field : TypeId} {rest : List TypeId} :
      Measures types field (.ok (some width)) → Text.widthLimit ≤ before + width →
      MeasuresFields types before (field :: rest) (.error .widthOverflow)
  | flexible {before : Nat} {field : TypeId} {rest : List TypeId} :
      Measures types field (.ok none) → MeasuresFields types before (field :: rest) (.ok none)
  | fault {before : Nat} {field : TypeId} {rest : List TypeId} {broken : Fault} :
      Measures types field (.error broken) →
      MeasuresFields types before (field :: rest) (.error broken)

end

variable {types : Universe} {id other : TypeId} {shape : Shape}

theorem Denotes.bitWidth_eq (h : types.Denotes id shape) : types.bitWidth id = shape.bitWidth := by
  rw [bitWidth, show types.shape? id = some shape from h]

/-- Fields that can be measured can be added up. -/
theorem measuresFields_sumWidths {fields : List TypeId} {shapes : List Shape}
    (h : List.Forall₂ (fun field shape => types.Measures field shape.bitWidth) fields shapes)
    (before : Nat) : types.MeasuresFields before fields (Shape.sumWidths before shapes) := by
  induction h generalizing before with
  | nil => exact .nil
  | @cons field shape _ _ hfield _ ih =>
      rw [Shape.sumWidths]
      cases hwidth : shape.bitWidth with
      | error broken => exact .fault (hwidth ▸ hfield)
      | ok found =>
          rw [hwidth] at hfield
          cases found with
          | none => exact .flexible hfield
          | some width =>
              dsimp only
              split
              · rename_i hlt
                exact .add hfield hlt (ih (before + width))
              · rename_i hge
                exact .overflow hfield (Nat.not_lt.mp hge)

/-- **Every handle can be measured.** -/
theorem Interned.measures_bitWidth (h : types.Interned) (hid : types.Denotes id shape) :
    types.Measures id shape.bitWidth := by
  -- the induction is on a bound of the handle, which is smaller for the fields of a struct
  obtain ⟨bound, hlt⟩ : ∃ bound, id.index < bound := ⟨id.index + 1, Nat.lt_succ_self _⟩
  induction bound generalizing id shape with
  | zero => omega
  | succ bound ih =>
      obtain ⟨ty, hty, hspells⟩ := h.denotes_iff.mp hid
      cases hspells with
      | int width => exact .int hty
      | bool => exact .bool hty
      | flexible => exact .flexible hty
      | struct names hfields =>
          have holder := h.older hty
          have hmeasures := (List.forall₂_and_left _ _).mpr ⟨holder, hfields⟩
          refine .struct hty (measuresFields_sumWidths (hmeasures.imp ?_) 0)
          rintro field shape ⟨hfield, hshape⟩
          exact ih hshape (by omega)

mutual

/-- A handle is measured in one way. -/
theorem Measures.eq_bitWidth {id : TypeId} {shape : Shape} {result : Except Fault (Option Nat)}
    (hmeasures : types.Measures id result) (h : types.Interned) (hid : types.Denotes id shape) :
    result = shape.bitWidth := by
  obtain ⟨ty, hty, hspells⟩ := h.denotes_iff.mp hid
  match hmeasures with
  | .int hget =>
      cases hty.symm.trans hget
      cases hspells
      rw [Shape.bitWidth]
  | .bool hget =>
      cases hty.symm.trans hget
      cases hspells
      rw [Shape.bitWidth]
  | .flexible hget =>
      cases hty.symm.trans hget
      cases hspells
      rw [Shape.bitWidth]
  | .struct hget hfields =>
      cases hty.symm.trans hget
      cases hspells with
      | struct names hshapes =>
          rw [Shape.bitWidth]
          exact hfields.eq_sumWidths h hshapes

theorem MeasuresFields.eq_sumWidths {fields : List TypeId} {shapes : List Shape} {before : Nat}
    {result : Except Fault (Option Nat)} (hmeasures : types.MeasuresFields before fields result)
    (h : types.Interned) (hshapes : List.Forall₂ types.Denotes fields shapes) :
    result = Shape.sumWidths before shapes := by
  match hmeasures, hshapes with
  | .nil, .nil => rw [Shape.sumWidths]
  | .add hfield hlt hrest, .cons hshape hshapes =>
      rw [Shape.sumWidths, ← hfield.eq_bitWidth h hshape]
      simp only [if_pos hlt]
      exact hrest.eq_sumWidths h hshapes
  | .overflow hfield hle, .cons hshape _ =>
      rw [Shape.sumWidths, ← hfield.eq_bitWidth h hshape]
      simp only [if_neg (Nat.not_lt.mpr hle)]
  | .flexible hfield, .cons hshape _ => rw [Shape.sumWidths, ← hfield.eq_bitWidth h hshape]
  | .fault hfield, .cons hshape _ => rw [Shape.sumWidths, ← hfield.eq_bitWidth h hshape]

end

/-! ## Leaves of handles -/

/-- Every integer type has a width in the range of widths. -/
def WidthsFit (types : Universe) : Prop :=
  ∀ {id : TypeId} {width : Nat}, types.get? id = some (.int width) → width < Text.widthLimit

theorem exists_get?_of_mem_fieldLeaves {fields : List TypeId} {shapes : List Shape} {width : Nat}
    (h : List.Forall₂ (fun _ shape => .int width ∈ shape.leaves →
      ∃ leaf, types.get? leaf = some (.int width)) fields shapes)
    (hleaf : .int width ∈ Shape.fieldLeaves shapes) :
    ∃ leaf, types.get? leaf = some (.int width) := by
  induction h with
  | nil => simp [Shape.fieldLeaves] at hleaf
  | cons hfield _ ih =>
      rw [Shape.fieldLeaves, List.mem_append] at hleaf
      exact hleaf.elim hfield ih

/-- An integer leaf is an integer type of the universe. -/
theorem Interned.exists_get?_of_mem_leaves (h : types.Interned) (hid : types.Denotes id shape)
    {width : Nat} (hleaf : .int width ∈ shape.leaves) :
    ∃ leaf, types.get? leaf = some (.int width) := by
  obtain ⟨bound, hlt⟩ : ∃ bound, id.index < bound := ⟨id.index + 1, Nat.lt_succ_self _⟩
  induction bound generalizing id shape with
  | zero => omega
  | succ bound ih =>
      obtain ⟨ty, hty, hspells⟩ := h.denotes_iff.mp hid
      cases hspells with
      | int own =>
          simp only [Shape.leaves, List.mem_singleton, Shape.int.injEq] at hleaf
          exact ⟨id, hleaf ▸ hty⟩
      | bool => simp [Shape.leaves] at hleaf
      | flexible => simp [Shape.leaves] at hleaf
      | struct names hfields =>
          have holder := (List.forall₂_and_left _ _).mpr ⟨h.older hty, hfields⟩
          rw [Shape.leaves] at hleaf
          refine exists_get?_of_mem_fieldLeaves (holder.imp ?_) hleaf
          rintro field shape ⟨hfield, hshape⟩ hleaf
          exact ih hshape hleaf (by omega)

end Universe

/-- **The width of a type is the width of its leaves.**  In an interned universe whose integers
have widths below 2 ^ 32, computing the width of a handle comes to an end, with one outcome.  Let
no leaf of its type, spelled out in full, be flexible.  Then the outcome is the sum of the widths
of all leaves, a truth value counting one bit, or an overflow if that sum is not below 2 ^ 32; and
it is the same for every type with these leaves, however they are grouped into structs.  If some
leaf is flexible, there is no width. -/
theorem bitWidth_eq_sum_leaves {types : Universe} (h : types.Interned) (hfit : types.WidthsFit)
    {id : TypeId} (hid : id.index < types.size) :
    ∃ shape, types.shape? id = some shape ∧
      (∀ result, types.Measures id result ↔ types.bitWidth id = result) ∧
      (.flexible ∉ shape.leaves →
        types.bitWidth id =
          if (shape.leaves.map Shape.leafWidth).sum < 2 ^ 32 then
            .ok (some (shape.leaves.map Shape.leafWidth).sum)
          else .error .widthOverflow) ∧
      (.flexible ∉ shape.leaves → ∀ other shape', types.shape? other = some shape' →
        shape'.leaves.Perm shape.leaves → types.bitWidth other = types.bitWidth id) ∧
      (.flexible ∈ shape.leaves → ∀ width, types.bitWidth id ≠ .ok (some width)) := by
  obtain ⟨shape, hshape⟩ := h.exists_denotes (Universe.holds_iff.mpr hid)
  have hchecked {other : TypeId} {shape' : Shape} (hother : types.Denotes other shape')
      (hflexible : .flexible ∉ shape'.leaves) :
      types.bitWidth other = Shape.checkedWidth (Shape.totalWidth shape'.leaves) := by
    rw [hother.bitWidth_eq]
    refine shape'.bitWidth_eq_checked hflexible fun width hleaf => ?_
    obtain ⟨leaf, hleaf⟩ := h.exists_get?_of_mem_leaves hother hleaf
    exact hfit hleaf
  refine ⟨shape, hshape, fun result => ⟨fun hresult => ?_, fun hresult => ?_⟩, ?_, ?_, ?_⟩
  · rw [hshape.bitWidth_eq, hresult.eq_bitWidth h hshape]
  · rw [← hresult, hshape.bitWidth_eq]
    exact h.measures_bitWidth hshape
  · exact fun hflexible => hchecked hshape hflexible
  · intro hflexible other shape' hother hperm
    rw [hchecked hshape hflexible, hchecked hother (hperm.mem_iff.not.mpr hflexible),
      Shape.totalWidth_perm hperm]
  · intro hflexible width
    rw [hshape.bitWidth_eq]
    exact shape.bitWidth_ne_of_flexible hflexible width

/-- The same leaves as a struct in a struct and as one struct, and a struct that is too wide. -/
theorem bitWidth_eq_sum_leaves_nested :
    ∃ returned types,
      (Request.run [.int 8, .bool, .struct ⟨[⟨0⟩, ⟨1⟩], .empty⟩, .struct ⟨[⟨2⟩, ⟨0⟩], .empty⟩,
          .struct ⟨[⟨0⟩, ⟨0⟩, ⟨1⟩], .empty⟩, .int 4294967295, .struct ⟨[⟨1⟩, ⟨5⟩], .empty⟩] =
        some (returned, types) ∧ types.Interned ∧ types.WidthsFit) ∧
      types.bitWidth ⟨3⟩ = .ok (some 17) ∧ types.bitWidth ⟨4⟩ = types.bitWidth ⟨3⟩ ∧
      types.bitWidth ⟨6⟩ = .error .widthOverflow := by
  have hruns : ∃ returned types,
      Request.run [.int 8, .bool, .struct ⟨[⟨0⟩, ⟨1⟩], .empty⟩, .struct ⟨[⟨2⟩, ⟨0⟩], .empty⟩,
          .struct ⟨[⟨0⟩, ⟨0⟩, ⟨1⟩], .empty⟩, .int 4294967295, .struct ⟨[⟨1⟩, ⟨5⟩], .empty⟩] =
        some (returned, types) ∧ types.arena.toList.filterMap Ty.intWidth? = [8, 4294967295] ∧
      types.size = 7 ∧
      types.shape? ⟨3⟩ = some (.struct [.struct [.int 8, .bool] .empty, .int 8] .empty) ∧
      types.shape? ⟨4⟩ = some (.struct [.int 8, .int 8, .bool] .empty) ∧
      types.shape? ⟨6⟩ = some (.struct [.bool, .int 4294967295] .empty) :=
    ⟨_, _, by cbv, by cbv, by cbv, by cbv, by cbv, by cbv⟩
  obtain ⟨returned, types, hrun, hwidths, hsize, hnested, hflat, hwide⟩ := hruns
  have hinterned : types.Interned := (Request.keeps_empty.foldlM hrun).interned
  have hfit : types.WidthsFit := by
    intro id width hid
    have hmem : width ∈ types.arena.toList.filterMap Ty.intWidth? :=
      List.mem_filterMap.mpr ⟨_, Array.mem_toList_iff.mpr (Array.mem_of_getElem? hid), rfl⟩
    rw [hwidths] at hmem
    simp only [List.mem_cons, List.not_mem_nil, or_false] at hmem
    rcases hmem with rfl | rfl <;> decide
  have hnestedLt : (TypeId.mk 3).index < types.size := by simp [hsize]
  have hwideLt : (TypeId.mk 6).index < types.size := by simp [hsize]
  obtain ⟨shape, hshape, -, hsum, hgroup, -⟩ := bitWidth_eq_sum_leaves hinterned hfit hnestedLt
  obtain ⟨shape', hshape', -, hsum', -, -⟩ := bitWidth_eq_sum_leaves hinterned hfit hwideLt
  cases hnested.symm.trans hshape
  cases hwide.symm.trans hshape'
  exact ⟨returned, types, ⟨hrun, hinterned, hfit⟩, hsum (by decide),
    hgroup (by decide) ⟨4⟩ _ hflat (by decide), hsum' (by decide)⟩

end FlexWidth
