import FlexWidth.Types.Universe

/-!
# Interning

The four operations that look a type up or add it differ only in the table they
use.  Here they are one operation, `intern`: it finds the type with `find?` or puts
it at the end of the arena with `add`.

A universe is *interned* if its tables and its arena agree: `find?` finds a type
exactly at the handles where `get?` shows it.  So a type has at most one handle.  A
universe is *sound* if moreover it holds only types that a checked program can have.
Adding a type keeps both, and keeps the meaning of every handle.
-/

namespace FlexWidth

namespace Universe

variable {types later : Universe}

/-! ## One operation for all types -/

/-- The handle of a type, if the universe holds it. -/
def find? (types : Universe) : Ty → Option TypeId
  | .int width => types.ints.lookup width
  | .bool => types.boolean
  | .flexible => types.flexible
  | .struct struct => types.structs.lookup struct

/-- The universe with one more type. -/
def add (types : Universe) (ty : Ty) : Universe :=
  let longer := { types with arena := types.arena.push ty }
  match ty with
  | .int width => { longer with ints := (width, types.nextId) :: types.ints }
  | .bool => { longer with boolean := some types.nextId }
  | .flexible => { longer with flexible := some types.nextId }
  | .struct struct => { longer with structs := (struct, types.nextId) :: types.structs }

/-- The handle of a type, which is added if need be. -/
def intern (ty : Ty) (types : Universe) : TypeId × Universe :=
  match types.find? ty with
  | some id => (id, types)
  | none => (types.nextId, types.add ty)

theorem internBool_eq_intern (types : Universe) : types.internBool = intern .bool types := rfl

theorem internFlexible_eq_intern (types : Universe) :
    types.internFlexible = intern .flexible types := rfl

theorem internInt_eq_intern (width : Nat) (types : Universe) :
    types.internInt width = intern (.int width) types := rfl

theorem internStruct_eq_intern (struct : StructTy) (types : Universe) :
    types.internStruct struct = intern (.struct struct) types := rfl

theorem arena_add (types : Universe) (ty : Ty) : (types.add ty).arena = types.arena.push ty := by
  cases ty <;> rfl

theorem get?_add (types : Universe) (ty : Ty) (id : TypeId) :
    (types.add ty).get? id = if id = types.nextId then some ty else types.get? id := by
  have hid : id = types.nextId ↔ id.index = types.arena.size := by
    cases id
    simp [nextId]
  simp only [get?, arena_add, Array.getElem?_push, hid]

theorem lookup_cons_eq_ite {α β : Type} [DecidableEq α] (key other : α) (value : β)
    (entries : List (α × β)) :
    ((key, value) :: entries).lookup other =
      if other = key then some value else entries.lookup other := by
  rw [List.lookup_cons]
  by_cases h : other = key
  · simp [h]
  · rw [if_neg h, beq_eq_false_iff_ne.mpr h]

theorem find?_add (types : Universe) (ty other : Ty) :
    (types.add ty).find? other = if other = ty then some types.nextId else types.find? other := by
  cases ty <;> cases other <;> simp [find?, add, lookup_cons_eq_ite]

/-! ## Growth -/

/-- Types are only added at the end. -/
def Grows (types later : Universe) : Prop :=
  ∃ added, later.arena = types.arena ++ added

theorem Grows.refl (types : Universe) : types.Grows types := ⟨#[], by simp⟩

theorem Grows.trans {last : Universe} (h : types.Grows later) (h' : later.Grows last) :
    types.Grows last := by
  obtain ⟨added, hadded⟩ := h
  obtain ⟨added', hadded'⟩ := h'
  exact ⟨added ++ added', by rw [hadded', hadded, Array.append_assoc]⟩

/-- A handle keeps its meaning. -/
theorem Grows.get? (h : types.Grows later) {id : TypeId} {ty : Ty} (hid : types.get? id = some ty) :
    later.get? id = some ty := by
  obtain ⟨added, hadded⟩ := h
  have hlt : id.index < types.arena.size := by
    rw [Universe.get?, Array.getElem?_eq_some_iff] at hid
    exact hid.1
  rw [Universe.get?, hadded, Array.getElem?_append_left hlt]
  exact hid

theorem grows_add (types : Universe) (ty : Ty) : types.Grows (types.add ty) :=
  ⟨#[ty], by rw [arena_add]; simp⟩

theorem grows_intern (types : Universe) (ty : Ty) : types.Grows (intern ty types).2 := by
  unfold intern
  split
  · exact .refl types
  · exact grows_add types ty

/-! ## Interned universes -/

/-- The handle of a type is valid. -/
def Holds (types : Universe) (id : TypeId) : Prop := ∃ ty, types.get? id = some ty

/-- The arena and the tables agree, and a struct is younger than its fields. -/
structure Interned (types : Universe) : Prop where
  find?_eq_some_iff : ∀ {ty : Ty} {id : TypeId}, types.find? ty = some id ↔ types.get? id = some ty
  older : ∀ {id : TypeId} {struct : StructTy}, types.get? id = some (.struct struct) →
    ∀ field ∈ struct.fields, field.index < id.index

/-- A type has one handle. -/
theorem Interned.eq_of_get? (h : types.Interned) {ty : Ty} {id other : TypeId}
    (hid : types.get? id = some ty) (hother : types.get? other = some ty) : id = other := by
  have hfind := h.find?_eq_some_iff.mpr hid
  rw [h.find?_eq_some_iff.mpr hother] at hfind
  exact (Option.some.inj hfind).symm

theorem Interned.ne_of_get? (h : types.Interned) {ty other : Ty} {id otherId : TypeId}
    (hid : types.get? id = some ty) (hother : types.get? otherId = some other)
    (hne : id ≠ otherId) : ty ≠ other := by
  rintro rfl
  exact hne (h.eq_of_get? hid hother)

theorem interned_empty : empty.Interned where
  find?_eq_some_iff := by
    intro ty id
    cases ty <;> simp [find?, empty, get?]
  older := by
    intro id struct h
    simp [empty, get?] at h

theorem get?_nextId (types : Universe) : types.get? types.nextId = none := by
  simp [get?, nextId]

theorem holds_iff {id : TypeId} : types.Holds id ↔ id.index < types.size := by
  rw [Holds, get?, size, ← Option.isSome_iff_exists]
  simp

theorem Interned.add (h : types.Interned) {ty : Ty} (hnew : types.find? ty = none)
    (hfields : ∀ struct, ty = .struct struct → ∀ field ∈ struct.fields, types.Holds field) :
    (types.add ty).Interned where
  find?_eq_some_iff := by
    intro other id
    rw [find?_add, get?_add]
    by_cases hother : other = ty
    · subst hother
      rw [if_pos rfl]
      by_cases hid : id = types.nextId
      · simp [hid]
      · -- the type had no handle before, and `id` is an old one
        have hnone : types.get? id ≠ some other := by
          intro hget
          rw [← h.find?_eq_some_iff, hnew] at hget
          cases hget
        simp [hid, hnone, Ne.symm hid]
    · rw [if_neg hother, h.find?_eq_some_iff]
      by_cases hid : id = types.nextId
      · simp [hid, get?_nextId, Ne.symm hother]
      · rw [if_neg hid]
  older := by
    intro id struct hid field hfield
    rw [get?_add] at hid
    split at hid
    · rename_i hnext
      have hvalid := holds_iff.mp (hfields struct (Option.some.inj hid) field hfield)
      rwa [hnext]
    · exact h.older hid field hfield

/-! ## Sound universes -/

/-- The handle is that of a type which fixes how its values are represented. -/
def Concrete (types : Universe) (id : TypeId) : Prop :=
  ∃ ty, types.get? id = some ty ∧ ty ≠ .flexible

/-- The handle is that of a type which is no struct. -/
def Scalar (types : Universe) (id : TypeId) : Prop :=
  ∃ ty, types.get? id = some ty ∧ ty.struct? = none

/-- What a checked program may have as a type: an integer of at least one bit, or a
struct of concrete fields whose names stand for fields that it has. -/
def Admits (types : Universe) : Ty → Prop
  | .int width => 0 < width
  | .bool | .flexible => True
  | .struct struct =>
    (∀ field ∈ struct.fields, types.Concrete field) ∧
      ∀ name position, struct.names.position? name = some position →
        position < struct.fields.length

/-- An interned universe that holds only types which a checked program may have. -/
structure Sound (types : Universe) : Prop extends Interned types where
  admits : ∀ {id : TypeId} {ty : Ty}, types.get? id = some ty → types.Admits ty

theorem Concrete.holds {id : TypeId} (h : types.Concrete id) : types.Holds id := by
  obtain ⟨ty, hty, -⟩ := h
  exact ⟨ty, hty⟩

theorem Concrete.grow {id : TypeId} (h : types.Concrete id) (hgrows : types.Grows later) :
    later.Concrete id := by
  obtain ⟨ty, hty, hne⟩ := h
  exact ⟨ty, hgrows.get? hty, hne⟩

theorem Admits.grow {ty : Ty} (h : types.Admits ty) (hgrows : types.Grows later) :
    later.Admits ty := by
  cases ty with
  | int width => exact h
  | bool => trivial
  | flexible => trivial
  | struct struct => exact ⟨fun field hfield => (h.1 field hfield).grow hgrows, h.2⟩

theorem sound_empty : empty.Sound where
  toInterned := interned_empty
  admits := by
    intro id ty h
    simp [empty, get?] at h

/-- Interning gives a type its handle and keeps the universe sound. -/
theorem Sound.intern (h : types.Sound) {ty : Ty} (hty : types.Admits ty) :
    (intern ty types).2.Sound ∧ (Universe.intern ty types).2.get? (Universe.intern ty types).1 =
      some ty := by
  unfold Universe.intern
  cases hfind : types.find? ty with
  | some id => exact ⟨h, h.find?_eq_some_iff.mp hfind⟩
  | none =>
      have hfields : ∀ struct, ty = .struct struct →
          ∀ field ∈ struct.fields, types.Holds field := by
        rintro struct rfl field hfield
        exact (hty.1 field hfield).holds
      refine ⟨⟨h.toInterned.add hfind hfields, ?_⟩, ?_⟩
      · intro id other hid
        rw [get?_add] at hid
        split at hid
        · cases hid
          exact hty.grow (grows_add types ty)
        · exact (h.admits hid).grow (grows_add types ty)
      · simp [get?_add]

/-! ## Spelling types out -/

theorem isSome_mapM {α β : Type} {f : α → Option β} {values : List α}
    (h : ∀ value ∈ values, (f value).isSome) : (values.mapM f).isSome := by
  induction values with
  | nil => rfl
  | cons first rest ih =>
      obtain ⟨result, hresult⟩ := Option.isSome_iff_exists.mp (h first List.mem_cons_self)
      obtain ⟨results, hresults⟩ := Option.isSome_iff_exists.mp
        (ih fun value hvalue => h value (List.mem_cons_of_mem _ hvalue))
      simp [List.mapM_cons, hresult, hresults]

section Older

variable (older : ∀ {id : TypeId} {struct : StructTy}, types.get? id = some (.struct struct) →
  ∀ field ∈ struct.fields, field.index < id.index)

include older

/-- Structs nest less deeply than their handles say. -/
theorem isSome_shapeWithin {depth : Nat} {id : TypeId} (hdepth : id.index < depth)
    (hid : types.Holds id) : (types.shapeWithin depth id).isSome := by
  induction depth generalizing id with
  | zero => omega
  | succ depth ih =>
      obtain ⟨ty, hty⟩ := hid
      unfold shapeWithin
      rw [hty]
      cases ty with
      | int width => rfl
      | bool => rfl
      | flexible => rfl
      | struct struct =>
          -- the fields are older, so the room that is left suffices for them
          have hvalid := holds_iff.mp ⟨_, hty⟩
          have hfields : (struct.fields.mapM (types.shapeWithin depth)).isSome := by
            refine isSome_mapM fun field hfield => ?_
            have hfield := older hty field hfield
            exact ih (by omega) (holds_iff.mpr (by omega))
          simpa using hfields

theorem exists_describe?_of_older {id : TypeId} (hid : types.Holds id) :
    ∃ text, types.describe? id = some text := by
  obtain ⟨shape, hshape⟩ := Option.isSome_iff_exists.mp
    (isSome_shapeWithin older (Nat.lt_succ_self _) hid)
  exact ⟨shape.describe, by rw [describe?, shape?, hshape]; rfl⟩

end Older

/-- Every valid handle has a text. -/
theorem Interned.exists_describe? (h : types.Interned) {id : TypeId} (hid : types.Holds id) :
    ∃ text, types.describe? id = some text :=
  exists_describe?_of_older h.older hid

/-! ## What two types have in common -/

/-- What two handles have in common, by cases on their types. -/
inductive Meets (types : Universe) : TypeId → TypeId → Promotion → Prop where
  | equal {id : TypeId} {ty : Ty} : types.get? id = some ty → ty ≠ .flexible →
      Meets types id id (.resolved id)
  | flexible {id : TypeId} : types.get? id = some .flexible → Meets types id id .stillFlexible
  | struct {left right : TypeId} {l r : Ty} : types.get? left = some l →
      types.get? right = some r → left ≠ right → l.struct?.isSome ∨ r.struct?.isSome →
      Meets types left right .incompatible
  | int {left right id : TypeId} {l r : Ty} {width : Nat} : types.get? left = some l →
      types.get? right = some r → left ≠ right → l.struct? = none → r.struct? = none →
      Option.merge max l.intWidth? r.intWidth? = some width → types.get? id = some (.int width) →
      Meets types left right (.resolved id)
  | neither {left right : TypeId} {l r : Ty} : types.get? left = some l →
      types.get? right = some r → left ≠ right → l.struct? = none → r.struct? = none →
      l.intWidth? = none → r.intWidth? = none → Meets types left right .stillFlexible

theorem eq_int_of_intWidth? {ty : Ty} {width : Nat} (h : ty.intWidth? = some width) :
    ty = .int width := by
  cases ty <;> simp_all [Ty.intWidth?]

/-- The wider of two integers is one of them. -/
theorem exists_get?_of_merge {left right : TypeId} {l r : Ty} {width : Nat}
    (hl : types.get? left = some l) (hr : types.get? right = some r)
    (h : Option.merge max l.intWidth? r.intWidth? = some width) :
    ∃ id, types.get? id = some (.int width) := by
  cases hlw : l.intWidth? with
  | none =>
      rw [hlw, Option.merge_none_left] at h
      exact ⟨right, by rw [hr, eq_int_of_intWidth? h]⟩
  | some a =>
      cases hrw : r.intWidth? with
      | none =>
          rw [hlw, hrw, Option.merge_none_right] at h
          exact ⟨left, by rw [hl, eq_int_of_intWidth? (hlw.trans h)]⟩
      | some b =>
          rw [hlw, hrw] at h
          cases h
          rcases Nat.le_total a b with hle | hle
          · exact ⟨right, by rw [hr, eq_int_of_intWidth? hrw, Nat.max_eq_right hle]⟩
          · exact ⟨left, by rw [hl, eq_int_of_intWidth? hlw, Nat.max_eq_left hle]⟩

/-- Looking for what two types have in common adds no type. -/
theorem Interned.common?_eq (h : types.Interned) {left right : TypeId} (hleft : types.Holds left)
    (hright : types.Holds right) :
    ∃ promotion, types.common? left right = some (promotion, types) ∧
      types.Meets left right promotion := by
  obtain ⟨l, hl⟩ := hleft
  obtain ⟨r, hr⟩ := hright
  unfold common?
  simp only [hl, hr]
  split
  · rename_i heq
    subst heq
    split
    · rename_i hflexible
      exact ⟨_, rfl, .flexible (hflexible ▸ hl)⟩
    · rename_i hflexible
      exact ⟨_, rfl, .equal hl hflexible⟩
  · rename_i hne
    split
    · rename_i hstruct
      exact ⟨_, rfl, .struct hl hr hne (by simpa using hstruct)⟩
    · rename_i hstruct
      have hplain : l.struct? = none ∧ r.struct? = none := by simpa using hstruct
      cases hmerge : Option.merge max l.intWidth? r.intWidth? with
      | some width =>
          -- interning the width finds the handle that one of the two has
          obtain ⟨id, hid⟩ := exists_get?_of_merge hl hr hmerge
          have hfind : types.find? (.int width) = some id := h.find?_eq_some_iff.mpr hid
          refine ⟨.resolved id, ?_, .int hl hr hne hplain.1 hplain.2 hmerge hid⟩
          simp only [internInt_eq_intern, Universe.intern, hfind]
      | none =>
          have hnone : l.intWidth? = none ∧ r.intWidth? = none := by simpa using hmerge
          exact ⟨_, rfl, .neither hl hr hne hplain.1 hplain.2 hnone.1 hnone.2⟩

end Universe

end FlexWidth
