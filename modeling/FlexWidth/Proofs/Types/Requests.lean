import FlexWidth.Proofs.Types.Shapes
import Mathlib

/-!
# Universes that requests have made

A universe starts empty and is changed by requests alone: for the handle of a type, or for
what two types have in common.  A request is made with handles that earlier requests have
returned.  Whatever the requests were, the universe is interned and the returned handles are
valid (`Request.Keeps`), so it answers every further request, its arena holds no type twice,
its tables are exact, and handles are equal exactly if they denote the same shape.
-/

namespace FlexWidth

/-- What can be asked of a universe. -/
inductive Request where
  | bool
  | flexible
  | int (width : Nat)
  | defaultInt
  | struct (written : StructTy)
  /-- What two types have in common. -/
  | common (left right : TypeId)
deriving DecidableEq

/-- The handle that a promotion gives, if it gives one. -/
def Promotion.handles : Promotion → List TypeId
  | resolved type => [type]
  | stillFlexible | incompatible => []

namespace Request

/-- The handles that a request is made with. -/
def handles : Request → List TypeId
  | struct written => written.fields
  | common left right => [left, right]
  | bool | flexible | int _ | defaultInt => []

/-- The handles that a request returns, and the universe after it. -/
def serve (types : Universe) : Request → Option (List TypeId × Universe)
  | bool => some ([types.internBool.1], types.internBool.2)
  | flexible => some ([types.internFlexible.1], types.internFlexible.2)
  | int width => some ([(types.internInt width).1], (types.internInt width).2)
  | defaultInt => some ([types.internDefaultInt.1], types.internDefaultInt.2)
  | struct written => some ([(types.internStruct written).1], (types.internStruct written).2)
  | common left right =>
    (types.common? left right).map fun (promotion, later) => (promotion.handles, later)

/-- Serves a request with handles that have been returned, and adds those that it returns. -/
def step (state : List TypeId × Universe) (request : Request) : Option (List TypeId × Universe) :=
  if request.handles ⊆ state.1 then
    (request.serve state.2).map fun (ids, later) => (ids ++ state.1, later)
  else none

/-- Serves requests one after the other, from the empty universe on. -/
def run (requests : List Request) : Option (List TypeId × Universe) :=
  requests.foldlM step ([], .empty)

/-! ## What a request keeps -/

/-- The universe is interned, and every handle that it has returned is valid. -/
structure Keeps (state : List TypeId × Universe) : Prop where
  interned : state.2.Interned
  holds : ∀ id ∈ state.1, state.2.Holds id

end Request

namespace Universe

variable {types later : Universe} {ty : Ty} {id other : TypeId}

theorem Grows.holds (h : types.Grows later) (hid : types.Holds id) : later.Holds id := by
  obtain ⟨ty, hty⟩ := hid
  exact ⟨ty, h.get? hty⟩

/-- Interning a type whose fields are valid gives a valid handle. -/
theorem Interned.intern_of_holds (h : types.Interned)
    (hfields : ∀ struct, ty = .struct struct → ∀ field ∈ struct.fields, types.Holds field) :
    (Universe.intern ty types).2.Interned ∧
      (Universe.intern ty types).2.Holds (Universe.intern ty types).1 := by
  unfold Universe.intern
  cases hfind : types.find? ty with
  | some id => exact ⟨h, ty, h.find?_eq_some_iff.mp hfind⟩
  | none => exact ⟨h.add hfind hfields, ty, by simp [get?_add]⟩

/-- What two types have in common is a type that is there. -/
theorem Meets.holds {left right : TypeId} {promotion : Promotion}
    (h : types.Meets left right promotion) : ∀ id ∈ promotion.handles, types.Holds id := by
  intro id hid
  cases h with
  | equal hty _ =>
      cases List.mem_singleton.mp hid
      exact ⟨_, hty⟩
  | int _ _ _ _ _ _ hty =>
      cases List.mem_singleton.mp hid
      exact ⟨_, hty⟩
  | flexible => cases hid
  | struct => cases hid
  | neither => cases hid

/-- The arena holds no type twice. -/
theorem Interned.nodup_arena (h : types.Interned) : types.arena.toList.Nodup := by
  rw [List.nodup_iff_getElem?_ne_getElem?]
  intro i j hlt hj heq
  obtain ⟨ty, hty⟩ : ∃ ty, types.arena.toList[j]? = some ty := ⟨_, List.getElem?_eq_getElem hj⟩
  have hi : types.get? ⟨i⟩ = some ty := by
    rw [get?, ← Array.getElem?_toList, heq, hty]
  have hj : types.get? ⟨j⟩ = some ty := by
    rw [get?, ← Array.getElem?_toList, hty]
  have hsame : i = j := congrArg TypeId.index (h.eq_of_get? hi hj)
  omega

/-- Handles are equal exactly if the types that they denote are. -/
theorem Interned.eq_iff_shape?_eq (h : types.Interned) (hid : types.Holds id) :
    id = other ↔ types.shape? id = types.shape? other := by
  constructor
  · intro heq
    rw [heq]
  · intro heq
    obtain ⟨shape, hshape⟩ := h.exists_denotes hid
    exact h.eq_of_denotes hshape (heq.symm.trans hshape)

end Universe

namespace Request

variable {state : List TypeId × Universe} {request : Request}

theorem keeps_empty : Keeps ([], .empty) := by
  refine ⟨Universe.interned_empty, ?_⟩
  simp

theorem Keeps.intern (h : Keeps state) (ty : Ty)
    (hfields : ∀ struct, ty = .struct struct → ∀ field ∈ struct.fields, field ∈ state.1) :
    Keeps ([(Universe.intern ty state.2).1] ++ state.1, (Universe.intern ty state.2).2) := by
  obtain ⟨hinterned, hholds⟩ := h.interned.intern_of_holds fun struct hty field hfield =>
    h.holds field (hfields struct hty field hfield)
  refine ⟨hinterned, ?_⟩
  intro id hid
  rcases List.mem_cons.mp hid with rfl | hid
  · exact hholds
  · exact (Universe.grows_intern state.2 ty).holds (h.holds id hid)

/-- **A request is answered** if it is made with handles that have been returned, and keeps
the universe interned. -/
theorem Keeps.exists_step (h : Keeps state) (hhandles : request.handles ⊆ state.1) :
    ∃ next, request.step state = some next ∧ Keeps next := by
  rw [step, if_pos hhandles]
  cases request with
  | bool => exact ⟨_, rfl, h.intern .bool (by simp)⟩
  | flexible => exact ⟨_, rfl, h.intern .flexible (by simp)⟩
  | int width => exact ⟨_, rfl, h.intern (.int width) (by simp)⟩
  | defaultInt => exact ⟨_, rfl, h.intern (.int Ascription.defaultWidth) (by simp)⟩
  | struct written =>
      refine ⟨_, rfl, h.intern (.struct written) ?_⟩
      intro other hty field hfield
      cases hty
      exact hhandles hfield
  | common left right =>
      have hleft : left ∈ state.1 := hhandles (by simp [handles])
      have hright : right ∈ state.1 := hhandles (by simp [handles])
      obtain ⟨promotion, hcommon, hmeets⟩ :=
        h.interned.common?_eq (h.holds left hleft) (h.holds right hright)
      refine ⟨(promotion.handles ++ state.1, state.2), by simp [serve, hcommon], h.interned, ?_⟩
      intro id hid
      rcases List.mem_append.mp hid with hid | hid
      · exact hmeets.holds id hid
      · exact h.holds id hid

theorem handles_subset_of_step {next : List TypeId × Universe}
    (h : request.step state = some next) : request.handles ⊆ state.1 := by
  by_contra hnot
  rw [step, if_neg hnot] at h
  cases h

theorem Keeps.foldlM (h : Keeps state) {requests : List Request} {final : List TypeId × Universe}
    (hrun : requests.foldlM step state = some final) : Keeps final := by
  induction requests generalizing state with
  | nil =>
      cases hrun
      exact h
  | cons first rest ih =>
      rw [List.foldlM_cons] at hrun
      obtain ⟨next, hstep, hrest⟩ := Option.bind_eq_some_iff.mp hrun
      obtain ⟨next', hstep', hnext⟩ := h.exists_step (handles_subset_of_step hstep)
      cases hstep.symm.trans hstep'
      exact ih hnext hrest

/-! ## The invariant of interning -/

/-- **Interning is exact along every sequence of requests.**  Whatever was asked of it, a
universe holds no type twice, its tables map exactly the types of the arena to their
handles, a struct is younger than its fields, and two of its handles are equal if and only
if the types that they denote, spelled out in full, are equal.  It goes on to answer every
request that is made with handles it has returned. -/
theorem interned_of_run {requests : List Request} {returned : List TypeId} {types : Universe}
    (h : run requests = some (returned, types)) :
    types.arena.toList.Nodup ∧
      (∀ width id, types.ints.lookup width = some id ↔ types.get? id = some (.int width)) ∧
      (∀ struct id, types.structs.lookup struct = some id ↔
        types.get? id = some (.struct struct)) ∧
      (∀ id, types.boolean = some id ↔ types.get? id = some .bool) ∧
      (∀ id, types.flexible = some id ↔ types.get? id = some .flexible) ∧
      (∀ id struct, types.get? id = some (.struct struct) →
        ∀ field ∈ struct.fields, field.index < id.index) ∧
      (∀ id, id.index < types.size → ∃ shape, types.shape? id = some shape) ∧
      (∀ id other, id.index < types.size →
        (id = other ↔ types.shape? id = types.shape? other)) ∧
      (∀ id ∈ returned, id.index < types.size) ∧
      ∀ request : Request, request.handles ⊆ returned →
        ∃ next, request.step (returned, types) = some next := by
  have hkeeps : Keeps (returned, types) := keeps_empty.foldlM h
  have hinterned : types.Interned := hkeeps.interned
  refine ⟨hinterned.nodup_arena, ?_, ?_, ?_, ?_, ?_, ?_, ?_, ?_, ?_⟩
  · intro width id
    exact (hinterned.find?_eq_some_iff : types.find? (.int width) = some id ↔ _)
  · intro struct id
    exact (hinterned.find?_eq_some_iff : types.find? (.struct struct) = some id ↔ _)
  · intro id
    exact (hinterned.find?_eq_some_iff : types.find? .bool = some id ↔ _)
  · intro id
    exact (hinterned.find?_eq_some_iff : types.find? .flexible = some id ↔ _)
  · intro id struct hid
    exact hinterned.older hid
  · intro id hid
    exact hinterned.exists_denotes (Universe.holds_iff.mpr hid)
  · intro id other hid
    exact hinterned.eq_iff_shape?_eq (Universe.holds_iff.mpr hid)
  · intro id hid
    exact Universe.holds_iff.mp (hkeeps.holds id hid)
  · intro request hhandles
    obtain ⟨next, hstep, -⟩ := hkeeps.exists_step hhandles
    exact ⟨next, hstep⟩

/-- A struct asked for twice has one handle, and a struct around it has another. -/
theorem interned_of_run_nested :
    let pair : StructTy := ⟨[⟨0⟩, ⟨1⟩], .ofList [("x", 0)]⟩
    let requests : List Request :=
      [.int 8, .bool, .struct pair, .struct ⟨[⟨2⟩, ⟨0⟩], .empty⟩, .struct pair, .common ⟨1⟩ ⟨0⟩]
    ∃ types, run requests = some ([⟨0⟩, ⟨2⟩, ⟨3⟩, ⟨2⟩, ⟨1⟩, ⟨0⟩], types) ∧
      types.arena.toList.Nodup ∧ types.shape? ⟨2⟩ ≠ types.shape? ⟨3⟩ := by
  intro pair requests
  obtain ⟨types, hrun⟩ : ∃ types,
      run requests = some ([⟨0⟩, ⟨2⟩, ⟨3⟩, ⟨2⟩, ⟨1⟩, ⟨0⟩], types) := ⟨_, by cbv⟩
  obtain ⟨hnodup, -, -, -, -, -, -, hequal, hvalid, -⟩ := interned_of_run hrun
  have hdiffer := (hequal ⟨2⟩ ⟨3⟩ (hvalid ⟨2⟩ (by simp))).not.mp (by simp)
  exact ⟨types, hrun, hnodup, hdiffer⟩

end Request

end FlexWidth
