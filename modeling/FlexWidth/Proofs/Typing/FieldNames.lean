import FlexWidth.Proofs.Typing.Erasure
import FlexWidth.Proofs.Typing.ExprCheck
import FlexWidth.Proofs.Typing.Judgement
import Mathlib

/-!
# Names and positions

A struct literal is checked from left to right, and each name is entered with the position at
which it is written.  So the names of its type stand for different fields
(`StructTy.Lawful`), and the name at a position is the name that stands for it.

Checking does not change which names are written, wherever the literal stands
(`Expr.Repeats.of_erase_eq`).
-/

namespace FlexWidth

/-! ## Names of a struct -/

/-- The names of a struct stand for different fields that it has. -/
structure StructTy.Lawful (struct : StructTy) : Prop where
  lt_length : ∀ {name : String} {position : Nat}, struct.names.position? name = some position →
    position < struct.fields.length
  injective : ∀ {name other : String} {position : Nat},
    struct.names.position? name = some position → struct.names.position? other = some position →
      name = other

/-- The names of a struct satisfy the condition. -/
def StructTy.NamesIn (N : String → Prop) (struct : StructTy) : Prop :=
  ∀ {name : String} {position : Nat}, struct.names.position? name = some position → N name

namespace FieldNames

variable {names : FieldNames} {name : String} {position : Nat}

theorem position?_eq_some_iff :
    names.position? name = some position ↔ (name, position) ∈ names.entries := by
  refine ⟨Check.mem_of_position?, fun hmem => ?_⟩
  obtain ⟨before, after, hentries⟩ := List.append_of_mem hmem
  refine List.lookup_eq_some_iff.mpr ⟨before, after, hentries, fun entry hentry => ?_⟩
  -- the entries before have smaller names
  have hsorted := names.sorted
  rw [hentries, List.pairwise_append] at hsorted
  have hlt := hsorted.2.2 entry hentry (name, position) List.mem_cons_self
  exact bne_iff_ne.mpr (ne_of_gt hlt)

theorem position?_of_nameAt? (h : names.nameAt? position = some name) :
    names.position? name = some position := by
  obtain ⟨entry, hfind, rfl⟩ := Option.map_eq_some_iff.mp h
  have hposition : entry.2 = position := by simpa using List.find?_some hfind
  exact position?_eq_some_iff.mpr (hposition ▸ List.mem_of_find?_eq_some hfind)

end FieldNames

/-- The name at a position is the one that stands for it. -/
theorem StructTy.Lawful.nameAt?_eq_some_iff {struct : StructTy} (h : struct.Lawful)
    {name : String} {position : Nat} :
    struct.names.nameAt? position = some name ↔ struct.names.position? name = some position := by
  refine ⟨FieldNames.position?_of_nameAt?, fun hposition => ?_⟩
  have hmem := FieldNames.position?_eq_some_iff.mp hposition
  cases hname : struct.names.nameAt? position with
  | none =>
      have hnone := List.find?_eq_none.mp (Option.map_eq_none_iff.mp hname) _ hmem
      simp at hnone
  | some other => rw [h.injective (FieldNames.position?_of_nameAt? hname) hposition]

namespace Check

/-! ## Names of a literal -/

variable {names : FieldNames} {name : String} {found position : Nat} {fields : GlueFields}

/-- A name stands for what it stood for before, or for the field at which it is written. -/
theorem position?_glueNames (h : NewNames names fields) :
    (glueNames position names fields).position? name = some found ↔
      names.position? name = some found ∨
        ∃ index, (fields.map Prod.fst)[index]? = some (some name) ∧ found = position + index := by
  induction fields generalizing position names with
  | nil => simp [glueNames]
  | cons field rest ih =>
      rw [← Nat.or_exists_add_one]
      obtain ⟨_ | first, value⟩ := field
      · rw [glueNames, ih h]
        simp [Nat.add_assoc, Nat.add_comm 1]
      · obtain ⟨hfirst, hrest⟩ := h.of_cons position
        rw [glueNames, ih hrest, position?_insert]
        by_cases hname : name = first
        · simp [hname, hfirst, Nat.add_assoc, Nat.add_comm 1, eq_comm]
        · simp [hname, Ne.symm hname, Nat.add_assoc, Nat.add_comm 1]

/-- The names of a whole literal stand at the positions where they are written. -/
theorem position?_glueNames_empty (h : NewNames .empty fields) :
    (glueNames 0 .empty fields).position? name = some position ↔
      (fields.map Prod.fst)[position]? = some (some name) := by
  rw [position?_glueNames h]
  constructor
  · rintro (hempty | ⟨index, hindex, rfl⟩)
    · cases hempty
    · rwa [Nat.zero_add]
  · intro hwritten
    exact Or.inr ⟨position, hwritten, (Nat.zero_add position).symm⟩

/-- The struct type of a literal. -/
theorem lawful_of_glueNames {struct : StructTy} (hlength : struct.fields.length = fields.length)
    (hnames : struct.names = glueNames 0 .empty fields) (hnew : NewNames .empty fields) :
    struct.Lawful := by
  have hwritten {name : String} {position : Nat} (h : struct.names.position? name = some position) :
      (fields.map Prod.fst)[position]? = some (some name) := by
    rwa [hnames, position?_glueNames_empty hnew] at h
  refine ⟨fun h => ?_, fun h h' => ?_⟩
  · rw [hlength, ← List.length_map Prod.fst]
    exact (List.getElem?_eq_some_iff.mp (hwritten h)).1
  · exact Option.some.inj (Option.some.inj ((hwritten h).symm.trans (hwritten h')))

theorem yields_addName (names : FieldNames) (position : Nat) (name : Option String)
    (value : Expr) (rest : GlueFields) :
    Yields (addName names position name) fun result =>
      glueNames position names ((name, value) :: rest) = glueNames (position + 1) result rest ∧
        (NewNames result rest → NewNames names ((name, value) :: rest)) := by
  cases name with
  | none => exact yields_pure ⟨rfl, fun hnew => hnew⟩
  | some name =>
      rw [addName]
      split
      · exact yields_refuse _
      · rename_i hname
        exact yields_pure ⟨rfl, .cons (by simpa using hname)⟩

/-- A literal is accepted only if its names differ, and its type has them at the positions where
they are written. -/
theorem yields_glueFields_names (recheck : Expr → CheckM Expr) (position : Nat)
    (names : FieldNames) (fields : GlueFields) :
    Yields (glueFields recheck position names fields) fun result =>
      result.2.fields.length = fields.length ∧
        result.2.names = glueNames position names fields ∧ NewNames names fields := by
  induction fields generalizing position names with
  | nil =>
      rw [glueFields]
      exact yields_pure ⟨rfl, rfl, by simp [NewNames]⟩
  | cons field rest ih =>
      obtain ⟨name, value⟩ := field
      rw [glueFields]
      refine (yields_addName names position name value rest).bind fun names' hnames => ?_
      refine .of_forall fun checked => .of_forall fun final => .of_forall fun type => ?_
      refine (ih (position + 1) names').bind fun result hresult => ?_
      obtain ⟨hlength, hrest, hnew⟩ := hresult
      exact yields_pure ⟨congrArg Nat.succ hlength, hrest.trans hnames.1.symm, hnames.2 hnew⟩

end Check

/-! ## Names that are written -/

namespace Expr

/-- The names of the fields of a struct literal. -/
def fieldNames? : Expr → Option (List (Option String))
  | glue fields _ => some (fields.map Prod.fst)
  | _ => none

theorem map_fst_eraseFields (fields : GlueFields) :
    (eraseFields fields).map Prod.fst = fields.map Prod.fst := by
  rw [eraseFields_eq_map, List.map_map]
  rfl

mutual

theorem filterMap_nodes_erase : (value : Expr) →
    value.erase.nodes.filterMap fieldNames? = value.nodes.filterMap fieldNames?
  | literal _ _ => rfl
  | var _ _ _ => rfl
  | read _ => rfl
  | unary _ operand _ => by
      simp [erase, nodes, List.filterMap_cons, fieldNames?, filterMap_nodes_erase operand]
  | binary _ left right _ => by
      simp [erase, nodes, List.filterMap_cons, fieldNames?, filterMap_nodes_erase left,
        filterMap_nodes_erase right]
  | conversion operand _ => by
      simp [erase, nodes, List.filterMap_cons, fieldNames?, filterMap_nodes_erase operand]
  | load place _ => by
      simp [erase, nodes, List.filterMap_cons, fieldNames?, filterMap_nodes_erase place]
  | glue fields _ => by
      simp [erase, nodes, fieldNames?, map_fst_eraseFields, filterMap_fieldNodes_eraseFields fields]
  | dot base _ _ _ => by
      simp [erase, nodes, List.filterMap_cons, fieldNames?, filterMap_nodes_erase base]
  | index base _ _ => by
      simp [erase, nodes, List.filterMap_cons, fieldNames?, filterMap_nodes_erase base]

theorem filterMap_fieldNodes_eraseFields : (fields : GlueFields) →
    (fieldNodes (eraseFields fields)).filterMap fieldNames? =
      (fieldNodes fields).filterMap fieldNames?
  | [] => rfl
  | (_, value) :: rest => by
      simp [eraseFields, fieldNodes, filterMap_nodes_erase value,
        filterMap_fieldNodes_eraseFields rest]

end

theorem nodes_subset_fieldNodes {fields : GlueFields} {field : Option String × Expr}
    (h : field ∈ fields) : field.2.nodes ⊆ fieldNodes fields := by
  induction fields with
  | nil => cases h
  | cons first rest ih =>
      rw [fieldNodes]
      rcases List.mem_cons.mp h with rfl | h
      · exact List.subset_append_left _ _
      · exact List.Subset.trans (ih h) (List.subset_append_right _ _)

theorem mem_filterMap_nodes_glue (fields : GlueFields) (type : Option TypeId) :
    fields.map Prod.fst ∈ (glue fields type).nodes.filterMap fieldNames? := by
  rw [nodes]
  exact List.mem_filterMap.mpr ⟨_, List.mem_cons_self, rfl⟩

/-- A struct literal in the expression has a field of the name. -/
def Writes (value : Expr) (name : String) : Prop :=
  ∃ names ∈ value.nodes.filterMap fieldNames?, some name ∈ names

/-- A struct literal in the expression has two fields of the name. -/
def Repeats (value : Expr) (name : String) : Prop :=
  ∃ names ∈ value.nodes.filterMap fieldNames?, 2 ≤ names.count (some name)

/-- Checking changes no name that is written. -/
theorem Writes.of_erase_eq {value result : Expr} {name : String} (h : result.Writes name)
    (heq : result.erase = value.erase) : value.Writes name := by
  obtain ⟨names, hnames, hname⟩ := h
  rw [← filterMap_nodes_erase, heq, filterMap_nodes_erase] at hnames
  exact ⟨names, hnames, hname⟩

theorem Repeats.of_erase_eq {value result : Expr} {name : String} (h : result.Repeats name)
    (heq : result.erase = value.erase) : value.Repeats name := by
  obtain ⟨names, hnames, hcount⟩ := h
  rw [← filterMap_nodes_erase, heq, filterMap_nodes_erase] at hnames
  exact ⟨names, hnames, hcount⟩

end Expr

end FlexWidth
