/-!
# Field names

The named fields of a struct: a finite map from names to positions, kept in the
order of the names so that equal maps are equal values.
-/

namespace FlexWidth

/-- Puts a name at its place in a sorted list, in place of an entry of the same
name. -/
def insertName (name : String) (position : Nat) : List (String × Nat) → List (String × Nat)
  | [] => [(name, position)]
  | entry :: rest =>
    if name < entry.1 then (name, position) :: entry :: rest
    else if name = entry.1 then (name, position) :: rest
    else entry :: insertName name position rest

theorem mem_insertName {name : String} {position : Nat} {entries : List (String × Nat)}
    {entry : String × Nat} (h : entry ∈ insertName name position entries) :
    entry = (name, position) ∨ entry ∈ entries := by
  induction entries with
  | nil => exact Or.inl (List.mem_singleton.mp h)
  | cons first rest ih =>
      unfold insertName at h
      split at h
      · rcases List.mem_cons.mp h with rfl | h
        · exact Or.inl rfl
        · exact Or.inr h
      · split at h
        · rcases List.mem_cons.mp h with rfl | h
          · exact Or.inl rfl
          · exact Or.inr (List.mem_cons_of_mem _ h)
        · rcases List.mem_cons.mp h with rfl | h
          · exact Or.inr List.mem_cons_self
          · exact (ih h).imp_right (List.mem_cons_of_mem _)

theorem pairwise_insertName (name : String) (position : Nat) {entries : List (String × Nat)}
    (h : entries.Pairwise fun a b => a.1 < b.1) :
    (insertName name position entries).Pairwise fun a b => a.1 < b.1 := by
  induction entries with
  | nil => exact List.pairwise_singleton _ _
  | cons first rest ih =>
      obtain ⟨hfirst, hrest⟩ := List.pairwise_cons.mp h
      unfold insertName
      split
      · rename_i hlt
        refine List.pairwise_cons.mpr ⟨fun entry hentry => ?_, h⟩
        rcases List.mem_cons.mp hentry with rfl | hentry
        · exact hlt
        · exact String.lt_trans hlt (hfirst entry hentry)
      · split
        · rename_i heq
          exact List.pairwise_cons.mpr ⟨fun entry hentry => heq ▸ hfirst entry hentry, hrest⟩
        · rename_i hlt hne
          have hgt : first.1 < name := Std.lt_of_le_of_ne hlt (Ne.symm hne)
          refine List.pairwise_cons.mpr ⟨fun entry hentry => ?_, ih hrest⟩
          rcases mem_insertName hentry with rfl | hentry
          · exact hgt
          · exact hfirst entry hentry

/-- The names of a struct's named fields and the positions they stand for. -/
structure FieldNames where
  entries : List (String × Nat)
  sorted : entries.Pairwise fun a b => a.1 < b.1
deriving DecidableEq

namespace FieldNames

/-- No names. -/
def empty : FieldNames := ⟨[], .nil⟩

/-- Gives a position a name; the name loses the position it had. -/
def insert (names : FieldNames) (name : String) (position : Nat) : FieldNames :=
  ⟨insertName name position names.entries, pairwise_insertName name position names.sorted⟩

/-- The map with the given entries; of two entries of one name the later counts. -/
def ofList (entries : List (String × Nat)) : FieldNames :=
  entries.foldl (fun names entry => names.insert entry.1 entry.2) empty

/-- The position that a name stands for. -/
def position? (names : FieldNames) (name : String) : Option Nat := names.entries.lookup name

/-- The first name, in the order of the names, that stands for a position. -/
def nameAt? (names : FieldNames) (position : Nat) : Option String :=
  (names.entries.find? fun entry => entry.2 == position).map Prod.fst

end FieldNames

end FlexWidth
