import FlexWidth.Proofs.Grammar.Surface
import FlexWidth.Proofs.Token.LongestMatch
import FlexWidth.Proofs.Types.Shapes
import FlexWidth.Proofs.Typing.FieldNames
import Mathlib

/-!
# Descriptions identify types

The description of a type is a flat text.  The fields of a struct are set apart by the same
commas at every depth, and the name of a field may be spelled like a type.  Still the text can be
read in one way only.  What is read is followed by any other text, so that the induction goes
through (`Shape.describe_append_inj`):

* the first letter tells which kind of type it is;
* a field begins with a word, and the character after it tells whether that is a name: it is a
  colon after a name, and never after the first word of a type.

So in an interned universe whose field names are names, two handles with the same description
are the same handle (`Universe.Interned.eq_of_describe?_eq`).
-/

namespace FlexWidth

/-! ## Names -/

/-- Names are determined by what they stand for. -/
theorem FieldNames.eq_of_position?_iff {names other : FieldNames}
    (h : ∀ name position,
      names.position? name = some position ↔ other.position? name = some position) :
    names = other := by
  have hnodup (names : FieldNames) : names.entries.Nodup :=
    names.sorted.imp fun hlt heq => absurd (heq ▸ hlt) (lt_irrefl _)
  have hmem (entry : String × Nat) : entry ∈ names.entries ↔ entry ∈ other.entries := by
    rw [← position?_eq_some_iff, ← position?_eq_some_iff, h]
  have hperm := (List.perm_ext_iff_of_nodup (hnodup names) (hnodup other)).mpr hmem
  -- two sorted lists of the same entries
  have hentries : names.entries = other.entries := by
    refine hperm.eq_of_pairwise (fun a b _ _ hlt hgt => ?_) names.sorted other.sorted
    exact absurd (lt_trans hlt hgt) (lt_irrefl _)
  cases names
  cases other
  cases hentries
  rfl

/-- The names of two structs are the same if each field has the same name in both. -/
theorem StructTy.Lawful.names_eq {struct other : StructTy} (h : struct.Lawful)
    (hother : other.Lawful) (hlength : struct.fields.length = other.fields.length)
    (hnames : ∀ position < struct.fields.length,
      struct.names.nameAt? position = other.names.nameAt? position) :
    struct.names = other.names := by
  refine FieldNames.eq_of_position?_iff fun name position => ?_
  rw [← h.nameAt?_eq_some_iff, ← hother.nameAt?_eq_some_iff]
  constructor
  · intro hname
    have hlt := h.lt_length (h.nameAt?_eq_some_iff.mp hname)
    rwa [hnames position hlt] at hname
  · intro hname
    have hlt := hother.lt_length (hother.nameAt?_eq_some_iff.mp hname)
    rw [← hlength] at hlt
    rwa [hnames position hlt]

/-- The names of the struct are names, and stand for different fields that it has. -/
structure StructTy.Readable (struct : StructTy) : Prop extends struct.Lawful where
  named : struct.NamesIn fun name => isName name = true

theorem StructTy.Readable.isName_of_nameAt? {struct : StructTy} (h : struct.Readable)
    {name : String} {position : Nat} (hname : struct.names.nameAt? position = some name) :
    isName name = true :=
  h.named (FieldNames.position?_of_nameAt? hname)

namespace Shape

/-- The names of all structs in the shape are names, and stand for different fields. -/
inductive Readable : Shape → Prop where
  | int (width : Nat) : Readable (.int width)
  | bool : Readable .bool
  | flexible : Readable .flexible
  | struct {ty : StructTy} {fields : List Shape} : ty.Readable →
      ty.fields.length = fields.length → (∀ field ∈ fields, field.Readable) →
      Readable (.struct fields ty.names)

/-! ## Texts of fields -/

/-- The text of the field at a position, after its name if it has one. -/
def fieldText (names : FieldNames) (position : Nat) (field : Shape) : List Char :=
  match names.nameAt? position with
  | some name => name.toList ++ ':' :: ' ' :: field.describe.toList
  | none => field.describe.toList

/-- The text of a struct after a field, where these are the other fields. -/
def fieldsTail (names : FieldNames) (position : Nat) : List Shape → List Char
  | [] => ['\x7d']
  | field :: rest =>
    ',' :: ' ' :: (fieldText names position field ++ fieldsTail names (position + 1) rest)

theorem intercalate_append_eq_fieldsTail (names : FieldNames) (position : Nat) (field : Shape)
    (rest : List Shape) :
    (", ".intercalate (describeFields names position (field :: rest))).toList ++ ['\x7d'] =
      fieldText names position field ++ fieldsTail names (position + 1) rest := by
  have hfield (position : Nat) (field : Shape) (rest : List Shape) :
      (describeFields names position (field :: rest)).map String.toList =
        fieldText names position field ::
          (describeFields names (position + 1) rest).map String.toList := by
    rw [describeFields, List.map_cons, fieldText]
    cases names.nameAt? position <;> simp
  rw [String.toList_intercalate, hfield]
  induction rest generalizing position field with
  | nil => simp [describeFields, fieldsTail, List.intercalate]
  | cons next rest ih =>
      have htail := ih (position + 1) next
      rw [hfield, fieldsTail, ← htail]
      simp [List.intercalate]

/-- The text of a struct after its opening brace. -/
def fieldsText (names : FieldNames) : List Shape → List Char
  | [] => ['\x7d']
  | field :: rest => fieldText names 0 field ++ fieldsTail names 1 rest

theorem describe_struct_toList (fields : List Shape) (names : FieldNames) :
    (describe (.struct fields names)).toList = "struct\x7b".toList ++ fieldsText names fields := by
  rw [describe, String.toList_append, String.toList_append, List.append_assoc]
  congr 1
  cases fields with
  | nil => rfl
  | cons field rest => exact intercalate_append_eq_fieldsTail names 0 field rest

/-! ## Reading a description -/

theorem isDigit_of_mem_toString {width : Nat} :
    ∀ c ∈ (toString width).toList, c.isDigit = true :=
  List.all_eq_true.mp (Text.isNumeral_toString (Nat.lt_succ_self width)).digits

/-- A description begins with a word, after which no colon comes. -/
theorem exists_word (shape : Shape) : ∃ word rest, shape.describe.toList = word ++ rest ∧
    (∀ c ∈ word, continuesWord c = true) ∧
      ∀ c ∈ rest.head?, continuesWord c = false ∧ c ≠ ':' := by
  -- as a check of the list, since there are too many characters to try
  have hword (word : List Char) (h : word.all continuesWord = true) :
      ∀ c ∈ word, continuesWord c = true := List.all_eq_true.mp h
  cases shape with
  | int width =>
      refine ⟨"int".toList, '(' :: ((toString width).toList ++ [')']), by simp [describe],
        hword _ (by decide), by simp; decide⟩
  | bool => exact ⟨"bool".toList, [], by simp [describe], hword _ (by decide), by simp⟩
  | flexible => exact ⟨"flexible".toList, [], by simp [describe], hword _ (by decide), by simp⟩
  | struct fields names =>
      refine ⟨"struct".toList, '\x7b' :: fieldsText names fields, ?_, hword _ (by decide),
        by simp; decide⟩
      rw [describe_struct_toList]
      rfl

/-- After a field comes a comma or a brace. -/
theorem head?_fieldsTail (names : FieldNames) (position : Nat) (fields : List Shape)
    (after : List Char) : ∀ c ∈ (fieldsTail names position fields ++ after).head?,
      continuesWord c = false ∧ c ≠ ':' := by
  cases fields <;> simp [fieldsTail] <;> decide

/-- The type of a field without a name cannot be read as a name. -/
theorem named_ne_describe {name : String} (hname : isName name = true) (field : Shape)
    {after rest : List Char} (hrest : ∀ c ∈ rest.head?, continuesWord c = false ∧ c ≠ ':') :
    name.toList ++ ':' :: after ≠ field.describe.toList ++ rest := by
  intro h
  obtain ⟨word, left, htext, hword, hleft⟩ := field.exists_word
  rw [htext, List.append_assoc] at h
  have hstop : ∀ c ∈ (left ++ rest).head?, continuesWord c = false ∧ c ≠ ':' := by
    cases left with
    | nil => exact hrest
    | cons c left => simpa using hleft
  obtain ⟨-, hcolon⟩ := Pattern.eq_of_stops continuesWord h (continuesWord_of_isName hname)
    (by simp; decide) hword fun c hc => (hstop c hc).1
  exact (hstop ':' (by rw [← hcolon]; rfl)).2 rfl

/-- A field and its name can be read in one way, if its type can. -/
theorem fieldText_append_inj {ty ty' : StructTy} (hty : ty.Readable) (hty' : ty'.Readable)
    {position : Nat} {field other : Shape} {rest rest' : List Char}
    (hinj : ∀ {after after' : List Char},
      field.describe.toList ++ after = other.describe.toList ++ after' →
        field = other ∧ after = after')
    (hrest : ∀ c ∈ rest.head?, continuesWord c = false ∧ c ≠ ':')
    (hrest' : ∀ c ∈ rest'.head?, continuesWord c = false ∧ c ≠ ':')
    (h : fieldText ty.names position field ++ rest =
      fieldText ty'.names position other ++ rest') :
    ty.names.nameAt? position = ty'.names.nameAt? position ∧ field = other ∧ rest = rest' := by
  unfold fieldText at h
  cases hname : ty.names.nameAt? position with
  | some name =>
      have hisName := hty.isName_of_nameAt? hname
      cases hname' : ty'.names.nameAt? position with
      | some name' =>
          simp only [hname, hname', List.append_assoc, List.cons_append] at h
          -- both names end at the first colon
          obtain ⟨heq, htypes⟩ := Pattern.eq_of_stops continuesWord h
            (continuesWord_of_isName hisName) (by simp; decide)
            (continuesWord_of_isName (hty'.isName_of_nameAt? hname')) (by simp; decide)
          obtain ⟨hfield, hafter⟩ := hinj (List.cons.inj (List.cons.inj htypes).2).2
          exact ⟨congrArg some (String.toList_inj.mp heq), hfield, hafter⟩
      | none =>
          simp only [hname, hname', List.append_assoc, List.cons_append] at h
          exact absurd h (named_ne_describe hisName other hrest')
  | none =>
      cases hname' : ty'.names.nameAt? position with
      | some name' =>
          simp only [hname, hname', List.append_assoc, List.cons_append] at h
          exact absurd h.symm (named_ne_describe (hty'.isName_of_nameAt? hname') field hrest)
      | none =>
          simp only [hname, hname'] at h
          exact ⟨rfl, hinj h⟩

/-- A field begins with a character of a word. -/
theorem exists_fieldText_eq_cons {ty : StructTy} (hty : ty.Readable) (position : Nat)
    (field : Shape) :
    ∃ c text, fieldText ty.names position field = c :: text ∧ continuesWord c = true := by
  unfold fieldText
  cases hname : ty.names.nameAt? position with
  | some name =>
      have hword := continuesWord_of_isName (hty.isName_of_nameAt? hname)
      have hforms := (Bool.and_eq_true_iff.mp (hty.isName_of_nameAt? hname)).1
      dsimp only
      revert hword hforms
      cases name.toList with
      | nil =>
          intro _ hforms
          cases hforms
      | cons c rest => exact fun hword _ => ⟨c, _, rfl, hword c List.mem_cons_self⟩
  | none =>
      cases field with
      | int width => exact ⟨'i', _, by simp [describe]; rfl, by decide⟩
      | bool => exact ⟨'b', _, by simp [describe]; rfl, by decide⟩
      | flexible => exact ⟨'f', _, by simp [describe]; rfl, by decide⟩
      | struct fields names => exact ⟨'s', _, by simp [describe]; rfl, by decide⟩

/-- The first field is read like the others, as if there were a comma before it. -/
theorem fieldsTail_eq_of_fieldsText_eq {ty ty' : StructTy} (hty : ty.Readable)
    (hty' : ty'.Readable) {fields others : List Shape} {after after' : List Char}
    (h : fieldsText ty.names fields ++ after = fieldsText ty'.names others ++ after') :
    fieldsTail ty.names 0 fields ++ after = fieldsTail ty'.names 0 others ++ after' := by
  cases fields with
  | nil =>
      cases others with
      | nil => exact h
      | cons other others =>
          obtain ⟨c, text, htext, hword⟩ := exists_fieldText_eq_cons hty' 0 other
          rw [fieldsText, fieldsText, htext] at h
          obtain ⟨rfl, -⟩ := List.cons.inj h
          exact absurd hword (by decide)
  | cons field rest =>
      cases others with
      | nil =>
          obtain ⟨c, text, htext, hword⟩ := exists_fieldText_eq_cons hty 0 field
          rw [fieldsText, fieldsText, htext] at h
          obtain ⟨rfl, -⟩ := List.cons.inj h
          exact absurd hword (by decide)
      | cons other others => exact congrArg (',' :: ' ' :: ·) h

mutual

/-- **Descriptions can be read in one way.** -/
theorem describe_append_inj : (shape other : Shape) → shape.Readable → other.Readable →
    {after after' : List Char} →
    shape.describe.toList ++ after = other.describe.toList ++ after' →
      shape = other ∧ after = after'
  | int width, other, _, _, _, _, h => by
      cases other with
      | int width' =>
          simp only [describe, String.toList_append, List.append_assoc] at h
          -- the digits of both end where the bracket closes
          obtain ⟨hdigits, hrest⟩ := Pattern.eq_of_stops Char.isDigit (List.append_cancel_left h)
            isDigit_of_mem_toString (by simp) isDigit_of_mem_toString (by simp)
          rw [Nat.repr_inj.mp (String.toList_inj.mp hdigits)]
          exact ⟨rfl, List.append_cancel_left hrest⟩
      | _ => simp [describe] at h
  | bool, other, _, _, _, _, h => by
      cases other with
      | bool => exact ⟨rfl, List.append_cancel_left h⟩
      | _ => simp [describe] at h
  | flexible, other, _, _, _, _, h => by
      cases other with
      | flexible => exact ⟨rfl, List.append_cancel_left h⟩
      | _ => simp [describe] at h
  | struct fields _, other, hshape, hother, after, after', h => by
      cases hother with
      | @struct ty' fields' hty' hlength' hfields' =>
          cases hshape with
          | @struct ty _ hty hlength hfields =>
              rw [describe_struct_toList, describe_struct_toList, List.append_assoc,
                List.append_assoc] at h
              have hinside := fieldsTail_eq_of_fieldsText_eq hty hty' (List.append_cancel_left h)
              obtain ⟨rfl, hafter, hnames⟩ := fieldsTail_append_inj hty hty' fields fields' hfields
                hfields' 0 hinside
              simp only [Nat.zero_add] at hnames
              have hnames : ty.names = ty'.names := by
                refine hty.names_eq hty'.toLawful (hlength.trans hlength'.symm) ?_
                rwa [hlength]
              exact ⟨by rw [hnames], hafter⟩
      | _ => simp [describe] at h

/-- The fields of a struct, their names and what follows the struct can be read in one way. -/
theorem fieldsTail_append_inj {ty ty' : StructTy} (hty : ty.Readable) (hty' : ty'.Readable) :
    (fields others : List Shape) → (∀ field ∈ fields, field.Readable) →
    (∀ field ∈ others, field.Readable) → (position : Nat) → {after after' : List Char} →
    fieldsTail ty.names position fields ++ after = fieldsTail ty'.names position others ++ after' →
      fields = others ∧ after = after' ∧ ∀ index < fields.length,
        ty.names.nameAt? (position + index) = ty'.names.nameAt? (position + index)
  | [], others, _, _, _, _, _, h => by
      cases others with
      | nil => exact ⟨rfl, (List.cons.inj h).2, by simp⟩
      | cons other rest => simp [fieldsTail] at h
  | field :: rest, [], _, _, _, _, _, h => by simp [fieldsTail] at h
  | field :: rest, other :: others, hfields, hothers, position, after, after', h => by
      obtain ⟨hfield, hrest⟩ := List.forall_mem_cons.mp hfields
      obtain ⟨hother, hlater⟩ := List.forall_mem_cons.mp hothers
      simp only [fieldsTail, List.cons_append, List.append_assoc] at h
      obtain ⟨hname, rfl, htail⟩ := fieldText_append_inj hty hty'
        (describe_append_inj field other hfield hother) (head?_fieldsTail _ _ _ _)
        (head?_fieldsTail _ _ _ _) (List.cons.inj (List.cons.inj h).2).2
      obtain ⟨rfl, hafter, hnames⟩ := fieldsTail_append_inj hty hty' rest others hrest hlater
        (position + 1) htail
      refine ⟨rfl, hafter, fun index hindex => ?_⟩
      cases index with
      | zero => exact hname
      | succ index =>
          rw [← Nat.succ_add_eq_add_succ]
          exact hnames index (Nat.lt_of_succ_lt_succ hindex)

end

/-- A description is one of a single type. -/
theorem describe_inj {shape other : Shape} (hshape : shape.Readable) (hother : other.Readable)
    (h : shape.describe = other.describe) : shape = other :=
  (describe_append_inj shape other hshape hother (congrArg (·.toList ++ []) h)).1

/-- The word that a mismatch shows where any integer would do describes no type. -/
theorem describe_ne_int (shape : Shape) : shape.describe ≠ "int" := by
  intro h
  have htext := congrArg String.toList h
  cases shape <;> simp [describe] at htext

end Shape

/-! ## Handles -/

namespace Universe

/-- A description stays that of its handle. -/
theorem Grows.describe? {types later : Universe} (h : types.Grows later) {id : TypeId}
    {text : String} (hid : types.describe? id = some text) : later.describe? id = some text := by
  obtain ⟨shape, hshape, rfl⟩ := Option.map_eq_some_iff.mp hid
  exact Option.map_eq_some_iff.mpr ⟨shape, h.shapeWithin hshape, rfl⟩

/-- The valid handles of the front of a universe have texts in it. -/
theorem Grows.exists_describe? {types later : Universe} (h : types.Grows later)
    (hlater : later.Interned) {id : TypeId} (hid : types.Holds id) :
    ∃ text, types.describe? id = some text :=
  exists_describe?_of_older (fun hstruct => hlater.older (h.get? hstruct)) hid

/-- The names of every struct are names, and stand for different fields that it has. -/
def Readable (types : Universe) : Prop :=
  ∀ {id : TypeId} {struct : StructTy}, types.get? id = some (.struct struct) → struct.Readable

variable {types : Universe}

/-- The shapes of handles are readable. -/
theorem Interned.readable_of_denotes (h : types.Interned) (hreadable : types.Readable)
    {id : TypeId} {shape : Shape} (hid : types.Denotes id shape) : shape.Readable := by
  -- the induction is on the handle, since the fields of a struct are older than it
  obtain ⟨bound, hlt⟩ : ∃ bound, id.index < bound := ⟨_, Nat.lt_succ_self _⟩
  induction bound generalizing id shape with
  | zero => omega
  | succ bound ih =>
      obtain ⟨ty, hty, hspells⟩ := h.denotes_iff.mp hid
      cases hspells with
      | int width => exact .int width
      | bool => exact .bool
      | flexible => exact .flexible
      | struct names hfields =>
          refine .struct (hreadable hty) hfields.length_eq fun field hfield => ?_
          obtain ⟨position, hposition⟩ := List.mem_iff_getElem?.mp hfield
          have hrel := rel_getElem?_of_forall₂ hfields position
          rw [hposition] at hrel
          generalize hold : (_ : List TypeId)[position]? = found at hrel
          cases hrel with
          | some hdenotes =>
              have holder := h.older hty _ (List.mem_of_getElem? hold)
              exact ih hdenotes (by omega)

/-- **Descriptions identify types.** -/
theorem Interned.eq_of_describe?_eq (h : types.Interned) (hreadable : types.Readable)
    {id other : TypeId} {text : String} (hid : types.describe? id = some text)
    (hother : types.describe? other = some text) : id = other := by
  obtain ⟨shape, hshape, rfl⟩ := Option.map_eq_some_iff.mp hid
  obtain ⟨shape', hshape', htext⟩ := Option.map_eq_some_iff.mp hother
  have heq := Shape.describe_inj (h.readable_of_denotes hreadable hshape)
    (h.readable_of_denotes hreadable hshape') htext.symm
  subst heq
  exact h.eq_of_denotes hshape hshape'

end Universe

end FlexWidth
