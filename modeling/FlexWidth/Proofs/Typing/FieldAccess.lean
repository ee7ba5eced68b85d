import FlexWidth.Proofs.Typing.Progress
import FlexWidth.Proofs.Typing.ValidHandles
import Mathlib

/-!
# Fields by name and by position

A field can be taken by its name or by its position.  Checking looks a name up in the struct
type and records the position it finds, so that a field which is taken by name can be taken by
the recorded position as well, and has the same type (`positional_of_named`).

The names of a struct type come from a literal, where they are written once each
(`glue_of_run`).  A position is refused exactly if the struct is too short for it
(`unknownField_iff`).
-/

namespace FlexWidth

/-! ## Found types -/

/-- The handle that is found for a type is that of the type. -/
def Universe.Finds (types : Universe) : Prop :=
  ∀ ty id, types.find? ty = some id → types.get? id = some ty

/-- Interning gives a type its handle. -/
theorem Universe.Finds.get?_intern {types : Universe} (h : types.Finds) (ty : Ty) :
    (Universe.intern ty types).2.get? (Universe.intern ty types).1 = some ty := by
  unfold Universe.intern
  cases hfind : types.find? ty with
  | some id => exact h ty id hfind
  | none => simp [Universe.get?_add]

theorem Universe.Finds.intern {types : Universe} (h : types.Finds) (ty : Ty) :
    (Universe.intern ty types).2.Finds := by
  unfold Universe.intern
  split
  · exact h
  · intro other id hid
    rw [Universe.find?_add] at hid
    rw [Universe.get?_add]
    split at hid
    · rename_i heq
      rw [if_pos (Option.some.inj hid).symm, heq]
    · have hget := h other id hid
      rw [if_neg, hget]
      rintro rfl
      rw [Universe.get?_nextId] at hget
      cases hget

theorem Check.invariant_finds :
    Check.Invariant (fun s => s.types.Finds) (fun _ => True) fun _ => True where
  intern hs _ _ := hs.intern _
  setType hs _ := hs
  note _ hs := hs
  refused _ := trivial
  broken _ := trivial
  position _ _ _ _ := trivial

namespace Check

/-! ## Duplicate names -/

/-- The condition that only some names are refused as duplicates. -/
abbrev DuplicatesOnly (allowed : String → Prop) (failure : Failure) : Prop :=
  ∀ name, failure = .refused (.duplicateField name) → allowed name

theorem invariant_duplicatesOnly (allowed : String → Prop) :
    Invariant (fun _ => True) (DuplicatesOnly allowed) fun _ => True where
  intern _ _ _ := trivial
  setType _ _ := trivial
  note _ _ := trivial
  refused := by
    rintro diagnostic hother name heq
    cases heq
    cases hother
  broken := by
    rintro broken _ name heq
    cases heq
  position := by
    rintro s id struct name position _ _ _ _ other heq
    cases heq

theorem keeps_program {I : Checking → Prop} {F : Failure → Prop} {N : String → Prop}
    (h : Invariant I F N) {body : Program}
    (hbody : ∀ value ∈ Stmt.bodyRoots body, Allows F N value) : Keeps I F (program body) := by
  refine (keeps_stmts h body hbody).bind fun _ => keeps_get.bind fun _ => ?_
  exact (keeps_note h _).bind fun _ => keeps_pure _

/-- A name is refused as a duplicate only where a literal has it twice. -/
theorem exists_glue_of_duplicateField {body : Program} {s final : Checking} {name : String}
    (h : program body s = .error (.refused (.duplicateField name)) final) :
    ∃ fields type, .glue fields type ∈ Stmt.bodyNodes body ∧
      2 ≤ (fields.map Prod.fst).count (some name) := by
  let allowed (name : String) : Prop := ∃ value ∈ Stmt.bodyRoots body, value.Repeats name
  have hallows : ∀ value ∈ Stmt.bodyRoots body,
      Allows (DuplicatesOnly allowed) (fun _ => True) value := by
    refine fun value hvalue => ⟨fun written hrepeats name heq => ?_, fun _ _ => trivial⟩
    cases heq
    exact ⟨value, hvalue, hrepeats⟩
  have hkeeps := keeps_program (invariant_duplicatesOnly allowed) hallows
  obtain ⟨-, hduplicates⟩ := (hkeeps s trivial).failed_of_error h
  obtain ⟨value, hvalue, names, hnames, hcount⟩ := hduplicates name rfl
  obtain ⟨node, hnode, hwritten⟩ := List.mem_filterMap.mp hnames
  cases node with
  | glue fields type =>
      cases hwritten
      refine ⟨fields, type, ?_, hcount⟩
      rw [Stmt.bodyNodes_eq_flatMap]
      exact List.mem_flatMap.mpr ⟨value, hvalue, hnode⟩
  | _ => cases hwritten

/-! ## Literals and fields -/

variable {t final : Checking} {base result : Expr} {type : Option TypeId} {depth : Nat}

/-- A struct literal: its type has a field for each that is written, and each name at the
position where it is written. -/
theorem glue_of_run (ht : t.types.Finds) {fields : GlueFields}
    (hrun : tree (recheckAt depth) (.glue fields type) t = .ok result final) :
    ∃ fields' id struct, result = .glue fields' (some id) ∧
      final.types.get? id = some (.struct struct) ∧ struct.fields.length = fields.length ∧
      (fields.filterMap Prod.fst).Nodup ∧
      ∀ name position, struct.names.position? name = some position ↔
        (fields.map Prod.fst)[position]? = some (some name) := by
  rw [tree] at hrun
  obtain ⟨demand, t, hdemand, hnode⟩ := bind_eq_ok_iff.mp hrun
  obtain ⟨rfl, -⟩ := holds_of_run_demandOf hdemand
  obtain ⟨⟨fields', struct⟩, middle, hglue, hrest⟩ := bind_eq_ok_iff.mp hnode
  obtain ⟨id, _, hintern, hresult⟩ := bind_eq_ok_iff.mp hrest
  cases hintern
  cases hresult
  have hallows := allows_true (.glue fields type)
  have hrecheck := rechecks_recheckAt invariant_finds trivial depth
  have hmiddle := (keeps_glueFields invariant_finds hrecheck 0 .empty fields hallows.fields t
    ht).post_of_ok hglue
  obtain ⟨hlength, hnames, hnew⟩ := yields_glueFields_names _ _ _ _ _ _ _ hglue
  refine ⟨fields', _, struct, rfl, ?_, hlength, hnew.1, fun name position => ?_⟩
  · exact hmiddle.get?_intern (.struct struct)
  · rw [hnames, position?_glueNames_empty hnew]

/-- A field that is taken by name can be taken by the position that is recorded, and has the
same type. -/
theorem positional_of_named {name : String} {slot : Option Nat}
    (hrun : tree (recheckAt depth) (.dot base name slot type) t = .ok result final) :
    ∃ base' position id, result = .dot base' name (some position) (some id) ∧
      ∀ type', (∀ own ∈ type', t.types.Holds own) →
        tree (recheckAt depth) (.index base position type') t =
          .ok (.index base' position (some id)) final := by
  rw [tree] at hrun
  obtain ⟨demand, t, hdemand, hnode⟩ := bind_eq_ok_iff.mp hrun
  obtain ⟨rfl, -⟩ := holds_of_run_demandOf hdemand
  obtain ⟨base', middle, hbase, hfield⟩ := bind_eq_ok_iff.mp hnode
  obtain ⟨baseType, s₁, htype, hrest⟩ := bind_eq_ok_iff.mp hfield
  obtain ⟨struct, s₂, hstruct, hrest⟩ := bind_eq_ok_iff.mp hrest
  cases hposition : struct.names.position? name with
  | none =>
      rw [hposition] at hrest
      obtain ⟨_, _, _, hrefuse⟩ := bind_eq_ok_iff.mp hrest
      cases hrefuse
  | some position =>
      rw [hposition] at hrest
      obtain ⟨id, s₃, hid, hresult⟩ := bind_eq_ok_iff.mp hrest
      cases hresult
      cases hget : struct.fields[position]? with
      | none =>
          rw [hget] at hid
          cases hid
      | some found =>
          rw [hget] at hid
          cases hid
          refine ⟨base', position, id, rfl, fun type' hown => ?_⟩
          obtain ⟨demand', hdemand'⟩ := exists_run_demandOf_of_holds hown
          rw [tree, run_bind_ok hdemand', run_bind_ok hbase, positionedField, run_bind_ok htype,
            run_bind_ok hstruct, hget]
          rfl

section Position

variable {base' : Expr} {id : TypeId} {struct : StructTy}
  (hbase : tree (recheckAt depth) base t = .ok base' final) (htype : base'.type? = some id)
  (hget : final.types.get? id = some (.struct struct)) (position : Nat) {type : Option TypeId}
  (hown : ∀ own ∈ type, t.types.Holds own)

include hbase htype hget hown

/-- A field that is taken by position is looked up in the type of the struct. -/
theorem run_index :
    tree (recheckAt depth) (.index base position type) t =
      match struct.fields[position]? with
      | some fieldType => .ok (.index base' position (some fieldType)) final
      | none => unknownField (toString position) id final := by
  have hstruct : structOf id final = .ok struct final := by
    rw [structOf, run_bind_ok (run_typeAt hget)]
    rfl
  obtain ⟨demand, hdemand⟩ := exists_run_demandOf_of_holds hown
  rw [tree, run_bind_ok hdemand, run_bind_ok hbase, positionedField, run_bind_ok (run_typeOf htype),
    run_bind_ok hstruct]
  cases struct.fields[position]? <;> rfl

/-- A position is refused exactly if the struct has no field there. -/
theorem unknownField_iff (ht : t.Tidy) (hvalid : base.ValidIn t.types) :
    (∃ text later, tree (recheckAt depth) (.index base position type) t =
        .error (.refused (.unknownField (toString position) text)) later) ↔
      struct.fields.length ≤ position := by
  obtain ⟨-, hfinal, -⟩ := (upholds_tree ht hvalid depth).post_of_ok hbase
  rw [run_index hbase htype hget position hown, ← List.getElem?_eq_none_iff]
  cases struct.fields[position]? with
  | some fieldType => simp
  | none =>
      obtain ⟨text, htext⟩ := exists_run_describe hfinal.interned hget
      refine ⟨fun _ => rfl, fun _ => ⟨text, final, ?_⟩⟩
      dsimp only
      rw [unknownField, run_bind_ok htext]
      rfl

end Position

end Check

/-! ## Programs -/

/-- What holds in a state of fields that are written and of fields that are taken there. -/
structure Checking.AccessesFields (t : Checking) : Prop where
  /-- A literal that is accepted repeats no name, and its type has the fields and the names that
  are written. -/
  glue : ∀ {depth : Nat} {fields : GlueFields} {type : Option TypeId} {result : Expr}
    {final : Checking},
    Check.tree (Check.recheckAt depth) (.glue fields type) t = .ok result final →
    ∃ fields' id struct, result = .glue fields' (some id) ∧
      final.types.get? id = some (.struct struct) ∧ struct.fields.length = fields.length ∧
      (fields.filterMap Prod.fst).Nodup ∧
      ∀ name position, struct.names.position? name = some position ↔
        (fields.map Prod.fst)[position]? = some (some name)
  /-- What can be taken by name can be taken by the recorded position, with the same type. -/
  dot : ∀ {depth : Nat} {base : Expr} {name : String} {slot : Option Nat} {type : Option TypeId}
    {result : Expr} {final : Checking},
    Check.tree (Check.recheckAt depth) (.dot base name slot type) t = .ok result final →
    ∃ base' position id, result = .dot base' name (some position) (some id) ∧
      ∀ type', (∀ own ∈ type', t.types.Holds own) →
        Check.tree (Check.recheckAt depth) (.index base position type') t =
          .ok (.index base' position (some id)) final
  /-- A position below the number of fields can be taken, and every other one is refused. -/
  index : ∀ {depth : Nat} {base base' : Expr} {id : TypeId} {struct : StructTy}
    {final : Checking}, base.HandlesIn t.types →
    Check.tree (Check.recheckAt depth) base t = .ok base' final → base'.type? = some id →
    final.types.get? id = some (.struct struct) →
    ∀ position type, (∀ own ∈ type, t.types.Holds own) →
    (∀ fieldType, struct.fields[position]? = some fieldType →
      Check.tree (Check.recheckAt depth) (.index base position type) t =
        .ok (.index base' position (some fieldType)) final) ∧
      ((∃ text later, Check.tree (Check.recheckAt depth) (.index base position type) t =
          .error (.refused (.unknownField (toString position) text)) later) ↔
        struct.fields.length ≤ position)
  /-- A node that has a type already, but one that is nowhere, is not checked at all. -/
  unknown : ∀ {depth : Nat} {value : Expr} {own : TypeId}, value.type? = some own →
    t.types.get? own = none →
    Check.tree (Check.recheckAt depth) value t = .error (.broken .unknownType) t

theorem Checking.Tidy.accessesFields {t : Checking} (h : t.Tidy) : t.AccessesFields where
  glue hrun := Check.glue_of_run (fun _ _ => h.interned.find?_eq_some_iff.mp) hrun
  dot hrun := Check.positional_of_named hrun
  index hhandles hbase htype hget position type hown := by
    refine ⟨fun fieldType hfield => ?_, Check.unknownField_iff hbase htype hget position hown h
      (h.interned.validIn_iff.mpr hhandles)⟩
    rw [Check.run_index hbase htype hget position hown, hfield]
  unknown htype hown := Check.run_tree_of_unknown htype hown

theorem Checking.tidy_initial {program body : Program} {symbols : SymbolTable}
    {start log : Array Event}
    (hresolve : Frontend.resolve program start = .ok (body, symbols) log) :
    (Checking.initial symbols log).Tidy where
  spelled := ⟨_, Checking.spelled_of_untyped Universe.interned_empty
    (untyped_of_resolve hresolve) log⟩
  lawful := by
    intro id struct hid
    simp [Checking.initial, Universe.empty, Universe.get?] at hid

/-- **Fields by name and by position agree.**  While a resolved program without types is
checked, and wherever its check ends, the names of every struct stand for different fields that
it has, and the name at a position is the one that stands for it.  So no field is missing whose
name has been found, and a name is refused as a duplicate only if a literal has it twice.  In
every state that is reached, literals get the fields and names that are written in them, and a
field can be taken by name only if it can be taken by position. -/
theorem accessesFields_of_reached {program body : Program} {symbols : SymbolTable}
    {start log : Array Event}
    (hresolve : Frontend.resolve program start = .ok (body, symbols) log)
    (huntyped : ∀ node ∈ Stmt.bodyNodes body, node.type? = none) :
    (∀ t, Check.Reached body (.initial symbols log) t ∨
        t = stateOf (Check.program body (.initial symbols log)) →
      ∀ id struct, t.types.get? id = some (.struct struct) → struct.Lawful ∧
        ∀ name position, struct.names.nameAt? position = some name ↔
          struct.names.position? name = some position) ∧
      (∀ failure final, Check.program body (.initial symbols log) = .error failure final →
        failure ≠ .broken .unknownPosition ∧
          ∀ name, failure = .refused (.duplicateField name) → ∃ fields type,
            .glue fields type ∈ Stmt.bodyNodes body ∧
              2 ≤ (fields.map Prod.fst).count (some name)) ∧
      (∀ t, Check.Reached body (.initial symbols log) t → t.AccessesFields) ∧
      ∀ depth value t, Check.Makes body (.initial symbols log) (.tree depth value) t →
        value.HandlesIn t.types := by
  have hinitial := Checking.tidy_initial hresolve
  have hroots : ∀ value ∈ Stmt.bodyRoots body, value.Untyped := by
    intro value hvalue node hnode
    refine huntyped node ?_
    rw [Stmt.bodyNodes_eq_flatMap]
    exact List.mem_flatMap.mpr ⟨value, hvalue, hnode⟩
  have htidy {t : Checking} (ht : Check.Reached body (.initial symbols log) t) : t.Tidy :=
    ht.tidy hroots hinitial
  have hkeeps : Check.Keeps _ _ (Check.program body) :=
    Check.keeps_program Check.invariant_lawfulNames fun value _ => Check.allows_findsFields value
  refine ⟨?_, ?_, fun t ht => (htidy ht).accessesFields, fun depth value t hmakes => ?_⟩
  · intro t ht id struct hid
    have hlawful : struct.Lawful := by
      rcases ht with ht | rfl
      · exact (htidy ht).lawful hid
      · exact (hkeeps.stateOf hinitial.lawful) hid
    exact ⟨hlawful, fun _ _ => hlawful.nameAt?_eq_some_iff⟩
  · intro failure final hrun
    refine ⟨((hkeeps _ hinitial.lawful).failed_of_error hrun).2, ?_⟩
    rintro name rfl
    exact Check.exists_glue_of_duplicateField hrun
  · obtain ⟨ht, hvalue⟩ := hmakes.tidy hroots hinitial
    exact ht.interned.validIn_iff.mp hvalue

/-- The second field of a pair, by its name and by its position, and the third, which a pair does
not have. -/
theorem accessesFields_of_reached_pair :
    ∃ tokens spelled first second symbols log base base' id, ∃ t final : Checking,
      (tokenize "p = (2 < 3, a: 1); x = p.a;" = .ok tokens ∧ parse tokens = .ok spelled ∧
        Frontend.resolve spelled #[] = .ok ([first, second], symbols) log ∧
        (∀ node ∈ Stmt.bodyNodes [first, second], node.type? = none) ∧
        Stmt.bodyRoots [second] = [.dot base "a" none none] ∧
        Check.Arrives [first, second] (Checking.initial symbols log) second t ∧
        Check.tree (Check.recheckAt 0) (.dot base "a" none none) t =
          .ok (.dot base' "a" (some 1) (some id)) final) ∧
      Check.tree (Check.recheckAt 0) (.index base 1 none) t =
          .ok (.index base' 1 (some id)) final ∧
        ∃ text later, Check.tree (Check.recheckAt 0) (.index base 2 none) t =
          .error (.refused (.unknownField "2" text)) later := by
  have hruns : ∃ tokens spelled first first' second symbols log base base' baseId id struct,
      ∃ t final : Checking,
      tokenize "p = (2 < 3, a: 1); x = p.a;" = .ok tokens ∧ parse tokens = .ok spelled ∧
        Frontend.resolve spelled #[] = .ok ([first, second], symbols) log ∧
        (∀ node ∈ Stmt.bodyNodes [first, second], node.type? = none) ∧
        Stmt.bodyRoots [second] = [.dot base "a" none none] ∧
        (∀ node ∈ base.nodes, node.type? = none) ∧
        Check.stmt first (Checking.initial symbols log) = .ok first' t ∧
        Check.tree (Check.recheckAt 0) base t = .ok base' final ∧ base'.type? = some baseId ∧
        final.types.get? baseId = some (.struct struct) ∧ struct.fields.length = 2 ∧
        Check.tree (Check.recheckAt 0) (.dot base "a" none none) t =
          .ok (.dot base' "a" (some 1) (some id)) final :=
    ⟨_, _, _, _, _, _, _, _, _, _, _, _, _, _, by cbv, by cbv, by cbv, by decide, by cbv, by decide,
      by cbv, by cbv, by cbv, by cbv, by cbv, by cbv⟩
  obtain ⟨tokens, spelled, first, first', second, symbols, log, base, base', baseId, id, struct, t,
    final, htokens, hparse, hresolve, huntyped, hroots, hbare, hfirst, hbase, htype, hget, hlength,
    hdot⟩ := hruns
  have harrives : Check.Arrives [first, second] (Checking.initial symbols log) second t :=
    .later hfirst .here
  have hhandles : base.HandlesIn t.types := by
    intro node hnode id hid
    rw [hbare node hnode] at hid
    cases hid
  obtain ⟨-, -, haccess, -⟩ := accessesFields_of_reached hresolve huntyped
  have hfields := haccess t (.begins harrives)
  obtain ⟨_, _, _, heq, hindex⟩ := hfields.dot hdot
  cases heq
  have hrefused := (hfields.index hhandles hbase htype hget 2 none (by simp)).2.mpr hlength.le
  exact ⟨tokens, spelled, first, second, symbols, log, base, base', id, t, final,
    ⟨htokens, hparse, hresolve, huntyped, hroots, harrives, hdot⟩, hindex none (by simp), hrefused⟩

end FlexWidth
