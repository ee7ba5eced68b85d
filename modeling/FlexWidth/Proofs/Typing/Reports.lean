import FlexWidth.Proofs.Typing.Descriptions
import FlexWidth.Proofs.Typing.Keeps
import Mathlib

/-!
# Reports of conversions

`Checking.Logs` says by which conversions the log has grown from one state to a later one, and
`Check.Reports` says of a stage that these are the conversions by which its result exceeds what it
was given.  The texts of types do not change while the universe grows, so that both add up along
a run.

Most steps of the checker report no conversion, whatever the state (`Check.Quiet`).
-/

namespace FlexWidth

/-- The event is that a conversion was inserted. -/
def Event.isConversion : Event → Bool
  | converted _ _ => true
  | _ => false

/-- The conversions that a log reports. -/
def reportedConversions (log : Array Event) : Multiset Event :=
  ↑(log.toList.filter Event.isConversion)

/-- The conversions among some nodes. -/
def conversionsAmong (nodes : List Expr) : Multiset Expr :=
  ↑(nodes.filter Expr.isConversion)

/-- The report of a conversion: the texts of the types of its operand and of itself. -/
def Universe.report? (types : Universe) : Expr → Option Event
  | .conversion operand type => do
      let source ← operand.type?
      let target ← type
      return .converted (← types.describe? source) (← types.describe? target)
  | _ => none

theorem Universe.Grows.report? {types later : Universe} (h : types.Grows later) {node : Expr}
    {event : Event} (hnode : types.report? node = some event) :
    later.report? node = some event := by
  cases node with
  | conversion operand type =>
      simp only [Universe.report?, Option.bind_eq_bind, Option.bind_eq_some_iff] at hnode ⊢
      obtain ⟨source, hsource, target, htarget, text, htext, text', htext', hevent⟩ := hnode
      exact ⟨source, hsource, target, htarget, text, h.describe? htext, text', h.describe? htext',
        hevent⟩
  | _ => cases hnode

@[simp] theorem reportedConversions_push (log : Array Event) (event : Event) :
    reportedConversions (log.push event) =
      reportedConversions log + ↑([event].filter Event.isConversion) := by
  simp [reportedConversions]

@[simp] theorem conversionsAmong_append (nodes others : List Expr) :
    conversionsAmong (nodes ++ others) = conversionsAmong nodes + conversionsAmong others := by
  simp [conversionsAmong]

namespace Expr

/-- The conversions in an expression. -/
def conversions (value : Expr) : Multiset Expr := conversionsAmong value.nodes

variable (value left right : Expr) (type : Option TypeId)

@[simp] theorem conversions_literal (number : Nat) : (literal number type).conversions = 0 := rfl

@[simp] theorem conversions_var (name : String) (symbol : Option SymbolId) :
    (var name symbol type).conversions = 0 := rfl

@[simp] theorem conversions_read : (read type).conversions = 0 := rfl

@[simp] theorem conversions_unary (operator : String) :
    (unary operator value type).conversions = value.conversions := by
  simp [conversions, conversionsAmong, nodes, isConversion]

@[simp] theorem conversions_binary (operator : String) :
    (binary operator left right type).conversions = left.conversions + right.conversions := by
  simp [conversions, conversionsAmong, nodes, isConversion]

@[simp] theorem conversions_conversion :
    (conversion value type).conversions = value.conversions + {conversion value type} := by
  rw [conversions, nodes, conversionsAmong, List.filter_cons_of_pos rfl, add_comm,
    Multiset.singleton_add]
  rfl

@[simp] theorem conversions_load : (load value type).conversions = value.conversions := by
  simp [conversions, conversionsAmong, nodes, isConversion]

@[simp] theorem conversions_glue (fields : GlueFields) :
    (glue fields type).conversions = conversionsAmong (fieldNodes fields) := by
  simp [conversions, conversionsAmong, nodes, isConversion]

@[simp] theorem conversions_dot (field : String) (position : Option Nat) :
    (dot value field position type).conversions = value.conversions := by
  simp [conversions, conversionsAmong, nodes, isConversion]

@[simp] theorem conversions_index (position : Nat) :
    (index value position type).conversions = value.conversions := by
  simp [conversions, conversionsAmong, nodes, isConversion]

@[simp] theorem conversions_loaded : value.loaded.conversions = value.conversions := by
  unfold loaded
  split
  · exact conversions_load value _
  · rfl

theorem IsFlexible.conversions {flex : TypeId} {value : Expr} (h : value.IsFlexible flex) :
    value.conversions = 0 := by
  induction h with
  | literal => simp
  | read => simp
  | sign _ ih => simp [ih]
  | binary _ _ _ ihleft ihright => simp [ihleft, ihright]

/-- No conversion is in a flexible tree that has taken a type. -/
theorem IsFlexible.conversions_retype {flex : TypeId} {value : Expr} (h : value.IsFlexible flex)
    (target : TypeId) : (value.retype target).conversions = 0 := by
  induction h with
  | literal => simp [retype]
  | read => simp [retype]
  | sign _ ih => simp [retype, ih]
  | binary _ _ _ ihleft ihright => simp [retype, ihleft, ihright]

end Expr

/-! ## Growing logs -/

/-- From one state to a later one the log has grown by the reports of the conversions. -/
structure Checking.Logs (s final : Checking) (inserted : Multiset Expr) : Prop where
  grows : s.types.Grows final.types
  reported : (reportedConversions final.log).map some =
    (reportedConversions s.log).map some + inserted.map final.types.report?

namespace Checking

variable {s middle final : Checking} {inserted more : Multiset Expr}

theorem Logs.refl (s : Checking) : s.Logs s 0 := ⟨.refl _, by simp⟩

/-- What has been reported keeps its texts. -/
theorem Logs.map_report? (h : s.Logs middle inserted) {later : Universe}
    (hgrows : middle.types.Grows later) :
    inserted.map middle.types.report? = inserted.map later.report? := by
  refine Multiset.map_congr rfl fun node hnode => ?_
  have hmem : middle.types.report? node ∈ (reportedConversions middle.log).map some := by
    rw [h.reported]
    exact Multiset.mem_add.mpr (Or.inr (Multiset.mem_map_of_mem _ hnode))
  obtain ⟨event, -, hevent⟩ := Multiset.mem_map.mp hmem
  rw [← hevent, hgrows.report? hevent.symm]

theorem Logs.trans (h : s.Logs middle inserted) (h' : middle.Logs final more) :
    s.Logs final (inserted + more) := by
  refine ⟨h.grows.trans h'.grows, ?_⟩
  rw [h'.reported, h.reported, h.map_report? h'.grows, Multiset.map_add, add_assoc]

end Checking

namespace Check

/-! ## Stages that insert no conversion -/

/-- The stage reports no conversion. -/
def Quiet {α : Type} (stage : CheckM α) : Prop :=
  ∀ s value final, stage s = .ok value final → s.Logs final 0

section Quiet

variable {α β : Type}

theorem quiet_of_run {stage : CheckM α} (h : ∀ s value final, stage s = .ok value final →
    s.types.Grows final.types ∧ reportedConversions final.log = reportedConversions s.log) :
    Quiet stage := by
  intro s value final hrun
  obtain ⟨hgrows, hlog⟩ := h s value final hrun
  exact ⟨hgrows, by rw [hlog, Multiset.map_zero, add_zero]⟩

theorem quiet_pure (value : α) : Quiet (pure value) := by
  intro s _ final hrun
  cases hrun
  exact .refl s

theorem quiet_refuse (diagnostic : Diagnostic) : Quiet (refuse diagnostic : CheckM α) := by
  intro s _ final hrun
  cases hrun

theorem quiet_get : Quiet (get : CheckM Checking) := by
  intro s _ final hrun
  cases hrun
  exact .refl s

theorem Quiet.bind {stage : CheckM α} {next : α → CheckM β} (h : Quiet stage)
    (hnext : ∀ value, Quiet (next value)) : Quiet (stage >>= next) := by
  intro s result final hrun
  obtain ⟨value, middle, hstage, hrest⟩ := bind_eq_ok_iff.mp hrun
  exact (h s value middle hstage).trans (hnext value middle result final hrest)

theorem quiet_orFault (missing : Fault) (value : Option α) :
    Quiet (orFault missing value : CheckM α) := by
  cases value with
  | some value => exact quiet_pure value
  | none =>
      intro s _ final hrun
      cases hrun

theorem quiet_orRefuse (diagnostic : Diagnostic) (value : Option α) :
    Quiet (orRefuse diagnostic value : CheckM α) := by
  cases value with
  | some value => exact quiet_pure value
  | none => exact quiet_refuse diagnostic

theorem quiet_intern {interning : Universe → TypeId × Universe} {ty : Ty}
    (h : ∀ types, interning types = Universe.intern ty types) : Quiet (intern interning) := by
  refine quiet_of_run fun s id final hrun => ?_
  cases hrun
  dsimp only
  rw [h]
  exact ⟨Universe.grows_intern s.types ty, rfl⟩

theorem quiet_internFlexible : Quiet (intern Universe.internFlexible) :=
  quiet_intern Universe.internFlexible_eq_intern

theorem quiet_internBool : Quiet (intern Universe.internBool) :=
  quiet_intern Universe.internBool_eq_intern

theorem quiet_internDefaultInt : Quiet (intern Universe.internDefaultInt) :=
  quiet_intern (Universe.internInt_eq_intern Ascription.defaultWidth)

theorem quiet_note {event : Event} (h : event.isConversion = false) : Quiet (note event) := by
  refine quiet_of_run fun s _ final hrun => ?_
  cases hrun
  exact ⟨.refl _, by simp [h]⟩

theorem quiet_common (left right : TypeId) : Quiet (common left right) := by
  refine quiet_of_run fun s promotion final hrun => ?_
  rw [common, run_bind_ok (run_get s)] at hrun
  cases hcommon : s.types.common? left right with
  | none =>
      rw [hcommon] at hrun
      cases hrun
  | some found =>
      rw [hcommon] at hrun
      cases hrun
      refine ⟨?_, rfl⟩
      rcases Universe.eq_or_eq_intern_of_common? hcommon with heq | ⟨_, width, -, heq⟩
      · rw [heq]
        exact .refl _
      · rw [heq]
        exact Universe.grows_intern _ _

theorem quiet_setSymbolType (symbol : SymbolId) (type : TypeId) :
    Quiet (setSymbolType symbol type) := by
  refine quiet_of_run fun s done final hrun => ?_
  rw [setSymbolType, run_bind_ok (run_get s)] at hrun
  cases hset : s.symbols.setType? symbol type with
  | none =>
      rw [hset] at hrun
      cases hrun
  | some found =>
      rw [hset] at hrun
      cases hrun
      exact ⟨.refl _, rfl⟩

theorem quiet_typeAt (id : TypeId) : Quiet (typeAt id) :=
  quiet_get.bind fun _ => quiet_orFault _ _

theorem quiet_describe (id : TypeId) : Quiet (describe id) :=
  quiet_get.bind fun _ => quiet_orFault _ _

theorem quiet_isFlexible (id : TypeId) : Quiet (isFlexible id) :=
  (quiet_typeAt id).bind fun _ => quiet_pure _

theorem quiet_symbolType? (symbol : SymbolId) : Quiet (symbolType? symbol) :=
  quiet_get.bind fun _ => (quiet_orFault _ _).bind fun _ => quiet_pure _

theorem quiet_typeOf (value : Expr) : Quiet (typeOf value) := quiet_orRefuse _ _

theorem quiet_mismatch (expected received : TypeId) :
    Quiet (mismatch expected received : CheckM α) :=
  (quiet_describe _).bind fun _ => (quiet_describe _).bind fun _ => quiet_refuse _

theorem quiet_expectedInt (received : TypeId) : Quiet (expectedInt received : CheckM α) :=
  (quiet_describe _).bind fun _ => quiet_refuse _

theorem quiet_refuseStruct (type : TypeId) : Quiet (refuseStruct type) := by
  refine Quiet.bind ((quiet_typeAt type).bind fun _ => quiet_pure _) fun struct => ?_
  split
  · exact quiet_expectedInt type
  · exact quiet_pure ()

theorem quiet_operandType (operatorClass : OperatorClass) (leftType rightType : TypeId) :
    Quiet (operandType operatorClass leftType rightType) := by
  refine (quiet_isFlexible leftType).bind fun _ => (quiet_isFlexible rightType).bind fun _ => ?_
  refine (quiet_common leftType rightType).bind fun promotion => ?_
  cases promotion with
  | resolved type => exact quiet_pure _
  | stillFlexible =>
      dsimp only
      split
      · exact quiet_pure none
      · exact quiet_internDefaultInt.bind fun _ => quiet_pure _
  | incompatible => exact quiet_mismatch leftType rightType

theorem quiet_addName (names : FieldNames) (position : Nat) (name : Option String) :
    Quiet (addName names position name) := by
  unfold addName
  split
  · split
    · exact quiet_refuse _
    · exact quiet_pure _
  · exact quiet_pure names

theorem quiet_structOf (type : TypeId) : Quiet (structOf type) := by
  refine (quiet_typeAt type).bind fun ty => ?_
  split
  · exact quiet_pure _
  · exact (quiet_describe type).bind fun _ => quiet_refuse _

theorem quiet_declareType (name : String) (symbol : SymbolId) (written : Option Ascription) :
    Quiet (declareType name symbol written) := by
  cases written with
  | none => exact quiet_pure ()
  | some written =>
      have hascription : Quiet (ascription written) := by
        unfold ascription
        split
        · exact quiet_refuse _
        · exact quiet_intern (Universe.internInt_eq_intern _)
        · exact quiet_internBool
      refine hascription.bind fun type => (quiet_setSymbolType symbol type).bind fun done => ?_
      split
      · exact quiet_pure ()
      · exact quiet_refuse _

theorem quiet_firstType (name : String) (valueType : TypeId) :
    Quiet (firstType name valueType) := by
  refine (quiet_isFlexible valueType).bind fun flexible => ?_
  split
  · exact (quiet_note rfl).bind fun _ => quiet_internDefaultInt
  · exact quiet_pure valueType

theorem quiet_joinBound (current bound : TypeId) : Quiet (joinBound current bound) := by
  refine (quiet_common current bound).bind fun promotion => ?_
  cases promotion with
  | resolved type => exact quiet_pure type
  | stillFlexible =>
      refine (quiet_isFlexible current).bind fun _ => (quiet_isFlexible bound).bind fun _ => ?_
      split
      · exact quiet_pure current
      · exact quiet_internDefaultInt
  | incompatible => exact quiet_mismatch current bound

theorem quiet_joinBounds (current : Option TypeId) (bounds : List Expr) :
    Quiet (joinBounds current bounds) := by
  induction bounds generalizing current with
  | nil => exact quiet_pure current
  | cons bound rest ih =>
      refine (quiet_typeOf bound).bind fun type => (quiet_refuseStruct type).bind fun _ => ?_
      cases current with
      | some current => exact (quiet_joinBound current type).bind fun joined => ih (some joined)
      | none => exact ih (some type)

theorem quiet_loopType (name : String) (bounds : List Expr) : Quiet (loopType name bounds) := by
  have hdefault : Quiet (note (.defaultedLoop name) >>= fun _ =>
      intern Universe.internDefaultInt) :=
    (quiet_note rfl).bind fun _ => quiet_internDefaultInt
  refine (quiet_joinBounds none bounds).bind fun joined => ?_
  cases joined with
  | none => exact hdefault
  | some type =>
      refine (quiet_typeAt type).bind fun ty => ?_
      cases ty with
      | flexible => exact hdefault
      | bool => exact hdefault
      | int width => exact quiet_pure type
      | struct struct => exact quiet_pure type

end Quiet

/-! ## Stages that insert conversions -/

/-- If the stage succeeds, the log grows by the conversions that there are after it and were not
there before. -/
def Reports {α : Type} (stage : CheckM α) (s : Checking) (before : Multiset Expr)
    (after : α → Multiset Expr) : Prop :=
  ∀ value final, stage s = .ok value final →
    ∃ inserted, s.Logs final inserted ∧ after value = before + inserted

section Rules

variable {α β : Type} {stage : CheckM α} {next : α → CheckM β} {s : Checking}
  {before : Multiset Expr} {middle : α → Multiset Expr} {after : β → Multiset Expr}

theorem Quiet.reports (h : Quiet stage) (hmiddle : ∀ value final, stage s = .ok value final →
    middle value = before) : Reports stage s before middle := by
  intro value final hrun
  exact ⟨0, h s value final hrun, by rw [hmiddle value final hrun, add_zero]⟩

theorem reports_pure {value : α} (h : middle value = before) :
    Reports (pure value) s before middle := by
  refine (quiet_pure value).reports fun other final hrun => ?_
  cases hrun
  exact h

/-- A stage that never succeeds reports nothing. -/
theorem reports_of_yields (h : Yields stage fun _ => False) : Reports stage s before middle :=
  fun value final hrun => (h s value final hrun).elim

theorem Reports.logs (h : Reports stage s 0 middle) {value : α} {final : Checking}
    (hrun : stage s = .ok value final) : s.Logs final (middle value) := by
  obtain ⟨inserted, hlogs, hinserted⟩ := h value final hrun
  rwa [hinserted, zero_add]

theorem Reports.bind (h : Reports stage s before middle)
    (hnext : ∀ value later, stage s = .ok value later →
      Reports (next value) later (middle value) after) :
    Reports (stage >>= next) s before after := by
  intro result final hrun
  obtain ⟨value, later, hstage, hrest⟩ := bind_eq_ok_iff.mp hrun
  obtain ⟨inserted, hlogs, hmiddle⟩ := h value later hstage
  obtain ⟨more, hmore, hafter⟩ := hnext value later hstage result final hrest
  exact ⟨inserted + more, hlogs.trans hmore, by rw [hafter, hmiddle, add_assoc]⟩

theorem Reports.bind_pure {f : α → β} (h : Reports stage s before middle)
    (hf : ∀ value, after (f value) = middle value) :
    Reports (stage >>= fun value => pure (f value)) s before after :=
  h.bind fun value _ _ => reports_pure (hf value)

theorem Quiet.bind_reports (h : Quiet stage)
    (hnext : ∀ value later, stage s = .ok value later → Reports (next value) later before after) :
    Reports (stage >>= next) s before after :=
  Reports.bind (h.reports fun _ _ _ => rfl) hnext

/-- A sequence whose first part changes nothing. -/
theorem Reports.of_bind {value : α} (h : stage s = .ok value s)
    (hnext : Reports (next value) s before after) : Reports (stage >>= next) s before after := by
  intro result final hrun
  rw [run_bind_ok h] at hrun
  exact hnext result final hrun

/-- What stands beside stays. -/
theorem Reports.beside (rest : Multiset Expr) (h : Reports stage s before middle) :
    Reports stage s (rest + before) fun value => rest + middle value := by
  intro value final hrun
  obtain ⟨inserted, hlogs, hmiddle⟩ := h value final hrun
  exact ⟨inserted, hlogs, by simp only [hmiddle, add_assoc]⟩

theorem Reports.afterwards (rest : Multiset Expr) (h : Reports stage s 0 middle) :
    Reports stage s rest fun value => rest + middle value := by
  simpa using h.beside rest

end Rules

end Check

end FlexWidth
