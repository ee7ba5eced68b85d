import FlexWidth.Proofs.Token.Scan
import FlexWidth.Proofs.Typing.Mismatch
import Mathlib

/-!
# Types and their texts in a source text's check

The names of struct types are those that struct literals have in the source text.  They are
identifiers there, and resolution and checking leave them as they are.  So the names of every
struct type are names wherever the check of a source text stops (`Check.invariant_readable`), and
types are identified by their descriptions.

The other stages refuse nothing as a mismatch, so that this is all there is to say about the
mismatches of a source text.
-/

namespace FlexWidth

/-! ## Names that are written -/

namespace Expr

mutual

theorem filterMap_nodes_annotate (symbolOf : String → Option SymbolId) : (value : Expr) →
    (value.annotate symbolOf).nodes.filterMap fieldNames? = value.nodes.filterMap fieldNames?
  | literal _ _ => rfl
  | var _ _ _ => rfl
  | read _ => rfl
  | unary _ operand _ => by
      simp [annotate, nodes, List.filterMap_cons, fieldNames?,
        filterMap_nodes_annotate symbolOf operand]
  | binary _ left right _ => by
      simp [annotate, nodes, List.filterMap_cons, fieldNames?,
        filterMap_nodes_annotate symbolOf left, filterMap_nodes_annotate symbolOf right]
  | conversion operand _ => by
      simp [annotate, nodes, List.filterMap_cons, fieldNames?,
        filterMap_nodes_annotate symbolOf operand]
  | load place _ => by
      simp [annotate, nodes, List.filterMap_cons, fieldNames?,
        filterMap_nodes_annotate symbolOf place]
  | glue fields _ => by
      have hnames : (annotateFields symbolOf fields).map Prod.fst = fields.map Prod.fst := by
        rw [annotateFields_eq_map, List.map_map]
        rfl
      simp [annotate, nodes, fieldNames?, hnames, filterMap_fieldNodes_annotate symbolOf fields]
  | dot base _ _ _ => by
      simp [annotate, nodes, List.filterMap_cons, fieldNames?,
        filterMap_nodes_annotate symbolOf base]
  | index base _ _ => by
      simp [annotate, nodes, List.filterMap_cons, fieldNames?,
        filterMap_nodes_annotate symbolOf base]

theorem filterMap_fieldNodes_annotate (symbolOf : String → Option SymbolId) :
    (fields : GlueFields) →
    (fieldNodes (annotateFields symbolOf fields)).filterMap fieldNames? =
      (fieldNodes fields).filterMap fieldNames?
  | [] => rfl
  | (_, value) :: rest => by
      simp [annotateFields, fieldNodes, filterMap_nodes_annotate symbolOf value,
        filterMap_fieldNodes_annotate symbolOf rest]

end

/-- All names of fields in the expression are names. -/
def NamesFields (value : Expr) : Prop := ∀ name, value.Writes name → isName name = true

theorem NamesFields.annotate {value : Expr} (h : value.NamesFields)
    (symbolOf : String → Option SymbolId) : (value.annotate symbolOf).NamesFields := by
  intro name hwrites
  rw [Writes, filterMap_nodes_annotate] at hwrites
  exact h name hwrites

theorem exists_mem_of_mem_fieldNodes {fields : GlueFields} {node : Expr}
    (h : node ∈ fieldNodes fields) : ∃ field ∈ fields, node ∈ field.2.nodes := by
  induction fields with
  | nil => cases h
  | cons first rest ih =>
      rw [fieldNodes] at h
      rcases List.mem_append.mp h with h | h
      · exact ⟨first, List.mem_cons_self, h⟩
      · obtain ⟨field, hfield, hnode⟩ := ih h
        exact ⟨field, List.mem_cons_of_mem _ hfield, hnode⟩

/-- What can be written has names for its fields. -/
theorem Surface.namesFields {value : Expr} (h : value.Surface) : value.NamesFields := by
  rintro name ⟨names, hnames, hname⟩
  obtain ⟨node, hnode, hwritten⟩ := List.mem_filterMap.mp hnames
  induction h with
  | literal _ => simp_all [nodes, fieldNames?]
  | var _ => simp_all [nodes, fieldNames?]
  | read => simp_all [nodes, fieldNames?]
  | sign _ ih =>
      rcases List.mem_cons.mp hnode with rfl | hnode
      · cases hwritten
      · exact ih (List.mem_filterMap.mpr ⟨node, hnode, hwritten⟩) hnode
  | binary _ _ _ ihleft ihright =>
      rcases List.mem_cons.mp hnode with rfl | hnode
      · cases hwritten
      · rcases List.mem_append.mp hnode with hnode | hnode
        · exact ihleft (List.mem_filterMap.mpr ⟨node, hnode, hwritten⟩) hnode
        · exact ihright (List.mem_filterMap.mpr ⟨node, hnode, hwritten⟩) hnode
  | glue _ hfields _ ih =>
      rw [nodes] at hnode
      rcases List.mem_cons.mp hnode with rfl | hnode
      · cases hwritten
        obtain ⟨field, hfield, heq⟩ := List.mem_map.mp hname
        exact hfields field hfield name heq
      · obtain ⟨field, hfield, hnode⟩ := exists_mem_of_mem_fieldNodes hnode
        exact ih field hfield (List.mem_filterMap.mpr ⟨node, hnode, hwritten⟩) hnode
  | dot _ _ ih =>
      rcases List.mem_cons.mp hnode with rfl | hnode
      · cases hwritten
      · exact ih (List.mem_filterMap.mpr ⟨node, hnode, hwritten⟩) hnode
  | index _ _ ih =>
      rcases List.mem_cons.mp hnode with rfl | hnode
      · cases hwritten
      · exact ih (List.mem_filterMap.mpr ⟨node, hnode, hwritten⟩) hnode

end Expr

namespace Stmt

mutual

/-- The expressions of what can be written can be written. -/
theorem surface_of_mem_roots : (st : Stmt) → st.Surface → ∀ value ∈ st.roots, value.Surface
  | bind _ _ _ value _, h => by
      cases h with
      | declare _ _ _ hvalue => exact fun found hfound => hvalue found (Option.mem_toList.mp hfound)
      | assign _ hvalue => exact List.forall_mem_singleton.mpr hvalue
  | print value, h => by
      cases h with
      | print hvalue => exact List.forall_mem_singleton.mpr hvalue
  | evaluate value, h => by
      cases h with
      | evaluate hvalue => exact List.forall_mem_singleton.mpr hvalue
  | branch test yes none, h => by
      cases h with
      | branch htest hyes _ =>
          exact List.forall_mem_cons.mpr ⟨htest, surface_of_mem_bodyRoots yes hyes⟩
  | branch test yes (some no), h => by
      cases h with
      | branch htest hyes hno =>
          exact List.forall_mem_cons.mpr ⟨htest, List.forall_mem_append.mpr
            ⟨surface_of_mem_bodyRoots yes hyes, surface_of_mem_bodyRoots no (hno no rfl)⟩⟩
  | whileLoop test body, h => by
      cases h with
      | whileLoop htest hbody =>
          exact List.forall_mem_cons.mpr ⟨htest, surface_of_mem_bodyRoots body hbody⟩
  | forLoop _ _ bounds body, h => by
      cases h with
      | forLoop _ _ hbounds hbody =>
          exact List.forall_mem_append.mpr ⟨hbounds, surface_of_mem_bodyRoots body hbody⟩
  | block body, h => by
      cases h with
      | block hbody => exact surface_of_mem_bodyRoots body hbody

theorem surface_of_mem_bodyRoots : (body : List Stmt) → (∀ st ∈ body, st.Surface) →
    ∀ value ∈ bodyRoots body, value.Surface
  | [], _ => by simp [bodyRoots]
  | first :: rest, h => by
      obtain ⟨hfirst, hrest⟩ := List.forall_mem_cons.mp h
      exact List.forall_mem_append.mpr
        ⟨surface_of_mem_roots first hfirst, surface_of_mem_bodyRoots rest hrest⟩

end

end Stmt

/-- The fields in a resolved source text are named by names. -/
theorem namesFields_of_resolve {source : String} {tokens : List Token} {spelled body : Program}
    {symbols : SymbolTable} {start log : Array Event} (htokens : tokenize source = .ok tokens)
    (hparse : parse tokens = .ok spelled)
    (hresolve : Frontend.resolve spelled start = .ok (body, symbols) log) :
    ∀ value ∈ Stmt.bodyRoots body, value.NamesFields := by
  obtain ⟨env, ledger, hstmts, -⟩ := reference_of_resolve hresolve
  refine Reference.keeps_stmts (fun _ symbolOf h => h.annotate symbolOf) spelled ?_ hstmts
  intro value hvalue
  exact (Stmt.surface_of_mem_bodyRoots spelled (surface_of_parse htokens hparse) value
    hvalue).namesFields

/-! ## Readable universes -/

/-- The names of all structs stay names. -/
theorem Check.invariant_readable : Check.Invariant (fun s => s.types.Readable) (fun _ => True)
    fun name => isName name = true where
  intern := by
    intro s ty hs hty _ id struct hid
    unfold Universe.intern at hid
    split at hid
    · exact hs hid
    · rw [Universe.get?_add] at hid
      split at hid
      · obtain ⟨hlawful, hnames⟩ := hty struct (Option.some.inj hid)
        exact ⟨hlawful, hnames⟩
      · exact hs hid
  setType hs _ := hs
  note _ hs := hs
  refused _ := trivial
  broken _ := trivial
  position _ _ _ _ := trivial

theorem Universe.readable_empty : Universe.empty.Readable := by
  intro id struct hid
  simp [Universe.empty, Universe.get?] at hid

/-- The check of a program fails where the check of its statements does. -/
theorem stmts_of_typecheck_error {body : Program} {symbols : SymbolTable} {failure : Failure}
    {log final : Array Event} (h : Frontend.typecheck body symbols log = .error failure final) :
    ∃ last, Check.stmts body (.initial symbols log) = .error failure last := by
  cases hrun : Check.stmts body (.initial symbols log) with
  | ok result last =>
      have hprogram : Check.program body (.initial symbols log) = .ok result
          { last with log := last.log.push (.typed last.types.size) } := run_bind_ok hrun _
      unfold Checking.initial at hprogram
      rw [Frontend.typecheck, hprogram] at h
      cases h
  | error other last =>
      have hprogram : Check.program body (.initial symbols log) = .error other last :=
        run_bind_error hrun _
      unfold Checking.initial at hprogram
      rw [Frontend.typecheck, hprogram] at h
      cases h
      exact ⟨last, rfl⟩

section Check

variable {source : String} {tokens : List Token} {spelled body : Program} {symbols : SymbolTable}
  {start log : Array Event} (htokens : tokenize source = .ok tokens)
  (hparse : parse tokens = .ok spelled)
  (hresolve : Frontend.resolve spelled start = .ok (body, symbols) log)

include htokens hparse hresolve

/-- However the check of a source text ends, its types are sound and readable. -/
theorem readable_stateOf_program :
    (stateOf (Check.program body (.initial symbols log))).types.Sound ∧
      (stateOf (Check.program body (.initial symbols log))).types.Readable := by
  obtain ⟨hbare, hsound⟩ := bare_and_sound_of_resolve hparse hresolve
  have hnames := namesFields_of_resolve htokens hparse hresolve
  refine ⟨Check.sound_stateOf_program hbare hsound, ?_⟩
  refine (Check.keeps_program Check.invariant_readable fun value hvalue => ?_).stateOf
    Universe.readable_empty
  exact ⟨fun _ _ => trivial, hnames value hvalue⟩

/-- A mismatch shows two different texts. -/
theorem ne_of_typecheck_mismatch {expected received : String} {final : Array Event}
    (h : Frontend.typecheck body symbols log =
      .error (.refused (.typeMismatch expected received)) final) : expected ≠ received := by
  obtain ⟨hbare, hsound⟩ := bare_and_sound_of_resolve hparse hresolve
  obtain ⟨htypes, hreadable⟩ := readable_stateOf_program htokens hparse hresolve
  obtain ⟨last, hrun⟩ := stmts_of_typecheck_error h
  have hprogram : Check.program body (.initial symbols log) =
      .error (.refused (.typeMismatch expected received)) last := run_bind_error hrun _
  rw [hprogram] at htypes hreadable
  obtain ⟨-, hexplained⟩ := Check.explained_stmts body hbare hsound _ last hrun
  obtain ⟨id, hid, hexpected⟩ := hexplained expected received rfl
  rintro rfl
  rcases hexpected with rfl | ⟨other, hne, hother⟩
  · obtain ⟨shape, -, htext⟩ := Option.map_eq_some_iff.mp hid
    exact shape.describe_ne_int htext
  · exact hne (htypes.toInterned.eq_of_describe?_eq hreadable hother hid)

end Check

/-! ## Source texts -/

/-- The universe is one that the check of the source text comes to.  Nothing is taken back, so
these are the fronts of the universe in which the check ends, with a result or without. -/
def ChecksWith (source : String) (types : Universe) : Prop :=
  ∃ spelled start body symbols log, Frontend.sourceProgram source #[] = .ok spelled start ∧
    Frontend.resolve spelled start = .ok (body, symbols) log ∧
      types.Grows (stateOf (Check.program body (.initial symbols log))).types

/-- Texts are refused as mismatches only by the check of resolved programs. -/
theorem exists_typecheck_of_mismatch {source expected received : String}
    (h : checkSource source = .error (.refused (.typeMismatch expected received))) :
    ∃ tokens spelled body symbols start log final, tokenize source = .ok tokens ∧
      parse tokens = .ok spelled ∧ Frontend.resolve spelled start = .ok (body, symbols) log ∧
        Frontend.typecheck body symbols log =
          .error (.refused (.typeMismatch expected received)) final := by
  obtain ⟨final, hrun⟩ := outcome_eq_error_iff.mp h
  rcases bind_eq_error_iff.mp hrun with hsource | ⟨spelled, start, hsource, hcheck⟩
  · rcases bind_eq_error_iff.mp hsource with htokens | ⟨tokens, middle, -, hprogram⟩
    · -- no character is refused as a mismatch
      unfold Frontend.tokens at htokens
      cases htokenize : tokenize source with
      | ok tokens =>
          rw [htokenize] at htokens
          cases htokens
      | error diagnostic =>
          obtain ⟨c, -, rfl⟩ := Scan.tokenize_eq_error_iff.mp htokenize
          rw [htokenize] at htokens
          cases htokens
    · -- and no token
      unfold Frontend.program at hprogram
      rcases Parser.answered_parse tokens with ⟨body, hparse⟩ | ⟨_, _, hparse⟩ | ⟨_, hparse⟩ <;>
        rw [hparse] at hprogram <;> cases hprogram
  · obtain ⟨tokens, _, htokens, hprogram⟩ := bind_eq_ok_iff.mp hsource
    rcases bind_eq_error_iff.mp hcheck with hresolve | ⟨⟨body, symbols⟩, log, hresolve, hcheck⟩
    · obtain ⟨name, heq⟩ := (Frontend.ends_resolve spelled start).failed_of_error hresolve
      cases heq
    · exact ⟨tokens, spelled, body, symbols, start, log, final,
        Frontend.tokenize_of_tokens htokens, Frontend.parse_of_program hprogram, hresolve, hcheck⟩

/-- **Types are identified by their descriptions.**  In every universe that the check of a source
text comes to, two handles with the same description are the same handle, and no mismatch that
the check of a source text ends with shows the same text twice. -/
theorem describe?_inj_of_checkSource (source : String) :
    (∀ types, ChecksWith source types → ∀ id other, types.Holds id → types.Holds other →
      types.describe? id = types.describe? other → id = other) ∧
    ∀ expected received, checkSource source =
      .error (.refused (.typeMismatch expected received)) → expected ≠ received := by
  constructor
  · rintro types ⟨spelled, start, body, symbols, log, hsource, hresolve, hgrows⟩ id other hid - heq
    obtain ⟨tokens, _, htokens, hprogram⟩ := bind_eq_ok_iff.mp hsource
    obtain ⟨hsound, hreadable⟩ := readable_stateOf_program (Frontend.tokenize_of_tokens htokens)
      (Frontend.parse_of_program hprogram) hresolve
    obtain ⟨text, htext⟩ := hgrows.exists_describe? hsound.toInterned hid
    exact hsound.toInterned.eq_of_describe?_eq hreadable (hgrows.describe? htext)
      (hgrows.describe? (heq.symm.trans htext))
  · intro expected received h
    obtain ⟨tokens, spelled, body, symbols, start, log, final, htokens, hparse, hresolve, hcheck⟩ :=
      exists_typecheck_of_mismatch h
    exact ne_of_typecheck_mismatch htokens hparse hresolve hcheck

/-- Two types of the same fields, of which one is named like a type, but not the same one. -/
theorem describe?_inj_of_checkSource_names :
    ∃ types, (ChecksWith "p = (struct: 1, 2); p = (1, struct: 2);" types ∧ types.Holds ⟨3⟩ ∧
        types.describe? ⟨3⟩ = some "struct\x7bint(32), struct: int(32)\x7d" ∧
        checkSource "p = (struct: 1, 2); p = (1, struct: 2);" =
          .error (.refused (.typeMismatch "struct\x7bstruct: int(32), int(32)\x7d"
            "struct\x7bint(32), struct: int(32)\x7d"))) ∧
      (∀ other, types.Holds other → types.describe? other = types.describe? ⟨3⟩ →
        other = ⟨3⟩) ∧
      "struct\x7bstruct: int(32), int(32)\x7d" ≠ "struct\x7bint(32), struct: int(32)\x7d" := by
  have hruns : ∃ spelled start body symbols log final failure ty,
      Frontend.sourceProgram "p = (struct: 1, 2); p = (1, struct: 2);" #[] = .ok spelled start ∧
        Frontend.resolve spelled start = .ok (body, symbols) log ∧
        Check.program body (.initial symbols log) = .error failure final ∧
        final.types.get? ⟨3⟩ = some ty ∧
        final.types.describe? ⟨3⟩ = some "struct\x7bint(32), struct: int(32)\x7d" ∧
        checkSource "p = (struct: 1, 2); p = (1, struct: 2);" =
          .error (.refused (.typeMismatch "struct\x7bstruct: int(32), int(32)\x7d"
            "struct\x7bint(32), struct: int(32)\x7d")) :=
    ⟨_, _, _, _, _, _, _, _, by cbv, by cbv, by cbv, by cbv, by cbv, by cbv⟩
  obtain ⟨spelled, start, body, symbols, log, final, failure, ty, hsource, hresolve, hprogram, hty,
    htext, hmismatch⟩ := hruns
  obtain ⟨hinj, hne⟩ := describe?_inj_of_checkSource "p = (struct: 1, 2); p = (1, struct: 2);"
  have hchecks : ChecksWith "p = (struct: 1, 2); p = (1, struct: 2);" final.types :=
    ⟨spelled, start, body, symbols, log, hsource, hresolve, by rw [hprogram]; exact .refl _⟩
  exact ⟨final.types, ⟨hchecks, ⟨ty, hty⟩, htext, hmismatch⟩,
    fun other hother heq => hinj _ hchecks other _ hother ⟨ty, hty⟩ heq, hne _ _ hmismatch⟩

end FlexWidth
