import FlexWidth.Proofs.Token.LongestMatch
import FlexWidth.Tree.Outline

/-!
# Outlines can be read back

An outline is shown line by line.  Nothing but the margin of a line tells where its node belongs,
and yet the text determines the outline (`Outline.render_inj`), provided that the labels are
*printable*: they hold no newline and do not start with a blank.

The text is cut into lines, each line into a depth and a label, and the list of these, in which
the children of a node are what follows it at greater depth, into trees.  Each of the three steps
is shown to lose nothing.
-/

namespace FlexWidth

/-- The label fits on a line and can be told from a margin. -/
structure PrintableLabel (label : String) : Prop where
  newline : '\n' ∉ label.toList
  head : label.toList.head? ≠ some ' '

namespace Outline

/-- All labels of the outline are printable. -/
inductive Printable : Outline → Prop where
  | node {label : String} {children : List Outline} : PrintableLabel label →
      (∀ child ∈ children, Printable child) → Printable (.node label children)

mutual

/-- The depths and labels of the nodes, in the order of the lines. -/
def entries (depth : Nat) : Outline → List (Nat × String)
  | node label children => (depth, label) :: childEntries (depth + 1) children

/-- The depths and labels of outlines that stand side by side. -/
def childEntries (depth : Nat) : List Outline → List (Nat × String)
  | [] => []
  | child :: rest => entries depth child ++ childEntries depth rest

end

/-- The line of a node. -/
def line (entry : Nat × String) : String := margin entry.1 ++ entry.2

mutual

theorem lines_eq_map : (outline : Outline) → (depth : Nat) →
    outline.lines depth = (outline.entries depth).map line
  | node label children, depth => by
      rw [lines, entries, List.map_cons, childLines_eq_map children, line]

theorem childLines_eq_map : (outlines : List Outline) → (depth : Nat) →
    childLines depth outlines = (childEntries depth outlines).map line
  | [], _ => rfl
  | child :: rest, depth => by
      rw [childLines, childEntries, List.map_append, lines_eq_map child, childLines_eq_map rest]

end

mutual

theorem Printable.forall_entries : (outline : Outline) → outline.Printable → (depth : Nat) →
    ∀ entry ∈ outline.entries depth, PrintableLabel entry.2
  | .node label children, h, depth => by
      cases h with
      | node hlabel hchildren =>
          rw [entries]
          exact List.forall_mem_cons.mpr
            ⟨hlabel, Printable.forall_childEntries children hchildren (depth + 1)⟩

theorem Printable.forall_childEntries : (outlines : List Outline) →
    (∀ outline ∈ outlines, outline.Printable) → (depth : Nat) →
    ∀ entry ∈ childEntries depth outlines, PrintableLabel entry.2
  | [], _, _ => fun entry hentry => by cases hentry
  | child :: rest, h, depth => by
      obtain ⟨hchild, hrest⟩ := List.forall_mem_cons.mp h
      rw [childEntries]
      exact List.forall_mem_append.mpr ⟨Printable.forall_entries child hchild depth,
        Printable.forall_childEntries rest hrest depth⟩

end

/-! ## Lines -/

theorem toList_join_lines_cons (first : String) (rest : List String) :
    (String.join ((first :: rest).map (· ++ "\n"))).toList =
      first.toList ++ '\n' :: (String.join (rest.map (· ++ "\n"))).toList := by
  simp [String.toList_join]

/-- Lines that end in a newline and hold no other can be told apart. -/
theorem eq_of_join_lines_eq {lines others : List String}
    (hlines : ∀ line ∈ lines, '\n' ∉ line.toList) (hothers : ∀ line ∈ others, '\n' ∉ line.toList)
    (h : String.join (lines.map (· ++ "\n")) = String.join (others.map (· ++ "\n"))) :
    lines = others := by
  induction lines generalizing others with
  | nil =>
      cases others with
      | nil => rfl
      | cons other others =>
          have htext := congrArg String.toList h
          rw [toList_join_lines_cons] at htext
          simp at htext
  | cons first rest ih =>
      obtain ⟨hfirst, hrest⟩ := List.forall_mem_cons.mp hlines
      cases others with
      | nil =>
          have htext := congrArg String.toList h
          rw [toList_join_lines_cons] at htext
          simp at htext
      | cons other others =>
          obtain ⟨hother, hothers⟩ := List.forall_mem_cons.mp hothers
          have htext := congrArg String.toList h
          rw [toList_join_lines_cons, toList_join_lines_cons] at htext
          have hinside {text : List Char} (hnone : '\n' ∉ text) :
              ∀ c ∈ text, (c != '\n') = true := by
            intro c hc
            exact bne_iff_ne.mpr fun heq => hnone (heq ▸ hc)
          obtain ⟨heq, hafter⟩ := Pattern.eq_of_stops (· != '\n') htext (hinside hfirst) (by simp)
            (hinside hother) (by simp)
          rw [String.toList_inj.mp heq,
            ih hrest hothers (String.toList_inj.mp (List.cons.inj hafter).2)]

/-! ## Margins -/

theorem toList_margin_one : (margin 1).toList = "  |".toList ++ "-- ".toList := by
  simp [margin]

theorem toList_margin_add_two (depth : Nat) :
    (margin (depth + 2)).toList = "  |".toList ++ (margin (depth + 1)).toList := by
  simp [margin, List.replicate_succ]

theorem head?_margin_succ (depth : Nat) (text : List Char) :
    ((margin (depth + 1)).toList ++ text).head? = some ' ' := by
  cases depth with
  | zero =>
      rw [toList_margin_one]
      rfl
  | succ depth =>
      rw [toList_margin_add_two]
      rfl

/-- The margin of one line is not the front of another one that is deeper. -/
theorem eq_of_margin_append_eq {depth other : Nat} {label label' : List Char}
    (hlabel : label.head? ≠ some ' ') (hlabel' : label'.head? ≠ some ' ')
    (h : (margin depth).toList ++ label = (margin other).toList ++ label') :
    depth = other ∧ label = label' := by
  induction depth generalizing other with
  | zero =>
      cases other with
      | zero => exact ⟨rfl, List.append_cancel_left h⟩
      | succ other =>
          have hhead := (congrArg List.head? h).trans (head?_margin_succ other label')
          exact absurd hhead hlabel
  | succ depth ih =>
      cases other with
      | zero =>
          have hhead := (congrArg List.head? h).symm.trans (head?_margin_succ depth label)
          exact absurd hhead hlabel'
      | succ other =>
          -- the first step of both margins is the same, and what follows tells if it was the last
          cases depth with
          | zero =>
              cases other with
              | zero => exact ⟨rfl, List.append_cancel_left h⟩
              | succ other =>
                  rw [toList_margin_one, toList_margin_add_two, List.append_assoc,
                    List.append_assoc] at h
                  have hhead := congrArg List.head? (List.append_cancel_left h)
                  rw [head?_margin_succ] at hhead
                  cases hhead
          | succ depth =>
              cases other with
              | zero =>
                  rw [toList_margin_one, toList_margin_add_two, List.append_assoc,
                    List.append_assoc] at h
                  have hhead := congrArg List.head? (List.append_cancel_left h)
                  rw [head?_margin_succ] at hhead
                  cases hhead
              | succ other =>
                  rw [toList_margin_add_two, toList_margin_add_two, List.append_assoc,
                    List.append_assoc] at h
                  obtain ⟨hdepth, heq⟩ := ih (List.append_cancel_left h)
                  exact ⟨congrArg Nat.succ hdepth, heq⟩

/-- The depth and the label of a line can be told from it. -/
theorem eq_of_line_eq {entry other : Nat × String} (hentry : PrintableLabel entry.2)
    (hother : PrintableLabel other.2) (h : line entry = line other) : entry = other := by
  have htext := congrArg String.toList h
  rw [line, line, String.toList_append, String.toList_append] at htext
  obtain ⟨hdepth, hlabel⟩ := eq_of_margin_append_eq hentry.head hother.head htext
  exact Prod.ext hdepth (String.toList_inj.mp hlabel)

theorem eq_of_map_line_eq {entries others : List (Nat × String)}
    (hentries : ∀ entry ∈ entries, PrintableLabel entry.2)
    (hothers : ∀ entry ∈ others, PrintableLabel entry.2)
    (h : entries.map line = others.map line) : entries = others := by
  induction entries generalizing others with
  | nil => exact (List.map_eq_nil_iff.mp h.symm).symm
  | cons first rest ih =>
      cases others with
      | nil => cases h
      | cons other others =>
          obtain ⟨hfirst, hrest⟩ := List.forall_mem_cons.mp hentries
          obtain ⟨hother, hothers⟩ := List.forall_mem_cons.mp hothers
          obtain ⟨hline, hlines⟩ := List.cons.inj h
          rw [eq_of_line_eq hfirst hother hline, ih hrest hothers hlines]

/-- No line holds a newline, since no margin does. -/
theorem newline_notMem_line {entry : Nat × String} (h : PrintableLabel entry.2) :
    '\n' ∉ (line entry).toList := by
  have hmargin : '\n' ∉ (margin entry.1).toList := by
    rw [margin, String.toList_append, List.mem_append, String.toList_join]
    rintro (hsteps | hend)
    · obtain ⟨step, hstep, hmem⟩ := List.mem_flatMap.mp hsteps
      rw [List.eq_of_mem_replicate hstep] at hmem
      revert hmem
      decide
    · split at hend <;> revert hend <;> decide
  rw [line, String.toList_append, List.mem_append]
  exact not_or.mpr ⟨hmargin, h.newline⟩

/-! ## Trees -/

theorem head?_childEntries_le {depth : Nat} (outlines : List Outline)
    {rest : List (Nat × String)} (hrest : ∀ entry ∈ rest.head?, entry.1 < depth) :
    ∀ entry ∈ (childEntries depth outlines ++ rest).head?, entry.1 ≤ depth := by
  intro entry hentry
  cases outlines with
  | nil => exact Nat.le_of_lt (hrest entry hentry)
  | cons outline outlines =>
      cases outline
      cases hentry
      exact Nat.le_refl depth

mutual

/-- What follows an outline at no greater depth is not part of it. -/
theorem entries_append_inj {depth : Nat} : (outline other : Outline) →
    {rest rest' : List (Nat × String)} → (∀ entry ∈ rest.head?, entry.1 ≤ depth) →
    (∀ entry ∈ rest'.head?, entry.1 ≤ depth) →
    outline.entries depth ++ rest = other.entries depth ++ rest' → outline = other ∧ rest = rest'
  | node label children, node label' children', rest, rest', hrest, hrest', h => by
      rw [entries, entries, List.cons_append, List.cons_append, List.cons.injEq] at h
      obtain ⟨hlabel, h⟩ := h
      obtain ⟨rfl, rfl⟩ := childEntries_append_inj children children'
        (fun entry hentry => Nat.lt_succ_of_le (hrest entry hentry))
        (fun entry hentry => Nat.lt_succ_of_le (hrest' entry hentry)) h
      cases hlabel
      exact ⟨rfl, rfl⟩

/-- What follows outlines side by side, at smaller depth, is not part of them. -/
theorem childEntries_append_inj {depth : Nat} : (outlines others : List Outline) →
    {rest rest' : List (Nat × String)} → (∀ entry ∈ rest.head?, entry.1 < depth) →
    (∀ entry ∈ rest'.head?, entry.1 < depth) →
    childEntries depth outlines ++ rest = childEntries depth others ++ rest' →
    outlines = others ∧ rest = rest'
  | [], [], _, _, _, _, h => ⟨rfl, h⟩
  | [], node label children :: others, rest, rest', hrest, _, h => by
      have hhead : rest.head? = some (depth, label) := congrArg List.head? h
      exact absurd (hrest _ hhead) (Nat.lt_irrefl depth)
  | node label children :: outlines, [], rest, rest', _, hrest', h => by
      have hhead : rest'.head? = some (depth, label) := (congrArg List.head? h).symm
      exact absurd (hrest' _ hhead) (Nat.lt_irrefl depth)
  | outline :: outlines, other :: others, rest, rest', hrest, hrest', h => by
      rw [childEntries, childEntries, List.append_assoc, List.append_assoc] at h
      obtain ⟨rfl, hlater⟩ := entries_append_inj outline other
        (head?_childEntries_le outlines hrest) (head?_childEntries_le others hrest') h
      obtain ⟨rfl, rfl⟩ := childEntries_append_inj outlines others hrest hrest' hlater
      exact ⟨rfl, rfl⟩

end

/-- The text of a printable outline determines it. -/
theorem render_inj {outline other : Outline} (houtline : outline.Printable)
    (hother : other.Printable) (h : outline.render = other.render) : outline = other := by
  have hentries := Printable.forall_entries outline houtline 0
  have hentries' := Printable.forall_entries other hother 0
  have hlines {entries : List (Nat × String)} (h : ∀ entry ∈ entries, PrintableLabel entry.2) :
      ∀ text ∈ entries.map line, '\n' ∉ text.toList :=
    List.forall_mem_map.mpr fun entry hentry => newline_notMem_line (h entry hentry)
  rw [render, render, lines_eq_map, lines_eq_map] at h
  have hsame := eq_of_map_line_eq hentries hentries'
    (eq_of_join_lines_eq (hlines hentries) (hlines hentries') h)
  rw [← List.append_nil (outline.entries 0), ← List.append_nil (other.entries 0)] at hsame
  exact (entries_append_inj outline other (by simp) (by simp) hsame).1

end Outline

end FlexWidth
