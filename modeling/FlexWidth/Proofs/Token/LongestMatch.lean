import FlexWidth.Proofs.Token.Spacing

/-!
# The first match is the longest

A pattern stands for a set of texts (`Pattern.Matches`), and cutting by a pattern takes
the longest text of that set off the front (`Pattern.Cuts.length_le`), or nothing if there
is none (`Pattern.split?_eq_none_iff`).

The patterns of the table are tried in order.  Of two patterns of the table, the earlier
one outdoes the later one (`Pattern.outdoes`): they start with different characters, or the
text of the later one is too short to hold that of the earlier one.  So the first pattern
that matches has the longest match of all, and no other pattern has one as long
(`Pattern.IsFirst.length_lt`).
-/

namespace FlexWidth

namespace Pattern

/-! ## The texts of a pattern -/

/-- A character of the class `first` and any number of characters of the class `later`. -/
def IsRun (first later : Char → Bool) (text : List Char) : Prop :=
  ∃ c rest, text = c :: rest ∧ first c = true ∧ ∀ d ∈ rest, later d = true

/-- The texts that a pattern stands for. -/
def Matches : Pattern → List Char → Prop
  | word, text => IsRun startsWord continuesWord text
  | digits, text => IsRun Char.isDigit Char.isDigit text
  | blank, text => IsRun Text.isBlank Text.isBlank text
  | comment, text => ∃ line, text = '/' :: '/' :: line ∧ '\n' ∉ line
  | mark _ first later, text => text = first :: later

/-- The text does not go on in a way that would make a match before it longer. -/
def StopsBefore : Pattern → List Char → Prop
  | word, text => ∀ c ∈ text.head?, continuesWord c = false
  | digits, text => ∀ c ∈ text.head?, c.isDigit = false
  | blank, text => ∀ c ∈ text.head?, Text.isBlank c = false
  | comment, text => ∀ c ∈ text.head?, c = '\n'
  | mark _ _ _, _ => True

/-- The pattern matches the front `run` of a text, as far as it can, and `rest` is left. -/
structure Cuts (pattern : Pattern) (text run rest : List Char) : Prop where
  text_eq : text = run ++ rest
  matched : pattern.Matches run
  stops : pattern.StopsBefore rest

theorem head?_dropWhile_eq_false (later : Char → Bool) (text : List Char) :
    ∀ c ∈ (text.dropWhile later).head?, later c = false := by
  intro c hc
  have hhead := List.head?_dropWhile_not later text
  rw [Option.mem_def.mp hc] at hhead
  exact hhead

theorem splitRun?_eq_some_run {first later : Char → Bool} {text run rest : List Char}
    (h : splitRun? first later text = some (run, rest)) :
    text = run ++ rest ∧ IsRun first later run ∧ ∀ c ∈ rest.head?, later c = false := by
  cases text with
  | nil => cases h
  | cons c tail =>
      simp only [splitRun?] at h
      split at h
      · rename_i hfirst
        cases h
        refine ⟨?_, ⟨c, _, rfl, hfirst, List.all_eq_true.mp List.all_takeWhile⟩,
          head?_dropWhile_eq_false later tail⟩
        rw [List.cons_append, List.takeWhile_append_dropWhile]
      · cases h

theorem splitRun?_ne_none {first later : Char → Bool} {run rest : List Char}
    (h : IsRun first later run) : splitRun? first later (run ++ rest) ≠ none := by
  obtain ⟨c, tail, rfl, hfirst, -⟩ := h
  simp [splitRun?, hfirst]

theorem split?_slashes (tail : List Char) :
    comment.split? ('/' :: '/' :: tail) =
      some ('/' :: '/' :: tail.takeWhile (· != '\n'), tail.dropWhile (· != '\n')) := rfl

/-- Comments start with two slashes. -/
theorem exists_slashes_of_split? {text run rest : List Char}
    (h : comment.split? text = some (run, rest)) : ∃ tail, text = '/' :: '/' :: tail := by
  unfold split? at h
  split at h <;> simp_all

/-- What is cut off matches the pattern, and what is left does not prolong it. -/
theorem cuts_of_split? {pattern : Pattern} {text run rest : List Char}
    (h : pattern.split? text = some (run, rest)) : pattern.Cuts text run rest := by
  cases pattern with
  | word | digits | blank =>
      obtain ⟨htext, hrun, hrest⟩ := splitRun?_eq_some_run h
      exact ⟨htext, hrun, hrest⟩
  | comment =>
      obtain ⟨tail, rfl⟩ := exists_slashes_of_split? h
      rw [split?_slashes] at h
      cases h
      refine ⟨?_, ⟨_, rfl, fun hmem => ?_⟩, fun c hc => ?_⟩
      · simp only [List.cons_append, List.takeWhile_append_dropWhile]
      · simpa using List.all_eq_true.mp List.all_takeWhile '\n' hmem
      · simpa using head?_dropWhile_eq_false (· != '\n') tail c hc
  | mark kind first later =>
      obtain ⟨after, hstarts, heq⟩ := Option.map_eq_some_iff.mp h
      cases heq
      exact ⟨(append_eq_of_isPrefixOf? hstarts).symm, rfl, trivial⟩

theorem isPrefixOf?_append (fixed rest : List Char) :
    fixed.isPrefixOf? (fixed ++ rest) = some rest := by
  induction fixed with
  | nil => exact isPrefixOf?_nil rest
  | cons c later ih => rw [List.cons_append, isPrefixOf?_cons, beq_self_eq_true, if_pos rfl, ih]

theorem split?_ne_none {pattern : Pattern} {run rest : List Char} (h : pattern.Matches run) :
    pattern.split? (run ++ rest) ≠ none := by
  cases pattern with
  | word | digits | blank => exact splitRun?_ne_none h
  | comment =>
      obtain ⟨line, rfl, -⟩ := h
      rw [List.cons_append, List.cons_append, split?_slashes]
      exact Option.some_ne_none _
  | mark kind first later =>
      obtain rfl : run = first :: later := h
      rw [split?, isPrefixOf?_append]
      exact Option.some_ne_none _

/-- Nothing is cut off exactly if the pattern matches no front of the text. -/
theorem split?_eq_none_iff {pattern : Pattern} {text : List Char} :
    pattern.split? text = none ↔ ∀ run rest, text = run ++ rest → ¬ pattern.Matches run := by
  constructor
  · rintro hnone run rest rfl hmatches
    exact split?_ne_none hmatches hnone
  · intro h
    cases hsplit : pattern.split? text with
    | none => rfl
    | some found =>
        have hcuts := cuts_of_split? hsplit
        exact absurd hcuts.matched (h _ _ hcuts.text_eq)

/-! ## The longest text of a pattern -/

/-- A run of a class that ends where the class does is no shorter than any other. -/
theorem length_le_of_stops (later : Char → Bool) {run rest other after : List Char}
    (h : run ++ rest = other ++ after) (hrun : ∀ d ∈ run, later d = true)
    (hrest : ∀ c ∈ rest.head?, later c = false) (hother : ∀ d ∈ other, later d = true) :
    other.length ≤ run.length := by
  have hstop : rest.takeWhile later = [] := by
    cases rest with
    | nil => rfl
    | cons c tail => simp [hrest c rfl]
  have htake : run = other ++ after.takeWhile later := by
    have hboth := congrArg (List.takeWhile later) h
    rwa [List.takeWhile_append_of_pos hrun, List.takeWhile_append_of_pos hother, hstop,
      List.append_nil] at hboth
  rw [htake, List.length_append]
  exact Nat.le_add_right _ _

/-- Where two runs of a class end, if both end where the class does, is the same. -/
theorem eq_of_stops (later : Char → Bool) {run rest other after : List Char}
    (h : run ++ rest = other ++ after) (hrun : ∀ d ∈ run, later d = true)
    (hrest : ∀ c ∈ rest.head?, later c = false) (hother : ∀ d ∈ other, later d = true)
    (hafter : ∀ c ∈ after.head?, later c = false) : run = other ∧ rest = after :=
  List.append_inj h (Nat.le_antisymm (length_le_of_stops later h.symm hother hafter hrun)
    (length_le_of_stops later h hrun hrest hother))

theorem IsRun.length_le {first later : Char → Bool} {run rest other after : List Char}
    (hrun : IsRun first later run) (hrest : ∀ c ∈ rest.head?, later c = false)
    (hother : IsRun first later other) (h : run ++ rest = other ++ after) :
    other.length ≤ run.length := by
  obtain ⟨c, run, rfl, -, hrun⟩ := hrun
  obtain ⟨d, other, rfl, -, hother⟩ := hother
  have htails := (List.cons.inj h).2
  exact Nat.succ_le_succ (length_le_of_stops later htails hrun hrest hother)

/-- No other front of the text that the pattern matches is longer. -/
theorem Cuts.length_le {pattern : Pattern} {text run rest other after : List Char}
    (h : pattern.Cuts text run rest) (htext : text = other ++ after)
    (hother : pattern.Matches other) : other.length ≤ run.length := by
  have heq : run ++ rest = other ++ after := h.text_eq.symm.trans htext
  cases pattern with
  | word | digits | blank => exact h.matched.length_le h.stops hother heq
  | comment =>
      obtain ⟨line, rfl, hline⟩ := h.matched
      obtain ⟨more, rfl, hmore⟩ := hother
      have hlines := (List.cons.inj (List.cons.inj heq).2).2
      have hle : more.length ≤ line.length := by
        refine length_le_of_stops (· != '\n') hlines ?_ ?_ ?_
        · exact fun d hd => bne_iff_ne.mpr (ne_of_mem_of_not_mem hd hline)
        · intro c hc
          simpa using h.stops c hc
        · exact fun d hd => bne_iff_ne.mpr (ne_of_mem_of_not_mem hd hmore)
      exact Nat.succ_le_succ (Nat.succ_le_succ hle)
  | mark kind first later =>
      have hrun : run = first :: later := h.matched
      have hsame : other = first :: later := hother
      exact Nat.le_of_eq (by rw [hrun, hsame])

/-! ## The order of the table -/

/-- The characters with which the texts of a pattern start. -/
def starts : Pattern → Char → Bool
  | word => startsWord
  | digits => Char.isDigit
  | blank => Text.isBlank
  | comment => (· == '/')
  | mark _ first _ => (· == first)

theorem Matches.exists_cons {pattern : Pattern} {text : List Char} (h : pattern.Matches text) :
    ∃ c rest, text = c :: rest ∧ pattern.starts c = true := by
  cases pattern with
  | word | digits | blank =>
      obtain ⟨c, rest, rfl, hfirst, -⟩ := h
      exact ⟨c, rest, rfl, hfirst⟩
  | comment =>
      obtain ⟨line, rfl, -⟩ := h
      exact ⟨_, _, rfl, rfl⟩
  | mark kind first later => exact ⟨first, later, h, beq_self_eq_true first⟩

/-- No text of the one pattern starts like a text of the other. -/
def Apart (pattern other : Pattern) : Prop :=
  ∀ c, other.starts c = true → pattern.starts c = false

/-- Whether the pattern takes more than `other` wherever both match: they never do, or
`other` is the slash that a comment starts with, or it is a mark too short to go on like
this one. -/
def outdoes : Pattern → Pattern → Bool
  | word, digits | word, blank | digits, blank => true
  | word, comment | digits, comment | blank, comment => true
  | comment, mark _ first later => first != '/' || later.isEmpty
  | mark _ first later, mark _ first' later' => !(first :: later).isPrefixOf (first' :: later')
  | pattern, mark _ first _ => !pattern.starts first
  | _, _ => false

/-- Each pattern of the table outdoes all that come after it. -/
theorem pairwise_table : table.Pairwise fun pattern other => pattern.outdoes other = true := by
  decide +kernel

theorem apart_mark {pattern : Pattern} {kind : TokenKind} {first : Char} {later : List Char}
    (h : pattern.starts first = false) : pattern.Apart (mark kind first later) := by
  intro c hc
  rw [eq_of_beq hc]
  exact h

/-- The three ways in which a pattern outdoes another. -/
theorem outdoes_cases {pattern other : Pattern} (h : pattern.outdoes other = true) :
    pattern.Apart other ∨ (pattern = comment ∧ ∃ kind, other = mark kind '/' []) ∨
      ∃ kind first later kind' first' later', pattern = mark kind first later ∧
        other = mark kind' first' later' ∧ ¬ (first :: later <+: first' :: later') := by
  have hslash (hclass : pattern.starts '/' = false) : pattern.Apart comment := by
    intro c hc
    rw [eq_of_beq hc]
    exact hclass
  cases pattern with
  | word =>
      left
      cases other with
      | word => cases h
      | digits => exact fun c => startsWord_of_isDigit
      | blank => exact fun c => startsWord_of_isBlank
      | comment => exact hslash (by decide)
      | mark kind first later => exact apart_mark (by simpa [outdoes] using h)
  | digits =>
      left
      cases other with
      | word | digits => cases h
      | blank => exact fun c => isDigit_of_isBlank
      | comment => exact hslash (by decide)
      | mark kind first later => exact apart_mark (by simpa [outdoes] using h)
  | blank =>
      left
      cases other with
      | word | digits | blank => cases h
      | comment => exact hslash (by decide)
      | mark kind first later => exact apart_mark (by simpa [outdoes] using h)
  | comment =>
      cases other with
      | word | digits | blank | comment => cases h
      | mark kind first later =>
          rcases Bool.or_eq_true_iff.mp h with hfirst | hlater
          · refine .inl (apart_mark (beq_eq_false_iff_ne.mpr (bne_iff_ne.mp hfirst)))
          · by_cases hfirst : first = '/'
            · exact .inr (.inl ⟨rfl, kind, by rw [hfirst, List.isEmpty_iff.mp hlater]⟩)
            · exact .inl (apart_mark (beq_eq_false_iff_ne.mpr hfirst))
  | mark kind first later =>
      cases other with
      | word | digits | blank | comment => cases h
      | mark kind' first' later' =>
          refine .inr (.inr ⟨kind, first, later, kind', first', later', rfl, rfl, ?_⟩)
          intro hstarts
          rw [outdoes, List.isPrefixOf_iff_prefix.mpr hstarts] at h
          cases h

/-- A pattern that outdoes another takes more of every text that both match. -/
theorem length_lt_of_outdoes {pattern other : Pattern} (h : pattern.outdoes other = true)
    {run rest run' rest' : List Char} (hrun : pattern.Matches run) (hother : other.Matches run')
    (htext : run ++ rest = run' ++ rest') : run'.length < run.length := by
  rcases outdoes_cases h with hapart | ⟨rfl, kind, rfl⟩ |
    ⟨kind, first, later, kind', first', later', rfl, rfl, hstarts⟩
  · obtain ⟨c, tail, rfl, hc⟩ := hrun.exists_cons
    obtain ⟨d, tail', rfl, hd⟩ := hother.exists_cons
    rw [(List.cons.inj htext).1, hapart d hd] at hc
    cases hc
  · obtain ⟨line, rfl, -⟩ := hrun
    obtain rfl : run' = ['/'] := hother
    simp
  · obtain rfl : run = first :: later := hrun
    obtain rfl : run' = first' :: later' := hother
    refine Nat.lt_of_not_le fun hle => hstarts ?_
    have hfront : first :: later <+: (first' :: later') ++ rest' := ⟨rest, htext⟩
    exact List.prefix_of_prefix_length_le hfront (List.prefix_append _ _) hle

/-- The pattern is the first of the table that matches a front of the text, and cuts it into
`run` and `rest`. -/
structure IsFirst (pattern : Pattern) (text run rest : List Char) : Prop where
  split : pattern.split? text = some (run, rest)
  first : ∃ before after, table = before ++ pattern :: after ∧
    ∀ earlier ∈ before, earlier.split? text = none

theorem IsFirst.mem_table {pattern : Pattern} {text run rest : List Char}
    (h : pattern.IsFirst text run rest) : pattern ∈ table := by
  obtain ⟨before, after, htable, -⟩ := h.first
  rw [htable]
  exact List.mem_append_right _ List.mem_cons_self

/-- **The first match is the longest**: no other pattern of the table matches as much of the
text. -/
theorem IsFirst.length_lt {pattern other : Pattern} {text run rest run' rest' : List Char}
    (h : pattern.IsFirst text run rest) (hmem : other ∈ table) (hne : other ≠ pattern)
    (hother : other.Matches run') (htext : text = run' ++ rest') : run'.length < run.length := by
  have hcuts := cuts_of_split? h.split
  obtain ⟨before, after, htable, hbefore⟩ := h.first
  rw [htable] at hmem
  rcases List.mem_append.mp hmem with hearlier | hlater
  · exact absurd hother (split?_eq_none_iff.mp (hbefore other hearlier) run' rest' htext)
  · have hafter : other ∈ after := (List.mem_cons.mp hlater).resolve_left hne
    have hpairwise := pairwise_table
    rw [htable] at hpairwise
    have houtdoes := (List.pairwise_cons.mp (List.pairwise_append.mp hpairwise).2.1).1 other hafter
    exact length_lt_of_outdoes houtdoes hcuts.matched hother (hcuts.text_eq.symm.trans htext)

end Pattern

/-! ## The next lexeme -/

theorem Lexeme.next?_eq_some_iff {text rest : List Char} {lexeme : Lexeme} :
    next? text = some (lexeme, rest) ↔ lexeme.pattern.IsFirst text lexeme.text rest := by
  rw [next?, List.findSome?_eq_some_iff]
  constructor
  · rintro ⟨before, pattern, after, htable, hsplit, hbefore⟩
    obtain ⟨⟨run, tail⟩, hsplit, heq⟩ := Option.map_eq_some_iff.mp hsplit
    cases heq
    exact ⟨hsplit, before, after, htable, fun earlier hearlier =>
      Option.map_eq_none_iff.mp (hbefore earlier hearlier)⟩
  · rintro ⟨hsplit, before, after, htable, hbefore⟩
    refine ⟨before, lexeme.pattern, after, htable, ?_, fun earlier hearlier => ?_⟩
    · rw [hsplit]
      rfl
    · rw [hbefore earlier hearlier]
      rfl

theorem Lexeme.next?_eq_none_iff {text : List Char} :
    next? text = none ↔ ∀ pattern ∈ Pattern.table, pattern.split? text = none := by
  simp only [next?, List.findSome?_eq_none_iff, Option.map_eq_none_iff]

end FlexWidth
