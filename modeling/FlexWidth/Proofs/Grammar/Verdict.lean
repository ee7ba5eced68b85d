import FlexWidth.Grammar.Parse
import FlexWidth.Proofs.Stage

/-!
# What a parser's answer depends on

A parser comes to a *verdict*: it has read some tokens, one token is then at hand, and
there is a value or a failure.  The verdict *holds* if nothing else had a part in it: the
parser comes to it whatever follows the token at hand, and whatever room it is given for
phrases to nest, as long as there is room for what it has read.

`Decides` says that from a given stream a parser comes to a verdict that holds.  Two
obstacles have to be removed.

* **Different room.**  A parser inside a phrase runs with less room than the phrase.
  Four units are set aside for each token that is read, so after one token there is
  again as much room as any phrase needs before it reads.
* **Looking ahead.**  Two rules look at the token after the current one.  They do so
  only at an identifier, and then that identifier is always read; `Moves` keeps track
  of this.
-/

namespace FlexWidth

/-! ## Streams with tokens put back -/

namespace TokenStream

/-- The stream with tokens put before it. -/
def prepend (stream : TokenStream) : List Token → TokenStream
  | [] => stream
  | first :: rest => ⟨first, rest ++ stream.current :: stream.later⟩

@[simp] theorem prepend_nil (stream : TokenStream) : stream.prepend [] = stream := rfl

theorem prepend_append (stream : TokenStream) (first second : List Token) :
    stream.prepend (first ++ second) = (stream.prepend second).prepend first := by
  cases first with
  | nil => rfl
  | cons item rest => cases second <;> simp [prepend]

theorem size_prepend (stream : TokenStream) (read : List Token) :
    (stream.prepend read).size = read.length + stream.size := by
  cases read with
  | nil => simp
  | cons item rest =>
      simp only [prepend, size, List.length_append, List.length_cons]
      omega

/-- The unread tokens, the current one first. -/
def unread (stream : TokenStream) : List Token := stream.current :: stream.later

theorem unread_prepend (stream : TokenStream) (read : List Token) :
    (stream.prepend read).unread = read ++ stream.unread := by
  cases read <;> rfl

theorem eq_of_unread_eq {first second : TokenStream} (h : first.unread = second.unread) :
    first = second := by
  obtain ⟨current, later⟩ := first
  cases h
  rfl

/-- The end of input closes the stream. -/
def Closed (stream : TokenStream) : Prop :=
  (stream.later.getLast?.getD stream.current).kind = .endOfInput

theorem closed_of_prepend {stream : TokenStream} {read : List Token}
    (h : (stream.prepend read).Closed) : stream.Closed := by
  cases read with
  | nil => exact h
  | cons item rest =>
      unfold Closed prepend at h
      rw [List.getLast?_append, List.getLast?_cons] at h
      exact h

/-- Something follows every token but the end of input. -/
theorem exists_eq_prepend {stream : TokenStream} (hclosed : stream.Closed)
    (hkind : stream.current.kind ≠ .endOfInput) :
    ∃ next : TokenStream, stream = next.prepend [stream.current] := by
  obtain ⟨current, later⟩ := stream
  cases later with
  | nil => exact absurd hclosed hkind
  | cons next rest => exact ⟨⟨next, rest⟩, rfl⟩

/-- The stream is closed and holds at most `limit` tokens. -/
structure Within (limit : Nat) (stream : TokenStream) : Prop where
  closed : stream.Closed
  size_le : stream.size ≤ limit

theorem Within.mono {limit more : Nat} {stream : TokenStream} (h : stream.Within limit)
    (hle : limit ≤ more) : stream.Within more :=
  ⟨h.closed, Nat.le_trans h.size_le hle⟩

/-- Reading makes a stream shorter. -/
theorem Within.of_eq_prepend {limit less : Nat} {start stream : TokenStream} {read : List Token}
    (h : start.Within limit) (hstart : start = stream.prepend read)
    (hle : limit ≤ read.length + less) : stream.Within less := by
  subst hstart
  have hsize := h.size_le
  rw [size_prepend] at hsize
  exact ⟨closed_of_prepend h.closed, by omega⟩

/-! ### Streams of token lists -/

theorem unread_ofTokens (tokens : List Token) : (ofTokens tokens).unread = closed tokens := by
  unfold ofTokens
  split
  · rename_i hnil
    -- a closed list is never empty
    unfold closed at hnil
    split at hnil
    · rename_i hlast
      rw [hnil] at hlast
      cases hlast
    · exact absurd hnil (List.append_ne_nil_of_right_ne_nil tokens (by simp))
  · rename_i first rest hcons
    exact hcons.symm

theorem closed_ofTokens (tokens : List Token) : (ofTokens tokens).Closed := by
  have hlast : ((ofTokens tokens).unread.getLast?.map Token.kind) = some .endOfInput := by
    rw [unread_ofTokens, closed]
    split
    · assumption
    · simp [Token.endOfInput]
  rw [unread, List.getLast?_cons] at hlast
  exact Option.some.inj hlast

/-- Closing a list does not change how it starts. -/
theorem exists_closed_eq_append (tokens : List Token) : ∃ more, closed tokens = tokens ++ more := by
  unfold closed
  split
  · exact ⟨[], (List.append_nil tokens).symm⟩
  · exact ⟨[Token.endOfInput], rfl⟩

/-- A list that starts with `read` and `next` shows them to the parser. -/
theorem exists_ofTokens_eq_prepend (read : List Token) (next : Token) (rest : List Token) :
    ∃ later, ofTokens (read ++ next :: rest) = prepend ⟨next, later⟩ read := by
  obtain ⟨more, hclosed⟩ := exists_closed_eq_append (read ++ next :: rest)
  refine ⟨rest ++ more, eq_of_unread_eq ?_⟩
  rw [unread_ofTokens, hclosed, unread_prepend, List.append_assoc]
  rfl

end TokenStream

open TokenStream (Within)

namespace Parser

variable {α β : Type}

/-! ## Verdicts -/

/-- What a parser comes to: the tokens that it has read, the token then at hand, and a
value or a failure. -/
structure Verdict (α : Type) where
  read : List Token
  next : Token
  result : Except Failure α

namespace Verdict

/-- The stream before a verdict, if the tokens `later` follow the one at hand. -/
def start (verdict : Verdict α) (later : List Token) : TokenStream :=
  TokenStream.prepend ⟨verdict.next, later⟩ verdict.read

/-- The end of a run that comes to a verdict. -/
def finish (verdict : Verdict α) (later : List Token) : EStateM.Result Failure TokenStream α :=
  match verdict.result with
  | .ok value => .ok value ⟨verdict.next, later⟩
  | .error failure => .error failure ⟨verdict.next, later⟩

/-- A parser comes to the verdict whatever follows, as soon as it has `cost` units of
room and four for each token that it reads.  No end of input is read, and a failure
refuses the token at hand or a number. -/
structure Holds (verdict : Verdict α) (cost : Nat) (parser : Nat → Parser α) : Prop where
  ne_endOfInput : ∀ item ∈ verdict.read, item.kind ≠ .endOfInput
  refused : ∀ failure, verdict.result = .error failure →
    (∃ message, failure = .refused (.syntaxError verdict.next.text message)) ∨
      ∃ text, failure = .refused (.numberParseError text)
  run : ∀ room, cost + 4 * verdict.read.length ≤ room → ∀ later,
    parser room (verdict.start later) = verdict.finish later

theorem size_start (verdict : Verdict α) (later : List Token) :
    (verdict.start later).size = verdict.read.length + (later.length + 1) :=
  TokenStream.size_prepend ⟨verdict.next, later⟩ verdict.read

theorem position_start (verdict : Verdict α) (later : List Token) :
    TokenStream.position (verdict.start later) ⟨verdict.next, later⟩ = verdict.read.length := by
  rw [TokenStream.position, size_start]
  exact Nat.add_sub_cancel _ _

/-- What follows the token at hand is out of sight. -/
theorem current_start (verdict : Verdict α) (later other : List Token) :
    (verdict.start later).current = (verdict.start other).current := by
  obtain ⟨read, next, result⟩ := verdict
  cases read <;> rfl

theorem start_eq {verdict : Verdict α} {current : Token} {later rest : List Token}
    (h : ⟨current, later⟩ = verdict.start rest) (other : List Token) :
    verdict.start other = ⟨current, (verdict.start other).later⟩ := by
  have hcurrent : (verdict.start other).current = current := by
    rw [verdict.current_start other rest, ← h]
  rw [← hcurrent]

/-- After a token has been read the token after it has been seen. -/
theorem peek_start (verdict : Verdict α) (hread : verdict.read ≠ []) (later other : List Token) :
    (verdict.start later).peek 1 = (verdict.start other).peek 1 := by
  obtain ⟨read, next, result⟩ := verdict
  cases read with
  | nil => exact absurd rfl hread
  | cons item rest => cases rest <;> rfl

end Verdict

/-- From `start` the parser comes to a verdict that holds and satisfies `post`. -/
def Decides (cost : Nat) (parser : Nat → Parser α) (start : TokenStream)
    (post : List Token → Except Failure α → Prop) : Prop :=
  ∃ (verdict : Verdict α) (later : List Token), start = verdict.start later ∧
    verdict.Holds cost parser ∧ post verdict.read verdict.result

/-- At least one token is read, or the parser fails at once and `otherwise` holds. -/
def Moves (otherwise : Prop) (read : List Token) (result : Except Failure α) : Prop :=
  read = [] → otherwise ∧ ∃ failure, result = .error failure

/-- Nothing is asked of the verdict.  The room is what any phrase may need after a token
has been read. -/
abbrev Decided (parser : Nat → Parser α) (start : TokenStream) : Prop :=
  Decides 3 parser start fun _ _ => True

section Steps

variable {cost limit : Nat} {start : TokenStream} {parser : Nat → Parser α}
  {post post' : List Token → Except Failure α → Prop}

theorem Decides.weaken (h : Decides cost parser start post)
    (hpost : ∀ read result, post read result → post' read result) :
    Decides cost parser start post' := by
  obtain ⟨verdict, later, hstart, hholds, hverdict⟩ := h
  exact ⟨verdict, later, hstart, hholds, hpost _ _ hverdict⟩

theorem Decides.mono {more : Nat} (h : Decides cost parser start post) (hle : cost ≤ more) :
    Decides more parser start post := by
  obtain ⟨verdict, later, hstart, hholds, hverdict⟩ := h
  refine ⟨verdict, later, hstart, ⟨hholds.ne_endOfInput, hholds.refused, ?_⟩, hverdict⟩
  intro room hroom
  exact hholds.run room (by omega)

theorem Decides.decided (h : Decides cost parser start post) (hcost : cost ≤ 3) :
    Decided parser start :=
  (h.mono hcost).weaken fun _ _ _ => trivial

theorem Decides.moves {otherwise weaker : Prop} (h : Decides cost parser start (Moves otherwise))
    (himp : otherwise → weaker) : Decides cost parser start (Moves weaker) :=
  h.weaken fun _ _ hmoves hread => ⟨himp (hmoves hread).1, (hmoves hread).2⟩

/-! ## Single steps -/

theorem decides_pure {value : α} (h : post [] (.ok value)) :
    Decides cost (fun _ => pure value) start post := by
  refine ⟨⟨[], start.current, .ok value⟩, start.later, rfl, ⟨?_, ?_, ?_⟩, h⟩
  · exact List.forall_mem_nil _
  · intro failure hfailure
    cases hfailure
  · intro room _ later
    rfl

theorem decides_reject {message : String}
    (h : ∀ failure, post [] (.error failure)) :
    Decides cost (fun _ => reject message) start post := by
  refine ⟨⟨[], start.current, .error (.refused (.syntaxError start.current.text message))⟩,
    start.later, rfl, ⟨?_, ?_, ?_⟩, h _⟩
  · exact List.forall_mem_nil _
  · intro failure hfailure
    cases hfailure
    exact .inl ⟨_, rfl⟩
  · intro room _ later
    rfl

theorem decides_numberBelow (bound : Nat) (item : Token) :
    Decides cost (fun _ => numberBelow bound item) start fun read _ => read = [] := by
  cases hnumeral : Text.numeral? bound item.text with
  | some value =>
      have hrun : numberBelow bound item = pure value := by
        rw [numberBelow, hnumeral]
        rfl
      rw [hrun]
      exact decides_pure rfl
  | none =>
      refine ⟨⟨[], start.current, .error (.refused (.numberParseError item.text))⟩,
        start.later, rfl, ⟨?_, ?_, ?_⟩, rfl⟩
      · exact List.forall_mem_nil _
      · intro failure hfailure
        cases hfailure
        exact .inr ⟨_, rfl⟩
      · intro room _ later
        rw [numberBelow, hnumeral]
        rfl

theorem decides_advance (hclosed : start.Closed) (hkind : start.current.kind ≠ .endOfInput) :
    Decides cost (fun _ => advance) start (Moves False) := by
  obtain ⟨⟨next, later⟩, hstart⟩ := TokenStream.exists_eq_prepend hclosed hkind
  refine ⟨⟨[start.current], next, .ok start.current⟩, later, hstart, ⟨?_, ?_, ?_⟩, ?_⟩
  · intro item hitem
    rwa [List.mem_singleton.mp hitem]
  · intro failure hfailure
    cases hfailure
  · intro room _ later
    rfl
  · intro hread
    cases hread

/-- A parser that only looks changes nothing, if what it sees is decided already. -/
theorem Decides.of_look {look : Parser β} {seen : β} {next : Nat → β → Parser α}
    (h : Decides cost (fun room => next room seen) start post)
    (hlook : ∀ (verdict : Verdict α) later, start = verdict.start later →
      post verdict.read verdict.result → ∀ other,
        look (verdict.start other) = .ok seen (verdict.start other)) :
    Decides cost (fun room => look >>= next room) start post := by
  obtain ⟨verdict, later, hstart, hholds, hverdict⟩ := h
  refine ⟨verdict, later, hstart, ⟨hholds.ne_endOfInput, hholds.refused, ?_⟩, hverdict⟩
  intro room hroom other
  rw [run_bind_ok (hlook verdict later hstart hverdict other)]
  exact hholds.run room hroom other

theorem Decides.currentKind {next : Nat → TokenKind → Parser α}
    (h : Decides cost (fun room => next room start.current.kind) start post) :
    Decides cost (fun room => Parser.currentKind >>= next room) start post := by
  refine h.of_look fun verdict later hstart _ other => ?_
  rw [hstart, verdict.current_start later other]
  rfl

theorem Decides.current {next : Nat → Token → Parser α}
    (h : Decides cost (fun room => next room start.current) start post) :
    Decides cost (fun room => Parser.current >>= next room) start post := by
  refine h.of_look fun verdict later hstart _ other => ?_
  rw [hstart, verdict.current_start later other]
  rfl

/-- The kind after an identifier may be looked at, if the identifier is read. -/
theorem Decides.peekKind {next : Nat → TokenKind → Parser α}
    (hname : start.current.kind = .identifier)
    (h : Decides cost (fun room => next room (start.peek 1).kind) start
      (Moves (start.current.kind ≠ .identifier))) :
    Decides cost (fun room => Parser.peekKind 1 >>= next room) start
      (Moves (start.current.kind ≠ .identifier)) := by
  refine h.of_look fun verdict later hstart hmoves other => ?_
  have hread : verdict.read ≠ [] := fun hread => (hmoves hread).1 hname
  rw [hstart, verdict.peek_start hread later other]
  rfl

/-- Whether a stream starts with the name of a field. -/
def namesField (stream : TokenStream) : Bool :=
  stream.current.kind = .identifier ∧ (stream.peek 1).kind = .colon

/-- A named field may be looked for, if an identifier is read. -/
theorem Decides.startsNamedField {next : Nat → Bool → Parser α}
    (h : Decides cost (fun room => next room (namesField start)) start
      (Moves (start.current.kind ≠ .identifier))) :
    Decides cost (fun room => Parser.startsNamedField >>= next room) start
      (Moves (start.current.kind ≠ .identifier)) := by
  refine h.of_look fun verdict later hstart hmoves other => ?_
  have hrun : Parser.startsNamedField (verdict.start other) =
      .ok (namesField (verdict.start other)) (verdict.start other) := rfl
  have hsame : namesField (verdict.start other) = namesField start := by
    unfold namesField
    rw [hstart, verdict.current_start other later]
    by_cases hread : verdict.read = []
    · -- nothing was read, so there is no identifier and the second token does not matter
      have hother := (hmoves hread).1
      rw [hstart] at hother
      simp [hother]
    · rw [verdict.peek_start hread other later]
  rw [hrun, hsame]

end Steps

/-! ## Steps in a row -/

section Rows

variable {cost limit : Nat} {start : TokenStream} {parser : Nat → Parser α}
  {next : Nat → α → Parser β} {post : List Token → Except Failure α → Prop}

/-- The second parser starts with the token at hand in the first verdict; the verdict of
both has read what each of them has. -/
theorem Decides.bind {post' : List Token → Except Failure β → Prop}
    (hparser : Decides cost parser start post)
    (herror : ∀ read failure, post read (.error failure) → post' read (.error failure))
    (hnext : ∀ read value (middle : TokenStream), start = middle.prepend read →
      post read (.ok value) →
      Decides (cost + 4 * read.length) (fun room => next room value) middle fun more =>
        post' (read ++ more)) :
    Decides cost (fun room => parser room >>= next room) start post' := by
  obtain ⟨⟨read, current, result⟩, later, hstart, hholds, hpost⟩ := hparser
  cases result with
  | error failure =>
      refine ⟨⟨read, current, .error failure⟩, later, hstart, ⟨hholds.ne_endOfInput, ?_, ?_⟩,
        herror read failure hpost⟩
      · intro other hother
        cases hother
        exact hholds.refused failure rfl
      · intro room hroom other
        exact run_bind_error (hholds.run room hroom other) (next room)
  | ok value =>
      obtain ⟨⟨more, last, final⟩, rest, hmiddle, hrest, hfinal⟩ :=
        hnext read value ⟨current, later⟩ hstart hpost
      refine ⟨⟨read ++ more, last, final⟩, rest, ?_, ⟨?_, hrest.refused, ?_⟩, hfinal⟩
      · rw [hstart, Verdict.start, Verdict.start, hmiddle, TokenStream.prepend_append]
        rfl
      · exact List.forall_mem_append.mpr ⟨hholds.ne_endOfInput, hrest.ne_endOfInput⟩
      · intro room hroom other
        simp only [List.length_append] at hroom
        -- the first parser sees the same token at hand, whatever follows the second
        have hcurrent := Verdict.start_eq hmiddle other
        have hfirst := hholds.run room (by simp only; omega)
          (Verdict.start ⟨more, last, final⟩ other).later
        rw [Verdict.start, Verdict.finish, ← hcurrent, Verdict.start] at hfirst
        rw [Verdict.start, TokenStream.prepend_append, run_bind_ok hfirst]
        exact hrest.run room (by simp only; omega) other

/-- What follows a parser that moves starts later. -/
theorem Decides.bind_moves {otherwise : Prop} (hstart : start.Within (limit + 1))
    (hparser : Decides cost parser start (Moves otherwise))
    (hnext : ∀ value (middle : TokenStream), middle.Within limit →
      Decided (fun room => next room value) middle) :
    Decides cost (fun room => parser room >>= next room) start (Moves otherwise) := by
  refine hparser.bind ?_ ?_
  · intro read failure hmoves hread
    exact ⟨(hmoves hread).1, failure, rfl⟩
  · intro read value middle hmiddle hmoves
    have hread : read ≠ [] := by
      intro hread
      obtain ⟨-, failure, hfailure⟩ := hmoves hread
      cases hfailure
    have hpositive := List.length_pos_iff.mpr hread
    have hwithin : middle.Within limit := hstart.of_eq_prepend hmiddle (by omega)
    refine ((hnext value middle hwithin).mono (by omega)).weaken ?_
    intro more result _ hempty
    exact absurd (List.append_eq_nil_iff.mp hempty).1 hread

/-- Behind the first token parsers follow one another freely. -/
theorem Decides.bind_decided (hstart : start.Within limit)
    (hparser : Decides cost parser start post) (hcost : cost ≤ 3)
    (hnext : ∀ value (middle : TokenStream), middle.Within limit →
      Decided (fun room => next room value) middle) :
    Decided (fun room => parser room >>= next room) start := by
  refine (hparser.mono hcost).bind (fun _ _ _ => trivial) ?_
  intro read value middle hmiddle _
  have hwithin : middle.Within limit := hstart.of_eq_prepend hmiddle (by omega)
  exact ((hnext value middle hwithin).mono (by omega)).weaken fun _ _ _ => trivial

end Rows

section Tokens

variable {cost limit : Nat} {start : TokenStream} {kind : TokenKind}

theorem decides_expect (hclosed : start.Closed) (hkind : kind ≠ .endOfInput) :
    Decides cost (fun _ => expect kind) start (Moves (start.current.kind ≠ kind)) := by
  apply Decides.currentKind
  split
  · rename_i hcurrent
    exact (decides_advance hclosed (hcurrent ▸ hkind)).moves False.elim
  · rename_i hcurrent
    exact decides_reject fun failure _ => ⟨hcurrent, failure, rfl⟩

theorem decides_skip (hstart : start.Within (limit + 1)) (hkind : kind ≠ .endOfInput) :
    Decides cost (fun _ => skip kind) start (Moves (start.current.kind ≠ kind)) :=
  (decides_expect hstart.closed hkind).bind_moves hstart fun _ _ _ => decides_pure trivial

end Tokens

end Parser

end FlexWidth
