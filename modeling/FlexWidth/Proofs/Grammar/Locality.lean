import FlexWidth.Proofs.Grammar.Verdict

/-!
# The parser looks no further than it has to

From every closed stream, each nonterminal comes to a verdict that holds
(`decidesAt_within`): its answer depends on the tokens that it has read and on the one
then at hand, and on nothing else.  In particular the room that the parser gives itself
always suffices, and `Verdict.Holds.parse_eq` says the same of whole token lists.

The induction is on the number of tokens left.  A rule that has read a token calls the
nonterminals on a shorter stream.  Before that only a row of statements calls a
statement, and a statement calls an expression or a branch; the room that each of them
needs, one unit more than what it calls, pays for these calls.
-/

namespace FlexWidth

open TokenStream (Within ofTokens)

namespace Parser

/-- An expression reads a token, unless it fails at one that does not start any. -/
abbrev DecidesExpr (start : TokenStream) (power : Power) : Prop :=
  Decides 1 (fun room => parseWithin Rules.standard room (.expr power)) start
    (Moves (start.current.kind ≠ .identifier))

abbrev DecidesBranch (start : TokenStream) : Prop :=
  Decides 1 (fun room => parseWithin Rules.standard room .branch) start
    (Moves (start.current.kind ≠ .ifWord))

/-- A statement may call an expression or a branch before it has read. -/
abbrev DecidesStmt (start : TokenStream) : Prop :=
  Decides 2 (fun room => parseWithin Rules.standard room .stmt) start
    (Moves (start.current.kind ≠ .identifier))

/-- What each nonterminal comes to from a stream. -/
structure DecidesAt (start : TokenStream) : Prop where
  expr (power : Power) : DecidesExpr start power
  extension (power : Power) (left : Expr) :
    Decides 1 (fun room => parseWithin Rules.standard room (.extension power left)) start
      fun _ _ => True
  fields : Decides 1 (fun room => parseWithin Rules.standard room .fields) start fun _ _ => True
  bounds : Decides 1 (fun room => parseWithin Rules.standard room .bounds) start fun _ _ => True
  ascription :
    Decides 1 (fun room => parseWithin Rules.standard room .ascription) start fun _ _ => True
  branch : DecidesBranch start
  stmt : DecidesStmt start
  stmts (stop : List TokenKind) :
    Decides 3 (fun room => parseWithin Rules.standard room (.stmts stop)) start fun _ _ => True

/-- One unit of room pays for the step from a nonterminal to its rule. -/
theorem Decides.parseWithin {α : Type} {cost : Nat} {start : TokenStream}
    {nonterminal : Nonterminal α} {post : List Token → Except Failure α → Prop}
    (h : Decides cost (fun room => phrase Rules.standard (parseWithin Rules.standard room)
      nonterminal) start post) :
    Decides (cost + 1) (fun room => Parser.parseWithin Rules.standard room nonterminal) start
      post := by
  obtain ⟨verdict, later, hstart, hholds, hpost⟩ := h
  refine ⟨verdict, later, hstart, ⟨hholds.ne_endOfInput, hholds.refused, ?_⟩, hpost⟩
  intro room hroom other
  cases room with
  | zero => omega
  | succ room => exact hholds.run room (by omega) other

/-! ## The tables -/

/-- The kinds that start an expression by a rule. -/
def headKinds : HeadRule → List TokenKind
  | .primary => [.number, .identifier]
  | .sign => [.dash]
  | .parens => [.openParen]
  | .read => [.inputWord]

theorem mem_headKinds {kind : TokenKind} {rule : HeadRule}
    (h : Rules.standard.head kind = some rule) : kind ∈ headKinds rule := by
  cases kind <;> cases h <;> decide

/-- The kinds that start a statement by a rule. -/
def stmtKinds : StmtRule → List TokenKind
  | .any | .expression => []
  | .block => [.openCurly]
  | .named => [.identifier]
  | .print => [.outputWord]
  | .branch => [.ifWord]
  | .whileLoop => [.whileWord]
  | .forLoop => [.forWord]

theorem mem_stmtKinds {kind : TokenKind} {rule : StmtRule}
    (h : Rules.standard.stmt kind = some rule) : kind ∈ stmtKinds rule := by
  cases kind <;> cases h <;> decide

/-! ## Steps behind the first token -/

section Later

variable {limit : Nat} {start : TokenStream} (hstart : start.Within limit)

include hstart

theorem decided_skip {α : Type} {kind : TokenKind} {next : Nat → Unit → Parser α}
    (hkind : kind ≠ .endOfInput)
    (hnext : ∀ middle : TokenStream, middle.Within limit →
      Decided (fun room => next room ()) middle) :
    Decided (fun room => skip kind >>= next room) start :=
  (decides_skip (hstart.mono (Nat.le_succ limit)) hkind).bind_decided hstart (Nat.zero_le 3)
    fun _ => hnext

theorem decided_expect {α : Type} {kind : TokenKind} {next : Nat → Token → Parser α}
    (hkind : kind ≠ .endOfInput)
    (hnext : ∀ item (middle : TokenStream), middle.Within limit →
      Decided (fun room => next room item) middle) :
    Decided (fun room => expect kind >>= next room) start :=
  (decides_expect hstart.closed hkind).bind_decided hstart (Nat.zero_le 3) hnext

theorem decided_advance {α : Type} {next : Nat → Token → Parser α}
    (hkind : start.current.kind ≠ .endOfInput)
    (hnext : ∀ item (middle : TokenStream), middle.Within limit →
      Decided (fun room => next room item) middle) :
    Decided (fun room => advance >>= next room) start :=
  (decides_advance hstart.closed hkind).bind_decided hstart (Nat.zero_le 3) hnext

theorem decided_numberBelow {α : Type} {bound : Nat} {item : Token} {next : Nat → Nat → Parser α}
    (hnext : ∀ value (middle : TokenStream), middle.Within limit →
      Decided (fun room => next room value) middle) :
    Decided (fun room => numberBelow bound item >>= next room) start :=
  (decides_numberBelow bound item).bind_decided hstart (Nat.zero_le 3) hnext

theorem decided_streamNumber {α : Type} {next : Nat → Unit → Parser α}
    (hnext : ∀ middle : TokenStream, middle.Within limit →
      Decided (fun room => next room ()) middle) :
    Decided (fun room => streamNumber >>= next room) start := by
  have hnumber : Decided (fun _ => streamNumber) start := by
    apply Decides.currentKind
    split
    · rename_i hkind
      apply Decides.current
      -- the number is looked at before it is read
      refine (decides_numberBelow _ _).bind (fun _ _ _ => trivial) ?_
      intro read value middle hmiddle hread
      subst hread
      obtain rfl : start = middle := hmiddle
      split
      · exact decided_advance hstart (hkind ▸ by decide) fun _ _ _ => decides_pure trivial
      · exact decides_reject fun _ => trivial
    · exact decides_reject fun _ => trivial
  exact hnumber.bind_decided hstart (Nat.le_refl 3) fun _ => hnext

theorem decided_expr {α : Type} {power : Power} {next : Nat → Expr → Parser α}
    (hnested : ∀ stream : TokenStream, stream.Within limit → DecidesAt stream)
    (hnext : ∀ value (middle : TokenStream), middle.Within limit →
      Decided (fun room => next room value) middle) :
    Decided (fun room => parseWithin Rules.standard room (.expr power) >>= next room) start :=
  ((hnested start hstart).expr power).bind_decided hstart (by decide) hnext

end Later

section Rules

variable {cost limit : Nat} {start : TokenStream} (hstart : start.Within (limit + 1))
  (hnested : ∀ stream : TokenStream, stream.Within limit → DecidesAt stream)

include hstart

/-- A rule that starts with a token of its own. -/
theorem decides_skip_bind {α : Type} {kind : TokenKind} {next : Nat → Unit → Parser α}
    (hkind : kind ≠ .endOfInput)
    (hnext : ∀ middle : TokenStream, middle.Within limit →
      Decided (fun room => next room ()) middle) :
    Decides cost (fun room => skip kind >>= next room) start
      (Moves (start.current.kind ≠ kind)) :=
  (decides_skip hstart hkind).bind_moves hstart fun _ => hnext

include hnested

/-! ## Heads -/

omit hnested in
theorem decides_primary (hkind : start.current.kind ∈ headKinds .primary) :
    Decides cost (fun _ => primary) start (Moves False) := by
  apply Decides.currentKind
  split
  · rename_i hnumber
    refine (decides_advance hstart.closed (hnumber ▸ by decide)).bind_moves hstart ?_
    intro item middle hmiddle
    exact decided_numberBelow hmiddle fun _ _ _ => decides_pure trivial
  · rename_i hnumber
    have hname : start.current.kind = .identifier := by simpa [headKinds, hnumber] using hkind
    rw [if_pos hname]
    refine (decides_advance hstart.closed (hname ▸ by decide)).bind_moves hstart ?_
    intro item middle _
    exact decides_pure trivial

theorem decides_sign (hkind : start.current.kind ≠ .endOfInput) :
    Decides cost (fun room => sign (parseWithin Rules.standard room)) start (Moves False) := by
  refine (decides_advance hstart.closed hkind).bind_moves hstart ?_
  intro operator middle hmiddle
  exact decided_expr hmiddle hnested fun _ _ _ => decides_pure trivial

omit hstart in
theorem decides_field {stream : TokenStream} (hstream : stream.Within limit) :
    Decides 3 (fun room => field (parseWithin Rules.standard room)) stream
      (Moves (stream.current.kind ≠ .identifier)) := by
  have hlonger : stream.Within (limit + 1) := hstream.mono (Nat.le_succ limit)
  apply Decides.startsNamedField
  split
  · rename_i hnamed
    have hname : stream.current.kind = .identifier := (of_decide_eq_true hnamed).1
    have hadvance : Decides 3 (fun _ => advance) stream (Moves False) :=
      decides_advance hstream.closed (hname ▸ by decide)
    refine Decides.moves (hadvance.bind_moves hlonger ?_) False.elim
    intro name middle hmiddle
    refine decided_skip hmiddle (by decide) fun middle hmiddle => ?_
    exact decided_expr hmiddle hnested fun _ _ _ => decides_pure trivial
  · refine (((hnested stream hstream).expr .least).mono (by decide)).bind_moves hlonger ?_
    intro value middle _
    exact decides_pure trivial

theorem decides_fields :
    Decides cost (fun room => fields (parseWithin Rules.standard room)) start fun _ _ => True := by
  apply Decides.currentKind
  split
  · rename_i hkind
    refine Decides.weaken ((decides_advance hstart.closed (hkind ▸ by decide)).bind_moves hstart
      fun _ middle hmiddle => ?_) fun _ _ _ => trivial
    apply Decides.currentKind
    split
    · exact decides_pure trivial
    · refine (decides_field hnested hmiddle).bind_decided hmiddle (Nat.le_refl 3) ?_
      intro first middle hmiddle
      refine (hnested middle hmiddle).fields.bind_decided hmiddle (by decide) ?_
      intro rest middle _
      exact decides_pure trivial
  · exact decides_pure trivial

theorem decides_parens :
    Decides cost (fun room => parens (parseWithin Rules.standard room)) start
      (Moves (start.current.kind ≠ .openParen)) := by
  refine decides_skip_bind hstart (by decide) fun middle hmiddle => ?_
  refine Decides.decided (Decides.startsNamedField ?_) (Nat.le_refl 3)
  refine (decides_field hnested hmiddle).bind_moves (hmiddle.mono (Nat.le_succ limit)) ?_
  intro first middle hmiddle
  apply Decides.currentKind
  split
  · refine (hnested middle hmiddle).fields.bind_decided hmiddle (by decide) ?_
    intro rest middle hmiddle
    exact decided_skip hmiddle (by decide) fun _ _ => decides_pure trivial
  · exact decided_skip hmiddle (by decide) fun _ _ => decides_pure trivial

omit hnested in
theorem decides_read :
    Decides cost (fun _ => read) start (Moves (start.current.kind ≠ .inputWord)) := by
  refine decides_skip_bind hstart (by decide) fun middle hmiddle => ?_
  refine decided_skip hmiddle (by decide) fun middle hmiddle => ?_
  refine decided_streamNumber hmiddle fun middle hmiddle => ?_
  exact decided_skip hmiddle (by decide) fun _ _ => decides_pure trivial

theorem decides_head {rule : HeadRule}
    (hrule : Rules.standard.head start.current.kind = some rule) :
    Decides cost (fun room => head (parseWithin Rules.standard room) rule) start (Moves False) := by
  have hkind := mem_headKinds hrule
  cases rule with
  | primary => exact decides_primary hstart hkind
  | sign =>
      refine decides_sign hstart hnested ?_
      rw [List.mem_singleton.mp hkind]
      decide
  | parens =>
      exact (decides_parens hstart hnested).moves fun hother =>
        hother (List.mem_singleton.mp hkind)
  | read => exact (decides_read hstart).moves fun hother => hother (List.mem_singleton.mp hkind)

/-! ## Tails -/

theorem decides_binary {power : Power} {left : Expr} (hkind : start.current.kind ≠ .endOfInput) :
    Decides cost (fun room => binary (parseWithin Rules.standard room) left power) start
      (Moves False) := by
  refine (decides_advance hstart.closed hkind).bind_moves hstart ?_
  intro operator middle hmiddle
  exact decided_expr hmiddle hnested fun _ _ _ => decides_pure trivial

omit hnested in
theorem decides_member {left : Expr} :
    Decides cost (fun _ => member left) start (Moves (start.current.kind ≠ .dot)) := by
  refine decides_skip_bind hstart (by decide) fun middle hmiddle => ?_
  apply Decides.currentKind
  split
  · rename_i hkind
    exact decided_advance hmiddle (hkind ▸ by decide) fun _ _ _ => decides_pure trivial
  · split
    · rename_i hkind
      refine decided_advance hmiddle (hkind ▸ by decide) fun item middle hmiddle => ?_
      exact decided_numberBelow hmiddle fun _ _ _ => decides_pure trivial
    · exact decides_reject fun _ => trivial

theorem decides_tail {power : Power} {rule : TailRule} {left : Expr}
    (hrule : Rules.standard.tail start.current.kind = some (power, rule)) :
    Decides cost (fun room => tail (parseWithin Rules.standard room) left power rule) start
      (Moves True) := by
  cases rule with
  | binary =>
      refine (decides_binary hstart hnested ?_).moves fun _ => trivial
      intro hend
      rw [hend] at hrule
      cases hrule
  | member => exact (decides_member hstart).moves fun _ => trivial

/-! ## Expressions -/

theorem decides_expr (power : Power) :
    Decides cost (fun room => expr Rules.standard (parseWithin Rules.standard room) power) start
      (Moves (start.current.kind ≠ .identifier)) := by
  apply Decides.currentKind
  split
  · rename_i rule hrule
    refine Decides.moves ((decides_head hstart hnested hrule).bind_moves hstart ?_) False.elim
    intro left middle hmiddle
    exact ((hnested middle hmiddle).extension power left).decided (by decide)
  · rename_i hrule
    refine decides_reject fun failure _ => ⟨?_, failure, rfl⟩
    intro hname
    rw [hname] at hrule
    cases hrule

theorem decides_extension (power : Power) (left : Expr) :
    Decides cost (fun room => extension Rules.standard (parseWithin Rules.standard room) power left)
      start fun _ _ => True := by
  apply Decides.currentKind
  split
  · rename_i tailPower rule hrule
    split
    · refine Decides.weaken ((decides_tail hstart hnested hrule).bind_moves hstart ?_)
        fun _ _ _ => trivial
      intro longer middle hmiddle
      exact ((hnested middle hmiddle).extension power longer).decided (by decide)
    · exact decides_pure trivial
  · exact decides_pure trivial

/-! ## Written types -/

omit hnested in
theorem decides_intAscription :
    Decides cost (fun _ => intAscription) start fun _ _ => True := by
  refine Decides.weaken (decides_skip_bind hstart (by decide) fun middle hmiddle => ?_)
    fun _ _ _ => trivial
  apply Decides.currentKind
  split
  · rename_i hkind
    refine decided_advance hmiddle (hkind ▸ by decide) fun _ middle hmiddle => ?_
    refine decided_expect hmiddle (by decide) fun item middle hmiddle => ?_
    refine decided_numberBelow hmiddle fun width middle hmiddle => ?_
    exact decided_skip hmiddle (by decide) fun _ _ => decides_pure trivial
  · exact decides_pure trivial

omit hnested in
theorem decides_ascription :
    Decides cost (fun room => ascription Rules.standard (parseWithin Rules.standard room)) start
      fun _ _ => True := by
  apply Decides.currentKind
  split
  · rename_i rule hrule
    cases rule with
    | any =>
        -- the table has no such rule
        generalize start.current.kind = kind at hrule
        cases kind <;> cases hrule
    | int => exact decides_intAscription hstart
    | bool =>
        exact Decides.weaken (decides_skip_bind hstart (by decide) fun _ _ => decides_pure trivial)
          fun _ _ _ => trivial
  · exact decides_reject fun _ => trivial

/-! ## Statements -/

theorem decides_block :
    Decides cost (fun room => block (parseWithin Rules.standard room)) start
      (Moves (start.current.kind ≠ .openCurly)) := by
  refine decides_skip_bind hstart (by decide) fun middle hmiddle => ?_
  refine ((hnested middle hmiddle).stmts _).bind_decided hmiddle (Nat.le_refl 3) ?_
  intro body middle hmiddle
  exact decided_skip hmiddle (by decide) fun _ _ => decides_pure trivial

omit hstart in
theorem decided_block {α : Type} {stream : TokenStream} (hstream : stream.Within limit)
    {next : Nat → List Stmt → Parser α}
    (hnext : ∀ body (middle : TokenStream), middle.Within limit →
      Decided (fun room => next room body) middle) :
    Decided (fun room => block (parseWithin Rules.standard room) >>= next room) stream :=
  (decides_block (hstream.mono (Nat.le_succ limit)) hnested).bind_decided hstream
    (Nat.zero_le 3) hnext

omit hstart in
theorem decided_optionalAscription {stream : TokenStream} (hstream : stream.Within limit) :
    Decided (fun room => optionalAscription Rules.standard (parseWithin Rules.standard room))
      stream := by
  apply Decides.currentKind
  split
  · refine (hnested stream hstream).ascription.bind_decided hstream (by decide) ?_
    intro written middle _
    exact decides_pure trivial
  · exact decides_pure trivial

omit hstart in
theorem decided_optionalValue {stream : TokenStream} (hstream : stream.Within limit) :
    Decided (fun room => optionalValue (parseWithin Rules.standard room)) stream := by
  apply Decides.currentKind
  split
  · rename_i hkind
    refine decided_advance hstream (hkind ▸ by decide) fun _ middle hmiddle => ?_
    exact decided_expr hmiddle hnested fun _ _ _ => decides_pure trivial
  · exact decides_pure trivial

theorem decides_declaration :
    Decides cost (fun room => declaration Rules.standard (parseWithin Rules.standard room)) start
      (Moves (start.current.kind ≠ .identifier)) := by
  refine (decides_expect hstart.closed (by decide)).bind_moves hstart ?_
  intro name middle hmiddle
  refine decided_skip hmiddle (by decide) fun middle hmiddle => ?_
  refine (decided_optionalAscription hnested hmiddle).bind_decided hmiddle (Nat.le_refl 3) ?_
  intro written middle hmiddle
  refine (decided_optionalValue hnested hmiddle).bind_decided hmiddle (Nat.le_refl 3) ?_
  intro value middle hmiddle
  split
  · exact decides_reject fun _ => trivial
  · exact decided_skip hmiddle (by decide) fun _ _ => decides_pure trivial

theorem decides_assignment (hname : start.current.kind = .identifier) :
    Decides cost (fun room => assignment (parseWithin Rules.standard room)) start
      (Moves False) := by
  refine (decides_advance hstart.closed (hname ▸ by decide)).bind_moves hstart ?_
  intro name middle hmiddle
  refine decided_skip hmiddle (by decide) fun middle hmiddle => ?_
  refine decided_expr hmiddle hnested fun value middle hmiddle => ?_
  exact decided_skip hmiddle (by decide) fun _ _ => decides_pure trivial

omit hnested in
/-- An expression that stands as a statement is called before a token has been read. -/
theorem decides_expressionStmt (hexpr : DecidesExpr start .least) :
    Decides 1 (fun room => expressionStmt (parseWithin Rules.standard room)) start
      (Moves (start.current.kind ≠ .identifier)) := by
  refine hexpr.bind_moves hstart ?_
  intro value middle hmiddle
  exact decided_skip hmiddle (by decide) fun _ _ => decides_pure trivial

theorem decides_named (hname : start.current.kind = .identifier)
    (hexpr : DecidesExpr start .least) :
    Decides 1 (fun room => named Rules.standard (parseWithin Rules.standard room)) start
      (Moves (start.current.kind ≠ .identifier)) := by
  refine Decides.peekKind hname ?_
  split
  · exact decides_declaration hstart hnested
  · split
    · exact (decides_assignment hstart hnested hname).moves False.elim
    · exact decides_expressionStmt hstart hexpr

theorem decides_print :
    Decides cost (fun room => print (parseWithin Rules.standard room)) start
      (Moves (start.current.kind ≠ .outputWord)) := by
  refine decides_skip_bind hstart (by decide) fun middle hmiddle => ?_
  refine decided_skip hmiddle (by decide) fun middle hmiddle => ?_
  refine decided_streamNumber hmiddle fun middle hmiddle => ?_
  refine decided_skip hmiddle (by decide) fun middle hmiddle => ?_
  refine decided_expr hmiddle hnested fun value middle hmiddle => ?_
  refine decided_skip hmiddle (by decide) fun middle hmiddle => ?_
  exact decided_skip hmiddle (by decide) fun _ _ => decides_pure trivial

omit hstart in
theorem decided_condition {α : Type} {stream : TokenStream} (hstream : stream.Within limit)
    {next : Nat → Expr → Parser α}
    (hnext : ∀ value (middle : TokenStream), middle.Within limit →
      Decided (fun room => next room value) middle) :
    Decided (fun room => condition (parseWithin Rules.standard room) >>= next room) stream := by
  have hcondition : Decided (fun room => condition (parseWithin Rules.standard room)) stream := by
    refine decided_skip hstream (by decide) fun middle hmiddle => ?_
    refine decided_expr hmiddle hnested fun value middle hmiddle => ?_
    exact decided_skip hmiddle (by decide) fun _ _ => decides_pure trivial
  exact hcondition.bind_decided hstream (Nat.le_refl 3) hnext

omit hstart in
theorem decided_otherwise {stream : TokenStream} (hstream : stream.Within limit) :
    Decided (fun room => otherwise (parseWithin Rules.standard room)) stream := by
  apply Decides.currentKind
  split
  · rename_i hkind
    refine decided_advance hstream (hkind ▸ by decide) fun _ middle hmiddle => ?_
    apply Decides.currentKind
    split
    · refine (hnested middle hmiddle).branch.bind_decided hmiddle (by decide) ?_
      intro next middle _
      exact decides_pure trivial
    · exact decided_block hnested hmiddle fun _ _ _ => decides_pure trivial
  · exact decides_pure trivial

theorem decides_branch :
    Decides cost (fun room => branch (parseWithin Rules.standard room)) start
      (Moves (start.current.kind ≠ .ifWord)) := by
  refine decides_skip_bind hstart (by decide) fun middle hmiddle => ?_
  refine decided_condition hnested hmiddle fun test middle hmiddle => ?_
  refine decided_block hnested hmiddle fun yes middle hmiddle => ?_
  refine (decided_otherwise hnested hmiddle).bind_decided hmiddle (Nat.le_refl 3) ?_
  intro no middle _
  exact decides_pure trivial

theorem decides_whileLoop :
    Decides cost (fun room => whileLoop (parseWithin Rules.standard room)) start
      (Moves (start.current.kind ≠ .whileWord)) := by
  refine decides_skip_bind hstart (by decide) fun middle hmiddle => ?_
  refine decided_condition hnested hmiddle fun test middle hmiddle => ?_
  exact decided_block hnested hmiddle fun _ _ _ => decides_pure trivial

theorem decides_bounds :
    Decides cost (fun room => bounds (parseWithin Rules.standard room)) start fun _ _ => True := by
  apply Decides.currentKind
  split
  · rename_i hkind
    refine Decides.weaken ((decides_advance hstart.closed (hkind ▸ by decide)).bind_moves hstart
      fun _ middle hmiddle => ?_) fun _ _ _ => trivial
    refine decided_expr hmiddle hnested fun first middle hmiddle => ?_
    refine (hnested middle hmiddle).bounds.bind_decided hmiddle (by decide) ?_
    intro rest middle _
    exact decides_pure trivial
  · exact decides_pure trivial

theorem decides_forLoop :
    Decides cost (fun room => forLoop (parseWithin Rules.standard room)) start
      (Moves (start.current.kind ≠ .forWord)) := by
  refine decides_skip_bind hstart (by decide) fun middle hmiddle => ?_
  refine decided_skip hmiddle (by decide) fun middle hmiddle => ?_
  refine decided_expect hmiddle (by decide) fun name middle hmiddle => ?_
  refine decided_skip hmiddle (by decide) fun middle hmiddle => ?_
  refine decided_expr hmiddle hnested fun first middle hmiddle => ?_
  refine (hnested middle hmiddle).bounds.bind_decided hmiddle (by decide) ?_
  intro rest middle hmiddle
  refine decided_skip hmiddle (by decide) fun middle hmiddle => ?_
  exact decided_block hnested hmiddle fun _ _ _ => decides_pure trivial

theorem decides_stmtRule {rule : StmtRule}
    (hrule : Rules.standard.stmt start.current.kind = some rule)
    (hexpr : DecidesExpr start .least) (hbranch : DecidesBranch start) :
    Decides 1 (fun room => stmtRule Rules.standard (parseWithin Rules.standard room) rule) start
      (Moves (start.current.kind ≠ .identifier)) := by
  have hkind := mem_stmtKinds hrule
  cases rule with
  | any | expression => cases hkind
  | named => exact decides_named hstart hnested (List.mem_singleton.mp hkind) hexpr
  | block =>
      refine ((decides_block hstart hnested).bind_moves hstart fun _ _ _ =>
        decides_pure trivial).moves ?_
      exact absurd (List.mem_singleton.mp hkind)
  | print => exact (decides_print hstart hnested).moves (absurd (List.mem_singleton.mp hkind))
  | branch => exact hbranch.moves (absurd (List.mem_singleton.mp hkind))
  | whileLoop =>
      exact (decides_whileLoop hstart hnested).moves (absurd (List.mem_singleton.mp hkind))
  | forLoop => exact (decides_forLoop hstart hnested).moves (absurd (List.mem_singleton.mp hkind))

theorem decides_stmt (hexpr : DecidesExpr start .least) (hbranch : DecidesBranch start) :
    Decides 1 (fun room => stmt Rules.standard (parseWithin Rules.standard room)) start
      (Moves (start.current.kind ≠ .identifier)) := by
  apply Decides.currentKind
  split
  · rename_i rule hrule
    exact decides_stmtRule hstart hnested hrule hexpr hbranch
  · exact decides_expressionStmt hstart hexpr

theorem decides_stmts (stop : List TokenKind) (hstmt : DecidesStmt start) :
    Decides 2 (fun room => stmts (parseWithin Rules.standard room) stop) start
      fun _ _ => True := by
  apply Decides.currentKind
  split
  · exact decides_pure trivial
  · refine Decides.weaken (hstmt.bind_moves hstart ?_) fun _ _ _ => trivial
    intro first middle hmiddle
    refine ((hnested middle hmiddle).stmts stop).bind_decided hmiddle (Nat.le_refl 3) ?_
    intro rest middle _
    exact decides_pure trivial

end Rules

/-- Every nonterminal comes to a verdict from every closed stream. -/
theorem decidesAt_within (limit : Nat) (stream : TokenStream) (hstream : stream.Within limit) :
    DecidesAt stream := by
  induction limit generalizing stream with
  | zero => exact absurd hstream.size_le (Nat.not_succ_le_zero _)
  | succ limit ih =>
      have hexpr (power : Power) : DecidesExpr stream power :=
        Decides.parseWithin (decides_expr hstream ih power)
      have hbranch : DecidesBranch stream := Decides.parseWithin (decides_branch hstream ih)
      have hstmt : DecidesStmt stream :=
        Decides.parseWithin (decides_stmt hstream ih (hexpr .least) hbranch)
      exact {
        expr := hexpr
        extension := fun power left => Decides.parseWithin (decides_extension hstream ih power left)
        fields := Decides.parseWithin (decides_fields hstream ih)
        bounds := Decides.parseWithin (decides_bounds hstream ih)
        ascription := Decides.parseWithin (decides_ascription hstream)
        branch := hbranch
        stmt := hstmt
        stmts := fun stop => Decides.parseWithin (decides_stmts hstream ih stop hstmt) }

/-! ## Where the parser stops -/

/-- How many tokens of a list the parser has read when it is done. -/
def stopIndex (tokens : List Token) : Nat :=
  match nested Rules.standard (.stmts [.endOfInput]) (ofTokens tokens) with
  | .ok _ final | .error _ final => TokenStream.position (ofTokens tokens) final

/-- The parser of programs comes to the verdict. -/
abbrev Verdict.IsFinal (verdict : Verdict Program) : Prop :=
  verdict.Holds 3 fun room => parseWithin Rules.standard room (.stmts [.endOfInput])

theorem exists_isFinal (tokens : List Token) :
    ∃ (verdict : Verdict Program) (later : List Token),
      ofTokens tokens = verdict.start later ∧ verdict.IsFinal := by
  have hwithin : (ofTokens tokens).Within (ofTokens tokens).size :=
    ⟨TokenStream.closed_ofTokens tokens, Nat.le_refl _⟩
  obtain ⟨verdict, later, hstart, hfinal, -⟩ :=
    (decidesAt_within _ _ hwithin).stmts [.endOfInput]
  exact ⟨verdict, later, hstart, hfinal⟩

/-- The room that the parser gives itself suffices. -/
theorem Verdict.Holds.nested_eq {verdict : Verdict Program} (h : verdict.IsFinal)
    (later : List Token) :
    nested Rules.standard (.stmts [.endOfInput]) (verdict.start later) = verdict.finish later := by
  have hroom : 3 + 4 * verdict.read.length ≤ allowance (verdict.start later) := by
    rw [allowance, verdict.size_start]
    omega
  exact h.run _ hroom later

/-- Every token list that starts with what was read and the token at hand has the same
answer. -/
theorem Verdict.Holds.parse_eq {verdict : Verdict Program} (h : verdict.IsFinal)
    {tokens later : List Token} (hstart : ofTokens tokens = verdict.start later) :
    parse tokens = verdict.result ∧ stopIndex tokens = verdict.read.length := by
  have hposition := verdict.position_start later
  unfold parse stopIndex
  rw [hstart, h.nested_eq later]
  obtain ⟨read, next, result⟩ := verdict
  cases result <;> exact ⟨rfl, hposition⟩

end Parser

end FlexWidth
