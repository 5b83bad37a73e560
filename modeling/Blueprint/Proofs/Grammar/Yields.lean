import Blueprint.Proofs.Grammar.Block

/-!
# Runs that yield a value

A run that goes through is told by the progress from which it starts, its value, and the progress
to which it leads. Such runs follow each other; a block is run by running its statements up to the
brace that closes it.
-/

namespace Blueprint.Grammar

variable {α β : Type} {p q r : Progress} {token : Token} {tokens : List Token}

/-- A progress with other tokens left. -/
def Progress.ahead (p : Progress) (tokens : List Token) : Progress := { p with rest := tokens }

/-- From a progress, a reader yields a value and leads to another progress. -/
def Yields (p : Progress) (reader : Reader α) (value : α) (q : Progress) : Prop :=
  reader.run.run p = (.ok value, q)

/-! ## Steps -/

/-- A value alone is yielded at once. -/
theorem yields_pure (value : α) : Yields p (pure value) value p := rfl

/-- One run follows the other. -/
theorem Yields.bind {reader : Reader α} {next : α → Reader β} {value : α} {last : β}
    (h : Yields p reader value q) (hn : Yields q (next value) last r) :
    Yields p (reader >>= next) last r := by
  unfold Yields at h hn ⊢
  rw [run_bind, h]
  exact hn

/-- The value of a run is changed after it. -/
theorem Yields.map {reader : Reader α} {value : α} (h : Yields p reader value q) (f : α → β) :
    Yields p (do return f (← reader)) (f value) q :=
  h.bind (yields_pure _)

/-- A statement that does not fail is attempted. -/
theorem Yields.attempt {statement : Reader α} {recover : GrammarError → Reader α} {value : α}
    (h : Yields p statement value q) : Yields p (attempt statement recover) value q := by
  unfold Yields at h ⊢
  rw [run_attempt, h]

/-- The workspace changes. -/
theorem yields_modifyWorkspace {change : Declared.Workspace → Declared.Workspace}
    (h : q = { p with workspace := change p.workspace }) :
    Yields p (modifyWorkspace change) () q := by
  rw [h]
  rfl

/-- The next token is looked at. -/
theorem yields_current : Yields (p.ahead (token :: tokens)) current token
    (p.ahead (token :: tokens)) := rfl

/-- The tokens that are left are looked at. -/
theorem yields_remaining : Yields (p.ahead tokens) remaining tokens (p.ahead tokens) := rfl

/-- An entry that a table has is looked up. -/
theorem yields_lookUp (entry : α) : Yields p (lookUp (some entry)) entry p := rfl

/-- A token before others is taken. -/
theorem yields_advance (h : tokens ≠ []) :
    Yields (p.ahead (token :: tokens)) advance token (p.ahead tokens) := by
  cases tokens with
  | nil => exact absurd rfl h
  | cons next rest => rfl

/-- A token of one of the kinds is taken. -/
theorem yields_expect {kinds : List Kind} (hk : kinds.contains token.kind = true)
    (h : tokens ≠ []) :
    Yields (p.ahead (token :: tokens)) (expect kinds) token (p.ahead tokens) := by
  unfold expect
  refine yields_current.bind ?_
  rw [if_pos hk]
  exact yields_advance h

/-- An opening brace is taken. -/
theorem yields_expectOpening (hk : token.kind = .sign .leftBrace) (h : tokens ≠ []) :
    Yields (p.ahead (token :: tokens)) expectOpening () (p.ahead tokens) := by
  unfold expectOpening
  refine (yields_expect ?_ h).bind (yields_pure _)
  rw [hk]
  rfl

/-- A string literal on a line is taken. -/
theorem yields_expectString {line : Int} {wanted : Wanted} (hk : token.kind = .string)
    (hl : token.line = line) (h : tokens ≠ []) :
    Yields (p.ahead (token :: tokens)) (expectString line wanted) token.text.shown
      (p.ahead tokens) := by
  unfold expectString
  refine yields_current.bind ?_
  rw [if_pos (by rw [hk, hl, beq_self_eq_true, beq_self_eq_true]; rfl)]
  exact (yields_advance h).bind (yields_pure _)

/-- The line has ended where a brace or the end of the input is next, or a token on another line. -/
theorem yields_expectLineEnd {line : Int} (h : onLine line token = false) :
    Yields (p.ahead (token :: tokens)) (expectLineEnd line) () (p.ahead (token :: tokens)) := by
  unfold expectLineEnd
  refine yields_current.bind ?_
  rw [if_neg (Bool.eq_false_iff.mp h)]
  exact yields_pure ()

/-- A body opens with a brace on the line. -/
theorem yields_opensBody {line : Int} (hk : token.kind = .sign .leftBrace) (hl : token.line = line)
    (h : tokens ≠ []) :
    Yields (p.ahead (token :: tokens)) (opensBody line) true (p.ahead tokens) := by
  unfold opensBody
  refine yields_current.bind ?_
  rw [if_pos (by rw [hk, hl, beq_self_eq_true, beq_self_eq_true]; rfl)]
  exact (yields_advance h).bind (yields_pure _)

/-- Where a token on another line is next, no body opens. -/
theorem yields_opensBody_false {line : Int} (hl : token.line ≠ line) :
    Yields (p.ahead (token :: tokens)) (opensBody line) false (p.ahead (token :: tokens)) := by
  unfold opensBody
  refine yields_current.bind ?_
  rw [if_neg (by simp [hl])]
  exact yields_pure false

/-- Arguments on a line are taken, up to a token that is none. -/
theorem yields_takePositional {line : Int} {limit : Nat} {front : List Token}
    (hf : ∀ token ∈ front, (token.line == line && isPositional token) = true)
    (hl : front.length ≤ limit)
    (ht : ∀ token ∈ tokens.head?, (token.line == line && isPositional token) = false) :
    Yields (p.ahead (front ++ tokens)) (takePositional line limit) (front.map (·.text.shown))
      (p.ahead tokens) := by
  have hpos : positional line limit (front ++ tokens) = front := by
    unfold positional
    rw [List.take_append, List.take_of_length_le hl, List.takeWhile_append_of_pos hf]
    have hstop : (tokens.take (limit - front.length)).takeWhile
        (fun token => token.line == line && isPositional token) = [] := by
      cases tokens with
      | nil => rw [List.take_nil, List.takeWhile_nil]
      | cons token rest =>
        cases limit - front.length with
        | zero => rfl
        | succ count =>
          rw [List.take_succ_cons]
          exact List.takeWhile_cons_of_neg (Bool.eq_false_iff.mp (ht token rfl))
    rw [hstop, List.append_nil]
  unfold takePositional
  refine yields_remaining.bind ?_
  dsimp only
  rw [hpos, List.drop_left]
  rfl

/-! ## Blocks -/

/-- Statements of a block are run one after the other; each of them takes a token, and none starts
with a brace that closes the block or at the end of the input. -/
inductive RunsThrough (statement : α → Reader α) : α → Progress → α → Progress → Prop
  /-- No statement is run. -/
  | done {value : α} {p : Progress} : RunsThrough statement value p value p
  /-- A statement is run, and then others. -/
  | step {value next last : α} {p q r : Progress} {token : Token} {tokens : List Token}
    (start : p.rest = token :: tokens) (open_ne : token.kind ≠ .sign .rightBrace)
    (end_ne : token.kind ≠ .endOfInput) (taken : q.rest.length < p.rest.length)
    (here : Yields p (statement value) next q) (more : RunsThrough statement next q last r) :
    RunsThrough statement value p last r

/-- Statements that are run take tokens. -/
theorem RunsThrough.length_le {statement : α → Reader α} {value last : α}
    (h : RunsThrough statement value p last q) : q.rest.length ≤ p.rest.length := by
  induction h with
  | done => exact Nat.le_refl _
  | step _ _ _ taken _ _ ih => omega

/-- A statement that does not fail is run. -/
theorem Yields.readStatement {leave : Token → α → α} {statement : α → Reader α} {value next : α}
    (h : Yields p (statement value) next q) (hr : p.rest = token :: tokens) :
    Yields p (readStatementLeaving leave statement value) next q := by
  have hc : Yields p current token p := run_current_of_cons hr
  have hn : Yields p remaining p.rest p := rfl
  unfold Grammar.readStatementLeaving
  exact hc.bind (hn.bind h.attempt)

/-- A block is read by running its statements and taking the brace that closes it. -/
theorem RunsThrough.readBlockWithin {leave : Token → α → α} {statement : α → Reader α}
    {value last : α} (h : RunsThrough statement value p last q)
    (hq : q.rest = token :: tokens) (hk : token.kind = .sign .rightBrace) (ht : tokens ≠ [])
    {count : Nat} (hc : p.rest.length < count + q.rest.length) :
    Yields p (readBlockWithin leave statement count value) last (q.ahead tokens) := by
  induction h generalizing count with
  | @done value p =>
    cases count with
    | zero => omega
    | succ count =>
      have hcur : Yields p current token p := run_current_of_cons hq
      have hadv : Yields p advance token (p.ahead tokens) := by
        have hp : p = p.ahead (token :: tokens) := by
          rw [← hq]
          rfl
        rw [hp]
        exact yields_advance ht
      unfold Grammar.readBlockWithin
      refine hcur.bind ?_
      rw [hk]
      exact hadv.bind (yields_pure _)
  | @step value next last p q r first rest start open_ne end_ne taken here more ih =>
    cases count with
    | zero =>
      have hle := more.length_le
      omega
    | succ count =>
      have hcur : Yields p current first p := run_current_of_cons start
      unfold Grammar.readBlockWithin
      refine hcur.bind ?_
      rw [if_neg (by simpa using end_ne), if_neg (by simpa using open_ne)]
      exact (here.readStatement start).bind (ih hq (by omega))

/-- A block is read by running its statements and taking the brace that closes it. -/
theorem RunsThrough.readBlockLeaving {leave : Token → α → α} {statement : α → Reader α}
    {value last : α} (h : RunsThrough statement value p last q)
    (hq : q.rest = token :: tokens) (hk : token.kind = .sign .rightBrace) (ht : tokens ≠ []) :
    Yields p (readBlockLeaving leave statement value) last (q.ahead tokens) := by
  have hn : Yields p remaining p.rest p := rfl
  unfold Grammar.readBlockLeaving
  refine hn.bind (h.readBlockWithin hq hk ht ?_)
  rw [hq, List.length_cons]
  omega

end Blueprint.Grammar
