import Blueprint.Grammar.Workspace
import Blueprint.Proofs.Grammar.Run

/-!
# Statements as functions of their node

A statement in the body of a node changes the node while it is read. As long as nothing fails, it
may as well be seen as a function from the node to a reader of the changed node. What a failing
statement has changed by then is told apart; given that, a body is read by a loop that hands the
node on from statement to statement.
-/

namespace Blueprint.Grammar

open Blueprint.Declared Blueprint.Text

variable {α β ν : Type} {p q : Progress}

/-! ## Runs on a node -/

/-- What a step on a node comes to: its result, the node as it is then, and how far reading has
come. -/
def NodeReader.runOn (step : NodeReader ν α) (node : ν) (p : Progress) :
    (Except Halt α × ν) × Progress :=
  (step.run.run node).run p

/-- A step that does not look at the node runs as it does without one. -/
theorem runOn_lift (step : Reader α) (node : ν) (p : Progress) :
    NodeReader.runOn (liftM step) node p = (((step.run.run p).1, node), (step.run.run p).2) := rfl

/-- A change of the node is made. -/
theorem runOn_modifyNode (change : ν → ν) (node : ν) (p : Progress) :
    (modifyNode change).runOn node p = ((.ok (), change node), p) := rfl

/-- How one step after another runs. -/
theorem runOn_bind (step : NodeReader ν α) (next : α → NodeReader ν β) (node : ν) (p : Progress) :
    (step >>= next).runOn node p =
      match step.runOn node p with
      | ((.ok value, left), q) => (next value).runOn left q
      | ((.error halt, left), q) => ((.error halt, left), q) := by
  unfold NodeReader.runOn
  rw [ExceptT.run_bind, StateT.run_bind, StateT.run_bind]
  rcases (step.run.run node).run p with ⟨⟨halt | value, left⟩, q⟩ <;> rfl

/-- What is told from the node runs as it does for the node there is. -/
theorem runOn_currentNode (next : ν → NodeReader ν β) (node : ν) (p : Progress) :
    NodeReader.runOn (currentNode >>= next) node p = (next node).runOn node p := rfl

/-- How a step after one that does not look at the node runs. -/
theorem runOn_lift_bind (step : Reader α) (next : α → NodeReader ν β) (node : ν) (p : Progress) :
    NodeReader.runOn (liftM step >>= next) node p =
      match step.run.run p with
      | (.ok value, q) => (next value).runOn node q
      | (.error halt, q) => ((.error halt, node), q) := by
  rw [runOn_bind, runOn_lift]
  rcases step.run.run p with ⟨halt | value, q⟩ <;> rfl

/-- How an attempt runs on a node. -/
theorem runOn_attempt (statement : NodeReader ν α) (recover : GrammarError → NodeReader ν α)
    (node : ν) (p : Progress) :
    NodeReader.runOn (attempt statement recover) node p =
      match statement.runOn node p with
      | ((.error (.failed error), left), q) => (recover error).runOn left q
      | ((result, left), q) => ((result, left), q) := by
  unfold NodeReader.runOn
  show ((ExceptT.run (ExceptT.tryCatch statement _)).run node).run p = _
  unfold ExceptT.tryCatch
  rw [ExceptT.run_mk, StateT.run_bind, StateT.run_bind]
  change ((statement.run.run node).run p >>= _) = _
  rcases (statement.run.run node).run p with ⟨⟨(error | _ | fault | _) | value, left⟩, q⟩ <;> rfl

/-- How an attempt runs. -/
theorem run_attempt (statement : Reader α) (recover : GrammarError → Reader α) (p : Progress) :
    (attempt statement recover).run.run p =
      match statement.run.run p with
      | (.error (.failed error), q) => (recover error).run.run q
      | (result, q) => (result, q) := by
  show (ExceptT.run (ExceptT.tryCatch statement _)).run p = _
  unfold ExceptT.tryCatch
  rw [ExceptT.run_mk, StateT.run_bind]
  change (statement.run.run p >>= _) = _
  rcases statement.run.run p with ⟨(error | _ | fault | _) | value, q⟩ <;> rfl

/-! ## Reports -/

/-- What the report of a failed statement adds. -/
def Progress.reporting (p : Progress) (error : GrammarError) : Progress :=
  { p with
    diagnostics := p.diagnostics ++ [.of (.grammar error.issue) (some error.token.position)]
    errors := p.errors + 1 }

/-- What is added when the limit of errors is reached. -/
def Progress.stopping (p : Progress) (error : GrammarError) : Progress :=
  { p with
    diagnostics := p.diagnostics ++
      [.of (.tooManyErrors p.errors) (some error.token.position)] }

/-- A report adds the error, and stops at the limit. -/
theorem run_report (error : GrammarError) (p : Progress) :
    (report error).run.run p =
      if p.limit ≤ (p.errors + 1 : Nat) then
        (.error .stopped, (p.reporting error).stopping error)
      else (.ok (), p.reporting error) := by
  by_cases hl : p.limit ≤ (p.errors + 1 : Nat)
  · rw [if_pos hl]
    have hc : (p.reporting error).limit ≤ ((p.reporting error).errors : Nat) := hl
    have he : (report error).run.run p = ((if (p.reporting error).limit ≤
        ((p.reporting error).errors : Nat) then (do
          remark (.tooManyErrors (p.reporting error).errors) error.token.position
          throw .stopped) else Pure.pure () : Reader Unit)).run.run (p.reporting error) := rfl
    rw [he, if_pos hc]
    rfl
  · rw [if_neg hl]
    have hc : ¬(p.reporting error).limit ≤ ((p.reporting error).errors : Nat) := hl
    have he : (report error).run.run p = ((if (p.reporting error).limit ≤
        ((p.reporting error).errors : Nat) then (do
          remark (.tooManyErrors (p.reporting error).errors) error.token.position
          throw .stopped) else Pure.pure () : Reader Unit)).run.run (p.reporting error) := rfl
    rw [he, if_neg hc]
    rfl

/-! ## Failed statements -/

/-- A reader leaves no failed statement over. -/
def Catches (reader : Reader α) : Prop :=
  ∀ p error q, reader.run.run p ≠ (.error (.failed error), q)

/-- Where neither of two readers leaves a failed statement over, both together leave none. -/
theorem Catches.bind {reader : Reader α} {next : α → Reader β} (h : Catches reader)
    (hn : ∀ value, Catches (next value)) : Catches (reader >>= next) := by
  intro p error q he
  rw [run_bind] at he
  generalize hr : reader.run.run p = result at he
  rcases result with ⟨halt | value, r⟩
  · cases he
    exact h p error q hr
  · exact hn value r error q he

/-- A choice between readers that leave nothing over. -/
theorem Catches.ite {holds : Prop} [Decidable holds] {reader alternative : Reader α}
    (ht : Catches reader) (hf : Catches alternative) :
    Catches (if holds then reader else alternative) := by
  split
  · exact ht
  · exact hf

/-- An attempt leaves nothing over if what follows a failure does not. -/
theorem Catches.attempt {statement : Reader α} {recover : GrammarError → Reader α}
    (h : ∀ error, Catches (recover error)) : Catches (attempt statement recover) := by
  intro p error q he
  rw [run_attempt] at he
  generalize statement.run.run p = result at he
  rcases result with ⟨(failure | _ | fault | _) | value, r⟩
  · exact h failure r error q he
  all_goals cases he

/-- A value alone leaves nothing over. -/
theorem catches_pure (value : α) : Catches (pure value) := by
  intro p error q he
  cases he

/-- Looking at the next token leaves nothing over. -/
theorem catches_current : Catches current := by
  intro p error q he
  cases hr : p.rest with
  | nil =>
    rw [run_current_of_nil hr] at he
    cases he
  | cons token tokens =>
    rw [run_current_of_cons hr] at he
    cases he

/-- Looking at the tokens that are left leaves nothing over. -/
theorem catches_remaining : Catches remaining := by
  intro p error q he
  cases he

/-- A change leaves nothing over. -/
theorem catches_modify (change : Progress → Progress) :
    Catches (modify change : Reader Unit) := by
  intro p error q he
  cases he

/-- Taking a token leaves nothing over. -/
theorem catches_advance : Catches advance :=
  catches_current.bind fun token => (catches_modify _).bind fun _ => catches_pure token

/-- Passing over a statement leaves nothing over. -/
theorem catches_recoverFrom (token : Token) : Catches (recoverFrom token) :=
  catches_remaining.bind fun _ => catches_modify _

/-- A report leaves nothing over. -/
theorem catches_report (error : GrammarError) : Catches (report error) := by
  intro p other q he
  rw [run_report] at he
  split at he <;> cases he

/-- A statement that is passed over when it fails leaves nothing over. -/
theorem catches_readOrSkip (statement : Reader Unit) : Catches (readOrSkip statement) :=
  .attempt fun error => (catches_report error).bind fun _ => catches_recoverFrom error.token

/-! ## The node after a step -/

/-- The node after a step is what the step has made of it, unless the step halts. -/
theorem run_fill (step : NodeReader ν Unit) (node : ν) (p : Progress) :
    (step.fill node).run.run p =
      match step.runOn node p with
      | ((.ok _, left), q) => (.ok left, q)
      | ((.error halt, _), q) => (.error halt, q) := by
  unfold NodeReader.fill NodeReader.runOn
  rw [ExceptT.run_mk, StateT.run_bind]
  rcases (step.run.run node).run p with ⟨⟨halt | value, left⟩, q⟩ <;> rfl

/-- Readers with the same runs are the same. -/
theorem reader_ext {first second : Reader α}
    (h : ∀ p, first.run.run p = second.run.run p) : first = second :=
  funext h

/-- The node after a step that comes behind one that does not look at it. -/
theorem fill_bind (step : Reader α) (next : α → NodeReader ν Unit) (node : ν) :
    NodeReader.fill (liftM step >>= next) node =
      step >>= fun value => (next value).fill node := by
  refine reader_ext fun p => ?_
  rw [run_fill, runOn_lift_bind, run_bind]
  rcases step.run.run p with ⟨halt | value, q⟩
  · rfl
  · exact (run_fill (next value) node q).symm

/-- The node after a step that does not look at it is the same. -/
theorem fill_lift (step : Reader Unit) (node : ν) :
    NodeReader.fill (liftM step) node = step >>= fun _ => pure node := by
  refine reader_ext fun p => ?_
  rw [run_fill, runOn_lift, run_bind]
  rcases step.run.run p with ⟨halt | value, q⟩ <;> rfl

/-- There is no node after a failing statement. -/
theorem fill_failUnexpected (place : Place) (token : Token) (node : ν) :
    NodeReader.fill (liftM (failUnexpected place token : Reader Unit)) node =
      failUnexpected place token := rfl

/-- The node after a change of it. -/
theorem fill_modifyNode (change : ν → ν) (node : ν) :
    (modifyNode change).fill node = pure (change node) := rfl

/-- The node after a step that is told from the node. -/
theorem fill_currentNode (next : ν → NodeReader ν Unit) (node : ν) :
    NodeReader.fill (currentNode >>= next) node = (next node).fill node := rfl

/-- The node after a step and another one. -/
theorem fill_seq (step next : NodeReader ν Unit) (node : ν) :
    NodeReader.fill (step >>= fun _ => next) node = step.fill node >>= next.fill := by
  refine reader_ext fun p => ?_
  rw [run_fill, runOn_bind, run_bind, run_fill]
  rcases step.runOn node p with ⟨⟨halt | value, left⟩, q⟩
  · rfl
  · exact (run_fill next left q).symm

/-- The node after one of two steps. -/
theorem fill_ite {holds : Prop} [Decidable holds] (first second : NodeReader ν Unit) (node : ν) :
    NodeReader.fill (if holds then first else second) node =
      if holds then first.fill node else second.fill node := by
  split <;> rfl

/-! ## Statements that hand on their node -/

/-- Reads a statement of a block. If it fails, it is reported and passed over; what it leaves of
itself then is told from its first token. -/
def readStatementLeaving (leave : Token → α → α) (statement : α → Reader α) (value : α) :
    Reader α := do
  let first ← current
  let before ← remaining
  attempt (statement value) fun error => do
    report error
    recoverFrom error.token
    let after ← remaining
    let next ← current
    if after.length == before.length && next.kind != .sign .rightBrace &&
        next.kind != .endOfInput then
      let _ ← advance
    return leave first value

/-- A failed statement is passed over before its node is handed on. -/
theorem passFailed_bind (before : List Token) (error : GrammarError) (value : α) :
    (passFailed before error >>= fun _ => pure value) = (do
      report error
      recoverFrom error.token
      let after ← remaining
      let next ← current
      if after.length == before.length && next.kind != .sign .rightBrace &&
          next.kind != .endOfInput then
        let _ ← advance
      return value) := by
  unfold passFailed
  simp only [bind_assoc]
  refine bind_congr fun _ => bind_congr fun _ => bind_congr fun _ => bind_congr fun _ => ?_
  split <;> simp only [bind_assoc, pure_bind]

/-- Reads at most the given count of statements of a block, and its closing brace. -/
def readBlockWithin (leave : Token → α → α) (statement : α → Reader α) : Nat → α → Reader α
  | 0, value => return value
  | count + 1, value => do
    let token ← current
    if token.kind == .endOfInput then
      if !(← get).endReported then reportUnclosed token
      return value
    else if token.kind == .sign .rightBrace then
      let _ ← advance
      return value
    else
      let value ← readStatementLeaving leave statement value
      readBlockWithin leave statement count value

/-- Reads the statements of a block after its opening brace, and its closing brace. -/
def readBlockLeaving (leave : Token → α → α) (statement : α → Reader α) (value : α) :
    Reader α := do
  readBlockWithin leave statement (← remaining).length value

/-- Reads the statements of a block in which a failing statement leaves nothing of itself. -/
def readBlockKeeping (statement : α → Reader α) (value : α) : Reader α :=
  readBlockLeaving (fun _ value => value) statement value

/-- A statement of a block never fails: if it does, it is reported and passed over. -/
theorem catches_readStatementLeaving (leave : Token → α → α) (statement : α → Reader α)
    (value : α) : Catches (readStatementLeaving leave statement value) :=
  catches_current.bind fun first => catches_remaining.bind fun _ => .attempt fun error =>
    (catches_report error).bind fun _ => (catches_recoverFrom error.token).bind fun _ =>
      catches_remaining.bind fun _ => catches_current.bind fun _ =>
        .ite (catches_advance.bind fun _ => catches_pure _) (catches_pure (leave first value))

/-- The loop over the statements of a block never fails. -/
theorem catches_readBlockWithin (leave : Token → α → α) (statement : α → Reader α) (count : Nat)
    (value : α) : Catches (readBlockWithin leave statement count value) := by
  induction count generalizing value with
  | zero => exact catches_pure value
  | succ count ih =>
    have hget : Catches (get : Reader Progress) := by
      intro p error q hr
      cases hr
    have hreport : ∀ token, Catches (reportUnclosed token) :=
      fun token => (catches_modify _).bind fun _ => catches_report _
    unfold readBlockWithin
    refine catches_current.bind fun token => .ite ?_ (.ite ?_ ?_)
    · exact hget.bind fun _ => .ite ((hreport token).bind fun _ => catches_pure value)
        (catches_pure value)
    · exact catches_advance.bind fun _ => catches_pure value
    · exact (catches_readStatementLeaving leave statement value).bind ih

/-- A block never fails, whatever its statements do. -/
theorem catches_readBlockLeaving (leave : Token → α → α) (statement : α → Reader α) (value : α) :
    Catches (readBlockLeaving leave statement value) :=
  catches_remaining.bind fun _ => catches_readBlockWithin leave statement _ value

/-- A block never fails, whatever its statements do. -/
theorem catches_readBlockKeeping (statement : α → Reader α) (value : α) :
    Catches (readBlockKeeping statement value) :=
  catches_readBlockLeaving _ statement value

/-! ## What a failing statement leaves -/

/-- What a failing statement leaves of itself in its node is told from its first token. -/
def Leaves (leave : Token → ν → ν) (statement : NodeReader ν Unit) : Prop :=
  ∀ (node : ν) (first : Token) (tokens : List Token) (p : Progress), p.rest = first :: tokens →
    ∀ error left q, statement.runOn node p = ((.error (.failed error), left), q) →
      left = leave first node

/-- A failing statement leaves its node as it is. -/
class Spares (statement : NodeReader ν Unit) : Prop where
  /-- The node is what it was before the statement. -/
  left_eq : ∀ (node : ν) (p : Progress) error left q,
    statement.runOn node p = ((.error (.failed error), left), q) → left = node

/-- A statement that spares its node leaves nothing of itself. -/
theorem Spares.leaves {statement : NodeReader ν Unit} (h : Spares statement) :
    Leaves (fun _ node => node) statement :=
  fun node _ _ p _ => h.left_eq node p

section Loop

variable {leave : Token → ν → ν} {statement : NodeReader ν Unit}

/-- A statement of a body is read as a function of its node. -/
theorem run_fill_readStatement (h : Leaves leave statement) {first : Token} {tokens : List Token}
    (hr : p.rest = first :: tokens) (node : ν) :
    ((readStatement statement).fill node).run.run p =
      (readStatementLeaving leave statement.fill node).run.run p := by
  have hremaining : remaining.run.run p = (.ok p.rest, p) := rfl
  unfold readStatement readStatementLeaving
  rw [fill_bind, run_bind, hremaining, run_bind, run_current_of_cons hr]
  dsimp only
  rw [run_fill, runOn_attempt, run_bind, hremaining]
  dsimp only
  rw [run_attempt, run_fill]
  rcases hs : statement.runOn node p with ⟨⟨(error | _ | fault | _) | value, left⟩, q⟩
  · -- What is left of a statement that fails is handed on while the rest of it is passed over.
    obtain rfl := h node first tokens p hr error left q hs
    dsimp only
    rw [← run_fill, fill_lift, passFailed_bind]
  all_goals rfl

/-- The statements of a body are read by a loop that hands on the node. -/
theorem fill_readStatementsWithin (h : Leaves leave statement) (count : Nat) (node : ν) :
    (readStatementsWithin statement count).fill node =
      readBlockWithin leave statement.fill count node := by
  induction count generalizing node with
  | zero => rfl
  | succ count ih =>
    refine reader_ext fun p => ?_
    unfold readStatementsWithin readBlockWithin
    rw [fill_bind, run_bind, run_bind]
    cases hr : p.rest with
    | nil => rw [run_current_of_nil hr]
    | cons token tokens =>
      rw [run_current_of_cons hr]
      dsimp only
      rw [fill_ite, fill_ite]
      split
      · rw [fill_bind]
        simp only [fill_ite, fill_lift]
        rfl
      · split
        · rw [fill_bind]
          rfl
        · rw [fill_seq, run_bind, run_bind, run_fill_readStatement h hr]
          simp only [ih]

/-- A body is read by a loop that hands on the node. -/
theorem readBlock_eq (h : Leaves leave statement) (node : ν) :
    readBlock statement node = readBlockLeaving leave statement.fill node := by
  unfold readBlock readStatements readBlockLeaving
  rw [fill_bind]
  simp only [fill_readStatementsWithin h]

end Loop

/-- The body of a node that failing statements leave as it is. -/
theorem readBlock_eq_keeping (statement : NodeReader ν Unit) [h : Spares statement] :
    readBlock statement = readBlockKeeping statement.fill :=
  funext (readBlock_eq h.leaves)

/-- A body never fails, whatever its statements do. -/
theorem catches_readBlock (statement : NodeReader ν Unit) [Spares statement] (node : ν) :
    Catches (readBlock statement node) :=
  readBlock_eq_keeping statement ▸ catches_readBlockKeeping statement.fill node

namespace Spares

variable {first second : NodeReader ν Unit}

/-- A step that does not look at the node spares it. -/
instance lift (step : Reader Unit) : Spares (liftM step : NodeReader ν Unit) where
  left_eq _ _ _ _ _ hr := (congrArg (fun outcome => outcome.1.2) hr).symm

/-- What comes behind a step that does not look at the node has to spare it. -/
theorem after {step : Reader α} {next : α → NodeReader ν Unit} (h : ∀ value, Spares (next value)) :
    Spares (liftM step >>= next) where
  left_eq node p error left q hr := by
    rw [runOn_lift_bind] at hr
    generalize step.run.run p = outcome at hr
    rcases outcome with ⟨halt | value, r⟩
    · exact (congrArg (fun outcome => outcome.1.2) hr).symm
    · exact (h value).left_eq node r error left q hr

/-- A change of the node does not fail. -/
theorem change (change : ν → ν) : Spares (modifyNode change) where
  left_eq node p error left q hr := by cases hr

/-- Both of two steps have to spare the node. -/
theorem ite {holds : Prop} [Decidable holds] (ht : Spares first) (hf : Spares second) :
    Spares (if holds then first else second) := by
  split
  · exact ht
  · exact hf

/-- The statements of a body spare the node: they never fail. -/
theorem statements (statement : NodeReader ν Unit) [Spares statement] :
    Spares (readStatements statement) where
  left_eq node p error left q hr := by
    refine absurd ?_ (catches_readBlock statement node p error q)
    unfold readBlock
    rw [run_fill, hr]

end Spares

/-- A statement that changes the workspace only, as a function of nothing. -/
theorem fill_liftM (statement : Reader Unit) :
    NodeReader.fill (liftM statement) = fun _ : Unit => statement :=
  funext fun _ => (fill_lift statement ()).trans (bind_pure statement)

/-- A block whose statements change the workspace only. -/
theorem readBlockOf_eq (statement : Reader Unit) :
    readBlockOf statement = readBlockKeeping (fun _ => statement) () := by
  unfold readBlockOf
  rw [readBlock_eq_keeping, fill_liftM]

end Blueprint.Grammar
