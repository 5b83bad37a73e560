import Blueprint.Proofs.Grammar.Block

/-!
# Runs up to a limit of errors

How a run of a reader ends is compared for all ledgers: what was reported before, how many
statements have failed, and how many may. There is one free run that none of them stops. A run with
a ledger that has room for the failures of the free run is the free run; any other one is cut right
after the failure for which there is no room. A reader is limited if all of its runs are: a
statement of a block that fails is reported once, at the boundary of the statement, and the block
goes on only if that does not reach the limit.
-/

namespace Blueprint

namespace Diagnostic

/-- Whether a diagnostic is the report of a failed statement. -/
def isFailure (diagnostic : Diagnostic) : Bool :=
  match diagnostic.issue with
  | .grammar _ => true
  | _ => false

/-- A diagnostic is what reading reports without stopping: a failed statement, or a directive that
is not known. -/
def Routine (diagnostic : Diagnostic) : Prop :=
  ∃ issue position, diagnostic = .of issue position ∧
    ((∃ cause, issue = .grammar cause) ∨ ∃ lexeme, issue = .unknownDirective lexeme)

/-- What reading reports without stopping is not fatal. -/
theorem Routine.severity_ne {diagnostic : Diagnostic} (h : diagnostic.Routine) :
    diagnostic.severity ≠ .fatal := by
  obtain ⟨_, position, rfl, ⟨cause, rfl⟩ | ⟨lexeme, rfl⟩⟩ := h
  · exact nofun
  · exact nofun

end Diagnostic

namespace Grammar

open Blueprint.Declared

variable {α β : Type} {p q r : Progress}

/-- The count of failed statements among diagnostics. -/
def failures (diagnostics : List Diagnostic) : Nat := diagnostics.countP Diagnostic.isFailure

/-- No failure is reported by nothing. -/
@[simp] theorem failures_nil : failures [] = 0 := rfl

/-- The failures of diagnostics add up. -/
@[simp] theorem failures_append (first second : List Diagnostic) :
    failures (first ++ second) = failures first + failures second :=
  List.countP_append

/-- What a run knows of errors: those that were reported, the count of statements that failed, and
the limit. -/
structure Ledger where
  /-- What was reported. -/
  diagnostics : List Diagnostic
  /-- The count of statements that failed. -/
  errors : Nat
  /-- The count of errors at which reading stops. -/
  limit : Int

/-- A progress with another ledger. -/
def Progress.withLedger (p : Progress) (ledger : Ledger) : Progress :=
  { p with diagnostics := ledger.diagnostics, errors := ledger.errors, limit := ledger.limit }

namespace Ledger

/-- The ledger with further reports. -/
def add (ledger : Ledger) (reports : List Diagnostic) : Ledger :=
  { ledger with
    diagnostics := ledger.diagnostics ++ reports
    errors := ledger.errors + failures reports }

/-- There is room for the failures among reports: there are none, or the limit is not reached. -/
def Admits (ledger : Ledger) (reports : List Diagnostic) : Prop :=
  failures reports = 0 ∨ ((ledger.errors + failures reports : Nat) : Int) < ledger.limit

/-- A run is cut among reports: after those for which there is room comes a failure that reaches
the limit. It is reported, and then that the limit is reached. -/
def Cuts (ledger : Ledger) (reports : List Diagnostic) (q : Progress) : Prop :=
  ∃ front error back, reports = front ++ error :: back ∧ error.isFailure = true ∧
    ledger.Admits front ∧ ledger.limit ≤ ((ledger.errors + failures front + 1 : Nat) : Int) ∧
    q.diagnostics = ledger.diagnostics ++ front ++
      [error, .of (.tooManyErrors (ledger.errors + failures front + 1)) error.position]

variable {ledger : Ledger} {first second : List Diagnostic}

/-- Nothing is added by no report. -/
@[simp] theorem add_nil (ledger : Ledger) : ledger.add [] = ledger := by
  simp [add]

/-- Reports are added one after the other. -/
theorem add_append (ledger : Ledger) (first second : List Diagnostic) :
    ledger.add (first ++ second) = (ledger.add first).add second := by
  simp [add, Nat.add_assoc]

/-- There is room for reports if there is room for one part after the other. -/
theorem Admits.append (hf : ledger.Admits first) (hs : (ledger.add first).Admits second) :
    ledger.Admits (first ++ second) := by
  unfold Admits add at *
  rw [failures_append]
  dsimp only at hs
  omega

/-- What is cut stays cut when more is reported. -/
theorem Cuts.append (h : ledger.Cuts first q) (second : List Diagnostic) :
    ledger.Cuts (first ++ second) q := by
  obtain ⟨front, error, back, rfl, h⟩ := h
  exact ⟨front, error, back ++ second, by simp, h⟩

/-- What is cut after reports for which there is room is cut. -/
theorem Cuts.after (hf : ledger.Admits first) (h : (ledger.add first).Cuts second q) :
    ledger.Cuts (first ++ second) q := by
  obtain ⟨front, error, back, rfl, he, ha, hl, hd⟩ := h
  refine ⟨first ++ front, error, back, by simp, he, hf.append ha, ?_, ?_⟩
  · rw [failures_append, ← Nat.add_assoc]
    exact hl
  · rw [hd, failures_append, ← Nat.add_assoc]
    simp [add]

end Ledger

/-! ## Limited readers -/

/-- A ledger takes the place of another one. -/
@[simp] theorem withLedger_withLedger (p : Progress) (ledger other : Ledger) :
    (p.withLedger ledger).withLedger other = p.withLedger other := rfl

/-- How the run with a ledger ends, given the reports and the end of the free run: as the free run,
if there is room for the reports, or cut among them. -/
def Settles {α : Type} (ledger : Ledger) (reports : List Diagnostic) (result : Except Halt α)
    (q : Progress) (outcome : Except Halt α × Progress) : Prop :=
  (ledger.Admits reports ∧ outcome = (result, q.withLedger (ledger.add reports))) ∨
    ∃ r, outcome = (.error .stopped, r) ∧ ledger.Cuts reports r

/-- The free run of a reader: what it reports, how it ends, and where. -/
structure FreeRun {α : Type} (reader : Reader α) (p : Progress) (reports : List Diagnostic)
    (result : Except Halt α) (q : Progress) : Prop where
  /-- It is never stopped. -/
  unstopped : result ≠ .error .stopped
  /-- It reports failed statements and directives that are not known. -/
  routine : ∀ report ∈ reports, report.Routine
  /-- The run with any ledger ends in the same way or is cut. -/
  settles : ∀ ledger : Ledger,
    Settles ledger reports result q (reader.run.run (p.withLedger ledger))

/-- A reader has a free run from every progress. -/
def Limited {α : Type} (reader : Reader α) : Prop :=
  ∀ p : Progress, ∃ reports result q, FreeRun reader p reports result q

/-- A run that reports nothing, whatever the ledger, is free. -/
theorem FreeRun.of_silent {reader : Reader α} (result : Except Halt α) (q : Progress)
    (hn : result ≠ .error .stopped)
    (hr : ∀ ledger : Ledger, reader.run.run (p.withLedger ledger) = (result, q.withLedger ledger)) :
    FreeRun reader p [] result q where
  unstopped := hn
  routine := fun _ hm => absurd hm List.not_mem_nil
  settles := fun ledger => .inl ⟨.inl rfl, by rw [hr, Ledger.add_nil]⟩

/-- A free run that another one follows, in a reader that goes on as the second one does unless it
is stopped before. -/
theorem FreeRun.follow {reader : Reader α} {next whole : Reader β}
    {reports more : List Diagnostic} {result : Except Halt α} {last : Except Halt β}
    (h : FreeRun reader p reports result q) (hn : FreeRun next q more last r)
    (hgo : ∀ s t, reader.run.run s = (result, t) → whole.run.run s = next.run.run t)
    (hstop : ∀ s t, reader.run.run s = (.error .stopped, t) →
      whole.run.run s = (.error .stopped, t)) :
    FreeRun whole p (reports ++ more) last r where
  unstopped := hn.unstopped
  routine := by
    intro report hm
    rcases List.mem_append.mp hm with hm | hm
    · exact h.routine report hm
    · exact hn.routine report hm
  settles := by
    intro ledger
    rcases h.settles ledger with ⟨ha, he⟩ | ⟨s, he, hc⟩
    · rw [hgo _ _ he]
      rcases hn.settles (ledger.add reports) with ⟨hb, hl⟩ | ⟨t, hl, hc⟩
      · refine .inl ⟨ha.append hb, ?_⟩
        rw [Ledger.add_append, hl]
      · exact .inr ⟨t, hl, hc.after ha⟩
    · exact .inr ⟨s, hstop _ _ he, hc.append more⟩

/-- A value alone is read in any case. -/
theorem freeRun_pure (value : α) (p : Progress) : FreeRun (pure value) p [] (.ok value) p :=
  .of_silent _ _ nofun fun _ => rfl

/-- A halt that is no stop is reached in any case. -/
theorem freeRun_throw (halt : Halt) (h : halt ≠ .stopped) (p : Progress) :
    FreeRun (throw halt : Reader α) p [] (.error halt) p :=
  .of_silent _ _ (fun he => h (by cases he; rfl)) fun _ => rfl

namespace Limited

/-- A value alone is read in any case. -/
theorem pure (value : α) : Limited (pure value) :=
  fun p => ⟨_, _, _, freeRun_pure value p⟩

/-- A halt that is no stop is reached in any case. -/
theorem throw {halt : Halt} (h : halt ≠ .stopped) : Limited (throw halt : Reader α) :=
  fun p => ⟨_, _, _, freeRun_throw halt h p⟩

/-- Limited readers one after the other. -/
theorem bind {reader : Reader α} {next : α → Reader β} (h : Limited reader)
    (hn : ∀ value, Limited (next value)) : Limited (reader >>= next) := by
  intro p
  obtain ⟨reports, result, q, hr⟩ := h p
  have hstop : ∀ s t, reader.run.run s = (.error .stopped, t) →
      (reader >>= next).run.run s = (.error .stopped, t) := by
    intro s t he
    rw [run_bind, he]
  cases result with
  | error halt =>
    have hh : halt ≠ .stopped := fun he => hr.unstopped (by rw [he])
    refine ⟨_, _, _, hr.follow (freeRun_throw halt hh q) (fun s t he => ?_) hstop⟩
    rw [run_bind, he]
    rfl
  | ok value =>
    obtain ⟨more, last, r, hl⟩ := hn value q
    refine ⟨_, _, _, hr.follow hl (fun s t he => ?_) hstop⟩
    rw [run_bind, he]

/-- A choice between limited readers is limited. -/
theorem ite {holds : Prop} [Decidable holds] {reader alternative : Reader α}
    (ht : Limited reader) (hf : Limited alternative) :
    Limited (if holds then reader else alternative) := by
  split
  · exact ht
  · exact hf

/-- A step that changes nothing of the ledger and does not depend on it is limited. -/
theorem modify {change : Progress → Progress}
    (h : ∀ p ledger, change (Progress.withLedger p ledger) = (change p).withLedger ledger) :
    Limited (modify change : Reader Unit) :=
  fun p => ⟨_, _, _, .of_silent (.ok ()) (change p) nofun fun ledger => by
    rw [← h]
    rfl⟩

/-- What is looked at is not the ledger. -/
theorem get {next : Progress → Reader β} (hn : ∀ p, Limited (next p))
    (h : ∀ p ledger, next (Progress.withLedger p ledger) = next p) :
    Limited (get >>= next) := by
  intro p
  obtain ⟨reports, result, q, hr⟩ := hn p p
  refine ⟨reports, result, q, hr.unstopped, hr.routine, fun ledger => ?_⟩
  have hl := hr.settles ledger
  rw [← h p ledger] at hl
  exact hl

/-- What follows failed statements is compared where the free run fails. -/
theorem attempt {statement : Reader α} {recover : GrammarError → Reader α}
    (h : Limited statement) (hr : ∀ error, Limited (recover error)) :
    Limited (attempt statement recover) := by
  intro p
  obtain ⟨reports, result, q, hs⟩ := h p
  have hstop : ∀ s t, statement.run.run s = (.error .stopped, t) →
      (Grammar.attempt statement recover).run.run s = (.error .stopped, t) := by
    intro s t he
    rw [run_attempt, he]
  rcases result with (error | _ | fault | _) | value
  · obtain ⟨more, last, r, hl⟩ := hr error q
    refine ⟨_, _, _, hs.follow hl (fun s t he => ?_) hstop⟩
    rw [run_attempt, he]
  · exact absurd rfl hs.unstopped
  · refine ⟨_, _, _, hs.follow (freeRun_throw (.fault fault) nofun q) (fun s t he => ?_) hstop⟩
    rw [run_attempt, he]
    rfl
  · refine ⟨_, _, _, hs.follow (freeRun_throw .missing nofun q) (fun s t he => ?_) hstop⟩
    rw [run_attempt, he]
    rfl
  · refine ⟨_, _, _, hs.follow (freeRun_pure value q) (fun s t he => ?_) hstop⟩
    rw [run_attempt, he]
    rfl

end Limited

/-! ## Reports -/

/-- A directive that is not known is remarked in any case, and that is no failure. -/
theorem limited_remark (lexeme : String) (position : Position) :
    Limited (remark (.unknownDirective lexeme) position) := by
  intro p
  refine ⟨[.of (.unknownDirective lexeme) (some position)], .ok (), p, nofun, ?_,
    fun ledger => .inl ⟨.inl rfl, rfl⟩⟩
  intro report hm
  rw [List.mem_singleton.mp hm]
  exact ⟨_, _, rfl, .inr ⟨lexeme, rfl⟩⟩

/-- The report of a failed statement cuts a run for which it reaches the limit. -/
theorem limited_report (error : GrammarError) : Limited (report error) := by
  intro p
  refine ⟨[.of (.grammar error.issue) (some error.token.position)], .ok (), p, nofun, ?_,
    fun ledger => ?_⟩
  · intro report hm
    rw [List.mem_singleton.mp hm]
    exact ⟨_, _, rfl, .inl ⟨error.issue, rfl⟩⟩
  · rw [run_report]
    split
    · rename_i hl
      exact .inr ⟨_, rfl, [], _, [], rfl, rfl, .inl rfl, hl, by
        simp [Progress.stopping, Progress.reporting, Progress.withLedger, Diagnostic.of]⟩
    · rename_i hl
      exact .inl ⟨.inr (Int.not_le.mp hl), rfl⟩

/-! ## Tokens -/

/-- Looking at the next token is limited. -/
theorem limited_current : Limited current := by
  intro p
  cases hr : p.rest with
  | nil =>
    exact ⟨_, _, _, .of_silent (.error .missing) p nofun fun _ => run_current_of_nil hr⟩
  | cons token tokens =>
    exact ⟨_, _, _, .of_silent (.ok token) p nofun fun _ => run_current_of_cons hr⟩

/-- Looking at the tokens that are left is limited. -/
theorem limited_remaining : Limited remaining :=
  fun p => ⟨_, _, _, .of_silent (.ok p.rest) p nofun fun _ => rfl⟩

/-- Taking a token is limited. -/
theorem limited_advance : Limited advance := by
  unfold advance
  exact limited_current.bind fun token =>
    (Limited.modify fun _ _ => rfl).bind fun _ => .pure token

/-- Noting what happens is limited. -/
theorem limited_note (event : Event) : Limited (note event) :=
  .modify fun _ _ => rfl

/-- Going on with other tokens is limited. -/
theorem limited_continueWith (tokens : List Token) : Limited (continueWith tokens) :=
  .modify fun _ _ => rfl

/-- Changing the workspace is limited. -/
theorem limited_modifyWorkspace (change : Workspace → Workspace) :
    Limited (modifyWorkspace change) :=
  .modify fun _ _ => rfl

/-! ## Blocks -/

/-- Passing over a statement is limited. -/
theorem limited_recoverFrom (token : Token) : Limited (recoverFrom token) := by
  unfold recoverFrom
  exact limited_remaining.bind fun _ => limited_continueWith _

/-- A statement of a block is limited if its reader is. -/
theorem limited_readStatement {leave : Token → α → α} {statement : α → Reader α}
    (h : ∀ value, Limited (statement value)) (value : α) :
    Limited (readStatementLeaving leave statement value) := by
  unfold readStatementLeaving
  refine limited_current.bind fun first => limited_remaining.bind fun before =>
    (h value).attempt fun error => (limited_report error).bind fun _ =>
      (limited_recoverFrom error.token).bind fun _ => limited_remaining.bind fun after =>
        limited_current.bind fun next => ?_
  exact .ite (limited_advance.bind fun _ => .pure _) (.pure _)

/-- The report of a block without an end is limited. -/
theorem limited_reportUnclosed (token : Token) : Limited (reportUnclosed token) := by
  unfold reportUnclosed
  exact (Limited.modify fun _ _ => rfl).bind fun _ => limited_report _

/-- The loop over the statements of a block is limited if their reader is. -/
theorem limited_readBlockWithin {leave : Token → α → α} {statement : α → Reader α}
    (h : ∀ value, Limited (statement value)) (count : Nat) (value : α) :
    Limited (readBlockWithin leave statement count value) := by
  induction count generalizing value with
  | zero => exact .pure value
  | succ count ih =>
    unfold readBlockWithin
    refine limited_current.bind fun token => .ite ?_ (.ite ?_ ?_)
    · exact .get (fun p => .ite ((limited_reportUnclosed token).bind fun _ => .pure value)
        (.pure value)) fun _ _ => rfl
    · exact limited_advance.bind fun _ => .pure value
    · exact (limited_readStatement h value).bind ih

end Grammar

end Blueprint
