import Blueprint.Proofs.Limit.Run
import Blueprint.Grammar.Property

/-!
# Readers that are built from steps

All readers are built from few steps: looking at the tokens that are left, going on with others,
noting something, changing the workspace, and reporting. What is told of the steps, and of readers
one after the other, is told of every reader that is built from them. No step looks at the workspace
that is being read. So whatever the workspace is, a reader runs in the same way, and what it does to
the workspace is one change of a class, if its steps make such changes. What is read on a line,
blocks and properties are built from steps that do not change it.
-/

namespace Blueprint.Grammar

open Blueprint.Declared

variable {α β : Type} {changes : (Workspace → Workspace) → Prop} {p q : Progress}

/-! ## Steps -/

/-- Notes that a block without an end is reported. -/
def noteEnd : Reader Unit := modify fun progress => { progress with endReported := true }

/-- A reader is built from steps that change the workspace only as some changes do. -/
inductive Built (changes : (Workspace → Workspace) → Prop) : {α : Type} → Reader α → Prop
  /-- A value alone is read. -/
  | pure {α : Type} (value : α) : Built changes (pure value : Reader α)
  /-- Reading halts, but not at the limit of errors. -/
  | throw {α : Type} {halt : Halt} (unstopped : halt ≠ .stopped) :
    Built changes (throw halt : Reader α)
  /-- One reader comes after another. -/
  | bind {α β : Type} {reader : Reader α} {next : α → Reader β} (first : Built changes reader)
    (second : ∀ value, Built changes (next value)) : Built changes (reader >>= next)
  /-- A statement may be given up. -/
  | attempt {α : Type} {statement : Reader α} {recover : GrammarError → Reader α}
    (first : Built changes statement) (second : ∀ error, Built changes (recover error)) :
    Built changes (attempt statement recover)
  /-- The tokens that are left are looked at. -/
  | remaining : Built changes remaining
  /-- Reading goes on with other tokens. -/
  | continueWith (tokens : List Token) : Built changes (continueWith tokens)
  /-- It is looked whether a block without an end has been reported. -/
  | isEndReported : Built changes isEndReported
  /-- It is noted that a block without an end is reported. -/
  | noteEnd : Built changes noteEnd
  /-- It is noted what happens. -/
  | note (event : Event) : Built changes (note event)
  /-- The workspace is changed. -/
  | modifyWorkspace {change : Workspace → Workspace} (allowed : changes change) :
    Built changes (modifyWorkspace change)
  /-- A directive that is not known is remarked. -/
  | remark (lexeme : String) (position : Position) :
    Built changes (remark (.unknownDirective lexeme) position)
  /-- A failed statement is reported. -/
  | report (error : GrammarError) : Built changes (report error)

namespace Built

/-- A statement fails. -/
theorem fail (issue : GrammarIssue) (token : Token) :
    Built changes (fail issue token : Reader α) :=
  .throw nofun

/-- One of two readers is chosen. -/
theorem ite {holds : Prop} [Decidable holds] {reader alternative : Reader α}
    (ht : Built changes reader) (hf : Built changes alternative) :
    Built changes (if holds then reader else alternative) := by
  split
  · exact ht
  · exact hf

/-- After a check another reader comes in any case. -/
theorem guarded {holds : Prop} [Decidable holds] {check : Reader Unit} {next : Unit → Reader α}
    (hc : Built changes check) (hn : ∀ value, Built changes (next value)) :
    Built changes (if holds then check >>= next else next ()) :=
  .ite (hc.bind hn) (hn ())

end Built

/-- The next token is the first of those that are left. -/
theorem current_eq : current = (do
    match ← remaining with
    | [] => throw .missing
    | token :: _ => return token) := rfl

/-- Looking at the next token is built from steps. -/
theorem built_current : Built changes current := by
  rw [current_eq]
  refine .bind .remaining fun tokens => ?_
  cases tokens with
  | nil => exact .throw nofun
  | cons token tokens => exact .pure token

/-- Looking for a sign is built from steps. -/
theorem built_isSign (sign : Sign) : Built changes (isSign sign) := by
  unfold isSign isNext
  exact built_current.bind fun _ => .pure _

/-- Looking up an entry is built from steps. -/
theorem built_lookUp (entry : Option α) : Built changes (lookUp entry) := by
  cases entry with
  | none => exact .throw nofun
  | some entry => exact .pure entry

/-- Taking a token is going on with the others. -/
theorem advance_eq : advance = (do
    let token ← current
    continueWith (dropToken (← remaining))
    return token) := rfl

/-- Taking a token is built from steps. -/
theorem built_advance : Built changes advance := by
  rw [advance_eq]
  exact built_current.bind fun token => Built.remaining.bind fun _ =>
    (Built.continueWith _).bind fun _ => .pure token

/-- Taking a key is built from steps. -/
theorem built_takeKey : Built changes takeKey :=
  built_advance.bind fun key => (Built.note (.key key)).bind fun _ => .pure key

/-! ## Limits of errors -/

/-- What is built from steps is limited. -/
theorem Built.limited {reader : Reader α} (h : Built changes reader) : Limited reader := by
  induction h with
  | pure value => exact .pure value
  | throw unstopped => exact .throw unstopped
  | bind _ _ first second => exact first.bind second
  | attempt _ _ first second => exact first.attempt second
  | remaining => exact limited_remaining
  | continueWith tokens => exact limited_continueWith tokens
  | isEndReported => exact .get (fun _ => .pure _) fun _ _ => rfl
  | noteEnd => exact .modify fun _ _ => rfl
  | note event => exact limited_note event
  | modifyWorkspace _ => exact limited_modifyWorkspace _
  | remark lexeme position => exact limited_remark lexeme position
  | report error => exact limited_report error

/-! ## What no step changes -/

/-- A progress goes on from another one: the limit of errors is the same, and what happens is noted
behind what happened before. -/
structure Continues (p q : Progress) : Prop where
  /-- The limit of errors is the same. -/
  limit : q.limit = p.limit
  /-- What happens is noted behind what happened before. -/
  trace : p.trace <+: q.trace

/-- A progress goes on from itself. -/
theorem Continues.refl (p : Progress) : Continues p p := ⟨rfl, List.prefix_rfl⟩

/-- What goes on from what goes on goes on. -/
theorem Continues.trans (h : Continues p q) {r : Progress} (hn : Continues q r) : Continues p r :=
  ⟨hn.limit.trans h.limit, h.trace.trans hn.trace⟩

/-- Keys are read behind those that were read before. -/
theorem Continues.keys (h : Continues p q) : p.keys <+: q.keys := h.trace.filterMap _

/-- What is built from steps keeps the limit of errors, and notes what happens behind what happened
before. -/
theorem Built.continues {reader : Reader α} (h : Built changes reader) {result : Except Halt α}
    (hr : reader.run.run p = (result, q)) : Continues p q := by
  induction h generalizing p q with
  | @bind _ _ reader _ _ _ first second =>
    rw [run_bind] at hr
    cases hf : reader.run.run p with
    | mk outcome r =>
      rw [hf] at hr
      cases outcome with
      | error halt => exact (Prod.mk.inj hr).2 ▸ first hf
      | ok value => exact (first hf).trans (second value hr)
  | @attempt _ statement _ _ _ first second =>
    rw [run_attempt] at hr
    cases hf : statement.run.run p with
    | mk outcome r =>
      rw [hf] at hr
      rcases outcome with (error | _ | fault | _) | value
      · exact (first hf).trans (second error hr)
      all_goals exact (Prod.mk.inj hr).2 ▸ first hf
  | note event =>
    cases hr
    exact ⟨rfl, List.prefix_append _ _⟩
  | report error =>
    rw [run_report] at hr
    split at hr <;> cases hr <;> exact ⟨rfl, List.prefix_rfl⟩
  | _ =>
    cases hr
    exact ⟨rfl, List.prefix_rfl⟩

/-! ## Other workspaces -/

/-- A progress with another workspace. -/
def Progress.withWorkspace (p : Progress) (workspace : Workspace) : Progress :=
  { p with workspace }

/-- With its own workspace a progress is what it is. -/
@[simp] theorem withWorkspace_workspace (p : Progress) : p.withWorkspace p.workspace = p := rfl

/-- The tokens that are left are not the workspace. -/
@[simp] theorem rest_withWorkspace (p : Progress) (workspace : Workspace) :
    (p.withWorkspace workspace).rest = p.rest := rfl

/-- A class of changes has the one that changes nothing, and one change after another. -/
structure Composes (changes : (Workspace → Workspace) → Prop) : Prop where
  /-- Nothing is changed. -/
  nothing : changes id
  /-- One change comes after another. -/
  after : ∀ {change next}, changes change → changes next → changes fun workspace =>
    next (change workspace)

/-- Whatever the workspace is, a run ends in the same way, and what it does to the workspace is one
change of a class. -/
def RunsAside (changes : (Workspace → Workspace) → Prop) (reader : Reader α) (p : Progress)
    (result : Except Halt α) (q : Progress) : Prop :=
  ∃ change, changes change ∧ ∀ workspace,
    reader.run.run (p.withWorkspace workspace) = (result, q.withWorkspace (change workspace))

namespace RunsAside

/-- A step that does nothing to the workspace. -/
theorem of_same (hc : Composes changes) {reader : Reader α} {result : Except Halt α}
    (h : ∀ workspace, reader.run.run (p.withWorkspace workspace) =
      (result, q.withWorkspace workspace)) : RunsAside changes reader p result q :=
  ⟨id, hc.nothing, h⟩

/-- A value alone does nothing to the workspace. -/
theorem value (hc : Composes changes) (value : α) :
    RunsAside changes (pure value : Reader α) p (.ok value) p :=
  .of_same hc fun _ => rfl

/-- A halt does nothing to the workspace. -/
theorem halt (hc : Composes changes) (halt : Halt) :
    RunsAside changes (throw halt : Reader α) p (.error halt) p :=
  .of_same hc fun _ => rfl

/-- A step that does not depend on the workspace does nothing to it. -/
theorem modify (hc : Composes changes) {change : Progress → Progress}
    (h : ∀ workspace, change (p.withWorkspace workspace) = (change p).withWorkspace workspace) :
    RunsAside changes (modify change : Reader Unit) p (.ok ()) (change p) :=
  .of_same hc fun workspace => by
    rw [← h]
    rfl

/-- A run that another one follows. -/
theorem follow (hc : Composes changes) {reader : Reader α} {next whole : Reader β}
    {result : Except Halt α} {last : Except Halt β} {r : Progress}
    (h : RunsAside changes reader p result q) (hn : RunsAside changes next q last r)
    (hgo : ∀ s t, reader.run.run s = (result, t) → whole.run.run s = next.run.run t) :
    RunsAside changes whole p last r := by
  obtain ⟨change, ha, hr⟩ := h
  obtain ⟨more, hm, hs⟩ := hn
  refine ⟨_, hc.after ha hm, fun workspace => ?_⟩
  rw [hgo _ _ (hr workspace), hs]

end RunsAside

/-- Whatever the workspace is, what is built from steps runs in the same way and changes the
workspace in the same way. -/
theorem Built.aside {reader : Reader α} (h : Built changes reader) (hc : Composes changes)
    (p : Progress) : ∃ result q, RunsAside changes reader p result q := by
  induction h generalizing p with
  | pure value => exact ⟨_, p, .value hc value⟩
  | throw _ => exact ⟨_, p, .halt hc _⟩
  | bind _ _ first second =>
    obtain ⟨result, q, hr⟩ := first p
    cases result with
    | error halt =>
      refine ⟨_, q, hr.follow hc (.halt hc halt) fun s t he => ?_⟩
      rw [run_bind, he]
      rfl
    | ok value =>
      obtain ⟨last, r, hl⟩ := second value q
      refine ⟨last, r, hr.follow hc hl fun s t he => ?_⟩
      rw [run_bind, he]
  | attempt _ _ first second =>
    obtain ⟨result, q, hr⟩ := first p
    rcases result with (error | _ | fault | _) | value
    · obtain ⟨last, r, hl⟩ := second error q
      refine ⟨last, r, hr.follow hc hl fun s t he => ?_⟩
      rw [run_attempt, he]
    · refine ⟨_, q, hr.follow hc (.halt hc .stopped) fun s t he => ?_⟩
      rw [run_attempt, he]
      rfl
    · refine ⟨_, q, hr.follow hc (.halt hc (.fault fault)) fun s t he => ?_⟩
      rw [run_attempt, he]
      rfl
    · refine ⟨_, q, hr.follow hc (.halt hc .missing) fun s t he => ?_⟩
      rw [run_attempt, he]
      rfl
    · refine ⟨_, q, hr.follow hc (.value hc value) fun s t he => ?_⟩
      rw [run_attempt, he]
      rfl
  | remaining => exact ⟨.ok p.rest, p, .of_same hc fun _ => rfl⟩
  | continueWith tokens => exact ⟨_, _, .modify hc fun _ => rfl⟩
  | isEndReported => exact ⟨.ok p.endReported, p, .of_same hc fun _ => rfl⟩
  | noteEnd => exact ⟨_, _, .modify hc fun _ => rfl⟩
  | note event => exact ⟨_, _, .modify hc fun _ => rfl⟩
  | modifyWorkspace allowed => exact ⟨.ok (), p, _, allowed, fun _ => rfl⟩
  | remark lexeme position => exact ⟨_, _, .modify hc fun _ => rfl⟩
  | report error =>
    by_cases hl : p.limit ≤ (p.errors + 1 : Nat)
    · refine ⟨.error .stopped, (p.reporting error).stopping error, .of_same hc fun workspace => ?_⟩
      rw [run_report]
      exact if_pos hl
    · refine ⟨.ok (), p.reporting error, .of_same hc fun workspace => ?_⟩
      rw [run_report]
      exact if_neg hl

/-! ## Lines -/

/-- Failing in place of something else is built from steps. -/
theorem built_failExpected (wanted : Wanted) (token : Token) :
    Built changes (failExpected wanted token : Reader α) :=
  .fail _ token

/-- Failing at something that is not expected is built from steps. -/
theorem built_failUnexpected (place : Place) (token : Token) :
    Built changes (failUnexpected place token : Reader α) :=
  .fail _ token

/-- Taking a token of one of some kinds is built from steps. -/
theorem built_expect (kinds : List Kind) : Built changes (expect kinds) := by
  unfold expect
  exact built_current.bind fun token => .ite built_advance (built_failExpected _ token)

/-- Taking an opening brace is built from steps. -/
theorem built_expectOpening : Built changes expectOpening := by
  unfold expectOpening
  exact (built_expect _).bind fun _ => .pure ()

/-- Taking a string literal is built from steps. -/
theorem built_expectString (line : Int) (wanted : Wanted) :
    Built changes (expectString line wanted) := by
  unfold expectString
  exact built_current.bind fun token =>
    .ite (built_advance.bind fun _ => .pure _) (built_failExpected wanted token)

/-- Taking a single value is built from steps. -/
theorem built_expectSingle (line : Int) (wanted : Wanted) :
    Built changes (expectSingle line wanted) := by
  unfold expectSingle
  exact built_current.bind fun token =>
    .ite (built_advance.bind fun _ => .pure _) (built_failExpected wanted token)

/-- Taking the values of a line is built from steps. -/
theorem built_takeValues (line : Int) : Built changes (takeValues line) := by
  unfold takeValues
  exact Built.remaining.bind fun tokens =>
    (Built.continueWith _).bind fun _ => .pure _

/-- Taking the rest of a line as a value is built from steps. -/
theorem built_expectValue (line : Int) (wanted : Wanted) :
    Built changes (expectValue line wanted) := by
  unfold expectValue
  refine (built_takeValues line).bind fun values => ?_
  split
  · exact built_current.bind fun token => built_failExpected wanted token
  · exact .pure _

/-- Taking arguments is built from steps. -/
theorem built_takePositional (line : Int) (limit : Nat) :
    Built changes (takePositional line limit) := by
  unfold takePositional
  exact Built.remaining.bind fun tokens =>
    (Built.continueWith _).bind fun _ => .pure _

/-- Reaching the end of a line is built from steps. -/
theorem built_expectLineEnd (line : Int) : Built changes (expectLineEnd line) := by
  unfold expectLineEnd
  exact built_current.bind fun token => .ite (built_failUnexpected .line token) (.pure ())

/-- Opening a body is built from steps. -/
theorem built_opensBody (line : Int) : Built changes (opensBody line) := by
  unfold opensBody
  exact built_current.bind fun token =>
    .ite (built_advance.bind fun _ => .pure true) (.pure false)

/-! ## Failed statements -/

/-- Passing over a statement is built from steps. -/
theorem built_recoverFrom (token : Token) : Built changes (recoverFrom token) := by
  unfold recoverFrom
  exact Built.remaining.bind fun _ => Built.continueWith _

/-- A statement outside of blocks is built from steps if its reader is. -/
theorem built_readOrSkip {statement : Reader Unit} (h : Built changes statement) :
    Built changes (readOrSkip statement) := by
  unfold readOrSkip
  exact h.attempt fun error => (Built.report error).bind fun _ => built_recoverFrom error.token

/-- A statement of a block is built from steps if its reader is. -/
theorem built_readStatement {leave : Token → α → α} {statement : α → Reader α}
    (h : ∀ value, Built changes (statement value)) (value : α) :
    Built changes (readStatementLeaving leave statement value) := by
  unfold readStatementLeaving
  refine built_current.bind fun first => Built.remaining.bind fun before =>
    (h value).attempt fun error => (Built.report error).bind fun _ =>
      (built_recoverFrom error.token).bind fun _ => Built.remaining.bind fun after =>
        built_current.bind fun next => ?_
  exact .ite (built_advance.bind fun _ => .pure _) (.pure _)

/-- The report of a block without an end is built from steps. -/
theorem built_reportUnclosed (token : Token) : Built changes (reportUnclosed token) := by
  unfold reportUnclosed
  exact Built.noteEnd.bind fun _ => Built.report _

/-- The loop over the statements of a block is built from steps if their reader is. -/
theorem built_readBlockWithin {leave : Token → α → α} {statement : α → Reader α}
    (h : ∀ value, Built changes (statement value)) (count : Nat) (value : α) :
    Built changes (readBlockWithin leave statement count value) := by
  induction count generalizing value with
  | zero => exact .pure value
  | succ count ih =>
    unfold readBlockWithin
    refine built_current.bind fun token => .ite ?_ (.ite ?_ ?_)
    · have hend : ∀ reported : Bool, Built changes
          (if !reported then reportUnclosed token >>= fun _ => pure value else pure value) :=
        fun _ => .ite ((built_reportUnclosed token).bind fun _ => .pure value) (.pure value)
      exact Built.isEndReported.bind hend
    · exact built_advance.bind fun _ => .pure value
    · exact (built_readStatement h value).bind ih

/-- A block is built from steps if the reader of its statements is. -/
theorem built_readBlockLeaving {leave : Token → α → α} {statement : α → Reader α}
    (h : ∀ value, Built changes (statement value)) (value : α) :
    Built changes (readBlockLeaving leave statement value) := by
  unfold readBlockLeaving
  exact Built.remaining.bind fun _ => built_readBlockWithin h _ value

/-- The body of a node is built from steps if the reader of its statements is. -/
theorem built_readBlock {statement : NodeReader α Unit} [Spares statement]
    (h : ∀ node, Built changes (statement.fill node)) (node : α) :
    Built changes (readBlock statement node) :=
  readBlock_eq_keeping statement ▸ built_readBlockLeaving h node

/-- A block is built from steps if the reader of its statements is. -/
theorem built_readBlockOf {statement : Reader Unit} (h : Built changes statement) :
    Built changes (readBlockOf statement) :=
  readBlockOf_eq statement ▸ built_readBlockLeaving (fun _ => h) ()

/-! ## Properties -/

/-- An entry is built from steps if the blocks inside it are. -/
theorem built_readEntry {block : Reader Properties} (h : Built changes block)
    (entries : Properties) : Built changes ((readEntry block).fill entries) := by
  rw [fill_readEntry]
  exact built_takeKey.bind fun key => (built_isSign _).bind fun _ =>
    .ite (h.bind fun _ => .pure _) ((built_takeValues key.line).bind fun _ => .pure _)

/-- Keys and values are built from steps, however deep. -/
theorem built_readKeyValuesWithin (depth : Nat) : Built changes (readKeyValuesWithin depth) := by
  induction depth with
  | zero => exact .pure _
  | succ depth ih =>
    unfold readKeyValuesWithin
    exact built_expectOpening.bind fun _ => built_readBlock (built_readEntry ih) _

/-- Keys and values are built from steps. -/
theorem built_readKeyValues : Built changes readKeyValues := by
  unfold readKeyValues
  exact Built.remaining.bind fun _ => built_readKeyValuesWithin _

/-- A property statement is built from steps. -/
theorem built_readProperty (accepts : PropertyWord → Bool) :
    Built changes (readProperty accepts) := by
  unfold readProperty
  refine built_current.bind fun token => ?_
  split
  · exact .pure none
  · rename_i word _
    refine .ite (built_advance.bind fun _ => ?_) (.pure none)
    have hvalue : ∀ make : String → PropertyEdit, Built changes (do
        let value ← expectValue token.line (.valueFor token.lexeme)
        return some (make value)) :=
      fun make => (built_expectValue _ _).bind fun _ => .pure _
    have hblock : ∀ make : Properties → PropertyEdit, Built changes (do
        let entries ← readKeyValues
        return some (make entries)) :=
      fun make => built_readKeyValues.bind fun _ => .pure _
    cases word with
    | description => exact hvalue .description
    | technology => exact hvalue .technology
    | url => exact hvalue .url
    | location => exact hvalue .location
    | instances => exact hvalue .instances
    | tags =>
      refine (built_takeValues token.line).bind fun values => ?_
      split
      · exact built_current.bind fun next => built_failExpected _ next
      · exact .pure _
    | properties => exact hblock .properties
    | perspectives => exact hblock .perspectives

end Blueprint.Grammar
