import Blueprint.Proofs.Built.Statement
import Blueprint.Proofs.Grammar.Loop
import Blueprint.Proofs.Recovery.Isolation
import Blueprint.Proofs.Braces
import Blueprint.Proofs.Recovery.Inserted

/-!
# A workspace with nothing but a model

A block that is read without an error is a run through its statements and the brace that closes it.
Such runs follow each other. What is run up to the end of a block is run in the same way where more
statements stand before the brace, and whatever the workspace is. Now let the body of the model be a
text on lines of its own. If its braces are balanced and the workspace is read without a word, the
body ends where the block of the model ends, and reading the workspace is running the statements of
the body; and where they are run, the workspace is read.
-/

namespace Blueprint.Grammar

open Blueprint.Declared Blueprint.Text

section

variable {α β : Type} {p q r : Progress} {finish : Token} {front : List Token}
  {fork : Fork} {n : Nat} {value next last : α} {statement : α → Reader α} {taken : α → Prop}
  {changes : (Workspace → Workspace) → Prop} {spots : Position → Prop} {bound : Nat}
  {good : α → Prop}

namespace RunsThrough

/-- Statements that are run after others are run with them. -/
theorem append (h : RunsThrough statement value p next q)
    (hn : RunsThrough statement next q last r) : RunsThrough statement value p last r := by
  induction h with
  | done => exact hn
  | step start open_ne end_ne taken here _ ih =>
    exact .step start open_ne end_ne taken here (ih hn)

/-- Statements that are run keep errors. -/
theorem errors_le (h : RunsThrough statement value p last q)
    (hs : ∀ value, Passes taken (statement value)) : p.errors ≤ q.errors := by
  induction h with
  | done => exact Nat.le_refl _
  | step _ _ _ _ here _ ih => exact Nat.le_trans ((hs _).errors here) ih

/-- Statements that are run keep the limit of errors and the keys. -/
theorem continues (h : RunsThrough statement value p last q)
    (hs : ∀ value, Built changes (statement value)) : Continues p q := by
  induction h with
  | done => exact .refl _
  | step _ _ _ _ here _ ih => exact ((hs _).continues here).trans ih

/-- Statements that are run without an error up to a fork are run in the same way before the other
tail. -/
theorem echo (h : RunsThrough statement value p last q)
    (hs : ∀ value, Echoes fork n taken (statement value) (statement value))
    (he : q.errors = p.errors) (hp : p.rest = front ++ fork.tokens) (hq : q.rest = fork.tokens)
    (hn : front.length < n) (hl : ∀ token ∈ front, token.line ≤ fork.line) :
    RunsThrough statement value (p.ahead (front ++ fork.others)) last (q.ahead fork.others) := by
  have hpasses := fun value => (hs value).toPasses
  induction h generalizing front with
  | done =>
    obtain rfl := List.append_left_eq_self.mp (hp.symm.trans hq)
    exact .done
  | @step value next last p r q token tokens start open_ne end_ne taken here more ih =>
    have hfirst := (hpasses value).errors here
    have hmore := more.errors_le hpasses
    obtain ⟨back, hr, hback⟩ := exists_back hp ((hpasses value).rest here)
      (hq ▸ more.suffix fun hy => (hpasses _).rest hy)
    have hlength : fork.tokens.length < p.rest.length := by
      rw [hr, List.length_append] at taken
      omega
    obtain ⟨rest, rfl⟩ := exists_front start hp hlength
    have hhere := (hs value).echo here (by omega) hp hr hn hl
    have hrest := ih (by omega) hr hq (Nat.lt_of_le_of_lt hback.length_le hn)
      fun token hm => hl token (hback.subset hm)
    refine .step rfl open_ne end_ne ?_ hhere hrest
    rw [hp, hr, List.length_append, List.length_append] at taken
    simp only [Progress.ahead, List.length_append]
    omega

/-- Statements that are built from steps are run in the same way whatever the workspace is, and what
they do to it is one change. -/
theorem aside (h : RunsThrough statement value p last q)
    (hs : ∀ value, Built changes (statement value)) (hc : Composes changes) :
    ∃ change, changes change ∧ q.workspace = change p.workspace ∧ ∀ workspace,
      RunsThrough statement value (p.withWorkspace workspace) last
        (q.withWorkspace (change workspace)) := by
  induction h with
  | done => exact ⟨id, hc.nothing, rfl, fun _ => .done⟩
  | @step value next last p r q token tokens start open_ne end_ne taken here more ih =>
    obtain ⟨result, s, change, hchange, hrun⟩ := (hs value).aside hc p
    have hown := hrun p.workspace
    unfold Yields at here
    rw [withWorkspace_workspace, here] at hown
    obtain ⟨rfl, rfl⟩ := Prod.mk.inj hown
    obtain ⟨after, hafter, hq, hmore⟩ := ih
    refine ⟨_, hc.after hchange hafter, hq, fun workspace => ?_⟩
    let q := (s.withWorkspace (change p.workspace)).withWorkspace (change workspace)
    have hhere : Yields (p.withWorkspace workspace) (statement value) next q := hrun workspace
    have htaken : q.rest.length < (p.withWorkspace workspace).rest.length := taken
    exact .step start open_ne end_ne htaken hhere (hmore (change workspace))

end RunsThrough

/-! ## Blocks that are read without an error -/

/-- A block that reaches the end of the input is an error, unless one has been reported. -/
theorem Yields.errors_lt_of_end {count : Nat} {token : Token} {tokens : List Token}
    (h : Yields p (loop statement (count + 1) value) last q) (hr : p.rest = token :: tokens)
    (hk : token.kind = .endOfInput) (hn : p.endReported = false) : p.errors < q.errors := by
  unfold Yields loop readBlockWithin at h
  rw [run_current_bind hr, if_pos (by rw [hk]; rfl)] at h
  let next : Unit → Reader α := fun _ => pure value
  have hnext : Passes (fun _ => False) (next ()) := .pure not_false
  have hrun : Yields { p with endReported := true }
      (report ⟨.unclosedBlock, token⟩ >>= next) last q := by
    have hget : ∀ next : Progress → Reader α,
        (get >>= next).run.run p = (next p).run.run p := fun _ => rfl
    rw [hget, hn] at h
    exact h
  have hlt := errors_lt_of_report hnext hrun
  exact hlt

/-- A block ends at its closing brace. -/
theorem Yields.eq_of_closing {count : Nat} {token : Token} {tokens : List Token}
    (h : Yields p (loop statement (count + 1) value) last q) (hr : p.rest = token :: tokens)
    (hk : token.kind = .sign .rightBrace) (ht : tokens ≠ []) :
    last = value ∧ q = p.ahead tokens := by
  have hp : p = p.ahead (token :: tokens) := by rw [← hr]; rfl
  have hdone : Yields p (loop statement (count + 1) value) value (p.ahead tokens) := by
    rw [hp]
    exact (RunsThrough.done).readBlockWithin rfl hk ht (by simp [Progress.ahead])
  exact h.unique hdone

/-- A block that is read without an error is a run through its statements, and the brace that closes
it. -/
theorem Flawless.exists_through (hs : Steady spots bound good statement)
    (hm : Mates n statement statement)
    {count : Nat} (h : p.Sound spots) (he : p.errors = 0)
    (hb : p.rest.length ≤ bound) (hc : p.rest.length ≤ count) (hg : good value)
    (hy : Flawless finish p (loop statement count value) last q) :
    ∃ m closing, RunsThrough statement value p last m ∧ m.rest = closing :: q.rest ∧
      closing.kind = .sign .rightBrace ∧ q = m.ahead q.rest ∧ m.Sound spots := by
  induction count generalizing p value with
  | zero => exact absurd h.rest_pos (by omega)
  | succ count ih =>
    obtain ⟨tokens, hr⟩ := h.rest_eq
    by_cases hend : p.next.kind = .endOfInput
    · have hn : p.endReported = false := by
        rw [← Bool.not_eq_true]
        intro hreported
        exact absurd (h.missing hreported) (by omega)
      exact absurd hy.errors (Nat.ne_of_gt (hy.yields.errors_lt_of_end hr hend hn))
    by_cases hclose : p.next.kind = .sign .rightBrace
    · obtain ⟨token, more, hmore⟩ := h.rest_cons hend
      obtain ⟨rfl, rfl⟩ := hy.yields.eq_of_closing hmore hclose (List.cons_ne_nil _ _)
      exact ⟨p, p.next, .done, hmore, hclose, rfl, h⟩
    · have hloop : Flawless finish p
          (readStatementLeaving (fun _ value => value) statement value >>= loop statement count)
          last q :=
        ⟨(run_loop hr hend hclose count value).symm.trans hy.yields, hy.errors, hy.ends⟩
      obtain ⟨next, r, hfirst, hrest⟩ :=
        hloop.of_bind (hm.readStatement .empty value).toPasses (hm.passes_loop count)
      have hhere := hfirst.of_readStatement (hm.echoes .empty value).toPasses hr
      obtain ⟨hfollows, hgood, hgoes⟩ := (hs p value h hb hclose hend hg).of_run_ok hhere.yields
      have htaken := hgoes.taken
      obtain ⟨m, closing, hthrough, hclosing, hk, hq, hsound⟩ :=
        ih hfollows.sound (hfirst.errors.trans he) (by omega) (by omega) hgood hrest
      exact ⟨m, closing, .step hr hclose hend (by omega) hhere.yields hthrough, hclosing, hk, hq,
        hsound⟩

end

variable {limit : Int} {p q r m : Progress} {front back : List Token} {outcome : Outcome}
  {source : String} {stream : TokenStream}

/-! ## Braces -/

/-- A balanced list that a closing brace follows ends no later than another one. -/
theorem Balanced.length_le {inner other rest more : List Token} {closing twin : Token}
    (h : Balanced inner) (ho : Balanced other) (hk : closing.kind = .sign .rightBrace)
    (he : inner ++ closing :: rest = other ++ twin :: more) : other.length ≤ inner.length := by
  by_contra hl
  have hprefix : inner ++ [closing] <+: other := by
    have hwhole : inner ++ [closing] <+: other ++ twin :: more := by
      rw [← he]
      exact ⟨rest, by simp⟩
    refine List.prefix_of_prefix_length_le hwhole (List.prefix_append _ _) ?_
    rw [List.length_append, List.length_singleton]
    omega
  have hle := ho.prefixes _ hprefix
  have htotals := h.totals
  simp only [openings, closings, List.countP_append, List.countP_singleton, hk] at hle htotals
  simp at hle
  omega

/-- Before a closing brace there is only one balanced list. -/
theorem Balanced.eq_of_closing {inner other rest more : List Token} {closing twin : Token}
    (h : Balanced inner) (ho : Balanced other) (hk : closing.kind = .sign .rightBrace)
    (ht : twin.kind = .sign .rightBrace) (he : inner ++ closing :: rest = other ++ twin :: more) :
    inner = other ∧ rest = more := by
  have hl := Nat.le_antisymm (ho.length_le h ht he.symm) (h.length_le ho hk he)
  obtain ⟨rfl, hrest⟩ := List.append_inj he hl
  exact ⟨rfl, (List.cons.inj hrest).2⟩

/-- Whether braces are balanced can be decided. -/
instance (tokens : List Token) : Decidable (Balanced tokens) :=
  decidable_of_iff ((∀ front ∈ tokens.inits, closings front ≤ openings front) ∧
      openings tokens = closings tokens)
    ⟨fun h => ⟨fun front hf => h.1 front ((List.mem_inits _ _).mpr hf), h.2⟩,
      fun h => ⟨fun front hf => h.prefixes front ((List.mem_inits _ _).mp hf), h.totals⟩⟩

/-! ## A workspace with nothing but a model -/

/-- A workspace with a block `model` and nothing else. The body of the block is a text, on lines of
its own. -/
def modelSource (body : String) : String :=
  "workspace \x7b\nmodel \x7b" ++ "\n" ++ (body ++ "\n" ++ "\x7d\n\x7d")

/-- The tokens before the body of the block. -/
def heading : List Token :=
  [⟨.keyword .workspace, "workspace", ⟨1, 1, 0⟩, .absent⟩,
    ⟨.sign .leftBrace, "\x7b", ⟨1, 11, 10⟩, .absent⟩,
    ⟨.keyword .model, "model", ⟨2, 1, 12⟩, .absent⟩,
    ⟨.sign .leftBrace, "\x7b", ⟨2, 7, 18⟩, .absent⟩]

/-- The tokens behind the body of the block, if they stood alone. -/
def ending : List Token :=
  [⟨.sign .rightBrace, "\x7d", ⟨1, 1, 0⟩, .absent⟩,
    ⟨.sign .rightBrace, "\x7d", ⟨2, 1, 2⟩, .absent⟩, .finish ⟨2, 2, 3⟩]

/-- The text before the body has the tokens before it. -/
theorem ofString_heading : TokenStream.ofString "workspace \x7b\nmodel \x7b" =
    .ok ⟨heading ++ [.finish ⟨2, 8, 19⟩], []⟩ := by
  decide +kernel

/-- The text behind the body has the tokens behind it. -/
theorem ofString_ending : TokenStream.ofString "\x7d\n\x7d" = .ok ⟨ending, []⟩ := by
  decide +kernel

/-- A workspace with an empty model. -/
def emptyModel : Workspace :=
  { position := some ⟨1, 1, 0⟩, model := some { position := some ⟨2, 1, 12⟩ } }

/-- Where the loop over the statements of the model starts, with the tokens that are left. -/
def inModel (tokens : List Token) (limit : Int) : Progress :=
  { Progress.start tokens [] limit with workspace := emptyModel }

/-- Where the loop over the statements of the workspace starts, with the tokens that are left behind
the opening brace of the model. -/
def inWorkspace (tokens : List Token) (limit : Int) : Progress :=
  { Progress.start (heading.drop 2 ++ tokens) [] limit with
    workspace := { position := some ⟨1, 1, 0⟩ } }

/-- Statements of the model that have certain tokens are run without a word, up to tokens behind
them. -/
structure ModelRun (front back : List Token) (limit : Int) (m : Progress) : Prop where
  /-- The statements are run. -/
  through : RunsThrough (fun _ => readModelStatement) () (inModel (front ++ back) limit) () m
  /-- The tokens behind them are left. -/
  rest : m.rest = back
  /-- No statement fails. -/
  errors : m.errors = 0
  /-- No block is left open. -/
  endReported : m.endReported = false
  /-- Nothing is reported. -/
  diagnostics : m.diagnostics = []

/-- The workspace is opened. -/
theorem yields_openWorkspace (tokens : List Token) (limit : Int) :
    Yields (.start (heading ++ tokens) [] limit) openWorkspace () (inWorkspace tokens limit) := rfl

/-- The model is opened. -/
theorem yields_openModel {tokens : List Token} (h : tokens ≠ []) (limit : Int) :
    Yields (inWorkspace tokens limit) openModel () (inModel tokens limit) := by
  cases tokens with
  | nil => exact absurd rfl h
  | cons token tokens => rfl

/-- Before the workspace there is no directive. -/
theorem run_readSource_heading (tokens : List Token) (limit : Int) :
    readSource.run.run (.start (heading ++ tokens) [] limit) =
      (readOrSkip readWorkspace >>= fun _ => readBehindWorkspace).run.run
        (.start (heading ++ tokens) [] limit) := by
  have hnone : (readDirectives (Progress.start (heading ++ tokens) [] limit).rest.length).run.run
      (.start (heading ++ tokens) [] limit) = (.ok (), .start (heading ++ tokens) [] limit) := by
    show (readDirectives (tokens.length + 3 + 1)).run.run _ = _
    rw [readDirectives, run_bind, run_current_of_cons rfl]
    rfl
  rw [run_readSource, run_bind, hnone]
  exact run_readBehindDirectives rfl rfl

/-- If only places matter, everything has its place where the statements of the model start. -/
theorem sound_inModel {tokens : List Token} (hs : TokenStream.ofString source = .ok stream)
    (ht : stream.tokens = heading ++ tokens) (hn : tokens ≠ []) :
    (inModel tokens limit).Sound fun _ => True := by
  have hstart := (TokenStream.placed_of_ofChars hs).sound_start limit
  have hrest := hstart.of_suffix ⟨heading, ht.symm⟩ hn
  have hworkspace : emptyModel.Located fun _ => True := by
    refine ⟨fun model hm => ?_, fun _ hb => ?_, fun _ hm => ?_, fun _ hm => ?_⟩
    · obtain rfl := Option.some.inj hm
      exact Model.located_empty _
    · cases hb
    · cases hm
    · cases hm
  exact
    { ends := hrest.ends
      spelled := hrest.spelled
      tokens := fun _ _ => trivial
      missing := hstart.missing
      errors := Nat.zero_le _
      diagnostics := fun _ hm => absurd hm List.not_mem_nil
      orders := hstart.orders
      workspace := hworkspace }

/-- Without an error the source is read by reading the statements of the model, those of the
workspace behind the model, and the end of the input. -/
theorem Flawless.of_heading {last : Token} {tokens : List Token}
    (h : Flawless last (.start (heading ++ tokens) [] limit) readSource () q) (hn : tokens ≠ []) :
    ∃ s r, Flawless last (inModel tokens limit) (readBlockOf readModelStatement) () s ∧
      Flawless last s (loop (fun _ => readWorkspaceStatement) (tokens.length + 1) ()) () r ∧
      Flawless last r readBehindWorkspace () q := by
  have hread : Flawless last (.start (heading ++ tokens) [] limit)
      (readOrSkip readWorkspace >>= fun _ => readBehindWorkspace) () q :=
    ⟨(run_readSource_heading tokens limit).symm.trans h.yields, h.errors, h.ends⟩
  obtain ⟨_, r, hskip, hbehind⟩ := hread.of_bind passes_skipWorkspace fun _ =>
    passes_readBehindWorkspace
  have hworkspace := hskip.of_attempt passes_readWorkspace fun error =>
    passes_recoverFrom error.token
  rw [readWorkspace_eq] at hworkspace
  obtain ⟨_, p, hopen, hblock⟩ := hworkspace.of_bind (.of_echoes echoes_openWorkspace) fun _ =>
    passes_readWorkspaceStatements
  obtain ⟨_, rfl⟩ := (yields_openWorkspace tokens limit).unique hopen.yields
  rw [readBlockOf_eq] at hblock
  -- The first statement of the workspace is the model.
  have hloop : Flawless last (inWorkspace tokens limit)
      (readStatementLeaving (fun _ value => value) (fun _ => readWorkspaceStatement) () >>=
        loop (fun _ => readWorkspaceStatement) (tokens.length + 1)) () r :=
    ⟨hblock.yields, hblock.errors, hblock.ends⟩
  have hmates : Mates 0 (fun _ : Unit => readWorkspaceStatement) fun _ => readWorkspaceStatement :=
    ⟨fun _ _ => echoes_readWorkspaceStatement, fun _ => built_readWorkspaceStatement.limited,
      fun _ => built_readWorkspaceStatement.limited⟩
  obtain ⟨_, s, hfirst, hrest⟩ :=
    hloop.of_bind (hmates.readStatement .empty ()).toPasses (hmates.passes_loop _)
  have hstatement := hfirst.of_readStatement (hmates.echoes .empty ()).toPasses rfl
  have hmodel : Flawless last (inWorkspace tokens limit)
      (openModel >>= fun _ => readBlockOf readModelStatement) () s := by
    rw [← readModel_eq]
    refine ⟨?_, hstatement.errors, hstatement.ends⟩
    exact (run_readWorkspaceStatement_model rfl rfl).symm.trans hstatement.yields
  obtain ⟨_, p, henter, hstatements⟩ := hmodel.of_bind (.of_echoes echoes_openModel) fun _ =>
    passes_readModelStatements
  obtain ⟨_, rfl⟩ := (yields_openModel hn limit).unique henter.yields
  exact ⟨s, r, hstatements, hrest, hbehind⟩

/-! ## From the source to its statements -/

variable {closing second last final : Token}

/-- Where braces are balanced in the body, no key of the source is an opening brace. -/
theorem openings_keys (hs : TokenStream.ofString source = .ok stream)
    (ht : stream.tokens = heading ++ (front ++ [closing, second, last])) (hb : Balanced front)
    (hk : closing.kind = .sign .rightBrace) (hsecond : second.kind = .sign .rightBrace)
    (h : parse source limit = .ok outcome)
    (hc : ∀ diagnostic ∈ outcome.diagnostics, diagnostic.isError = false) :
    openings (stream.read limit).2.keys = 0 := by
  obtain ⟨_, hstream, _, tokens, final, htokens, _, hw⟩ := read_of_parse h hc
  obtain rfl := Except.ok.inj (hs.symm.trans hstream)
  obtain ⟨rfl, _⟩ : tokens = heading ++ (front ++ [closing, second]) ∧ [final] = [last] := by
    refine List.append_inj' (htokens.symm.trans ?_) rfl
    rw [ht]
    simp
  have hcounts := hw.counts
  have htotals := hb.totals
  simp only [openings, closings, List.countP_append] at hcounts htotals
  simp [heading, hk, hsecond] at hcounts
  unfold openings
  omega

/-- At the end of the input nothing comes behind the workspace. -/
theorem yields_readBehindWorkspace (h : last.kind = .endOfInput) :
    Yields (p.ahead [last]) readBehindWorkspace () (p.ahead [last]) := by
  refine yields_current.bind ?_
  rw [h]
  exact yields_pure ()

/-- The block of the model ends at the brace behind its body, if that is balanced and no key is an
opening brace. -/
theorem rest_of_model {tokens : List Token}
    (h : Flawless final (inModel (front ++ closing :: tokens) limit)
      (readBlockOf readModelStatement) () q)
    (hs : (inModel (front ++ closing :: tokens) limit).Sound fun _ => True) (hb : Balanced front)
    (hk : closing.kind = .sign .rightBrace) (hkeys : openings q.keys = 0) : q.rest = tokens := by
  have hclose := (BlockLoop.model _).closes hs (Nat.le_refl _) trivial h.yields
  obtain ⟨keys, inner, brace, hrest, hbrace, hnoted, hw⟩ := hclose.walk h.errors
  have hnone : openings keys = 0 := by
    rw [hnoted] at hkeys
    exact hkeys
  exact (hb.eq_of_closing (hw.balanced_iff.mpr hnone) hk hbrace hrest).2.symm

/-- Without an error, a workspace with nothing but a model is read by running the statements of the
model. -/
theorem Flawless.exists_modelRun
    (h : Flawless final (.start (heading ++ (front ++ [closing, second, last])) [] limit)
      readSource () q)
    (hs : (inModel (front ++ [closing, second, last]) limit).Sound fun _ => True)
    (hb : Balanced front) (hk : closing.kind = .sign .rightBrace)
    (hsecond : second.kind = .sign .rightBrace) (hlast : last.kind = .endOfInput)
    (hkeys : openings q.keys = 0) (hn : q.diagnostics = []) :
    ∃ m, ModelRun front [closing, second, last] limit m ∧ q.workspace = m.workspace := by
  obtain ⟨s, r, hmodel, hworkspace, hbehind⟩ := h.of_heading (by simp)
  -- All keys up to the end of the model are keys of the source.
  have hnoted : s.keys <+: q.keys := by
    have hloop := (built_readBlockWithin (fun _ => built_readWorkspaceStatement) _ ()).continues
      hworkspace.yields
    exact (hloop.trans (built_readBehindWorkspace.continues hbehind.yields)).keys
  have hnone : openings s.keys = 0 := Nat.eq_zero_of_le_zero (hkeys ▸ hnoted.sublist.countP_le)
  have hrest := rest_of_model hmodel hs hb hk hnone
  rw [readBlockOf_eq] at hmodel
  have hmates : Mates 0 (fun _ : Unit => readModelStatement) fun _ => readModelStatement :=
    ⟨fun _ _ => echoes_readModelStatement, fun _ => limited_readModelStatement,
      fun _ => limited_readModelStatement⟩
  have hloop : Flawless final (inModel (front ++ [closing, second, last]) limit)
      (loop (fun _ => readModelStatement) (front ++ [closing, second, last]).length ()) () s :=
    ⟨hmodel.yields, hmodel.errors, hmodel.ends⟩
  obtain ⟨m, brace, hthrough, hm, hbrace, hsm, hsound⟩ :=
    hloop.exists_through (steady_readModelStatement _) hmates hs rfl (Nat.le_refl _)
      (Nat.le_refl _) trivial
  -- Behind the model there are the brace of the workspace and the end of the input.
  obtain ⟨_, rfl⟩ := hworkspace.yields.eq_of_closing hrest hsecond (List.cons_ne_nil _ _)
  obtain ⟨_, rfl⟩ := hbehind.yields.unique (yields_readBehindWorkspace hlast)
  have hleft : m.rest = [closing, second, last] := by
    have hsuffix : m.rest <:+ front ++ [closing, second, last] :=
      hthrough.suffix fun hy => (Passes.of_echoes echoes_readModelStatement).rest hy
    have hlength : m.rest.length = 3 := by rw [hm, hrest]; rfl
    exact (List.suffix_of_suffix_length_le hsuffix (List.suffix_append _ _)
      (Nat.le_of_eq hlength)).eq_of_length hlength
  have herrors : m.errors = 0 := (congrArg Progress.errors hsm).symm.trans h.errors
  have hread : s.workspace = m.workspace := (congrArg Progress.workspace hsm).trans rfl
  refine ⟨m, ⟨hthrough, hleft, herrors, ?_, ?_⟩, hread⟩
  · rw [← Bool.not_eq_true]
    intro hreported
    exact absurd (hsound.missing hreported) (by omega)
  · exact (congrArg Progress.diagnostics hsm).symm.trans hn

/-- A source with nothing but a model that is read without a word is read by running the statements
of the model. -/
theorem exists_modelRun (hs : TokenStream.ofString source =
      .ok ⟨heading ++ (front ++ [closing, second, last]), []⟩) (hb : Balanced front)
    (hk : closing.kind = .sign .rightBrace) (hsecond : second.kind = .sign .rightBrace)
    (hlast : last.kind = .endOfInput) (h : parse source limit = .ok outcome)
    (hn : outcome.diagnostics = []) :
    ∃ m, ModelRun front [closing, second, last] limit m ∧ outcome.workspace = m.workspace := by
  have hc : ∀ diagnostic ∈ outcome.diagnostics, diagnostic.isError = false := by
    rw [hn]
    exact fun diagnostic hm => absurd hm List.not_mem_nil
  have hkeys := openings_keys hs rfl hb hk hsecond h hc
  obtain ⟨_, final, q, hstream, hread, herrors, hrest, hfinal, rfl⟩ := read_eq_of_parse h hc
  obtain rfl := Except.ok.inj (hs.symm.trans hstream)
  rw [hread] at hkeys
  have hflawless : Flawless final (.start (heading ++ (front ++ [closing, second, last])) [] limit)
      readSource () q :=
    ⟨hread, herrors, hrest ▸ List.suffix_rfl⟩
  exact hflawless.exists_modelRun (sound_inModel hs rfl (by simp)) hb hk hsecond hlast hkeys hn

/-- Where the statements of the model are run, the source is read. -/
theorem ModelRun.yields (h : ModelRun front [closing, second, last] limit m)
    (hk : closing.kind = .sign .rightBrace) (hsecond : second.kind = .sign .rightBrace)
    (hlast : last.kind = .endOfInput) :
    Yields (.start (heading ++ (front ++ [closing, second, last])) [] limit) readSource ()
      (m.ahead [last]) := by
  let start := inWorkspace (front ++ [closing, second, last]) limit
  have hmodel : Yields start readModel () (m.ahead [second, last]) := by
    rw [readModel_eq, readBlockOf_eq]
    exact (yields_openModel (by simp) limit).bind
      (h.through.readBlockLeaving h.rest hk (List.cons_ne_nil _ _))
  have hstatement : Yields start readWorkspaceStatement () (m.ahead [second, last]) :=
    (run_readWorkspaceStatement_model rfl rfl).trans hmodel
  have hthrough : RunsThrough (fun _ => readWorkspaceStatement) () start ()
      (m.ahead [second, last]) :=
    .step rfl (by decide) (by decide)
      (by simp [Progress.ahead, start, inWorkspace, Progress.start, heading]) hstatement .done
  have hworkspace : Yields (.start (heading ++ (front ++ [closing, second, last])) [] limit)
      readWorkspace () (m.ahead [last]) := by
    rw [readWorkspace_eq, readBlockOf_eq]
    exact (yields_openWorkspace _ limit).bind
      (hthrough.readBlockLeaving rfl hsecond (List.cons_ne_nil _ _))
  exact (run_readSource_heading _ limit).trans
    (hworkspace.attempt.bind (yields_readBehindWorkspace hlast))

/-- A source with nothing but a model of which the statements are run declares what they declare. -/
theorem ModelRun.parse_eq (h : ModelRun front [closing, second, last] limit m)
    (hs : TokenStream.ofString source =
      .ok ⟨heading ++ (front ++ [closing, second, last]), []⟩)
    (hk : closing.kind = .sign .rightBrace) (hsecond : second.kind = .sign .rightBrace)
    (hlast : last.kind = .endOfInput) :
    parse source limit =
      .ok ⟨m.workspace, heading ++ (front ++ [closing, second, last]), []⟩ := by
  have hread : TokenStream.read ⟨heading ++ (front ++ [closing, second, last]), []⟩ limit =
      (.ok (), m.ahead [last]) := h.yields hk hsecond hlast
  rw [Grammar.parse_eq hs, hread]
  exact congrArg (fun diagnostics => Except.ok (Outcome.mk _ _ diagnostics)) h.diagnostics

end Blueprint.Grammar
