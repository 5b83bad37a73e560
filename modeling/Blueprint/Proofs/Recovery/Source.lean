import Blueprint.Proofs.Recovery.Body
import Blueprint.Proofs.Grammar.Parse

/-!
# A malformed statement in a source

The bodies in which a malformed statement is isolated stand in a block `model`, this in the
workspace, and this in the source. All of them isolate the statement. So if it stands, on lines of
its own and at a boundary of statements, among tokens that match those of a source that is read
without an error, the same is read up to places, and one error more is reported, at the first token
of the statement.
-/

namespace Blueprint.Grammar

open Blueprint.Declared

variable {p q r s t u : Progress} {finish name : Token} {line block : List Token}
  {fork : Fork} {added : Diagnostic} {n : Nat} {owner inner : BodyKind}

/-! ## Blocks that change the workspace -/

/-- A block isolates a malformed statement if its loop does behind the statements before it. -/
theorem isolates_readBlockOf {statement : Reader Unit}
    (h : RunsThrough (fun _ => statement) () p () q) (hf : finish.kind = .endOfInput)
    (hs : ∀ fork n, Echoes fork n (fun _ => True) statement statement) (hl : Limited statement)
    (hlonger : fork.tokens.length < fork.others.length) (hq : fork.tokens <:+ q.rest)
    (hi : (∀ n, Mates n (fun _ : Unit => statement) fun _ => statement) →
      LoopIsolates fork finish added q (fun _ => statement) (fun _ => statement) ()) :
    Isolates fork finish added p (readBlockOf statement) (readBlockOf statement) := by
  have hm : ∀ n, Mates n (fun _ : Unit => statement) (fun _ => statement) :=
    fun n => ⟨fun fork _ => hs fork n, fun _ => hl, fun _ => hl⟩
  rw [readBlockOf_eq]
  exact LoopIsolates.readBlockKeeping (.through h hf (hm p.rest.length) (fun fork _ => hs fork _)
    (hs .empty 0).rest hlonger hq (Nat.le_refl _) (hi hm))

/-! ## The model -/

/-- A body isolates a malformed statement at a boundary in it. -/
theorem BodyReaches.isolates_readEntries (h : BodyReaches owner p inner s)
    (hi : fork.Inserts name line block) (hf : finish.kind = .endOfInput)
    (hs : s.rest = fork.tokens) :
    Isolates fork finish (strayReport inner name) p (readEntries owner) (readEntries owner) := by
  intro value q front hy hp hb hl
  have hbound : p.rest.length + fork.others.length ≤
      (front ++ fork.others).length + fork.tokens.length := by
    rw [hp, List.length_append, List.length_append]
    omega
  have hbody : Flawless finish p (readEntriesWithin p.rest.length owner) value q :=
    ⟨hy.yields, hy.errors, hy.ends⟩
  exact h.isolates hi hf hs (Nat.le_refl _) hbound hbody hp hb hl

/-- A statement of the model is limited. -/
theorem limited_readModelStatement : Limited readModelStatement :=
  (built_readModelStatement takesDirectives_keepsLead takesEntries_keepsLead).limited

/-- A statement of the model takes tokens from the front. -/
theorem Yields.suffix_readModelStatement (h : Yields p readModelStatement () q) :
    q.rest <:+ p.rest :=
  (Passes.of_echoes echoes_readModelStatement).rest h

/-- What is left at a boundary in the model is left of the model. -/
theorem ModelReaches.suffix (h : ModelReaches p inner s) : s.rest <:+ p.rest := by
  cases h with
  | here through => exact through.suffix Yields.suffix_readModelStatement
  | inside through enters reaches =>
    exact (reaches.suffix.trans enters.suffix).trans
      (through.suffix Yields.suffix_readModelStatement)

/-- The loop of the model isolates what the body does that the next statement enters. -/
theorem Enters.loopIsolates_model {kind : BodyKind} {make : List BodyEntry → List BodyEntry}
    (h : Enters (fun body => readBodyStatement body .model) p kind q make)
    (hm : Mates p.rest.length (fun _ : Unit => readModelStatement) fun _ => readModelStatement)
    (hf : finish.kind = .endOfInput) (hlonger : fork.tokens.length < fork.others.length)
    (hq : fork.tokens <:+ q.rest)
    (hi : Isolates fork finish added q (readEntries kind) (readEntries kind)) :
    LoopIsolates fork finish added p (fun _ => readModelStatement) (fun _ => readModelStatement)
      () := by
  have hbody : Passes (fun _ => False) (readEntries kind) := .of_echoes (echoes_readEntries kind)
  have hpasses : Passes (fun _ => True) (readBodyStatement readEntries .model) :=
    .of_echoes (echoes_readBodyStatement echoes_readEntries .model)
  have hchange : ∀ entries : List BodyEntry, Passes (fun _ => False)
      (modifyWorkspace fun workspace =>
        { workspace with model := workspace.model.map (entries.foldl Model.add) }) :=
    fun _ => .of_echoes (echoes_modifyWorkspace _)
  obtain ⟨token, tokens, hr, he, hs⟩ := h.yields_front.exists_head
  refine .inside hf hm (Nat.le_refl _) hr he (hs .rightBrace (by decide)) (fun last r hy => ?_)
    hlonger ?_
  · unfold readModelStatement at hy
    obtain ⟨more, t, hstatement, _⟩ := hy.of_bind hpasses hchange
    obtain ⟨_, _, _, _, hlt⟩ := h.flawless hbody hf hstatement
    exact Nat.lt_of_le_of_lt hq.length_le hlt
  · unfold readModelStatement
    exact (h.isolates hf hq hbody fun _ => hi).bind hpasses hchange
      (fun _ => limited_modifyWorkspace _) fun _ hs => hs

/-- The statements of the model isolate a malformed statement at a boundary among them or in a body
inside them. -/
theorem ModelReaches.isolates (h : ModelReaches p inner s) (hi : fork.Inserts name line block)
    (hf : finish.kind = .endOfInput) (hs : s.rest = fork.tokens) :
    Isolates fork finish (strayReport inner name) p (readBlockOf readModelStatement)
      (readBlockOf readModelStatement) := by
  have hlonger := hi.length_lt
  cases h with
  | here through =>
    refine isolates_readBlockOf through hf (fun _ _ => echoes_readModelStatement)
      limited_readModelStatement hlonger (hs ▸ List.suffix_rfl) fun hm => ?_
    refine .here hi hf (hm s.rest.length) (Nat.le_refl _) hs ?_
    unfold readModelStatement
    rw [run_bind, hi.run_readBodyStatement]
  | inside through enters reaches =>
    have hr : fork.tokens <:+ _ := hs ▸ reaches.suffix
    exact isolates_readBlockOf through hf (fun _ _ => echoes_readModelStatement)
      limited_readModelStatement hlonger (hr.trans enters.suffix) fun hm =>
        enters.loopIsolates_model (hm _) hf hlonger hr (reaches.isolates_readEntries hi hf hs)

/-! ## The workspace -/

/-- What comes before the statements of a block `model` is the same. -/
theorem echoes_openModel : Echoes fork n (fun _ => True) openModel openModel := by
  unfold openModel
  exact .advance fun _ _ _ _ => (echoes_modifyWorkspace _).bind fun _ => echoes_expectOpening.idle

/-- What comes before the statements of the workspace is the same. -/
theorem echoes_openWorkspace : Echoes fork n (fun _ => True) openWorkspace openWorkspace := by
  unfold openWorkspace
  exact .advance fun _ _ _ ha => (echoes_takePositional ha 2).bind fun _ =>
    (echoes_modifyWorkspace _).bind fun _ => (echoes_expectLineEnd ha).bind fun _ =>
      echoes_expectOpening.idle

/-- What comes before the statements of a block `model` is built from steps. -/
theorem built_openModel : Built KeepsLead openModel := by
  unfold openModel
  exact built_advance.bind fun _ => .bind (.modifyWorkspace fun _ _ => rfl) fun _ =>
    built_expectOpening

/-- What comes before the statements of the workspace is built from steps. -/
theorem built_openWorkspace : Built KeepsLead openWorkspace := by
  unfold openWorkspace
  exact built_advance.bind fun _ => (built_takePositional _ 2).bind fun _ =>
    .bind (.modifyWorkspace fun _ _ => rfl) fun _ => (built_expectLineEnd _).bind fun _ =>
      built_expectOpening

variable {opening rest : Reader Unit}

/-- What is opened isolates a malformed statement if what follows does so. -/
theorem Isolates.opened (hi : Isolates fork finish added q rest rest)
    (h : Yields p opening () q)
    (he : Echoes fork p.rest.length (fun _ => True) opening opening) (hl : Limited opening)
    (hr : Passes (fun _ => False) rest) (hq : fork.tokens <:+ q.rest) :
    Isolates fork finish added p (opening >>= fun _ => rest) (opening >>= fun _ => rest) := by
  refine .after he hl (Nat.le_refl _) (fun _ => hr) fun _ r hy => ?_
  obtain ⟨_, rfl⟩ := h.unique hy.yields
  exact ⟨hq, hi⟩

/-- What is opened takes tokens before what follows. -/
theorem Flawless.length_lt_of_opened {token : Token}
    (hy : Flawless finish p (opening >>= fun _ => rest) () r) (h : Yields p opening () q)
    (ho : Passes (fun _ => True) opening) (hr : Passes (fun _ => False) rest)
    (hf : finish.kind = .endOfInput) (hp : p.rest.head? = some token)
    (he : token.kind ≠ .endOfInput) : q.rest.length < p.rest.length := by
  obtain ⟨tokens, hp⟩ := List.head?_eq_some_iff.mp hp
  obtain ⟨_, t, ht, _⟩ := hy.of_bind ho fun _ => hr
  obtain ⟨_, rfl⟩ := h.unique ht.yields
  have hone := one_lt_length hf (ht.ends.trans (ho.rest h)) hp he
  exact ho.taken h ht.errors trivial hone

/-- The statements of the model take tokens from the front. -/
theorem passes_readModelStatements : Passes (fun _ => False) (readBlockOf readModelStatement) :=
  .of_echoes (echoes_readBlockOf echoes_readModelStatement)

/-- The block `model` isolates a malformed statement at a boundary in it. -/
theorem isolates_readModel (h : Yields p openModel () q) (hr : ModelReaches q inner s)
    (hi : fork.Inserts name line block) (hf : finish.kind = .endOfInput)
    (hs : s.rest = fork.tokens) :
    Isolates fork finish (strayReport inner name) p readModel readModel := by
  rw [readModel_eq]
  exact (hr.isolates hi hf hs).opened h echoes_openModel built_openModel.limited
    passes_readModelStatements (hs ▸ hr.suffix)

/-- A statement of the workspace takes tokens from the front. -/
theorem Yields.suffix_readWorkspaceStatement (h : Yields p readWorkspaceStatement () q) :
    q.rest <:+ p.rest :=
  (Passes.of_echoes echoes_readWorkspaceStatement).rest h

/-- The block `model` is a statement of the workspace. -/
theorem run_readWorkspaceStatement_model {word : Token} {tokens : List Token}
    (hr : p.rest = word :: tokens) (hk : word.kind = .keyword .model) :
    readWorkspaceStatement.run.run p = readModel.run.run p := by
  unfold readWorkspaceStatement
  rw [run_current_bind hr, hk]

/-- The statements of the workspace isolate a malformed statement at a boundary in a block `model`
among them. -/
theorem isolates_readWorkspaceStatements {word : Token}
    (through : RunsThrough (fun _ => readWorkspaceStatement) () r () t)
    (model : t.rest.head? = some word) (isModel : word.kind = .keyword .model)
    (enters : Yields t openModel () u) (reaches : ModelReaches u inner s)
    (hi : fork.Inserts name line block) (hf : finish.kind = .endOfInput)
    (hs : s.rest = fork.tokens) :
    Isolates fork finish (strayReport inner name) r (readBlockOf readWorkspaceStatement)
      (readBlockOf readWorkspaceStatement) := by
  obtain ⟨tokens, hword⟩ := List.head?_eq_some_iff.mp model
  have hopen : Passes (fun _ => True) openModel := .of_echoes echoes_openModel
  have hu : fork.tokens <:+ u.rest := hs ▸ reaches.suffix
  have hlt : ∀ next v, Flawless finish t readModel next v →
      fork.tokens.length < t.rest.length := by
    intro _ v hy
    rw [readModel_eq] at hy
    exact Nat.lt_of_le_of_lt hu.length_le (hy.length_lt_of_opened enters hopen
      passes_readModelStatements hf model (by simp [isModel]))
  have hstatement : Isolates fork finish (strayReport inner name) t readWorkspaceStatement
      readWorkspaceStatement :=
    (isolates_readModel enters reaches hi hf hs).of_head hword hlt
      (run_readWorkspaceStatement_model hword isModel)
      fun _ => run_readWorkspaceStatement_model rfl isModel
  refine isolates_readBlockOf through hf (fun _ _ => echoes_readWorkspaceStatement)
    built_readWorkspaceStatement.limited hi.length_lt (hu.trans (hopen.rest enters)) fun hm => ?_
  refine .inside hf (hm t.rest.length) (Nat.le_refl _) hword (by simp [isModel]) (by simp [isModel])
    (fun next v hy => hlt next v ⟨?_, hy.errors, hy.ends⟩) hi.length_lt hstatement
  exact (run_readWorkspaceStatement_model hword isModel).symm.trans hy.yields

/-! ## The source -/

/-- Reads what comes behind the directives of a source. -/
def readBehindDirectives : Reader Unit := do
  let token ← current
  if token.kind == .keyword .workspace then
    readOrSkip readWorkspace
    let token ← current
    if token.kind != .endOfInput then
      report ⟨.unexpected token.found .afterWorkspace, token⟩
  else report ⟨.expected (.oneOf [.keyword .workspace]) token.found, token⟩

/-- Reads what comes behind the workspace of a source. -/
def readBehindWorkspace : Reader Unit := do
  let token ← current
  if token.kind != .endOfInput then
    report ⟨.unexpected token.found .afterWorkspace, token⟩

/-- A source is read from its directives on. -/
theorem run_readSource (p : Progress) : readSource.run.run p =
    (readDirectives p.rest.length >>= fun _ => readBehindDirectives).run.run p := rfl

/-- Behind the directives comes the workspace. -/
theorem run_readBehindDirectives {keyword : Token} {tokens : List Token}
    (hr : p.rest = keyword :: tokens) (hk : keyword.kind = .keyword .workspace) :
    readBehindDirectives.run.run p =
      (readOrSkip readWorkspace >>= fun _ => readBehindWorkspace).run.run p := by
  unfold readBehindDirectives
  rw [run_current_bind hr, if_pos (by rw [hk]; rfl)]
  rfl

/-- What comes behind the workspace takes tokens from the front. -/
theorem passes_readBehindWorkspace : Passes (fun _ => False) readBehindWorkspace := by
  unfold readBehindWorkspace
  refine .current fun token => ?_
  split
  · exact passes_report _
  · exact .pure not_false

/-- The statements of the workspace take tokens from the front. -/
theorem passes_readWorkspaceStatements :
    Passes (fun _ => False) (readBlockOf readWorkspaceStatement) :=
  .of_echoes (echoes_readBlockOf echoes_readWorkspaceStatement)

/-- The workspace takes tokens from the front. -/
theorem passes_readWorkspace : Passes (fun _ => False) readWorkspace := by
  rw [readWorkspace_eq]
  exact (Passes.of_echoes echoes_openWorkspace).bind fun _ => passes_readWorkspaceStatements

/-- The workspace takes tokens from the front, also if it fails. -/
theorem passes_skipWorkspace : Passes (fun _ => False) (readOrSkip readWorkspace) := by
  rw [readWorkspace_eq]
  exact .of_echoes (echoes_readOrSkip (echoes_openWorkspace.idle.bind fun _ =>
    echoes_readBlockOf echoes_readWorkspaceStatement))

/-- What comes behind the directives takes tokens from the front. -/
theorem passes_readBehindDirectives : Passes (fun _ => False) readBehindDirectives := by
  unfold readBehindDirectives
  refine .current fun token => ?_
  split
  · exact passes_skipWorkspace.bind fun _ => passes_readBehindWorkspace
  · exact passes_report _

/-- What comes behind the workspace is built from steps. -/
theorem built_readBehindWorkspace : Built KeepsLead readBehindWorkspace := by
  unfold readBehindWorkspace
  exact built_current.bind fun token => .ite (.report _) (.pure ())

/-- What comes behind the directives isolates a malformed statement if the statements of the
workspace do. -/
theorem isolates_readBehindDirectives {keyword : Token} (h : Yields q openWorkspace () r)
    (hk : q.rest.head? = some keyword) (hw : keyword.kind = .keyword .workspace)
    (hf : finish.kind = .endOfInput) (hr : fork.tokens <:+ r.rest)
    (hi : Isolates fork finish added r (readBlockOf readWorkspaceStatement)
      (readBlockOf readWorkspaceStatement)) :
    Isolates fork finish added q readBehindDirectives readBehindDirectives := by
  obtain ⟨tokens, hkeyword⟩ := List.head?_eq_some_iff.mp hk
  have hworkspace : Isolates fork finish added q readWorkspace readWorkspace := by
    rw [readWorkspace_eq]
    exact hi.opened h echoes_openWorkspace built_openWorkspace.limited
      passes_readWorkspaceStatements hr
  have hskip : Isolates fork finish added q (readOrSkip readWorkspace)
      (readOrSkip readWorkspace) :=
    hworkspace.attempt passes_readWorkspace fun error => passes_recoverFrom error.token
  have hbehind := hskip.bind passes_skipWorkspace (fun _ => passes_readBehindWorkspace)
    (fun _ => built_readBehindWorkspace.limited) fun _ hs => hs
  refine hbehind.of_head hkeyword (fun _ e hy => ?_) (run_readBehindDirectives hkeyword hw)
    fun _ => run_readBehindDirectives rfl hw
  obtain ⟨_, t, ht, _⟩ := hy.of_bind passes_skipWorkspace fun _ => passes_readBehindWorkspace
  have hread := ht.of_attempt passes_readWorkspace fun error => passes_recoverFrom error.token
  rw [readWorkspace_eq] at hread
  have hlt := hread.length_lt_of_opened h (.of_echoes echoes_openWorkspace)
    passes_readWorkspaceStatements hf hk (by simp [hw])
  exact Nat.lt_of_le_of_lt hr.length_le hlt

/-- A source isolates a malformed statement at a boundary in its model. -/
theorem Reaches.isolates (h : Reaches p inner s) (hi : fork.Inserts name line block)
    (hf : finish.kind = .endOfInput) (hs : s.rest = fork.tokens) :
    Isolates fork finish (strayReport inner name) p readSource readSource := by
  obtain @⟨q, r, t, u, keyword, word, directives, workspace, isWorkspace, opens, through, model,
    isModel, enters, reaches⟩ := h
  have hr : fork.tokens <:+ r.rest := by
    have hu : u.rest <:+ t.rest := (Passes.of_echoes echoes_openModel).rest enters
    have ht := through.suffix Yields.suffix_readWorkspaceStatement
    exact hs ▸ (reaches.suffix.trans hu).trans ht
  have hq : fork.tokens <:+ q.rest := hr.trans ((Passes.of_echoes echoes_openWorkspace).rest opens)
  have hbehind := isolates_readBehindDirectives opens workspace isWorkspace hf hr
    (isolates_readWorkspaceStatements through model isModel enters reaches hi hf hs)
  intro value e front hy hp hb hl
  have hle : p.rest.length ≤ (front ++ fork.others).length := by
    have hlonger := hi.length_lt
    rw [hp, List.length_append, List.length_append]
    omega
  have hsource : Isolates fork finish (strayReport inner name) p
      (readDirectives p.rest.length >>= fun _ => readBehindDirectives)
      (readDirectives (front ++ fork.others).length >>= fun _ => readBehindDirectives) := by
    refine .after (echoes_readDirectives (fun _ _ => hi.isDirective) (Nat.le_refl _) hle)
      (built_readDirectives _).limited (Nat.le_refl _) (fun _ => passes_readBehindDirectives)
      fun _ r hy => ?_
    obtain ⟨_, rfl⟩ := directives.unique hy.yields
    exact ⟨hq, hbehind⟩
  have hflawless : Flawless finish p
      (readDirectives p.rest.length >>= fun _ => readBehindDirectives) value e :=
    ⟨hy.yields, hy.errors, hy.ends⟩
  exact hsource hflawless hp hb hl

/-! ## The fork -/

variable {source other : String} {limit : Int} {last : Token} {front back behind : List Token}
  {outcome : Outcome}

/-- Between tokens that stand above others there is a line. -/
theorem exists_line_between {tokens : List Token}
    (h : ∀ first ∈ front, ∀ second ∈ tokens, first.line < second.line) :
    ∃ number : Int, (∀ token ∈ front, token.line ≤ number) ∧
      ∀ token ∈ tokens, number < token.line := by
  induction tokens with
  | nil =>
    obtain ⟨number, hl⟩ := Flawless.exists_line front
    exact ⟨number, hl, fun token hm => absurd hm List.not_mem_nil⟩
  | cons second tokens ih =>
    obtain ⟨number, hf, ht⟩ := ih fun first hm other ho =>
      h first hm other (List.mem_cons_of_mem _ ho)
    refine ⟨min number (second.line - 1), fun token hm => ?_, fun token hm => ?_⟩
    · have hbelow := hf token hm
      have habove := h token hm second List.mem_cons_self
      omega
    · rcases List.mem_cons.mp hm with rfl | hm
      · omega
      · have habove := ht token hm
        omega

/-- A malformed statement stands on lines of its own: below the tokens before it and above those
behind it. -/
def Apart (front statement back : List Token) : Prop :=
  ∀ token ∈ statement, (∀ before ∈ front, before.line < token.line) ∧
    ∀ after ∈ back, token.line < after.line

/-- Where the loop over the statements of a body goes on, there is a fork at which a malformed
statement is inserted on lines of its own. -/
theorem Malformed.exists_fork (h : Malformed name line block) (hs : GoesOn owner s)
    (hf : finish.kind = .endOfInput) (he : [finish] <:+ s.rest)
    (ha : Apart front (name :: (line ++ block)) s.rest) :
    ∃ fork : Fork, fork.tokens = s.rest ∧ fork.others = name :: (line ++ block ++ s.rest) ∧
      fork.Inserts name line block ∧ ∀ token ∈ front, token.line ≤ fork.line := by
  obtain ⟨head, rest, hr, hend, hdot⟩ := hs.exists_head
  have hlength := one_lt_length hf he hr hend
  obtain ⟨hbefore, hafter⟩ := ha name List.mem_cons_self
  rw [hr] at ha hafter hlength ⊢
  obtain ⟨next, rest, rfl⟩ : ∃ next more, rest = next :: more := by
    refine List.exists_cons_of_ne_nil ?_
    rintro rfl
    exact absurd hlength (Nat.lt_irrefl 1)
  obtain ⟨sign, more, hmore⟩ : ∃ sign more, line ++ block ++ head :: next :: rest = sign :: more :=
    List.exists_cons_of_ne_nil (by simp)
  -- The line that is not passed stands between the tokens before and all others.
  have habove : ∀ first ∈ front, ∀ second ∈ name :: (line ++ block ++ head :: next :: rest),
      first.line < second.line := by
    intro first hm second ho
    rw [← List.cons_append] at ho
    rcases List.mem_append.mp ho with ho | ho
    · exact (ha second ho).1 first hm
    · exact Int.lt_trans (hbefore first hm) (hafter second ho)
  obtain ⟨number, hfront, hothers⟩ := exists_line_between habove
  have hbelow : ∀ token ∈ (head :: next :: rest).head?,
      name.line < token.line ∧ token.kind ≠ .sign .dot := by
    intro token hm
    obtain rfl := Option.some.inj hm
    exact ⟨hafter head List.mem_cons_self, hdot⟩
  have hheads : Heads number head name := by
    refine ⟨hend, hdot, ?_, fun sign _ => ?_, hothers name List.mem_cons_self⟩
    · exact Int.lt_trans (hothers name List.mem_cons_self) (hafter head List.mem_cons_self)
    · rw [h.identifier]
      exact nofun
  have htokens : ∀ token ∈ head :: next :: rest, number < token.line :=
    fun token hm => Int.lt_trans (hothers name List.mem_cons_self) (hafter token hm)
  rw [hmore] at hothers
  refine ⟨⟨number, _, _, .below hheads htokens hothers⟩, rfl, ?_, ?_, hfront⟩
  · rw [hmore]
  · exact ⟨h, by rw [hmore], hbelow⟩

/-! ## Reading the source -/

/-- Two runs that are alike report errors both or neither, after what was reported before. -/
theorem Alike.isError {places : List (Token × Token)} {before prior : List Diagnostic}
    {twin : Progress} (h : Alike places before prior p twin)
    (hp : ∀ diagnostic ∈ p.diagnostics, diagnostic.isError = false)
    (hb : ∀ diagnostic ∈ prior, diagnostic.isError = false) :
    ∀ diagnostic ∈ twin.diagnostics, diagnostic.isError = false := by
  obtain ⟨reported, others, hr, ho, hs⟩ := h.diagnostics
  intro diagnostic hm
  rw [ho] at hm
  rcases List.mem_append.mp hm with hm | hm
  · exact hb diagnostic hm
  · have hunplaced : diagnostic.unplaced ∈ reported.map Diagnostic.unplaced := by
      rw [hs]
      exact List.mem_map_of_mem hm
    obtain ⟨same, hsame, he⟩ := List.mem_map.mp hunplaced
    have hnone := hp same (hr ▸ List.mem_append_right _ hsame)
    have herror : same.unplaced.isError = diagnostic.unplaced.isError := by rw [he]
    exact herror.symm.trans hnone

/-- What is left in another layout is left of all tokens. -/
theorem Alike.suffix {tokens others : List Token} {before prior : List Diagnostic}
    {twin : Progress} (h : Alike (tokens.zip others) before prior p twin)
    (hl : tokens.length = others.length) : twin.rest <:+ others := by
  obtain ⟨left, hs, _, ho⟩ := h.rest
  have hsuffix := hs.map Prod.snd
  rwa [← ho, List.map_snd_zip (Nat.le_of_eq hl.symm)] at hsuffix

/-- In another layout a boundary stands before the same tokens. -/
theorem Alike.rest_eq {before prior : List Diagnostic} {twin : Progress} {others : List Token}
    (h : Alike ((front ++ back).zip (others ++ behind)) before prior p twin)
    (hl : (front ++ back).length = (others ++ behind).length) (hb : back.length = behind.length)
    (hp : p.rest = back) : twin.rest = behind := by
  have htwin : twin.rest.length = behind.length := by
    rw [← h.length_eq, hp, hb]
  exact (List.suffix_of_suffix_length_le (h.suffix hl) (List.suffix_append _ _)
    (Nat.le_of_eq htwin)).eq_of_length htwin

/-- A source that is read without an error to the end of its tokens is read so in another layout. -/
theorem exists_flawless {tokens others : List Token} {before : List Diagnostic} {e : Progress}
    (h : Yields (.start tokens before limit) readSource () e) (he : e.errors = 0)
    (hr : e.rest = [last]) (hk : last.kind = .endOfInput) (hl : tokens.length = others.length)
    (hm : Matched (tokens.zip others)) (prior : List Diagnostic) :
    ∃ finish e', finish.kind = .endOfInput ∧ e'.rest = [finish] ∧
      Flawless finish (.start others prior limit) readSource () e' ∧
      Alike (tokens.zip others) before prior e e' := by
  obtain ⟨_, e', hy, _, ha⟩ := (twins_readSource hm).yields h (alike_start hl before prior limit)
  obtain ⟨finish, none, hf, hkind⟩ := ha.exists_cons hm hr
  obtain rfl : none = [] := by
    have hone := ha.length_eq
    rw [hr, hf] at hone
    exact List.eq_nil_of_length_eq_zero (Nat.succ.inj hone).symm
  exact ⟨finish, e', hkind.trans hk, hf, ⟨hy, ha.errors.symm.trans he, hf ▸ List.suffix_rfl⟩, ha⟩

/-- A malformed statement at a boundary of a source that is read without an error, on lines of its
own between tokens that match, changes nothing up to places and is reported once. -/
theorem parse_apart {stream twin : TokenStream} (h : parse source limit = .ok outcome)
    (hc : ∀ diagnostic ∈ outcome.diagnostics, diagnostic.isError = false) (hl : 2 ≤ limit)
    (hs : TokenStream.ofString source = .ok stream) (ht : stream.tokens = front ++ back)
    (hr : Reaches (stream.start limit) owner s) (hb : s.rest = back) (hg : GoesOn owner s)
    (hm : Malformed name line block) (ho : TokenStream.ofString other = .ok twin)
    (he : ∀ diagnostic ∈ twin.diagnostics, diagnostic.isError = false)
    (htwin : twin.tokens = front ++ name :: (line ++ block ++ behind))
    (hlength : back.length = behind.length)
    (hmatched : Matched ((front ++ back).zip (front ++ behind)))
    (ha : Apart front (name :: (line ++ block)) behind) :
    ∃ result, parse other limit = .ok result ∧
      result.workspace.unplaced = outcome.workspace.unplaced ∧
      result.diagnostics.filter Diagnostic.isError = [strayReport owner name] := by
  obtain ⟨_, last, e, hstream, hread, herrors, hrest, hlast, rfl⟩ := read_eq_of_parse h hc
  obtain rfl := Except.ok.inj (hs.symm.trans hstream)
  have hall : (front ++ back).length = (front ++ behind).length := by
    rw [List.length_append, List.length_append, hlength]
  -- Without the statement, the tokens in the new layout are read as those in the old one.
  have hbegin : stream.start limit = .start (front ++ back) stream.diagnostics limit := by
    rw [TokenStream.start, ht]
  unfold TokenStream.read at hread
  rw [hbegin] at hr hread
  obtain ⟨finish, e', hfinish, hend, hflawless, halike⟩ :=
    exists_flawless hread herrors hrest hlast hall hmatched twin.diagnostics
  obtain ⟨s', hreach, hs'⟩ := hr.relaid hmatched
    (alike_start hall stream.diagnostics twin.diagnostics limit)
  have hgoes := hg.relaid hmatched hs'
  have hbehind := hs'.rest_eq hall hlength hb
  have hends : [finish] <:+ s'.rest := by
    obtain ⟨token, tokens, htoken, _⟩ := hgoes.exists_head
    refine List.suffix_of_suffix_length_le (hend ▸ halike.suffix hall) (hs'.suffix hall) ?_
    rw [htoken]
    exact Nat.succ_le_succ (Nat.zero_le _)
  -- At the fork the statement is inserted.
  rw [← hbehind] at ha
  obtain ⟨fork, htokens, hothers, hinserts, hlines⟩ := hm.exists_fork hgoes hfinish hends ha
  have hisolates := hreach.isolates hinserts hfinish htokens.symm
  obtain ⟨q, hq, hadds⟩ := hisolates hflawless (by rw [htokens, hbehind]; rfl) hlines
    (by simp only [Progress.start]; omega)
  rw [hothers, hbehind, ← htwin] at hq
  have hrun : twin.read limit = (.ok (), q) := hq
  have hparse : parse other limit = .ok ⟨q.workspace, twin.tokens, q.diagnostics⟩ := by
    rw [parse_eq ho, hrun]
  refine ⟨_, hparse, ?_, hadds.filter_isError rfl (halike.isError hc he)⟩
  obtain ⟨before, after, _, rfl⟩ := hadds
  exact halike.workspace.symm

end Blueprint.Grammar
