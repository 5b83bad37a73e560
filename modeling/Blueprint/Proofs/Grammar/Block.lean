import Blueprint.Proofs.Grammar.Line
import Blueprint.Proofs.Grammar.Statement

/-!
# Reading blocks

A statement that fails is reported and passed over, and takes a token all the same. So every round
of a block takes a token, and a block that is read without an error ends at the brace that closes
it: everything before it was passed in whole blocks.
-/

namespace Blueprint.Grammar

open Blueprint.Declared Blueprint.Text

variable {spots : Position → Prop} {p q r : Progress} {α : Type}

/-! ## Reports -/

/-- A diagnostic with a place joins those that there are. -/
theorem Progress.Sound.marked_concat (h : p.Sound spots) (issue : Issue) {position : Position}
    (hp : spots position) :
    ∀ diagnostic ∈ p.diagnostics ++ [.of issue (some position)],
      Marked spots diagnostic.position := by
  refine List.forall_mem_append.mpr ⟨h.diagnostics, ?_⟩
  intro diagnostic hm
  rw [List.mem_singleton.mp hm]
  exact ⟨_, rfl, hp⟩

/-- With a report there is an error, whether or not a missing end of a block is noted with it. -/
theorem Progress.Sound.reporting (h : p.Sound spots) (noted : Bool) {error : GrammarError}
    (he : spots error.token.position) :
    Progress.Sound spots (Progress.reporting { p with endReported := noted } error) where
  ends := h.ends
  spelled := h.spelled
  tokens := h.tokens
  missing := fun _ => Nat.succ_pos _
  errors := by
    have := h.errors
    simp only [Progress.reporting, List.filter_append, List.length_append]
    exact Nat.add_le_add this (Nat.le_refl _)
  diagnostics := h.marked_concat _ he
  orders := h.orders
  workspace := h.workspace

/-- With the remark that the limit is reached everything still holds. -/
theorem Progress.Sound.stopping (h : p.Sound spots) {error : GrammarError}
    (he : spots error.token.position) : (p.stopping error).Sound spots where
  ends := h.ends
  spelled := h.spelled
  tokens := h.tokens
  missing := h.missing
  errors := by
    have := h.errors
    simp only [Progress.stopping, List.filter_append, List.length_append]
    omega
  diagnostics := h.marked_concat _ he
  orders := h.orders
  workspace := h.workspace

/-- A report takes nothing, and there is an error after it, whether or not a missing end of a block
is noted before. -/
theorem lands_report (h : p.Sound spots) (noted : Bool) {error : GrammarError}
    (he : spots error.token.position) :
    Lands spots p (fun _ q => q.rest = p.rest ∧ 0 < q.errors)
      ((report error).run.run { p with endReported := noted }) := by
  have hs := h.reporting noted he
  rw [run_report]
  split
  · exact ⟨⟨List.suffix_rfl, Nat.le_succ _, hs.stopping he⟩, Nat.succ_pos _⟩
  · exact ⟨⟨List.suffix_rfl, Nat.le_succ _, hs⟩, rfl, Nat.succ_pos _⟩

/-- A report takes nothing, and there is an error after it. -/
theorem runs_report (h : p.Sound spots) {error : GrammarError}
    (he : spots error.token.position) :
    Runs spots p (report error) fun _ q => q.rest = p.rest ∧ 0 < q.errors :=
  lands_report h p.endReported he

/-- The report of a missing end of a block takes nothing, and there is an error after it. -/
theorem runs_reportUnclosed (h : p.Sound spots) :
    Runs spots p (reportUnclosed p.next) fun _ q => q.rest = p.rest ∧ 0 < q.errors :=
  lands_report h true h.next_spot

/-- A remark that is no error takes nothing. -/
theorem runs_remark (h : p.Sound spots) (issue : Issue) {position : Position}
    (hp : spots position) : Runs spots p (remark issue position) fun _ q => Goes 0 0 p q := by
  refine .of_ok rfl ⟨List.suffix_rfl, Nat.le_refl _, h.ends, h.spelled, h.tokens, h.missing, ?_,
    h.marked_concat issue hp, h.orders, h.workspace⟩ (.of_eq (Nat.le_refl _) rfl rfl)
  have := h.errors
  simp only [List.filter_append, List.length_append]
  omega

/-! ## Failed statements -/

/-- Without the first token, tokens at the end are left. -/
theorem dropToken_suffix (tokens : List Token) : dropToken tokens <:+ tokens := by
  rcases tokens with _ | ⟨token, _ | ⟨next, rest⟩⟩
  · exact List.suffix_rfl
  · exact List.suffix_rfl
  · exact List.suffix_cons _ _

/-- Passing over a statement leaves tokens at the end. -/
theorem afterStatement_suffix (line : Int) (depth : Nat) (tokens : List Token) :
    afterStatement line depth tokens <:+ tokens := by
  fun_induction afterStatement line depth tokens with
  | case1 => exact List.suffix_rfl
  | case2 depth token next rest _ _ ih => exact ih.trans (List.suffix_cons _ _)
  | case3 depth token next rest _ _ _ ih => exact ih.trans (List.suffix_cons _ _)
  | case4 depth token next rest _ _ _ ih => exact ih.trans (List.suffix_cons _ _)
  | case5 => exact List.suffix_rfl

/-- Passing over a statement leaves the end of the input. -/
theorem afterStatement_ne_nil (line : Int) (depth : Nat) {tokens : List Token}
    (h : tokens ≠ []) : afterStatement line depth tokens ≠ [] := by
  fun_induction afterStatement line depth tokens with
  | case1 => exact List.cons_ne_nil _ _
  | case2 depth token next rest _ _ ih => exact ih (List.cons_ne_nil _ _)
  | case3 depth token next rest _ _ _ ih => exact ih (List.cons_ne_nil _ _)
  | case4 depth token next rest _ _ _ ih => exact ih (List.cons_ne_nil _ _)
  | case5 => exact h

/-- Passing over a failed statement drops what is left of it. -/
theorem run_recoverFrom (token : Token) (p : Progress) :
    (recoverFrom token).run.run p =
      (.ok (), { p with rest := afterStatement token.line 0 p.rest }) :=
  rfl

/-- Passing over a failed statement changes what is left only. -/
theorem runs_recoverFrom (h : p.Sound spots) (token : Token) :
    Runs spots p (recoverFrom token) fun _ q => q.errors = p.errors := by
  unfold recoverFrom
  refine .remaining ((runs_continueWith h (afterStatement_suffix ..) ?_).mono ?_)
  · have hp := h.rest_pos
    refine afterStatement_ne_nil _ _ ?_
    intro he
    rw [he] at hp
    cases hp
  · rintro _ q _ rfl
    rfl

/-- An attempt runs as its statement, or as what follows its failure. -/
theorem Runs.attempt {statement : Reader α} {recover : GrammarError → Reader α}
    {post : α → Progress → Prop} (h : Runs spots p statement post)
    (hr : ∀ error q, Follows spots p q → spots error.token.position →
      Runs spots q (recover error) post) : Runs spots p (attempt statement recover) post := by
  unfold Runs at h ⊢
  rw [run_attempt]
  generalize statement.run.run p = result at h ⊢
  rcases result with ⟨(error | _ | fault | _) | value, q⟩
  · exact (hr error q h.1 h.2).of_follows h.1
  · exact h
  · exact h
  · exact h
  · exact h

/-- A failed statement is passed over, and there is an error. -/
theorem runs_reportAndRecover (h : p.Sound spots) {error : GrammarError}
    (he : spots error.token.position) {next : Unit → Reader α} {post : α → Progress → Prop}
    (hn : ∀ q, Follows spots p q → 0 < q.errors → Runs spots q (next ()) post) :
    Runs spots p (report error >>= fun _ => recoverFrom error.token >>= next) post := by
  refine (runs_report h he).bind ?_
  rintro _ q hf ⟨_, hq⟩
  refine (runs_recoverFrom hf.sound error.token).bind ?_
  intro _ r hg hr
  exact hn r (hf.trans hg) (by omega)

/-- A statement of a block takes a token, even if it fails. -/
theorem runs_readStatement {leave : Token → α → α} {statement : α → Reader α} {value : α}
    {good : α → Prop} (h : p.Sound spots) (hk : p.next.kind ≠ .sign .rightBrace)
    (hn : p.next.kind ≠ .endOfInput)
    (hs : Runs spots p (statement value) fun next q => good next ∧ Goes 0 1 p q)
    (hl : good (leave p.next value)) :
    Runs spots p (readStatementLeaving leave statement value) fun next q =>
      good next ∧ Goes 0 1 p q := by
  unfold readStatementLeaving
  refine .current h (.remaining (hs.attempt ?_))
  intro error q hf he
  refine runs_reportAndRecover hf.sound he ?_
  intro r hg hr
  have hfr := hf.trans hg
  have hle := hfr.rest.length_le
  refine .remaining (.current hg.sound ?_)
  split
  · rename_i hc
    simp only [Bool.and_eq_true, beq_iff_eq, bne_iff_ne] at hc
    refine (runs_advance hg.sound hc.2).bind ?_
    rintro _ s hs ⟨_, hrest, _, hse⟩
    refine .pure hs.sound ⟨hl, Nat.le_trans hfr.errors (Nat.le_of_eq hse.symm), ?_, by omega⟩
    rw [hrest, List.length_cons] at hle
    exact hle
  · rename_i hc
    -- The rest has become shorter: otherwise the next token would be the first of the statement.
    have hlt : r.rest.length < p.rest.length := by
      rcases Nat.lt_or_eq_of_le hle with hlt | heq
      · exact hlt
      · have hrest := hfr.rest.eq_of_length heq
        have hnext : r.next = p.next := by
          unfold Progress.next
          rw [hrest]
        rw [hnext] at hc
        simp_all
    exact .pure hg.sound ⟨hl, hfr.errors, hlt, by omega⟩

/-- A statement outside of blocks is passed as a whole, or there is an error. -/
theorem runs_readOrSkip {statement : Reader Unit}
    (hs : Runs spots p statement fun _ q => Goes 0 0 p q) :
    Runs spots p (readOrSkip statement) fun _ q => Goes 0 0 p q := by
  unfold readOrSkip
  refine hs.attempt ?_
  intro error q hf he
  refine (runs_report hf.sound he).bind ?_
  rintro _ r hg ⟨_, hr⟩
  refine (runs_recoverFrom hg.sound error.token).mono ?_
  intro _ s hs hse
  have hft := (hf.trans hg).trans hs
  exact ⟨hft.errors, hft.rest.length_le, by omega⟩

/-! ## Blocks -/

/-- A statement of a block takes a token, passes blocks as a whole, and leaves values as good as
they were, while no more than a number of tokens is left. -/
def Steady (spots : Position → Prop) (bound : Nat) (good : α → Prop)
    (statement : α → Reader α) : Prop :=
  ∀ (p : Progress) (value : α), p.Sound spots → p.rest.length ≤ bound →
    p.next.kind ≠ .sign .rightBrace → p.next.kind ≠ .endOfInput → good value →
    Runs spots p (statement value) fun next q => good next ∧ Goes 0 1 p q

/-- A block is read up to its closing brace, or there is an error. -/
theorem runs_readBlockWithin {bound : Nat} {good : α → Prop} {leave : Token → α → α}
    {statement : α → Reader α} (hs : Steady spots bound good statement)
    (hl : ∀ token value, good value → good (leave token value)) (count : Nat) (value : α)
    (h : p.Sound spots) (hb : p.rest.length ≤ bound) (hc : p.rest.length ≤ count)
    (hg : good value) :
    Runs spots p (readBlockWithin leave statement count value) fun next q =>
      good next ∧ Closes p q := by
  induction count generalizing p value with
  | zero =>
    have := h.rest_pos
    omega
  | succ count ih =>
    unfold readBlockWithin
    refine .current h ?_
    split
    · rename_i hk
      refine .get ?_
      dsimp only
      split
      · refine (runs_reportUnclosed h).bind ?_
        rintro _ q hf ⟨hr, hq⟩
        have hn : q.next = p.next := by
          unfold Progress.next
          rw [hr]
        refine .pure hf.sound ⟨hg, hf.rest, hf.errors, .inr ?_, by omega⟩
        rw [hn]
        exact eq_of_beq hk
      · rename_i hm
        have hp := h.missing (by simpa using hm)
        exact .pure h
          ⟨hg, List.suffix_rfl, Nat.le_refl _, .inr (eq_of_beq hk), by omega⟩
    · rename_i hn
      split
      · rename_i hk
        refine (runs_advance h (fun he => hn (beq_iff_eq.mpr he))).bind ?_
        rintro _ q hf ⟨_, hr, hkeys, he⟩
        refine .pure hf.sound ⟨hg, hf.rest, hf.errors, .inl ?_, fun _ => ?_⟩
        · exact ⟨[], p.next, hr, eq_of_beq hk⟩
        · refine ⟨[], [], p.next, hr, eq_of_beq hk, ?_, .done⟩
          rw [hkeys, List.append_nil]
      · rename_i hk
        have hr := runs_readStatement h (fun he => hk (beq_iff_eq.mpr he))
          (fun he => hn (beq_iff_eq.mpr he))
          (hs p value h hb (fun he => hk (beq_iff_eq.mpr he))
            (fun he => hn (beq_iff_eq.mpr he)) hg) (hl p.next value hg)
        refine hr.bind ?_
        rintro next q hf ⟨hg', hq⟩
        have ht := hq.taken
        refine (ih next hf.sound (by omega) (by omega) hg').mono ?_
        rintro last r _ ⟨hr, hgr⟩
        exact ⟨hr, hq.closes hf.rest hgr⟩

/-- A block of which statements are steady is read up to its closing brace, or there is an error. -/
theorem closes_readBlockLeaving {bound : Nat} {good : α → Prop} {leave : Token → α → α}
    {statement : α → Reader α} (hs : Steady spots bound good statement)
    (hl : ∀ token value, good value → good (leave token value)) {value : α}
    (h : p.Sound spots) (hb : p.rest.length ≤ bound) (hg : good value) :
    Runs spots p (readBlockLeaving leave statement value) fun next q =>
      good next ∧ Closes p q := by
  unfold readBlockLeaving
  exact .remaining (runs_readBlockWithin hs hl _ value h hb (Nat.le_refl _) hg)

/-- A block of which statements are steady closes with its brace, or there is an error. -/
theorem runs_readBlockLeaving {bound : Nat} {good : α → Prop} {leave : Token → α → α}
    {statement : α → Reader α} (hs : Steady spots bound good statement)
    (hl : ∀ token value, good value → good (leave token value)) {value : α}
    (h : p.Sound spots) (hb : p.rest.length ≤ bound) (hg : good value) :
    Runs spots p (readBlockLeaving leave statement value) fun next q =>
      good next ∧ Goes 1 0 p q :=
  (closes_readBlockLeaving hs hl h hb hg).mono fun _ _ _ hq => ⟨hq.1, hq.2.goes⟩

/-- A block in which a failing statement leaves nothing of itself closes with its brace, or there is
an error. -/
theorem runs_readBlockKeeping {bound : Nat} {good : α → Prop} {statement : α → Reader α}
    (hs : Steady spots bound good statement) {value : α} (h : p.Sound spots)
    (hb : p.rest.length ≤ bound) (hg : good value) :
    Runs spots p (readBlockKeeping statement value) fun next q => good next ∧ Goes 1 0 p q := by
  unfold readBlockKeeping
  exact runs_readBlockLeaving hs (fun _ _ hv => hv) h hb hg

/-- The body of a node that failing statements leave as it is closes with its brace, or there is an
error. -/
theorem runs_readBlock {bound : Nat} {good : α → Prop} {statement : NodeReader α Unit}
    [Spares statement] (hs : Steady spots bound good statement.fill) {node : α}
    (h : p.Sound spots) (hb : p.rest.length ≤ bound) (hg : good node) :
    Runs spots p (readBlock statement node) fun next q => good next ∧ Goes 1 0 p q := by
  rw [readBlock_eq_keeping]
  exact runs_readBlockKeeping hs h hb hg

/-- A block that changes the workspace only closes with its brace, or there is an error. -/
theorem runs_readBlockOf {bound : Nat} {statement : Reader Unit}
    (hs : Steady spots bound (fun _ => True) fun _ : Unit => statement) (h : p.Sound spots)
    (hb : p.rest.length ≤ bound) :
    Runs spots p (readBlockOf statement) fun _ q => Goes 1 0 p q := by
  rw [readBlockOf_eq]
  exact (runs_readBlockKeeping hs h hb trivial).mono fun _ _ _ hq => hq.2

/-! ## What reading maintains -/

/-- From a progress that meets a condition, a reader arrives at one that meets it too, however it
ends; and its value is good. -/
def Maintains (holds : Progress → Prop) (reader : Reader α) (good : α → Prop) : Prop :=
  ∀ p, holds p → ∀ result q, reader.run.run p = (result, q) →
    holds q ∧ ∀ value, result = .ok value → good value

/-- A condition is one on the tokens that are left and on what is read so far, and tokens may be
taken. -/
def Lasting (holds : Progress → Prop) : Prop :=
  ∀ p q : Progress, holds p → q.rest <:+ p.rest → q.workspace = p.workspace → holds q

namespace Maintains

variable {β : Type} {holds : Progress → Prop} {reader : Reader α} {good : α → Prop}
  {fit : β → Prop}

/-- A value alone changes nothing. -/
theorem pure {value : α} (h : good value) : Maintains holds (pure value) good := by
  intro p hp result q hr
  cases hr
  refine ⟨hp, ?_⟩
  rintro _ ⟨⟩
  exact h

/-- A halt changes nothing. -/
theorem throw (halt : Halt) : Maintains holds (throw halt : Reader α) good := by
  intro p hp result q hr
  cases hr
  exact ⟨hp, fun _ he => nomatch he⟩

/-- Readers that maintain a condition, one after the other. -/
theorem bind {next : α → Reader β} (h : Maintains holds reader good)
    (hn : ∀ value, good value → Maintains holds (next value) fit) :
    Maintains holds (reader >>= next) fit := by
  intro p hp result q hr
  rw [run_bind] at hr
  generalize he : reader.run.run p = outcome at hr
  rcases outcome with ⟨halt | value, r⟩
  · cases hr
    exact ⟨(h p hp _ _ he).1, fun _ he => nomatch he⟩
  · obtain ⟨hs, hv⟩ := h p hp _ _ he
    exact hn value (hv value rfl) r hs result q hr

/-- A choice between readers that maintain a condition. -/
theorem ite {chosen : Prop} [Decidable chosen] {alternative : Reader α}
    (ht : Maintains holds reader good) (hf : Maintains holds alternative good) :
    Maintains holds (if chosen then reader else alternative) good := by
  split
  · exact ht
  · exact hf

/-- What follows failed statements maintains a condition too. -/
theorem attempt {recover : GrammarError → Reader α} (h : Maintains holds reader good)
    (hr : ∀ error, Maintains holds (recover error) good) :
    Maintains holds (attempt reader recover) good := by
  intro p hp result q he
  rw [run_attempt] at he
  generalize hs : reader.run.run p = outcome at he
  rcases outcome with ⟨(error | _ | fault | _) | value, r⟩
  · exact hr error r (h p hp _ _ hs).1 result q he
  all_goals
    cases he
    exact h p hp _ _ hs

/-- A change that keeps a condition. -/
theorem modify {change : Progress → Progress} (h : ∀ p, holds p → holds (change p)) :
    Maintains holds (modify change : Reader Unit) fun _ => True := by
  intro p hp result q hr
  cases hr
  exact ⟨h p hp, fun _ _ => trivial⟩

/-- What is looked at. -/
theorem get {next : Progress → Reader β}
    (hn : ∀ p, holds p → Maintains holds (next p) fit) : Maintains holds (get >>= next) fit :=
  fun p hp result q hr => hn p hp p hp result q hr

/-- The tokens that are left. -/
theorem remaining {good : List Token → Prop} (h : ∀ p, holds p → good p.rest) :
    Maintains holds remaining good := by
  intro p hp result q hr
  cases hr
  refine ⟨hp, ?_⟩
  rintro _ ⟨⟩
  exact h p hp

/-- The next token is one of those that are left. -/
theorem current {good : Token → Prop} (h : ∀ p, holds p → ∀ token ∈ p.rest, good token) :
    Maintains holds current good := by
  intro p hp result q hr
  cases ht : p.rest with
  | nil =>
    rw [run_current_of_nil ht] at hr
    cases hr
    exact ⟨hp, fun _ he => nomatch he⟩
  | cons token tokens =>
    rw [run_current_of_cons ht] at hr
    cases hr
    refine ⟨hp, ?_⟩
    rintro _ ⟨⟩
    exact h p hp token (ht ▸ List.mem_cons_self)

/-- Looking at the next token. -/
theorem looking : Maintains holds Grammar.current fun _ => True :=
  .current fun _ _ _ _ => trivial

/-- Looking at the tokens that are left. -/
theorem counting : Maintains holds Grammar.remaining fun _ => True :=
  .remaining fun _ _ => trivial

/-- Taking a token keeps a condition that lasts. -/
theorem advance (hl : Lasting holds) {good : Token → Prop}
    (h : ∀ p, holds p → ∀ token ∈ p.rest, good token) : Maintains holds advance good := by
  unfold Grammar.advance
  refine (current h).bind fun token ht => (modify fun p hp => ?_).bind fun _ _ => pure ht
  exact hl p _ hp (dropToken_suffix _) rfl

/-- A report keeps a condition that lasts, whether it stops reading or not. -/
theorem report (hl : Lasting holds) (error : GrammarError) :
    Maintains holds (report error) fun _ => True := by
  intro p hp result q hr
  rw [run_report] at hr
  split at hr
  all_goals
    cases hr
    exact ⟨hl _ _ hp List.suffix_rfl rfl, fun _ _ => trivial⟩

/-- The report of a block without an end keeps a condition that lasts. -/
theorem reportUnclosed (hl : Lasting holds) (token : Token) :
    Maintains holds (reportUnclosed token) fun _ => True := by
  unfold Grammar.reportUnclosed
  refine (modify fun p hp => ?_).bind fun _ _ => report hl _
  exact hl p _ hp List.suffix_rfl rfl

/-- Passing over a statement keeps a condition that lasts. -/
theorem recoverFrom (hl : Lasting holds) (token : Token) :
    Maintains holds (recoverFrom token) fun _ => True := by
  intro p hp result q hr
  rw [run_recoverFrom] at hr
  cases hr
  exact ⟨hl p _ hp (afterStatement_suffix ..) rfl, fun _ _ => trivial⟩

/-- A statement outside of blocks keeps a condition that lasts if its reader maintains it. -/
theorem readOrSkip (hl : Lasting holds) {statement : Reader Unit}
    (h : Maintains holds statement fun _ => True) :
    Maintains holds (readOrSkip statement) fun _ => True := by
  unfold Grammar.readOrSkip
  exact h.attempt fun error => (report hl error).bind fun _ _ => recoverFrom hl error.token

variable {leave : Token → α → α} {statement : α → Reader α} {value : α}

/-- A statement of a block keeps a condition that lasts if its reader maintains it, and what a
failed one leaves is good. -/
theorem readStatement (hl : Lasting holds) (h : Maintains holds (statement value) good)
    (hg : ∀ token, good (leave token value)) :
    Maintains holds (readStatementLeaving leave statement value) good := by
  unfold Grammar.readStatementLeaving
  refine looking.bind fun first _ => counting.bind fun before _ => h.attempt fun error =>
    (report hl error).bind fun _ _ => (recoverFrom hl error.token).bind fun _ _ =>
      counting.bind fun after _ => looking.bind fun next _ => ?_
  refine .ite ?_ (pure (hg first))
  exact (advance hl fun _ _ _ _ => trivial).bind fun (_ : Token) (_ : True) => pure (hg first)

/-- The loop over the statements of a block keeps a condition that lasts if their reader maintains
it. -/
theorem readBlockWithin (hl : Lasting holds)
    (h : ∀ value, good value → Maintains holds (statement value) good)
    (hg : ∀ token value, good value → good (leave token value)) (count : Nat)
    (hv : good value) : Maintains holds (readBlockWithin leave statement count value) good := by
  induction count generalizing value with
  | zero => exact pure hv
  | succ count ih =>
    unfold Grammar.readBlockWithin
    refine looking.bind fun token _ => .ite ?_ (.ite ?_ ?_)
    · exact get fun p _ => .ite ((reportUnclosed hl token).bind fun _ _ => pure hv) (pure hv)
    · exact (advance hl fun _ _ _ _ => trivial).bind fun (_ : Token) (_ : True) => pure hv
    · exact (readStatement hl (h value hv) fun token => hg token value hv).bind fun _ => ih

/-- A block keeps a condition that lasts if the reader of its statements maintains it. -/
theorem readBlockLeaving (hl : Lasting holds)
    (h : ∀ value, good value → Maintains holds (statement value) good)
    (hg : ∀ token value, good value → good (leave token value)) (hv : good value) :
    Maintains holds (readBlockLeaving leave statement value) good := by
  unfold Grammar.readBlockLeaving
  exact counting.bind fun _ _ => readBlockWithin hl h hg _ hv

/-- The body of a node that failing statements leave as it is keeps a condition that lasts if the
reader of its statements maintains it. -/
theorem readBlock (hl : Lasting holds) {statement : NodeReader α Unit} [Spares statement]
    (h : ∀ node, good node → Maintains holds (statement.fill node) good) {node : α}
    (hv : good node) : Maintains holds (readBlock statement node) good := by
  rw [readBlock_eq_keeping]
  exact readBlockLeaving hl h (fun _ _ => id) hv

/-- A block that changes the workspace only keeps a condition that lasts if the reader of its
statements maintains it. -/
theorem readBlockOf (hl : Lasting holds) {statement : Reader Unit}
    (h : Maintains holds statement fun _ => True) :
    Maintains holds (readBlockOf statement) fun _ => True := by
  rw [readBlockOf_eq]
  exact readBlockLeaving hl (fun _ _ => h) (fun _ _ => id) trivial

end Maintains

end Blueprint.Grammar
