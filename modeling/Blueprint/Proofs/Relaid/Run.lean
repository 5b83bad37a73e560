import Blueprint.Proofs.Declared.Unplaced
import Blueprint.Proofs.Grammar.Block
import Blueprint.Proofs.Relaid.Line

/-!
# Reading tokens that are laid out anew

Two runs are compared, one for each layout. They stay alike: the same is left to read, in both
layouts, and the same is read and reported, up to places. Two readers are twins if from alike
progresses they end in the same way: with values that are related, with the same statement failed at
tokens that match, at the limit of errors, or at the same number that cannot be read. What was
reported before the runs may differ; neither run depends on it.
-/

namespace Blueprint.Grammar

open Blueprint.Declared Blueprint.Text

variable {places left : List (Token × Token)} {token twin : Token} {line other : Int}
variable {before prior : List Diagnostic} {α β : Type}

/-- Two values are the same when something of them is forgotten. -/
def Same (erase : α → β) (value other : α) : Prop := erase value = erase other

/-- A change by parts that are the same, of wholes that are the same, if what is forgotten of the
parts is forgotten of the whole. -/
theorem Same.change (change : α → β → β) {erase : α → α} {forget : β → β}
    (h : ∀ part whole, forget (change part whole) = change (erase part) (forget whole))
    {part same : α} {whole other : β} (hp : Same erase part same) (hw : Same forget whole other) :
    Same forget (change part whole) (change same other) := by
  unfold Same at *
  rw [h, h, hp, hw]

/-- One more item at the end of items that are the same. -/
theorem Same.concat {erase : α → α} {items others : List α} (h : Same (List.map erase) items others)
    {item same : α} (hi : Same erase item same) :
    Same (List.map erase) (items ++ [item]) (others ++ [same]) := by
  unfold Same at *
  rw [List.map_append, List.map_append, h, List.map_singleton, List.map_singleton, hi]

/-- Further items at the end of items that are the same. -/
theorem Same.append {erase : α → α} {items others more same : List α}
    (h : Same (List.map erase) items others) (hm : Same (List.map erase) more same) :
    Same (List.map erase) (items ++ more) (others ++ same) := by
  unfold Same at *
  rw [List.map_append, List.map_append, h, hm]

/-- Two progresses are alike: tokens that match are left, and what is read, and what is reported
after the given diagnostics, is the same up to places. -/
structure Alike (places : List (Token × Token)) (before prior : List Diagnostic)
    (p q : Progress) : Prop where
  /-- Tokens that match are left. -/
  rest : ∃ left, left <:+ places ∧ p.rest = left.map Prod.fst ∧ q.rest = left.map Prod.snd
  /-- The same is read. -/
  workspace : p.workspace.unplaced = q.workspace.unplaced
  /-- The same is reported after what was reported before. -/
  diagnostics : ∃ reported others, p.diagnostics = before ++ reported ∧
    q.diagnostics = prior ++ others ∧ Same (List.map Diagnostic.unplaced) reported others
  /-- As many statements have failed. -/
  errors : p.errors = q.errors
  /-- A missing end of a block is reported in both or in neither. -/
  endReported : p.endReported = q.endReported
  /-- The limit of errors is the same. -/
  limit : p.limit = q.limit

/-- Two runs end in the same way. -/
inductive EndAlike (places : List (Token × Token)) (before prior : List Diagnostic)
    (related : α → α → Prop) :
    Except Halt α × Progress → Except Halt α × Progress → Prop where
  /-- Both end with values that are related. -/
  | ok {value same : α} {p q : Progress} (hv : related value same)
    (h : Alike places before prior p q) :
    EndAlike places before prior related (.ok value, p) (.ok same, q)
  /-- In both the same statement fails at tokens that match. -/
  | failed {issue : GrammarIssue} {token twin : Token} {p q : Progress}
    (ht : (token, twin) ∈ places) (h : Alike places before prior p q) :
    EndAlike places before prior related (.error (.failed ⟨issue, token⟩), p)
      (.error (.failed ⟨issue, twin⟩), q)
  /-- Both stop at the limit of errors. -/
  | stopped {p q : Progress} (h : Alike places before prior p q) :
    EndAlike places before prior related (.error .stopped, p) (.error .stopped, q)
  /-- Both come to the same number that cannot be read. -/
  | fault {fault : Number.Fault} {p q : Progress} (h : Alike places before prior p q) :
    EndAlike places before prior related (.error (.fault fault), p) (.error (.fault fault), q)
  /-- In both something is missing. -/
  | missing {p q : Progress} (h : Alike places before prior p q) :
    EndAlike places before prior related (.error .missing, p) (.error .missing, q)

/-- Two readers end in the same way, each run on its own layout. -/
def Twins (places : List (Token × Token)) (related : α → α → Prop) (reader mate : Reader α) :
    Prop :=
  ∀ ⦃before prior : List Diagnostic⦄ (p q : Progress), Alike places before prior p q →
    EndAlike places before prior related (reader.run.run p) (mate.run.run q)

namespace Twins

variable {related : α → α → Prop} {joined : β → β → Prop}

/-- Values that are related are read from nothing. -/
theorem pure {value same : α} (h : related value same) :
    Twins places related (pure value) (pure same) :=
  fun _ _ _ _ ha => .ok h ha

/-- Readers that follow twins are compared for values that are related. -/
theorem bind {reader mate : Reader α} {next follow : α → Reader β}
    (h : Twins places related reader mate)
    (hn : ∀ value same, related value same → Twins places joined (next value) (follow same)) :
    Twins places joined (reader >>= next) (mate >>= follow) := by
  intro before prior p q ha
  have hr := h p q ha
  rw [run_bind, run_bind]
  generalize reader.run.run p = result at hr
  generalize mate.run.run q = outcome at hr
  cases hr with
  | ok hv ha => exact hn _ _ hv _ _ ha
  | failed ht ha => exact .failed ht ha
  | stopped ha => exact .stopped ha
  | fault ha => exact .fault ha
  | missing ha => exact .missing ha

/-- Readers that follow twins with the same value are compared for this value. -/
theorem bind_eq {reader mate : Reader α} {next follow : α → Reader β}
    (h : Twins places Eq reader mate)
    (hn : ∀ value, Twins places joined (next value) (follow value)) :
    Twins places joined (reader >>= next) (mate >>= follow) := by
  refine h.bind ?_
  rintro value _ rfl
  exact hn value

/-- Nothing is read after readers that never end with a value. -/
theorem halt_bind {reader mate : Reader α} {next follow : α → Reader β}
    (h : Twins places (fun _ _ => False) reader mate) :
    Twins places joined (reader >>= next) (mate >>= follow) :=
  h.bind fun _ _ hn => hn.elim

/-- Twins on each side of a choice that is made in the same way are twins. -/
theorem ite {holds agrees : Prop} [Decidable holds] [Decidable agrees]
    {reader alternative mate substitute : Reader α} (hc : holds ↔ agrees)
    (ht : agrees → Twins places related reader mate)
    (hf : ¬agrees → Twins places related alternative substitute) :
    Twins places related (if holds then reader else alternative)
      (if agrees then mate else substitute) := by
  by_cases h : agrees
  · rw [if_pos (hc.mpr h), if_pos h]
    exact ht h
  · rw [if_neg fun hh => h (hc.mp hh), if_neg h]
    exact hf h

/-- A step that changes alike progresses to alike ones is its own twin. -/
theorem modify {change adapt : Progress → Progress}
    (h : ∀ {before prior : List Diagnostic} p q, Alike places before prior p q →
      Alike places before prior (change p) (adapt q)) :
    Twins places Eq (modify change : Reader Unit) (modify adapt) :=
  fun _ _ p q ha => .ok rfl (h p q ha)

/-- What is looked at are alike progresses. -/
theorem get {next follow : Progress → Reader β}
    (h : ∀ {before prior : List Diagnostic} p q, Alike places before prior p q →
      Twins places joined (next p) (follow q)) :
    Twins places joined (get >>= next) (get >>= follow) :=
  fun _ _ p q ha => h p q ha p q ha

/-- The tokens that are left match. -/
theorem remaining {next follow : List Token → Reader β}
    (h : ∀ left, left <:+ places →
      Twins places joined (next (left.map Prod.fst)) (follow (left.map Prod.snd))) :
    Twins places joined (remaining >>= next) (remaining >>= follow) := by
  intro before prior p q ha
  obtain ⟨left, hs, hp, hq⟩ := ha.rest
  have hn := h left hs p q ha
  rw [← hp, ← hq] at hn
  exact hn

/-- The next tokens match. -/
theorem current {next follow : Token → Reader β}
    (h : ∀ token twin, (token, twin) ∈ places →
      Twins places joined (next token) (follow twin)) :
    Twins places joined (current >>= next) (current >>= follow) := by
  intro before prior p q ha
  obtain ⟨left, hs, hp, hq⟩ := ha.rest
  rw [run_bind, run_bind]
  cases left with
  | nil =>
    rw [run_current_of_nil hp, run_current_of_nil hq]
    exact .missing ha
  | cons place rest =>
    rw [run_current_of_cons hp, run_current_of_cons hq]
    exact h _ _ (hs.subset List.mem_cons_self) p q ha

/-- The same statement fails at tokens that match. -/
theorem fail (ht : (token, twin) ∈ places) (issue : GrammarIssue) :
    Twins places related (fail issue token) (fail issue twin) :=
  fun _ _ _ _ ha => .failed ht ha

/-- Something else is wanted in place of tokens that match. -/
theorem failExpected (h : Matched places) (ht : (token, twin) ∈ places) (wanted : Wanted) :
    Twins places related (failExpected wanted token) (failExpected wanted twin) := by
  unfold Grammar.failExpected
  rw [h.found ht]
  exact fail ht _

/-- Nothing like tokens that match is expected. -/
theorem failUnexpected (h : Matched places) (ht : (token, twin) ∈ places) (place : Place) :
    Twins places related (failUnexpected place token) (failUnexpected place twin) := by
  unfold Grammar.failUnexpected
  rw [h.found ht]
  exact fail ht _

/-- Statements that fail at tokens that match are followed by twins. -/
theorem attempt {statement mate : Reader α} {recover mend : GrammarError → Reader α}
    (h : Twins places related statement mate)
    (hr : ∀ issue token twin, (token, twin) ∈ places →
      Twins places related (recover ⟨issue, token⟩) (mend ⟨issue, twin⟩)) :
    Twins places related (attempt statement recover) (attempt mate mend) := by
  intro before prior p q ha
  have hs := h p q ha
  rw [run_attempt, run_attempt]
  generalize statement.run.run p = result at hs
  generalize mate.run.run q = outcome at hs
  cases hs with
  | ok hv ha => exact .ok hv ha
  | failed ht ha => exact hr _ _ _ ht _ _ ha
  | stopped ha => exact .stopped ha
  | fault ha => exact .fault ha
  | missing ha => exact .missing ha

end Twins

/-! ## Taking tokens -/

/-- Progresses that go on with tokens that match are alike. -/
theorem Alike.continue {p q : Progress} (h : Alike places before prior p q) (hs : left <:+ places) :
    Alike places before prior { p with rest := left.map Prod.fst }
      { q with rest := left.map Prod.snd } :=
  ⟨⟨left, hs, rfl, rfl⟩, h.workspace, h.diagnostics, h.errors, h.endReported, h.limit⟩

/-- Going on with tokens that match keeps progresses alike. -/
theorem twins_continueWith (hs : left <:+ places) :
    Twins places Eq (continueWith (left.map Prod.fst)) (continueWith (left.map Prod.snd)) :=
  .modify fun _ _ ha => ha.continue hs

/-- The tokens that are taken match. -/
theorem twins_advance :
    Twins places (fun token twin => (token, twin) ∈ places) advance advance := by
  unfold advance
  refine .current fun token twin ht => ?_
  have hd : ∀ {before prior : List Diagnostic} p q, Alike places before prior p q →
      Alike places before prior { p with rest := dropToken p.rest }
        { q with rest := dropToken q.rest } := by
    intro before prior p q ha
    obtain ⟨left, hs, hp, hq⟩ := ha.rest
    rw [hp, hq]
    rcases left with _ | ⟨first, _ | ⟨second, rest⟩⟩
    · exact ha.continue hs
    · exact ha.continue hs
    · exact ha.continue ((List.suffix_cons _ _).trans hs)
  exact (Twins.modify hd).bind_eq fun _ => .pure ht

/-- The tokens that are taken match, and what follows is compared for them. -/
theorem Twins.advance {joined : β → β → Prop} {next follow : Token → Reader β}
    (h : ∀ token twin, (token, twin) ∈ places →
      Twins places joined (next token) (follow twin)) :
    Twins places joined (advance >>= next) (advance >>= follow) :=
  twins_advance.bind h

/-- What happens is noted in the same way, whether it is the same or not. -/
theorem twins_note (event other : Event) : Twins places Eq (note event) (note other) :=
  .modify fun _ _ ha =>
    ⟨ha.rest, ha.workspace, ha.diagnostics, ha.errors, ha.endReported, ha.limit⟩

/-- The keys that are taken match. -/
theorem Twins.takeKey {joined : β → β → Prop} {next follow : Token → Reader β}
    (h : ∀ token twin, (token, twin) ∈ places →
      Twins places joined (next token) (follow twin)) :
    Twins places joined (takeKey >>= next) (takeKey >>= follow) := by
  have hk : Twins places (fun token twin => (token, twin) ∈ places) Grammar.takeKey
      Grammar.takeKey := by
    unfold Grammar.takeKey
    exact .advance fun token twin ht => (twins_note _ _).bind_eq fun _ => .pure ht
  exact hk.bind h

/-- A change by a part of the workspace keeps progresses alike if the change without places is the
change by the part without its places. -/
theorem twins_modifyWorkspace (change : α → Workspace → Workspace) (erase : α → α)
    (h : ∀ part workspace, (change part workspace).unplaced =
      change (erase part) workspace.unplaced) {part same : α} (hp : Same erase part same) :
    Twins places Eq (modifyWorkspace (change part)) (modifyWorkspace (change same)) := by
  refine .modify fun _ _ ha => ?_
  exact ⟨ha.rest, Same.change change h hp ha.workspace, ha.diagnostics, ha.errors, ha.endReported,
    ha.limit⟩

/-- The same entry of a table is there or missing. -/
theorem twins_lookUp {related : α → α → Prop} {found same : Option α}
    (h : Option.Rel related found same) :
    Twins places related (lookUp found) (lookUp same) := by
  cases h with
  | none => exact fun _ _ _ _ ha => .missing ha
  | some hv => exact .pure hv

/-- Tokens that match are of a kind both, or neither is. -/
theorem Twins.isSign (h : Matched places) {sign : Sign} {joined : β → β → Prop}
    {next follow : Bool → Reader β}
    (hn : ∀ holds, Twins places joined (next holds) (follow holds)) :
    Twins places joined (isSign sign >>= next) (isSign sign >>= follow) := by
  have hs : Twins places Eq (Grammar.isSign sign) (Grammar.isSign sign) := by
    unfold Grammar.isSign isNext
    refine .current fun token twin ht => .pure ?_
    rw [h.kind ht]
  exact hs.bind_eq hn

/-! ## Reports -/

/-- The same remark is made about tokens that match. -/
theorem twins_remark (issue : Issue) (position place : Position) :
    Twins places Eq (remark issue position) (remark issue place) := by
  refine .modify fun p q ha => ⟨ha.rest, ha.workspace, ?_, ha.errors, ha.endReported, ha.limit⟩
  obtain ⟨reported, others, hp, hq, hs⟩ := ha.diagnostics
  dsimp only
  rw [hp, hq, List.append_assoc, List.append_assoc]
  exact ⟨_, _, rfl, rfl, hs.concat rfl⟩

/-- The same failure is reported for tokens that match, and the limit is reached with both or with
neither. -/
theorem twins_report (issue : GrammarIssue) (token twin : Token) :
    Twins places Eq (report ⟨issue, token⟩) (report ⟨issue, twin⟩) := by
  have hcount : Twins places Eq
      (modify fun progress => { progress with errors := progress.errors + 1 } : Reader Unit)
      (modify fun progress => { progress with errors := progress.errors + 1 }) :=
    .modify fun p q ha => ⟨ha.rest, ha.workspace, ha.diagnostics, congrArg (· + 1) ha.errors,
      ha.endReported, ha.limit⟩
  unfold report
  refine (twins_remark _ _ _).bind_eq fun _ => hcount.bind_eq fun _ => .get fun p q ha => ?_
  rw [ha.errors, ha.limit]
  refine .ite Iff.rfl (fun _ => ?_) fun _ => .pure rfl
  exact (twins_remark _ _ _).bind_eq fun _ _ _ _ _ ha => .stopped ha

end Blueprint.Grammar
