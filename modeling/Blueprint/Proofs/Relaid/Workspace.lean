import Blueprint.Proofs.Relaid.Presentation
import Blueprint.Proofs.Relaid.View

/-!
# Sources that are laid out anew

A whole source is read in the same way in two layouts: the same is declared and reported, up to
places, wherever reading stops.
-/

namespace Blueprint.Grammar

open Blueprint.Declared Blueprint.Text

variable {places left : List (Token × Token)} {token twin : Token} {line other : Int}

/-! ## Views -/

/-- A change of the views by a part keeps progresses alike if the change without places is the
change by the part without its places. -/
theorem twins_modifyViews {α : Type} (change : α → Views → Views) (erase : α → α)
    (h : ∀ part block, (change part block).unplaced = change (erase part) block.unplaced)
    {part same : α} (hp : Same erase part same) :
    Twins places Eq (modifyViews (change part)) (modifyViews (change same)) := by
  unfold modifyViews
  refine twins_modifyWorkspace
    (fun part workspace => { workspace with views := workspace.views.map (change part) })
    erase (fun part workspace => ?_) hp
  cases hv : workspace.views <;> simp [Workspace.unplaced, hv, h]

/-- A statement among the views changes them in the same way. -/
theorem twins_readViewsStatement (h : Matched places) :
    Twins places Eq readViewsStatement readViewsStatement := by
  unfold readViewsStatement
  refine .current fun token twin ht => ?_
  rw [h.kind ht, h.isDirective ht]
  split
  · exact (twins_readView h _).bind fun _ _ hv => twins_modifyViews
      (fun view block => block.insertView view) View.unplaced
      (fun view block => Views.unplaced_insertView block view) hv
  · refine .ite Iff.rfl (fun _ => .advance fun _ _ _ => ?_) fun _ => ?_
    · exact (twins_readKeyValues h).bind_eq fun entries => twins_modifyViews
        (fun entries block =>
          { block with configuration := mergeInto block.configuration entries })
        id (fun _ _ => rfl) rfl
    · refine .ite Iff.rfl (fun _ => twins_readDirective h) fun _ => ?_
      refine (twins_readPresentation h).bind_eq fun known => ?_
      exact .ite Iff.rfl (fun _ => .failUnexpected h ht _) fun _ => .pure rfl

/-- The block of views is the same. -/
theorem twins_readViews (h : Matched places) : Twins places Eq readViews readViews := by
  unfold readViews
  refine .advance fun keyword twin _ => ?_
  have hblock : Same Views.unplaced { position := some keyword.position }
      { position := some twin.position } := rfl
  refine (twins_modifyWorkspace
    (fun block workspace => { workspace with views := some (workspace.views.getD block) })
    Views.unplaced (fun block workspace => ?_) hblock).bind_eq fun _ => ?_
  · cases hv : workspace.views <;> simp [Workspace.unplaced, hv]
  · exact (twins_expectOpening h).bind_eq fun _ => twins_readBlockOf h (twins_readViewsStatement h)

/-! ## The workspace -/

/-- A change of the workspace that has nothing to do with places keeps progresses alike. -/
theorem twins_modifyPlain (change : Workspace → Workspace)
    (h : ∀ workspace, (change workspace).unplaced = change workspace.unplaced) :
    Twins places Eq (modifyWorkspace change) (modifyWorkspace change) := by
  have hunit : Same (id : Unit → Unit) () () := rfl
  exact twins_modifyWorkspace (fun _ => change) id (fun _ => h) hunit

/-- A statement of the workspace changes it in the same way. -/
theorem twins_readWorkspaceStatement (h : Matched places) :
    Twins places Eq readWorkspaceStatement readWorkspaceStatement := by
  unfold readWorkspaceStatement
  refine .current fun token twin ht => ?_
  have hl := h.level ht
  rw [h.kind ht, h.isDirective ht]
  split
  · refine .advance fun _ _ _ => (twins_expectValue h hl _).bind_eq fun name => ?_
    exact twins_modifyPlain _ fun _ => rfl
  · refine .advance fun _ _ _ => (twins_expectValue h hl _).bind_eq fun description => ?_
    exact twins_modifyPlain _ fun _ => rfl
  · exact twins_readModel h
  · exact twins_readViews h
  · refine .advance fun _ _ _ => (twins_readKeyValues h).bind_eq fun entries => ?_
    exact twins_modifyPlain _ fun _ => rfl
  · refine .advance fun _ _ _ => (twins_readKeyValues h).bind_eq fun entries => ?_
    exact twins_modifyPlain _ fun _ => rfl
  · exact twins_readDocumentation h
  · exact .advance fun _ _ _ => twins_readDecisions h
  · refine .ite Iff.rfl (fun _ => twins_readDirective h) fun _ => ?_
    refine (twins_readPresentation h).bind_eq fun known => ?_
    exact .ite Iff.rfl (fun _ => .failUnexpected h ht _) fun _ => .pure rfl

/-- A workspace is the same up to places. -/
theorem twins_readWorkspace (h : Matched places) :
    Twins places Eq readWorkspace readWorkspace := by
  unfold readWorkspace
  refine .advance fun keyword twin hk => ?_
  have hl := h.level hk
  refine (twins_takePositional h hl 2).bind_eq fun arguments => ?_
  have hplace : Same somewhere (some keyword.position) (some twin.position) := rfl
  refine (twins_modifyWorkspace
    (fun position workspace =>
      { workspace with
        position
        name := argument arguments 0
        description := argument arguments 1 })
    somewhere (fun _ _ => rfl) hplace).bind_eq fun _ => ?_
  refine (twins_expectLineEnd h hl).bind_eq fun _ => (twins_expectOpening h).bind_eq fun _ => ?_
  exact twins_readBlockOf h (twins_readWorkspaceStatement h)

/-! ## The source -/

/-- The directives before the workspace are the same. -/
theorem twins_readDirectives (h : Matched places) (count : Nat) :
    Twins places Eq (readDirectives count) (readDirectives count) := by
  induction count with
  | zero => exact .pure rfl
  | succ count ih =>
    rw [readDirectives]
    refine .current fun token twin ht => ?_
    rw [h.isDirective ht]
    refine .ite Iff.rfl (fun _ => ?_) fun _ => .pure rfl
    exact (twins_readOrSkip h (twins_readDirective h)).bind_eq fun _ => ih

/-- A whole source is read in the same way. -/
theorem twins_readSource (h : Matched places) : Twins places Eq readSource readSource := by
  unfold readSource
  refine .remaining fun left _ => ?_
  rw [List.length_map, List.length_map]
  refine (twins_readDirectives h _).bind_eq fun _ => .current fun token twin ht => ?_
  rw [h.kind ht, h.found ht]
  refine .ite Iff.rfl (fun _ => ?_) fun _ => twins_report _ _ _
  refine (twins_readOrSkip h (twins_readWorkspace h)).bind_eq fun _ => ?_
  refine .current fun next follow hn => ?_
  rw [h.kind hn, h.found hn]
  exact .ite Iff.rfl (fun _ => twins_report _ _ _) fun _ => .pure rfl

/-! ## Outcomes -/

/-- What reading a source yields, without places: what is declared, and what is reported after the
given count of diagnostics. -/
def Outcome.unplaced (known : Nat) (outcome : Outcome) : Workspace × List Diagnostic :=
  (outcome.workspace.unplaced, (outcome.diagnostics.drop known).map Diagnostic.unplaced)

/-- Progresses that are alike yield the same up to places. -/
theorem Alike.unplaced_eq {before prior : List Diagnostic} {p q : Progress}
    (h : Alike places before prior p q) (tokens others : List Token) :
    Outcome.unplaced before.length ⟨p.workspace, tokens, p.diagnostics⟩ =
      Outcome.unplaced prior.length ⟨q.workspace, others, q.diagnostics⟩ := by
  obtain ⟨reported, remarks, hp, hq, hs⟩ := h.diagnostics
  unfold Outcome.unplaced
  rw [hp, hq, List.drop_left, List.drop_left]
  exact Prod.ext h.workspace hs

/-- At the start progresses on as many tokens are alike. -/
theorem alike_start {tokens others : List Token} (h : tokens.length = others.length)
    (before prior : List Diagnostic) (limit : Int) :
    Alike (tokens.zip others) before prior (.start tokens before limit)
      (.start others prior limit) := by
  have hrest : tokens = (tokens.zip others).map Prod.fst ∧
      others = (tokens.zip others).map Prod.snd := by
    constructor
    · exact (List.map_fst_zip (Nat.le_of_eq h)).symm
    · exact (List.map_snd_zip (Nat.le_of_eq h.symm)).symm
  have hnone : before = before ++ [] ∧ prior = prior ++ [] ∧
      Same (List.map Diagnostic.unplaced) [] [] :=
    ⟨(List.append_nil _).symm, (List.append_nil _).symm, rfl⟩
  exact ⟨⟨_, List.suffix_rfl, hrest⟩, rfl, ⟨[], [], hnone⟩, rfl, rfl, rfl⟩

/-- Tokens that are laid out anew are read in the same way up to places, whatever the limit of
errors is and whatever was reported before. -/
theorem readTokens_relaid {tokens others : List Token} (h : Relaid tokens others)
    (before prior : List Diagnostic) (limit : Int) :
    (readTokens tokens before limit).map (Outcome.unplaced before.length) =
      (readTokens others prior limit).map (Outcome.unplaced prior.length) := by
  have hread := twins_readSource h.matched _ _ (alike_start h.length before prior limit)
  unfold readTokens
  generalize readSource.run.run (.start tokens before limit) = result at hread
  generalize readSource.run.run (.start others prior limit) = outcome at hread
  cases hread with
  | ok _ ha => exact congrArg Except.ok (ha.unplaced_eq ..)
  | failed _ ha => exact congrArg Except.ok (ha.unplaced_eq ..)
  | stopped ha => exact congrArg Except.ok (ha.unplaced_eq ..)
  | fault ha => rfl
  | missing ha => exact congrArg Except.ok (ha.unplaced_eq ..)

end Blueprint.Grammar
