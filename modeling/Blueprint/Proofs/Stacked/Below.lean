import Blueprint.Proofs.Stacked.Frame
import Blueprint.Proofs.Stacked.Model

/-!
# Statements of the model below others

Where statements of the model stand below others, on later lines, they are run in the same way as
they are alone: those above them echo before another tail, those below are run again in another
layout, with the model that the upper ones leave. The model is then put together of the two.
-/

namespace Blueprint.Grammar

open Blueprint.Declared Blueprint.Text

variable {limit lines characters : Int} {p q m t : Progress}
  {upper lower back behind : List Token} {closing second last : Token}

/-! ## Statements of the model -/

/-- A change adds statements to the model there is, and directives. -/
def GrowsModel (change : Workspace → Workspace) : Prop :=
  ∃ (entries : List BodyEntry) (directives : List Declared.Directive), ∀ workspace,
    change workspace = { workspace with
      model := workspace.model.map (entries.foldl Model.add)
      directives := workspace.directives ++ directives }

/-- Changes that add to the model compose. -/
theorem composes_growsModel : Composes GrowsModel where
  nothing := ⟨[], [], fun workspace => by simp⟩
  after := by
    rintro change next ⟨entries, directives, hc⟩ ⟨others, more, hn⟩
    refine ⟨entries ++ others, directives ++ more, fun workspace => ?_⟩
    show next (change workspace) = _
    rw [hn, hc]
    simp [Function.comp_def]

/-- Directives are added. -/
theorem takesDirectives_growsModel : TakesDirectives GrowsModel :=
  fun directive => ⟨[], [directive], fun workspace => by simp⟩

/-- Statements of the model are added. -/
theorem takesEntries_growsModel : TakesEntries GrowsModel :=
  fun entries => ⟨entries, [], fun workspace => by simp⟩

/-- A statement of the model does not start with a sign. -/
theorem Yields.head_ne_sign {token : Token} {tokens : List Token}
    (h : Yields p readModelStatement () q) (hr : p.rest = token :: tokens) (sign : Sign) :
    token.kind ≠ .sign sign := by
  obtain ⟨entries, r, hstatement, _⟩ := h.of_bind
  obtain ⟨first, rest, hfirst, _, hsigns⟩ := hstatement.exists_head
  obtain ⟨rfl, rfl⟩ := List.cons.inj (hr.symm.trans hfirst)
  by_cases hs : sign = .arrow
  · subst hs
    intro hk
    unfold Yields at hstatement
    rw [run_readBodyStatement_arrow readEntries hr hk rfl] at hstatement
    cases hstatement
  · exact hsigns sign hs

/-- Tokens at places that are moved are displaced. -/
theorem displaced_shift (lines characters : Int) (tokens : List Token) :
    List.Forall₂ (Token.Displaced lines characters) tokens
      (tokens.map (Token.shift lines characters)) := by
  rw [List.forall₂_map_right_iff]
  exact List.forall₂_same.mpr fun token _ => ⟨rfl, rfl, rfl, rfl, rfl⟩

/-- Tokens match themselves at places that are moved. -/
theorem matched_shift (lines characters : Int) (tokens : List Token) :
    Matched (tokens.zip (tokens.map (Token.shift lines characters))) := by
  have hnone : ∀ token ∈ ([] : List Token), ∀ other : Token, token.line < other.line :=
    fun _ hm => absurd hm List.not_mem_nil
  exact matched_of_displaced (displaced_shift lines characters tokens)
    (fun token hm other _ => hnone token hm other) fun token hm other _ => hnone token hm other

namespace ModelRun

/-- What follows the opening brace of a model starts with no sign but a closing brace. -/
theorem exists_head (h : ModelRun lower (closing :: behind) limit t)
    (hk : closing.kind = .sign .rightBrace) :
    ∃ name more, lower ++ closing :: behind = name :: more ∧
      ∀ sign : Sign, sign ≠ .rightBrace → name.kind ≠ .sign sign := by
  obtain ⟨through, rest, _⟩ := h
  cases through with
  | done =>
    refine ⟨closing, behind, rest, fun sign hs => ?_⟩
    rw [hk]
    exact fun he => hs (Kind.sign.inj he).symm
  | @step _ _ _ _ _ _ token tokens start _ _ _ here _ =>
    exact ⟨token, tokens, start, fun sign _ => here.head_ne_sign start sign⟩

/-- Running the statements of the model keeps the limit of errors. -/
theorem limit_eq (h : ModelRun upper back limit m) : m.limit = limit :=
  (h.through.continues fun _ =>
    built_readModelStatement takesDirectives_keepsLead takesEntries_keepsLead).limit

/-- What the statements of the model do to the workspace is one change, whatever that is. -/
theorem aside (h : ModelRun upper back limit m) :
    ∃ entries : List BodyEntry, m.workspace.model = some (entries.foldl Model.add
        { position := some ⟨2, 1, 12⟩ }) ∧
      ∀ workspace, ∃ r, RunsThrough (fun _ => readModelStatement) ()
          ((inModel (upper ++ back) limit).withWorkspace workspace) () (m.withWorkspace r) ∧
        r.model = workspace.model.map (entries.foldl Model.add) := by
  obtain ⟨change, ⟨entries, directives, hc⟩, hm, hrun⟩ := h.through.aside
    (fun _ => built_readModelStatement takesDirectives_growsModel takesEntries_growsModel)
    composes_growsModel
  refine ⟨entries, ?_, fun workspace => ⟨_, hrun workspace, ?_⟩⟩
  · rw [hm, hc]
    rfl
  · rw [hc]

/-- Behind the upper statements there is a fork between the end of the model and the statements
below them. -/
theorem exists_fork {twin : Token} (h : ModelRun lower (twin :: behind) limit t)
    (ht : twin.kind = .sign .rightBrace) (hn : behind ≠ []) (hk : closing.kind = .sign .rightBrace)
    (hb : ∀ token ∈ upper, ∀ other ∈ [closing, second, last], token.line < other.line)
    (ho : ∀ token ∈ upper, ∀ other ∈ (lower ++ twin :: behind).map (Token.shift lines characters),
      token.line < other.line) :
    ∃ fork : Fork, fork.tokens = [closing, second, last] ∧
      fork.others = (lower ++ twin :: behind).map (Token.shift lines characters) ∧
      ∀ token ∈ upper, token.line ≤ fork.line := by
  obtain ⟨name, more, hname, hsigns⟩ := h.exists_head ht
  obtain ⟨sign, rest, rfl⟩ : ∃ sign rest, more = sign :: rest := by
    refine List.exists_cons_of_length_pos ?_
    have hlength := congrArg List.length hname
    have hpos := List.length_pos_iff.mpr hn
    simp only [List.length_append, List.length_cons] at hlength
    omega
  rw [hname] at ho ⊢
  have hlines : ∀ token ∈ upper, ∀ other ∈ [closing, second, last] ++
      (name :: sign :: rest).map (Token.shift lines characters), token.line < other.line :=
    fun token hm other hmo => (List.mem_append.mp hmo).elim (hb token hm other) (ho token hm other)
  obtain ⟨line, hupper, hlower⟩ := exists_line_between hlines
  have hheads : Heads line closing (name.shift lines characters) :=
    { end_ne := by simp [hk]
      dot_ne := by simp [hk]
      head_below := hlower closing (by simp)
      sign_ne := hsigns
      name_below := hlower _ (by simp) }
  exact ⟨⟨line, _, _, .below hheads (fun token hm => hlower token (List.mem_append_left _ hm))
    fun token hm => hlower token (List.mem_append_right _ hm)⟩, rfl, rfl, hupper⟩

/-- Statements of the model are run again where others end, in another layout: that yields the model
that they yield there in their own layout, up to places. -/
theorem relaid_below {twin : Token} {r : Workspace} (h : ModelRun upper back limit m)
    (hl : ModelRun lower (twin :: behind) limit t)
    (hr : RunsThrough (fun _ => readModelStatement) ()
      ((inModel (lower ++ twin :: behind) limit).withWorkspace m.workspace) ()
      (t.withWorkspace r)) :
    ∃ s, RunsThrough (fun _ => readModelStatement) ()
        (m.ahead ((lower ++ twin :: behind).map (Token.shift lines characters))) () s ∧
      s.rest = (twin :: behind).map (Token.shift lines characters) ∧ s.errors = 0 ∧
      s.endReported = false ∧ s.diagnostics = [] ∧
      s.workspace.model.map Model.unplaced = r.model.map Model.unplaced := by
  have hlength : (lower ++ twin :: behind).length =
      ((lower ++ twin :: behind).map (Token.shift lines characters)).length :=
    (List.length_map _).symm
  have halike : Alike
      ((lower ++ twin :: behind).zip
        ((lower ++ twin :: behind).map (Token.shift lines characters))) [] m.diagnostics
      ((inModel (lower ++ twin :: behind) limit).withWorkspace m.workspace)
      (m.ahead ((lower ++ twin :: behind).map (Token.shift lines characters))) :=
    { rest := ⟨_, List.suffix_rfl, (List.map_fst_zip (Nat.le_of_eq hlength)).symm,
        (List.map_snd_zip (Nat.le_of_eq hlength.symm)).symm⟩
      workspace := rfl
      diagnostics := ⟨[], [], rfl, (List.append_nil _).symm, rfl⟩
      errors := h.errors.symm
      endReported := h.endReported.symm
      limit := h.limit_eq.symm }
  have hmatched := matched_shift lines characters (lower ++ twin :: behind)
  obtain ⟨s, hrun, hs⟩ := hr.relaid_unit hmatched (twins_readModelStatement hmatched) halike
  refine ⟨s, hrun, ?_, hs.errors.symm.trans hl.errors, hs.endReported.symm.trans hl.endReported,
    ?_, (congrArg Workspace.model hs.workspace).symm⟩
  · have hleft : (t.withWorkspace r).rest = twin :: behind := hl.rest
    have hback : (twin :: behind).length =
        ((twin :: behind).map (Token.shift lines characters)).length := (List.length_map _).symm
    rw [List.map_append] at hs hlength
    exact hs.rest_eq hlength hback hleft
  · obtain ⟨reported, more, hreported, hmore, hsame⟩ := hs.diagnostics
    have hnone : reported = [] := hreported.symm.trans hl.diagnostics
    rw [hnone] at hsame
    rw [hmore, h.diagnostics, List.map_eq_nil_iff.mp hsame.symm]
    rfl

/-- Where statements of the model stand below others, both are run, and the model is put together of
those that they declare alone. -/
theorem stack {twin : Token} (h : ModelRun upper [closing, second, last] limit m)
    (hl : ModelRun lower (twin :: behind) limit t) (ht : twin.kind = .sign .rightBrace)
    (hn : behind ≠ []) (hk : closing.kind = .sign .rightBrace)
    (hb : ∀ token ∈ upper, ∀ other ∈ [closing, second, last], token.line < other.line)
    (ho : ∀ token ∈ upper, ∀ other ∈ (lower ++ twin :: behind).map (Token.shift lines characters),
      token.line < other.line) :
    ∃ s first second whole,
      ModelRun (upper ++ lower.map (Token.shift lines characters))
        ((twin :: behind).map (Token.shift lines characters)) limit s ∧
      m.workspace.model = some first ∧ t.workspace.model = some second ∧
      s.workspace.model = some whole ∧
      Model.Joins first.unplaced second.unplaced whole.unplaced := by
  obtain ⟨fork, htokens, hothers, hlines⟩ := hl.exists_fork ht hn hk hb ho
  obtain ⟨entries, hfirst, _⟩ := h.aside
  obtain ⟨others, hsecond, haside⟩ := hl.aside
  have hstart : (inModel (upper ++ [closing, second, last]) limit).rest =
      upper ++ fork.tokens := by
    rw [htokens]
    rfl
  have hupper := h.through.echo (fun _ => echoes_readModelStatement) h.errors hstart
    (h.rest.trans htokens.symm) (Nat.lt_succ_self _) hlines
  rw [hothers] at hupper
  -- The lower statements are run again where the upper ones end.
  obtain ⟨r, hlower, hr⟩ := haside m.workspace
  obtain ⟨s, hrun, hrest, herrors, hend, hdiagnostics, hsame⟩ := h.relaid_below hl hlower
  have hthrough : RunsThrough (fun _ => readModelStatement) ()
      (inModel (upper ++ lower.map (Token.shift lines characters) ++
        (twin :: behind).map (Token.shift lines characters)) limit) () s := by
    rw [List.append_assoc, ← List.map_append]
    exact hupper.append hrun
  have hmodel : s.workspace.model.map Model.unplaced =
      some (others.foldl Model.add (entries.foldl Model.add
        { position := some ⟨2, 1, 12⟩ })).unplaced := by
    rw [hsame, hr, hfirst]
    rfl
  obtain ⟨whole, hwhole, hunplaced⟩ := Option.map_eq_some_iff.mp hmodel
  refine ⟨s, _, _, whole, ⟨hthrough, hrest, herrors, hend, hdiagnostics⟩, hfirst, hsecond, hwhole,
    ?_⟩
  rw [hunplaced]
  exact (Model.Joins.of_entries _ _ others).unplaced

end ModelRun

end Blueprint.Grammar
