import Blueprint.Proofs.Printed.Body

/-!
# Reading printed models back

A model that can be printed is read back from the printed source: nothing is reported, and the model
that is read is the one that was printed, wherever its parts stand now. That holds for every such
model and every limit of errors.
-/

namespace Blueprint.Printed

open Blueprint.Declared Blueprint.Grammar

variable {p : Progress} {line : Int} {tokens tail : List Token}

/-! ## The model -/

/-- A progress with further entries in the model that is being read. -/
def declaring (p : Progress) (entries : List BodyEntry) : Progress :=
  { p with workspace :=
      { p.workspace with model := p.workspace.model.map (entries.foldl Model.add) } }

/-- The statements of a model are run one after the other. -/
theorem ReadsAll.runsThrough_model {entries : List BodyEntry}
    (h : ReadsAll .model tail tokens entries) (p : Progress) :
    RunsThrough (fun _ => readModelStatement) () (p.ahead (tokens ++ tail)) ()
      ((declaring p entries).ahead tail) := by
  induction h generalizing p with
  | nil =>
    have hp : declaring p [] = p := by
      unfold declaring
      simp
    rw [hp]
    exact .done
  | @cons front back entry entries h _ ih =>
    obtain ⟨⟨first, rest, rfl, hfirst⟩, hread⟩ := h
    have hhere : Yields (p.ahead (first :: rest ++ (back ++ tail))) readModelStatement ()
        ((declaring p [entry]).ahead (back ++ tail)) :=
      (hread readEntries (deep_readEntries _) p).bind (yields_modifyWorkspace rfl)
    have hmore := ih (declaring p [entry])
    have hall : declaring (declaring p [entry]) entries = declaring p (entry :: entries) := by
      simp [declaring, Function.comp_def]
    rw [hall] at hmore
    rw [List.append_assoc]
    refine .step rfl hfirst.open_ne hfirst.end_ne ?_ hhere hmore
    simp only [Progress.ahead, List.length_append, List.length_cons]
    omega

/-- Members that are ordered by rank come in their order. -/
theorem foldl_model_members {model : Model} {members : List Element}
    (h : (model.members ++ members).Pairwise fun a b => a.rankInModel ≤ b.rankInModel) :
    (members.map BodyEntry.member).foldl Model.add model =
      { model with members := model.members ++ members } := by
  induction members generalizing model with
  | nil =>
    rw [List.append_nil]
    rfl
  | cons member members ih =>
    have hadd : model.add (.member member) =
        { model with members := model.members ++ [member] } := by
      have hlast : insertByRank Element.rankInModel member model.members =
          model.members ++ [member] := insertByRank_last fun other ho =>
        (List.pairwise_append.mp h).2.2 other ho member List.mem_cons_self
      exact congrArg (fun all => { model with members := all }) hlast
    rw [List.map_cons, List.foldl_cons, hadd, ih]
    · rw [List.append_assoc, List.singleton_append]
    · dsimp only
      rw [List.append_assoc, List.singleton_append]
      exact h

/-- Relationships come in their order. -/
theorem foldl_model_relationships {model : Model} {relationships : List Relationship} :
    (relationships.map BodyEntry.relationship).foldl Model.add model =
      { model with relationships := model.relationships ++ relationships } := by
  induction relationships generalizing model with
  | nil =>
    rw [List.append_nil]
    rfl
  | cons relationship relationships ih =>
    rw [List.map_cons, List.foldl_cons, ih]
    unfold Model.add
    dsimp only
    rw [List.append_assoc, List.singleton_append]

/-- A progress with another workspace. -/
def holding (p : Progress) (workspace : Workspace) : Progress := { p with workspace }

/-- The block of a model is read as its entries. -/
theorem yields_readModel {keyword opening close : Token} {inner : List Token}
    {entries : List BodyEntry} (ho : opening.kind = .sign .leftBrace)
    (h : ReadsAll .model (close :: tail) inner entries) (hk : close.kind = .sign .rightBrace)
    (ht : tail ≠ []) (hm : p.workspace.model = none) :
    Yields (p.ahead (keyword :: opening :: (inner ++ close :: tail))) readModel ()
      ((holding p { p.workspace with
        model := some (entries.foldl Model.add { position := some keyword.position }) }).ahead
          tail) := by
  have hrest : inner ++ close :: tail ≠ [] :=
    List.append_ne_nil_of_right_ne_nil _ (List.cons_ne_nil _ _)
  let start : Progress := holding p { p.workspace with
    model := some { position := some keyword.position } }
  have hstart : Yields (p.ahead (opening :: (inner ++ close :: tail)))
      (modifyWorkspace fun workspace => { workspace with
        model := some (workspace.model.getD { position := some keyword.position }) }) ()
      (start.ahead (opening :: (inner ++ close :: tail))) := by
    refine yields_modifyWorkspace ?_
    show start.ahead _ = (holding p { p.workspace with
      model := some (p.workspace.model.getD { position := some keyword.position }) }).ahead _
    rw [hm]
    rfl
  unfold readModel
  refine (yields_advance (List.cons_ne_nil _ _)).bind (hstart.bind ?_)
  refine (yields_expectOpening ho hrest).bind ?_
  rw [readBlockOf_eq]
  exact (h.runsThrough_model start).readBlockLeaving rfl hk ht

/-- A workspace with a model is read. -/
theorem yields_readWorkspace {keyword opening word brace last close : Token} {inner : List Token}
    {entries : List BodyEntry} (hk : opening.kind = .sign .leftBrace)
    (hw : word.kind = .keyword .model) (hb : brace.kind = .sign .leftBrace)
    (h : ReadsAll .model (last :: close :: tail) inner entries)
    (hl : last.kind = .sign .rightBrace) (hc : close.kind = .sign .rightBrace) (ht : tail ≠ [])
    (hm : p.workspace.model = none) :
    Yields (p.ahead (keyword :: opening :: word :: brace :: (inner ++ last :: close :: tail)))
      readWorkspace ()
      ((holding p { p.workspace with
        position := some keyword.position
        name := none
        description := none
        model := some (entries.foldl Model.add { position := some word.position }) }).ahead
          tail) := by
  let start : Progress := holding p { p.workspace with
    position := some keyword.position
    name := none
    description := none }
  let final : Progress := holding p { p.workspace with
    position := some keyword.position
    name := none
    description := none
    model := some (entries.foldl Model.add { position := some word.position }) }
  have hline : onLine keyword.line opening = false := onLine_eq_false fun _ => hk
  have harguments : Yields
      (p.ahead (opening :: word :: brace :: (inner ++ last :: close :: tail)))
      (takePositional keyword.line 2) []
      (p.ahead (opening :: word :: brace :: (inner ++ last :: close :: tail))) := by
    refine yields_takePositional (List.forall_mem_nil _) (Nat.zero_le 2) fun token he => ?_
    cases he
    simp [isPositional, hk]
  have hmodel : Yields (start.ahead (word :: brace :: (inner ++ last :: close :: tail)))
      readWorkspaceStatement () (final.ahead (close :: tail)) := by
    unfold readWorkspaceStatement
    refine yields_current.bind ?_
    rw [hw]
    exact yields_readModel hb h hl (List.cons_ne_nil _ _) hm
  have hblock : RunsThrough (fun _ => readWorkspaceStatement) ()
      (start.ahead (word :: brace :: (inner ++ last :: close :: tail))) ()
      (final.ahead (close :: tail)) := by
    refine .step rfl (by rw [hw]; exact fun he => by cases he)
      (by rw [hw]; exact fun he => by cases he) ?_ hmodel .done
    simp only [Progress.ahead, List.length_cons, List.length_append]
    omega
  unfold readWorkspace
  refine (yields_advance (List.cons_ne_nil _ _)).bind (harguments.bind ?_)
  refine (yields_modifyWorkspace (q := start.ahead (opening :: word :: brace ::
    (inner ++ last :: close :: tail))) rfl).bind ?_
  refine (yields_expectLineEnd hline).bind ?_
  refine (yields_expectOpening hk (List.cons_ne_nil _ _)).bind ?_
  rw [readBlockOf_eq]
  exact hblock.readBlockLeaving rfl hc ht

/-- Where no directive is next, none is read. -/
theorem yields_readDirectives {first : Token} (h : isDirective first = false) (count : Nat) :
    Yields (p.ahead (first :: tokens)) (readDirectives count) () (p.ahead (first :: tokens)) := by
  cases count with
  | zero => exact yields_pure ()
  | succ count =>
    unfold readDirectives
    refine yields_current.bind ?_
    rw [if_neg (Bool.eq_false_iff.mp h)]
    exact yields_pure ()

/-- The source of a model that can be printed is read without an error, and its model is the one
that was printed. -/
theorem yields_readSource {model : Model} (h : PlainModel model)
    (ho : OnRows 1 (modelRows model) tokens) (place : Position) (p : Progress)
    (hp : p.workspace = {}) :
    ∃ (workspace : Workspace) (read : Model), workspace.model = some read ∧
      read.placeless = model.placeless ∧
      Yields (p.ahead (tokens ++ [Token.finish place])) readSource ()
        ((holding p workspace).ahead [Token.finish place]) := by
  obtain ⟨front, opening, body, close, rfl, hf, ⟨hk, _⟩, hb, hc, hl⟩ := split_block ho
  obtain ⟨middle, brace, inner, last, rfl, hw, ⟨hs, _⟩, hi, ht, hbelow⟩ := split_block hb
  obtain _ | @⟨_, keyword, _, _, ⟨position, _, rfl⟩, _ | _⟩ := hf
  obtain _ | @⟨_, word, _, _, ⟨spot, _, rfl⟩, _ | _⟩ := hw
  obtain ⟨members, relationships, hm, hr, hall⟩ := readsAll_inner
    (fun member hmem => readsAs_element (h.inner member hmem))
    (fun member hmem => (h.inner member hmem).legible) h.related hi
    ⟨last, close :: [Token.finish place], rfl, Int.le_of_eq hbelow.symm⟩
  have hrank : ([] ++ members).Pairwise fun first second : Element =>
      first.rankInModel ≤ second.rankInModel :=
    pairwise_rank Element.rankInModel_placeless hm h.ordered
  let keyword := (Atom.word .workspace).token position
  let word := (Atom.word .model).token spot
  let finish := Token.finish place
  have hworkspace : Yields (p.ahead (keyword :: opening :: word :: brace ::
      (inner ++ last :: close :: [finish]))) readWorkspace ()
      ((holding p { p.workspace with
        position := some position
        name := none
        description := none
        model := some ((members.map BodyEntry.member ++
          relationships.map BodyEntry.relationship).foldl Model.add
            { position := some spot }) }).ahead [finish]) :=
    yields_readWorkspace hk rfl hs hall ht hc (List.cons_ne_nil _ _) (by rw [hp])
  rw [List.foldl_append, foldl_model_members hrank, foldl_model_relationships, hp] at hworkspace
  have htokens : [keyword] ++ opening :: ([word] ++ brace :: (inner ++ [last]) ++ [close]) ++
      [finish] = keyword :: opening :: word :: brace :: (inner ++ last :: close :: [finish]) := by
    simp
  let read : Model := { position := some spot, members, relationships }
  refine ⟨{ position := some position, model := some read }, read, rfl, ?_, ?_⟩
  · have hs : read.placeless = Model.mk none (members.map Element.placeless) none
        (relationships.map Relationship.placeless) .empty := by
      simp only [read, Model.placeless, Element.placelessOfList_eq, Option.map_none]
    rw [hs, hm, hr, Model.placeless, Element.placelessOfList_eq, h.enterprise_eq, h.properties_eq]
    rfl
  · have hkeyword : (keyword.kind == .keyword .workspace) = true := rfl
    rw [htokens]
    unfold readSource
    refine yields_remaining.bind ((yields_readDirectives rfl _).bind (yields_current.bind ?_))
    rw [if_pos hkeyword]
    refine hworkspace.attempt.bind (yields_current.bind ?_)
    exact yields_pure ()

/-- A model that can be printed is read back from its source, whatever the limit of errors is:
nothing is reported, and what is read is the model, wherever its parts stand. -/
theorem parse_printed {model : Model} (h : PlainModel model) (limit : Int) :
    ∃ outcome read, parse (printed model) limit = .ok outcome ∧ outcome.diagnostics = [] ∧
      outcome.workspace.model = some read ∧ read.placeless = model.placeless := by
  obtain ⟨tokens, place, ho, ht⟩ := ofString_source fun row hm => (h.legible row hm).readable
  obtain ⟨workspace, read, hw, hr, hy⟩ :=
    yields_readSource h ho place (.start (tokens ++ [Token.finish place]) [] limit) rfl
  refine ⟨⟨workspace, tokens ++ [Token.finish place], []⟩, read, ?_, rfl, hw, hr⟩
  unfold parse printed
  rw [ht]
  show readTokens _ _ limit = _
  unfold readTokens
  have hrun : readSource.run.run (.start (tokens ++ [Token.finish place]) [] limit) = _ := hy
  rw [hrun]
  rfl

/-! ## A model with groups inside groups -/

/-- A relationship with all that is printed on a row. -/
def nestedRelationship : Relationship :=
  { source := "a \"user\""
    destination := "store"
    identifier := some "user"
    description := some "reads\nand writes"
    technology := some "\\"
    tags := ["fast", "two words"] }

/-- A person with texts that have to be escaped. -/
def nestedPerson : Element :=
  .plain (.person none)
    { identifier := some "user"
      name := "a \"user\""
      description := some "-> \x7b"
      tags := ["human"] } [] []

/-- A container with a technology. -/
def nestedStore : Element :=
  .plain (.container (some "Lean")) { name := "store", description := some "" } [] []

/-- A group inside a group. -/
def nestedGroup : Element :=
  .plain .group { name := "outer" } [] [.plain .group { name := "inner" } [] []]

/-- A software system with a container, a group and a relationship. -/
def nestedSystem : Element :=
  .plain (.softwareSystem none) { name := "" } [nestedRelationship] [nestedStore, nestedGroup]

/-- A model of them. -/
def nestedModel : Model :=
  { members := [nestedPerson, nestedSystem], relationships := [nestedRelationship] }

/-- A word is an identifier. -/
theorem isIdentifier_user : IsIdentifier "user" :=
  IsWord.isIdentifier ⟨⟨_, _, rfl, ⟨rfl, rfl, by decide⟩, rfl, rfl, List.all_eq_true.mp rfl⟩, rfl⟩

/-- The relationship can be printed. -/
theorem plainRelationship_nested : PlainRelationship nestedRelationship where
  identifier := by
    rintro name ⟨⟩
    exact isIdentifier_user
  leading := by simp [Leading, relationshipSlots, nestedRelationship, tagList]
  tags := by
    refine List.forall_mem_cons.mpr ⟨?_, List.forall_mem_singleton.mpr ?_⟩ <;>
      exact ⟨by decide, by decide, by decide⟩
  properties_eq := rfl
  url_eq := rfl

/-- What is declared with a name and arguments alone can be printed. -/
theorem plainHeading_of_name (sort : PlainSort) (hs : BareSort sort) {name : String}
    {description : Option String} (hg : sort = .group → description = none)
    (hl : Leading (slots sort { name, description })) :
    PlainHeading sort { name, description } where
  bare := hs
  identifier := fun _ h => by cases h
  leading := hl
  tags := List.forall_mem_nil _
  group := fun h => ⟨hg h, rfl⟩
  properties_eq := rfl
  perspectives_eq := rfl
  url_eq := rfl

/-- A group of some elements can be printed. -/
theorem plainElement_group {owner : BodyKind} (ho : owner.allows .group = true) (name : String)
    {members : List Element} (h : ∀ member ∈ members, PlainElement .group member) :
    PlainElement owner (.plain .group { name } [] members) :=
  .plain ho (plainHeading_of_name .group trivial (fun _ => rfl) .nil) (List.forall_mem_nil _)
    (fun he => absurd rfl he) h

/-- The model can be printed. -/
theorem plainModel_nested : PlainModel nestedModel := by
  have hrelated : ∀ relationship ∈ [nestedRelationship], PlainRelationship relationship :=
    List.forall_mem_singleton.mpr plainRelationship_nested
  have hperson : PlainElement .model nestedPerson := by
    refine .plain rfl ⟨rfl, ?_, ?_, ?_, (fun he => by cases he), rfl, rfl, rfl⟩
      (List.forall_mem_nil _) (fun _ => .nil) (List.forall_mem_nil _)
    · rintro name ⟨⟩
      exact isIdentifier_user
    · simp [Leading, slots, tagList]
    · exact List.forall_mem_singleton.mpr ⟨by decide, by decide, by decide⟩
  have hgroup : PlainElement .softwareSystem nestedGroup :=
    plainElement_group rfl _ (List.forall_mem_singleton.mpr
      (plainElement_group rfl _ (List.forall_mem_nil _)))
  have hstore : PlainElement .softwareSystem nestedStore :=
    .plain rfl (plainHeading_of_name (.container _) trivial (fun he => by cases he)
      (by simp [Leading, slots, tagList])) (List.forall_mem_nil _) (fun _ => .nil)
      (List.forall_mem_nil _)
  have hsystem : PlainElement .model nestedSystem :=
    .plain rfl (plainHeading_of_name (.softwareSystem _) rfl (fun he => by cases he)
      (by simp [Leading, slots, tagList])) hrelated (fun _ => by decide)
      (List.forall_mem_cons.mpr ⟨hstore, List.forall_mem_singleton.mpr hgroup⟩)
  exact ⟨List.forall_mem_cons.mpr ⟨hperson, List.forall_mem_singleton.mpr hsystem⟩, by decide,
    hrelated, rfl, rfl⟩

/-- A model with groups inside groups is read back. -/
theorem parse_printed_nested : PlainModel nestedModel ∧
    ∃ outcome read, parse (printed nestedModel) 1 = .ok outcome ∧ outcome.diagnostics = [] ∧
      outcome.workspace.model = some read ∧ read.placeless = nestedModel.placeless :=
  ⟨plainModel_nested, parse_printed plainModel_nested 1⟩

end Blueprint.Printed
