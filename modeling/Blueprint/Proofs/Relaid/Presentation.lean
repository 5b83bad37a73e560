import Blueprint.Proofs.Relaid.Body

/-!
# Documentation and presentation that are laid out anew

Sections and decisions, styles, themes, branding and terminology are the same in two layouts, up to
places.
-/

namespace Blueprint.Grammar

open Blueprint.Declared Blueprint.Text

variable {places left : List (Token × Token)} {token twin : Token} {line other : Int}

/-! ## Values -/

/-- The value of a property is the same. -/
theorem twins_readAssigned (h : Matched places) (hk : (token, twin) ∈ places) :
    Twins places Eq (readAssigned token) (readAssigned twin) := by
  unfold readAssigned
  refine .current fun next follow hn => ?_
  have hl := h.level hk
  rw [h.kind hn, hl.beq hn, h.lexeme hk]
  refine .ite Iff.rfl (fun _ => ?_) fun _ => twins_expectValue h hl _
  exact .advance fun _ _ _ => twins_expectValue h hl _

/-- The place of a section among the others is the same, or the same value is no such place. -/
theorem twins_readOrderValue (ht : (token, twin) ∈ places) (value : String) :
    Twins places Eq (readOrderValue token value) (readOrderValue twin value) := by
  unfold readOrderValue
  refine (twins_note _ _).bind_eq fun _ => .ite Iff.rfl (fun _ => .fail ht _) fun _ => ?_
  split
  · exact .pure rfl
  · exact fun _ _ _ _ ha => .fault ha

/-- The place of a section among the others is the same. -/
theorem twins_readOrder (h : Matched places) (ht : (token, twin) ∈ places) :
    Twins places Eq (readOrder token) (readOrder twin) := by
  unfold readOrder
  exact (twins_readAssigned h ht).bind_eq fun value => twins_readOrderValue ht value

/-! ## Sections -/

/-- A statement in a section changes it in the same way. -/
theorem twins_readSectionStatement (h : Matched places) {part same : Section}
    (hp : Same Section.unplaced part same) :
    Twins places (Same Section.unplaced) (readSectionStatement.fill part)
      (readSectionStatement.fill same) := by
  rw [fill_readSectionStatement, fill_readSectionStatement]
  refine .current fun token twin ht => ?_
  rw [h.kind ht]
  split
  · refine .advance fun _ _ _ => (twins_readAssigned h ht).bind_eq fun content => .pure ?_
    exact congrArg (fun part : Section => { part with content }) hp
  · refine .advance fun _ _ _ => (twins_readAssigned h ht).bind_eq fun format => .pure ?_
    exact congrArg (fun part : Section => { part with format }) hp
  · refine .advance fun _ _ _ => (twins_readOrder h ht).bind_eq fun order => .pure ?_
    exact congrArg (fun part : Section => { part with order := some (order : Int) }) hp
  · exact .failUnexpected h ht _

/-- A section is the same up to its place. -/
theorem twins_readSection (h : Matched places) :
    Twins places (Same Section.unplaced) readSection readSection := by
  unfold readSection
  refine .advance fun keyword twin hk => ?_
  have hl := h.level hk
  refine (twins_expectString h hl _).bind_eq fun title => ?_
  refine (twins_takePositional h hl 1).bind_eq fun arguments => ?_
  have hpart : Same Section.unplaced
      { position := some keyword.position, title, content := arguments.head?.getD "" }
      { position := some twin.position, title, content := arguments.head?.getD "" } := rfl
  refine (twins_expectLineEnd h hl).bind_eq fun _ => .isSign h fun opens => ?_
  refine .ite Iff.rfl (fun _ => .advance fun _ _ _ => ?_) fun _ => .pure hpart
  exact twins_readBlock h hpart fun _ _ hp => twins_readSectionStatement h hp

/-! ## Decisions -/

/-- A statement in a decision changes it in the same way. -/
theorem twins_readDecisionStatement (h : Matched places) {decision same : Decision}
    (hd : Same Decision.unplaced decision same) :
    Twins places (Same Decision.unplaced) (readDecisionStatement.fill decision)
      (readDecisionStatement.fill same) := by
  rw [fill_readDecisionStatement, fill_readDecisionStatement]
  refine .current fun token twin ht => ?_
  have hlinks : Twins places (Same Decision.unplaced)
      (do return { decision with links := mergeInto decision.links (← readKeyValues) })
      (do return { same with links := mergeInto same.links (← readKeyValues) }) := by
    refine (twins_readKeyValues h).bind_eq fun entries => .pure ?_
    exact congrArg (fun decision : Decision =>
      { decision with links := mergeInto decision.links entries }) hd
  rw [h.kind ht, h.lexeme ht]
  split
  · refine .advance fun _ _ _ => (twins_readAssigned h ht).bind_eq fun title => .pure ?_
    exact congrArg (fun decision : Decision => { decision with title }) hd
  · refine .advance fun _ _ _ => (twins_readAssigned h ht).bind_eq fun status => .pure ?_
    exact congrArg (fun decision : Decision => { decision with status }) hd
  · refine .advance fun _ _ _ => (twins_readAssigned h ht).bind_eq fun date => .pure ?_
    exact congrArg (fun decision : Decision => { decision with date := some date }) hd
  · refine .advance fun _ _ _ => (twins_readAssigned h ht).bind_eq fun format => .pure ?_
    exact congrArg (fun decision : Decision => { decision with format }) hd
  · refine .advance fun _ _ _ => (twins_readAssigned h ht).bind_eq fun content => .pure ?_
    exact congrArg (fun decision : Decision => { decision with content }) hd
  · refine .ite Iff.rfl (fun _ => .advance fun _ _ _ => ?_) fun _ => .failUnexpected h ht _
    refine .isSign h fun assigned => .ite Iff.rfl (fun _ => ?_) fun _ => hlinks
    exact .advance fun _ _ _ => hlinks
  · exact .failUnexpected h ht _

/-- A decision is the same up to its place. -/
theorem twins_readDecision (h : Matched places) :
    Twins places (Same Decision.unplaced) readDecision readDecision := by
  unfold readDecision
  refine (twins_expect h _).bind fun keyword twin hk => ?_
  have hl := h.level hk
  refine (twins_expectSingle h hl _).bind_eq fun id => ?_
  have hdecision : Same Decision.unplaced { position := some keyword.position, id }
      { position := some twin.position, id } := rfl
  refine (twins_expectLineEnd h hl).bind_eq fun _ => (twins_expectOpening h).bind_eq fun _ => ?_
  exact twins_readBlock h hdecision fun _ _ hd => twins_readDecisionStatement h hd

/-- A decision of a block is added in the same way. -/
theorem twins_readDecisionEntry (h : Matched places) :
    Twins places Eq readDecisionEntry readDecisionEntry := by
  unfold readDecisionEntry
  refine (twins_readDecision h).bind fun _ _ hd => twins_modifyWorkspace
    (fun decision workspace =>
      { workspace with decisions := workspace.decisions ++ [decision] })
    Decision.unplaced (fun _ _ => ?_) hd
  simp [Workspace.unplaced]

/-- A block of decisions is the same. -/
theorem twins_readDecisions (h : Matched places) :
    Twins places Eq readDecisions readDecisions := by
  unfold readDecisions
  exact (twins_expectOpening h).bind_eq fun _ => twins_readBlockOf h (twins_readDecisionEntry h)

/-! ## Documentation -/

/-- A change of the documentation by a part keeps progresses alike if the change without places is
the change by the part without its places. -/
theorem twins_modifyDocumentation {α : Type} (change : α → Documentation → Documentation)
    (erase : α → α)
    (h : ∀ part block, (change part block).unplaced = change (erase part) block.unplaced)
    {part same : α} (hp : Same erase part same) :
    Twins places Eq (modifyDocumentation (change part)) (modifyDocumentation (change same)) := by
  unfold modifyDocumentation
  refine twins_modifyWorkspace
    (fun part workspace =>
      { workspace with documentation := workspace.documentation.map (change part) })
    erase (fun part workspace => ?_) hp
  cases hd : workspace.documentation <;> simp [Workspace.unplaced, hd, h]

/-- A statement in the documentation changes it in the same way. -/
theorem twins_readDocumentationStatement (h : Matched places) :
    Twins places Eq readDocumentationStatement readDocumentationStatement := by
  unfold readDocumentationStatement
  refine .current fun token twin ht => ?_
  rw [h.kind ht]
  split
  · refine .advance fun _ _ _ => (twins_readAssigned h ht).bind_eq fun content => ?_
    exact twins_modifyDocumentation
      (fun content block => { block with content := some content }) id (fun _ _ => rfl) rfl
  · refine .advance fun _ _ _ => (twins_readAssigned h ht).bind_eq fun format => ?_
    exact twins_modifyDocumentation (fun format block => { block with format }) id
      (fun _ _ => rfl) rfl
  · refine (twins_readSection h).bind fun _ _ hp => twins_modifyDocumentation
      (fun part block => { block with sections := block.sections ++ [part] })
      Section.unplaced (fun _ _ => ?_) hp
    simp [Documentation.unplaced]
  · exact .advance fun _ _ _ => twins_readDecisions h
  · exact .failUnexpected h ht _

/-- The block of the documentation is the same. -/
theorem twins_readDocumentation (h : Matched places) :
    Twins places Eq readDocumentation readDocumentation := by
  unfold readDocumentation
  refine .advance fun keyword twin _ => ?_
  have hblock : Same Documentation.unplaced { position := some keyword.position }
      { position := some twin.position } := rfl
  refine (twins_modifyWorkspace
    (fun block workspace => { workspace with documentation := some block })
    Documentation.unplaced (fun _ _ => rfl) hblock).bind_eq fun _ => ?_
  exact (twins_expectOpening h).bind_eq fun _ =>
    twins_readBlockOf h (twins_readDocumentationStatement h)

/-! ## Styles -/

/-- A style is added to the styles in the same way. -/
theorem twins_readStyleOf (h : Matched places) (ht : (token, twin) ∈ places) (wanted : Wanted)
    {add : Style → Styles → Styles}
    (ha : ∀ style block, (add style block).unplaced = add style.unplaced block.unplaced) :
    Twins places Eq (readStyleOf token wanted add) (readStyleOf twin wanted add) := by
  unfold readStyleOf
  refine .advance fun _ _ _ => (twins_expectString h (h.level ht) _).bind_eq fun tag => ?_
  refine (twins_readKeyValues h).bind_eq fun entries => ?_
  have hstyle : Same Style.unplaced ⟨some token.position, tag, entries⟩
      ⟨some twin.position, tag, entries⟩ := rfl
  refine twins_modifyWorkspace
    (fun style workspace => { workspace with styles := workspace.styles.map (add style) })
    Style.unplaced (fun style workspace => ?_) hstyle
  cases hs : workspace.styles <;> simp [Workspace.unplaced, hs, ha]

/-- A style is the same. -/
theorem twins_readStyle (h : Matched places) : Twins places Eq readStyle readStyle := by
  unfold readStyle
  refine .current fun token twin ht => ?_
  rw [h.kind ht, h.lexeme ht]
  refine .ite Iff.rfl (fun _ => ?_) fun _ => .ite Iff.rfl (fun _ => ?_) fun _ => ?_
  · exact twins_readStyleOf h ht _ fun _ _ => by simp [Styles.unplaced]
  · exact twins_readStyleOf h ht _ fun _ _ => by simp [Styles.unplaced]
  · exact .failExpected h ht _

/-- The block of styles is the same. -/
theorem twins_readStyles (h : Matched places) (token twin : Token) :
    Twins places Eq (readStyles token) (readStyles twin) := by
  unfold readStyles
  have hblock : Same Styles.unplaced { position := some token.position }
      { position := some twin.position } := rfl
  refine (twins_modifyWorkspace
    (fun block workspace => { workspace with styles := some (workspace.styles.getD block) })
    Styles.unplaced (fun block workspace => ?_) hblock).bind_eq fun _ => ?_
  · cases hs : workspace.styles <;> simp [Workspace.unplaced, hs]
  · exact (twins_expectOpening h).bind_eq fun _ => twins_readBlockOf h (twins_readStyle h)

/-! ## Themes, branding and terminology -/

/-- Themes are the same up to their places. -/
theorem twins_readThemes (h : Matched places) (ht : (token, twin) ∈ places) :
    Twins places Eq (readThemes token) (readThemes twin) := by
  unfold readThemes
  refine (twins_takeValues h (h.level ht)).bind_eq fun urls => ?_
  split
  · exact .current fun _ _ hn => .failExpected h hn _
  · have hthemes : Same (List.map Theme.unplaced)
        (urls.map fun url => ⟨some token.position, url.shown⟩)
        (urls.map fun url => ⟨some twin.position, url.shown⟩) := by
      unfold Same
      rw [List.map_map, List.map_map]
      rfl
    exact twins_modifyWorkspace
      (fun themes workspace => { workspace with themes := workspace.themes ++ themes })
      (List.map Theme.unplaced) (fun _ _ => by simp [Workspace.unplaced]) hthemes

/-- A statement about branding changes it in the same way. -/
theorem twins_readBrandingStatement (h : Matched places) {branding same : Branding}
    (hb : Same Branding.unplaced branding same) :
    Twins places (Same Branding.unplaced) (readBrandingStatement.fill branding)
      (readBrandingStatement.fill same) := by
  rw [fill_readBrandingStatement, fill_readBrandingStatement]
  refine .advance fun token twin ht => ?_
  have hl := h.level ht
  rw [h.lexeme ht]
  refine .ite Iff.rfl (fun _ => ?_) fun _ => .ite Iff.rfl (fun _ => ?_) fun _ => ?_
  · refine (twins_expectValue h hl _).bind_eq fun logo => .pure ?_
    exact congrArg (fun branding : Branding => { branding with logo := some logo }) hb
  · refine (twins_takeValues h hl).bind_eq fun values => ?_
    split
    · exact .current fun _ _ hn => .failExpected h hn _
    · rename_i name more
      refine .pure ?_
      exact congrArg (fun branding : Branding =>
        { branding with
          fontName := some name.shown, fontUrl := more.head?.map Text.shown }) hb
  · exact .failUnexpected h ht _

/-- Branding is the same up to its place. -/
theorem twins_readBranding (h : Matched places) (token twin : Token) :
    Twins places Eq (readBranding token) (readBranding twin) := by
  unfold readBranding
  have hstart : Same Branding.unplaced { position := some token.position }
      { position := some twin.position } := rfl
  refine (twins_expectOpening h).bind_eq fun _ => ?_
  refine (twins_readBlock h hstart fun _ _ hb => twins_readBrandingStatement h hb).bind ?_
  exact fun _ _ hb => twins_modifyWorkspace
    (fun branding workspace => { workspace with branding := some branding })
    Branding.unplaced (fun _ _ => rfl) hb

/-- Terminology is the same up to its place. -/
theorem twins_readTerminology (h : Matched places) (token twin : Token) :
    Twins places Eq (readTerminology token) (readTerminology twin) := by
  unfold readTerminology
  refine (twins_readKeyValues h).bind_eq fun terms => ?_
  have hterms : Same Terminology.unplaced ⟨some token.position, terms⟩
      ⟨some twin.position, terms⟩ := rfl
  exact twins_modifyWorkspace
    (fun terminology workspace => { workspace with terminology := some terminology })
    Terminology.unplaced (fun _ _ => rfl) hterms

/-- A statement about the presentation is read in both layouts or in neither. -/
theorem twins_readPresentation (h : Matched places) :
    Twins places Eq readPresentation readPresentation := by
  unfold readPresentation
  refine .current fun token twin ht => ?_
  rw [h.kind ht, h.lexeme ht]
  split
  · exact .advance fun _ _ _ => (twins_readStyles h _ _).bind_eq fun _ => .pure rfl
  · exact .advance fun _ _ _ => (twins_readThemes h ht).bind_eq fun _ => .pure rfl
  · exact .advance fun _ _ _ => (twins_readBranding h _ _).bind_eq fun _ => .pure rfl
  · exact .advance fun _ _ _ => (twins_readTerminology h _ _).bind_eq fun _ => .pure rfl
  · refine .ite Iff.rfl (fun _ => ?_) fun _ => .pure rfl
    exact .advance fun _ _ _ => (twins_readThemes h ht).bind_eq fun _ => .pure rfl
  · exact .pure rfl

end Blueprint.Grammar
