import Blueprint.Grammar.Workspace
import Blueprint.Proofs.Places.Body

/-!
# Statements keep places

Views, presentation, documentation and decisions take their places from tokens as well, and so does
the workspace. Reading a whole source keeps places.
-/

namespace Blueprint.Grammar

open Blueprint.Declared Blueprint.Text

variable {spots : Position → Prop}

/-! ## Views -/

/-- A scope keeps places. -/
theorem keeps_readScope (line : Int) : Keeps spots (readScope line) := by
  unfold readScope
  exact anchors_current.bind fun token _ =>
    .ite (anchors_advance.bind fun _ _ => .pure trivial) (keeps_readReference line)

/-- What all views have has the place where the view starts, after the header. -/
theorem anchored_details {position : Position} (h : spots position)
    (key title description : Option String) :
    ViewDetails.Anchored spots { position := some position, key, title, description } where
  position := within_some h
  includes := List.forall_mem_nil _
  excludes := List.forall_mem_nil _
  autoLayout := fun _ he => nomatch he
  animations := List.forall_mem_nil _

/-- A key and a description keep places. -/
theorem anchors_readKeyAndDescription {position : Position} (h : spots position) (line : Int) :
    Anchors spots (readKeyAndDescription position line) (ViewDetails.Anchored spots) := by
  unfold readKeyAndDescription
  exact (keeps_takePositional line 2).bind fun _ _ => .pure (anchored_details h _ none _)

/-- The header of a view keeps places. -/
theorem anchors_readViewHeader (word : ViewWord) {position : Position} (h : spots position)
    (line : Int) : Anchors spots (readViewHeader word position line) (View.Anchored spots) := by
  -- Every header but two ends with a key and a description.
  have hdetails : ∀ sort : ViewSort, (∀ scope steps, sort = .dynamic scope steps → steps = []) →
      Anchors spots (do
        return (⟨← readKeyAndDescription position line, sort⟩ : View)) (View.Anchored spots) := by
    intro sort hs
    refine (anchors_readKeyAndDescription h line).bind fun details hd => .pure ⟨hd, ?_⟩
    intro scope steps he
    rw [hs scope steps he]
    exact List.forall_mem_nil _
  unfold readViewHeader
  cases word with
  | systemLandscape => exact hdetails _ nofun
  | systemContext => exact (keeps_readReference line).bind fun _ _ => hdetails _ nofun
  | container => exact (keeps_readReference line).bind fun _ _ => hdetails _ nofun
  | component => exact (keeps_readReference line).bind fun _ _ => hdetails _ nofun
  | dynamic =>
    refine (keeps_readScope line).bind fun scope _ => hdetails _ ?_
    rintro _ _ ⟨⟩
    rfl
  | deployment =>
    exact (keeps_readScope line).bind fun _ _ => (keeps_expectSingle line _).bind fun _ _ =>
      hdetails _ nofun
  | filtered =>
    exact (keeps_expectSingle line _).bind fun _ _ => (anchors_expect _).bind fun _ _ =>
      (keeps_expectSingle line _).bind fun _ _ => hdetails _ nofun
  | custom =>
    exact (keeps_takePositional line 3).bind fun _ _ =>
      .pure (View.anchored_of_details (anchored_details h _ _ _) nofun)
  | image =>
    exact (keeps_readScope line).bind fun _ _ => (keeps_takePositional line 1).bind fun _ _ =>
      .pure (View.anchored_of_details (anchored_details h _ none none) nofun)

/-- A term keeps places. -/
theorem keeps_readTerm (line : Int) : Keeps spots (readTerm line) := by
  unfold readTerm
  exact anchors_current.bind fun token _ =>
    .ite (anchors_advance.bind fun _ _ => .pure trivial)
      (.ite (anchors_advance.bind fun _ _ => .pure trivial)
        (.ite (keeps_readReference line) (anchors_failUnexpected _ token)))

/-- The terms of a line keep places. -/
theorem keeps_readTermsWithin (line : Int) (count : Nat) :
    Keeps spots (readTermsWithin line count) := by
  induction count with
  | zero => exact .pure trivial
  | succ count ih =>
    unfold readTermsWithin
    exact anchors_current.bind fun token _ =>
      .ite ((keeps_readTerm line).bind fun _ _ => ih.bind fun _ _ => .pure trivial)
        (.pure trivial)

/-- The expressions of a line keep places. -/
theorem keeps_readExpressionsWithin (line : Int) (count : Nat) :
    Keeps spots (readExpressionsWithin line count) := by
  induction count with
  | zero => exact .pure trivial
  | succ count ih =>
    unfold readExpressionsWithin
    refine anchors_current.bind fun token _ => .ite ?_ (.pure trivial)
    refine (keeps_readTerm line).bind fun left _ => anchors_current.bind fun next _ => .ite ?_ ?_
    · exact anchors_advance.bind fun _ _ => (keeps_readTerm line).bind fun _ _ =>
        ih.bind fun _ _ => .pure trivial
    · exact ih.bind fun _ _ => .pure trivial

/-- The expressions after a keyword have its place. -/
theorem anchors_readExpressions {keyword : Token} (h : spots keyword.position) :
    Anchors spots (readExpressions keyword) fun selections =>
      ∀ selection ∈ selections, Within spots selection.position := by
  unfold readExpressions
  refine anchors_remaining.bind fun _ _ =>
    (keeps_readExpressionsWithin _ _).bind fun expressions _ => ?_
  split
  · exact anchors_current.bind fun token _ => anchors_failExpected _ token
  · exact .pure (List.forall_mem_map.mpr fun _ _ => within_some h)

/-- Taking a whole number keeps places. -/
theorem keeps_takeInteger? (line : Int) : Keeps spots (takeInteger? line) := by
  unfold takeInteger?
  refine anchors_current.bind fun token _ => .ite ?_ (.pure trivial)
  split
  · exact anchors_advance.bind fun _ _ => .pure trivial
  · exact .pure trivial

/-- Taking a word keeps places. -/
theorem keeps_takeWord? (line : Int) : Keeps spots (takeWord? line) := by
  unfold takeWord?
  exact anchors_current.bind fun token _ =>
    .ite (anchors_advance.bind fun _ _ => .pure trivial) (.pure trivial)

/-- A layout has the place of its keyword. -/
theorem anchors_readAutoLayout {keyword : Token} (h : spots keyword.position) :
    Anchors spots (readAutoLayout keyword) fun layout => Within spots layout.position := by
  unfold readAutoLayout
  exact (keeps_takeWord? _).bind fun _ _ => (keeps_takeInteger? _).bind fun _ _ =>
    (keeps_takeInteger? _).bind fun _ _ => (keeps_expectLineEnd _).bind fun _ _ =>
      .pure (within_some h)

/-- A step of an animation keeps places. -/
theorem anchors_readAnimationStep {animation : Animation}
    (h : Within spots animation.position) :
    Anchors spots (readAnimationStep.fill animation) fun animation =>
      Within spots animation.position := by
  have hterms : ∀ line : Int, Keeps spots (readTerms line) :=
    fun line => anchors_remaining.bind fun _ _ => keeps_readTermsWithin line _
  rw [fill_readAnimationStep]
  refine anchors_current.bind fun first _ => (hterms first.line).bind fun terms _ => ?_
  split
  · exact anchors_failUnexpected _ first
  · exact .pure h

/-- An animation has the place of its keyword. -/
theorem anchors_readAnimation {keyword : Token} (h : spots keyword.position) :
    Anchors spots (readAnimation keyword) fun animation => Within spots animation.position := by
  unfold readAnimation
  exact keeps_expectOpening.bind fun _ _ =>
    anchors_readBlock (fun _ => anchors_readAnimationStep) (within_some h)

/-- An interaction has the place of its first token. -/
theorem anchors_readInteraction : Anchors spots readInteraction (Rooted spots) := by
  unfold readInteraction
  exact anchors_current.bind fun first hf => anchors_remaining.bind fun _ _ =>
    .ite (anchors_readRelationship none hf false) (anchors_failExpected _ first)

/-- A step of a dynamic view keeps places. -/
theorem anchors_readDynamicStep {view : View} (h : view.Anchored spots) :
    Anchors spots (readDynamicStep.fill view) (View.Anchored spots) := by
  rw [fill_readDynamicStep]
  exact anchors_readInteraction.bind fun _ hstep => .pure (h.addStep hstep)

/-- A statement that only views of one sort take keeps places. -/
theorem anchors_readSortStatement {view : View} (h : view.Anchored spots) :
    Anchors spots (readSortStatement.fill view) (View.Anchored spots) := by
  rw [fill_readSortStatement]
  refine anchors_current.bind fun token _ => ?_
  split
  · refine .ite ?_ (anchors_remaining.bind fun _ _ => .ite ?_ (anchors_failUnexpected _ token))
    · exact anchors_advance.bind fun _ _ =>
        anchors_readBlock (fun _ => anchors_readDynamicStep) h
    · exact anchors_readDynamicStep h
  · refine .ite (anchors_advance.bind fun _ _ => (keeps_expectValue _ _).bind fun _ _ =>
      .pure ?_) (anchors_failUnexpected _ token)
    exact View.anchored_of_details h.details nofun
  · exact anchors_failUnexpected _ token

/-- A statement of a view keeps places. -/
theorem anchors_readViewStatement {view : View} (h : view.Anchored spots) :
    Anchors spots (readViewStatement.fill view) (View.Anchored spots) := by
  have hd := h.details
  rw [fill_readViewStatement]
  refine anchors_current.bind fun token ht => ?_
  dsimp only
  split
  · exact anchors_advance.bind fun _ _ => (anchors_readExpressions ht).bind fun _ hmore =>
      .pure ⟨{ hd with includes := List.forall_mem_append.mpr ⟨hd.includes, hmore⟩ }, h.steps⟩
  · exact anchors_advance.bind fun _ _ => (anchors_readExpressions ht).bind fun _ hmore =>
      .pure ⟨{ hd with excludes := List.forall_mem_append.mpr ⟨hd.excludes, hmore⟩ }, h.steps⟩
  · refine anchors_advance.bind fun _ _ => (anchors_readAutoLayout ht).bind fun layout hl =>
      .pure ⟨{ hd with autoLayout := ?_ }, h.steps⟩
    rintro _ ⟨⟩
    exact hl
  · refine anchors_advance.bind fun _ _ => (anchors_readAnimation ht).bind fun animation ha =>
      .pure ⟨{ hd with animations := ?_ }, h.steps⟩
    exact List.forall_mem_append.mpr ⟨hd.animations, List.forall_mem_singleton.mpr ha⟩
  · exact anchors_advance.bind fun _ _ => (keeps_expectValue _ _).bind fun _ _ =>
      .pure ⟨{ hd with }, h.steps⟩
  · exact anchors_advance.bind fun _ _ => (keeps_expectValue _ _).bind fun _ _ =>
      .pure ⟨{ hd with }, h.steps⟩
  · exact anchors_advance.bind fun _ _ => keeps_readKeyValues.bind fun _ _ =>
      .pure ⟨{ hd with }, h.steps⟩
  · exact anchors_readSortStatement h

/-- What a failing statement leaves in a view has its places. -/
theorem anchored_leaveInView (first : Token) {view : View} (h : view.Anchored spots) :
    (leaveInView first view).Anchored spots := by
  unfold leaveInView takeForm
  split
  · exact h
  · split
    · split
      · exact View.anchored_of_details h.details nofun
      · exact h
    · exact h

/-- A view has the place of its keyword. -/
theorem anchors_readView (word : ViewWord) :
    Anchors spots (readView word) (View.Anchored spots) := by
  unfold readView
  refine anchors_advance.bind fun keyword hk =>
    (anchors_readViewHeader _ hk _).bind fun view hv => (keeps_expectLineEnd _).bind fun _ _ =>
      (keeps_isSign _).bind fun _ _ => .ite ?_ (.ite (.pure hv) ?_)
  · rw [readBlock_readViewStatement]
    exact anchors_advance.bind fun _ _ => anchors_readBlockLeaving
      (fun _ => anchors_readViewStatement) (fun first _ => anchored_leaveInView first) hv
  · exact anchors_current.bind fun token _ => anchors_failExpected _ token

/-! ## Presentation -/

/-- A style has the place of its first word. -/
theorem keeps_readStyleOf {token : Token} (h : spots token.position) (wanted : Wanted)
    {add : Style → Styles → Styles}
    (ha : ∀ style block, Within spots style.position → Styles.Anchored spots block →
      (add style block).Anchored spots) : Keeps spots (readStyleOf token wanted add) := by
  unfold readStyleOf
  refine anchors_advance.bind fun _ _ => (keeps_expectString _ _).bind fun tag _ =>
    keeps_readKeyValues.bind fun entries _ => keeps_modifyWorkspace ?_
  refine fun workspace hw => { hw with styles := ?_ }
  intro block hb
  obtain ⟨before, he, rfl⟩ := Option.map_eq_some_iff.mp hb
  exact ha _ before (within_some h) (hw.styles before he)

/-- A style keeps places. -/
theorem keeps_readStyle : Keeps spots readStyle := by
  unfold readStyle
  refine anchors_current.bind fun token ht => .ite ?_ (.ite ?_ (anchors_failExpected _ token))
  · refine keeps_readStyleOf ht _ fun style block hs hb => { hb with elements := ?_ }
    exact List.forall_mem_append.mpr ⟨hb.elements, List.forall_mem_singleton.mpr hs⟩
  · refine keeps_readStyleOf ht _ fun style block hs hb => { hb with relationships := ?_ }
    exact List.forall_mem_append.mpr ⟨hb.relationships, List.forall_mem_singleton.mpr hs⟩

/-- The block of styles keeps places. -/
theorem keeps_readStyles {keyword : Token} (h : spots keyword.position) :
    Keeps spots (readStyles keyword) := by
  unfold readStyles
  refine (keeps_modifyWorkspace ?_).bind fun _ _ => keeps_expectOpening.bind fun _ _ =>
    keeps_readBlockOf keeps_readStyle
  refine fun workspace hw => { hw with styles := ?_ }
  rintro _ ⟨⟩
  cases hs : workspace.styles with
  | none => exact ⟨within_some h, List.forall_mem_nil _, List.forall_mem_nil _⟩
  | some block => exact hw.styles block hs

/-- Themes have the place of their keyword. -/
theorem keeps_readThemes {keyword : Token} (h : spots keyword.position) :
    Keeps spots (readThemes keyword) := by
  unfold readThemes
  refine (keeps_takeValues _).bind fun urls _ => ?_
  split
  · exact anchors_current.bind fun token _ => anchors_failExpected _ token
  · refine keeps_modifyWorkspace fun workspace hw => { hw with themes := ?_ }
    exact List.forall_mem_append.mpr
      ⟨hw.themes, List.forall_mem_map.mpr fun _ _ => within_some h⟩

/-- A statement of the branding keeps places. -/
theorem anchors_readBrandingStatement {branding : Branding}
    (h : Within spots branding.position) :
    Anchors spots (readBrandingStatement.fill branding) fun after =>
      Within spots after.position := by
  rw [fill_readBrandingStatement]
  refine anchors_advance.bind fun token _ =>
    .ite ((keeps_expectValue _ _).bind fun _ _ => .pure h)
      (.ite ?_ (anchors_failUnexpected _ token))
  refine (keeps_takeValues _).bind fun values _ => ?_
  split
  · exact anchors_current.bind fun next _ => anchors_failExpected _ next
  · exact .pure h

/-- The branding has the place of its keyword. -/
theorem keeps_readBranding {keyword : Token} (h : spots keyword.position) :
    Keeps spots (readBranding keyword) := by
  unfold readBranding
  refine keeps_expectOpening.bind fun _ _ => (anchors_readBlock
    (fun _ => anchors_readBrandingStatement) (within_some h)).bind fun branding hb =>
      keeps_modifyWorkspace ?_
  refine fun workspace hw => { hw with branding := ?_ }
  rintro _ ⟨⟩
  exact hb

/-- The terminology has the place of its keyword. -/
theorem keeps_readTerminology {keyword : Token} (h : spots keyword.position) :
    Keeps spots (readTerminology keyword) := by
  unfold readTerminology
  refine keeps_readKeyValues.bind fun terms _ => keeps_modifyWorkspace ?_
  refine fun workspace hw => { hw with terminology := ?_ }
  rintro _ ⟨⟩
  exact within_some h

/-- A statement about the presentation keeps places. -/
theorem keeps_readPresentation : Keeps spots readPresentation := by
  unfold readPresentation
  refine anchors_current.bind fun token ht => ?_
  split
  · exact anchors_advance.bind fun _ _ => (keeps_readStyles ht).bind fun _ _ => .pure trivial
  · exact anchors_advance.bind fun _ _ => (keeps_readThemes ht).bind fun _ _ => .pure trivial
  · exact anchors_advance.bind fun _ _ => (keeps_readBranding ht).bind fun _ _ => .pure trivial
  · exact anchors_advance.bind fun _ _ => (keeps_readTerminology ht).bind fun _ _ =>
      .pure trivial
  · exact .ite
      (anchors_advance.bind fun _ _ => (keeps_readThemes ht).bind fun _ _ => .pure trivial)
      (.pure trivial)
  · exact .pure trivial

/-! ## Documentation and decisions -/

/-- An assigned value keeps places. -/
theorem keeps_readAssigned (keyword : Token) : Keeps spots (readAssigned keyword) := by
  unfold readAssigned
  exact anchors_current.bind fun token _ =>
    .ite (anchors_advance.bind fun _ _ => keeps_expectValue _ _) (keeps_expectValue _ _)

/-- The place of a section among others keeps the places in the source. -/
theorem keeps_readOrder (keyword : Token) : Keeps spots (readOrder keyword) := by
  unfold readOrder readOrderValue
  refine (keeps_readAssigned keyword).bind fun value _ =>
    (keeps_note _).bind fun _ _ => .ite (.fail _ keyword) ?_
  split
  · exact .pure trivial
  · exact .throw _

/-- A statement of a section keeps places. -/
theorem anchors_readSectionStatement {part : Section} (h : Within spots part.position) :
    Anchors spots (readSectionStatement.fill part) fun after => Within spots after.position := by
  rw [fill_readSectionStatement]
  refine anchors_current.bind fun token _ => ?_
  split
  · exact anchors_advance.bind fun _ _ => (keeps_readAssigned token).bind fun _ _ => .pure h
  · exact anchors_advance.bind fun _ _ => (keeps_readAssigned token).bind fun _ _ => .pure h
  · exact anchors_advance.bind fun _ _ => (keeps_readOrder token).bind fun _ _ => .pure h
  · exact anchors_failUnexpected _ token

/-- A section has the place of its keyword. -/
theorem anchors_readSection :
    Anchors spots readSection fun part => Within spots part.position := by
  unfold readSection
  refine anchors_advance.bind fun keyword hk => (keeps_expectString _ _).bind fun _ _ =>
    (keeps_takePositional _ 1).bind fun _ _ => (keeps_expectLineEnd _).bind fun _ _ =>
      (keeps_isSign _).bind fun _ _ => .ite ?_ (.pure (within_some hk))
  exact anchors_advance.bind fun _ _ =>
    anchors_readBlock (fun _ => anchors_readSectionStatement) (within_some hk)

/-- A statement of a decision keeps places. -/
theorem anchors_readDecisionStatement {decision : Decision}
    (h : Within spots decision.position) :
    Anchors spots (readDecisionStatement.fill decision) fun after =>
      Within spots after.position := by
  rw [fill_readDecisionStatement]
  refine anchors_current.bind fun token _ => ?_
  split
  · exact anchors_advance.bind fun _ _ => (keeps_readAssigned token).bind fun _ _ => .pure h
  · exact anchors_advance.bind fun _ _ => (keeps_readAssigned token).bind fun _ _ => .pure h
  · exact anchors_advance.bind fun _ _ => (keeps_readAssigned token).bind fun _ _ => .pure h
  · exact anchors_advance.bind fun _ _ => (keeps_readAssigned token).bind fun _ _ => .pure h
  · exact anchors_advance.bind fun _ _ => (keeps_readAssigned token).bind fun _ _ => .pure h
  · refine .ite ?_ (anchors_failUnexpected _ token)
    have hlinks : Anchors spots (do
        let entries ← readKeyValues
        return { decision with links := mergeInto decision.links entries })
        fun after => Within spots after.position :=
      keeps_readKeyValues.bind fun _ _ => .pure h
    exact anchors_advance.bind fun _ _ => (keeps_isSign _).bind fun _ _ =>
      .ite (anchors_advance.bind fun _ _ => hlinks) hlinks
  · exact anchors_failUnexpected _ token

/-- A decision has the place of its keyword. -/
theorem anchors_readDecision :
    Anchors spots readDecision fun decision => Within spots decision.position := by
  unfold readDecision
  exact (anchors_expect _).bind fun keyword hk => (keeps_expectSingle _ _).bind fun _ _ =>
    (keeps_expectLineEnd _).bind fun _ _ => keeps_expectOpening.bind fun _ _ =>
      anchors_readBlock (fun _ => anchors_readDecisionStatement) (within_some hk)

/-- A block of decisions keeps places. -/
theorem keeps_readDecisions : Keeps spots readDecisions := by
  have hs : Keeps spots readDecisionEntry := by
    unfold readDecisionEntry
    refine anchors_readDecision.bind fun decision hd => keeps_modifyWorkspace ?_
    refine fun workspace hw => { hw with decisions := ?_ }
    exact List.forall_mem_append.mpr ⟨hw.decisions, List.forall_mem_singleton.mpr hd⟩
  unfold readDecisions
  exact keeps_expectOpening.bind fun _ _ => keeps_readBlockOf hs

/-- Changing the documentation in a way that keeps places. -/
theorem keeps_modifyDocumentation {change : Documentation → Documentation}
    (hp : ∀ block, (change block).position = block.position)
    (hs : ∀ block : Documentation, (∀ part ∈ block.sections, Within spots part.position) →
      ∀ part ∈ (change block).sections, Within spots part.position) :
    Keeps spots (modifyDocumentation change) := by
  refine keeps_modifyWorkspace fun workspace hw => { hw with documentation := ?_ }
  intro block hb
  obtain ⟨before, he, rfl⟩ := Option.map_eq_some_iff.mp hb
  obtain ⟨hplace, hparts⟩ := hw.documentation before he
  rw [hp]
  exact ⟨hplace, hs before hparts⟩

/-- A statement of the documentation keeps places. -/
theorem keeps_readDocumentationStatement : Keeps spots readDocumentationStatement := by
  unfold readDocumentationStatement
  refine anchors_current.bind fun token _ => ?_
  split
  · exact anchors_advance.bind fun _ _ => (keeps_readAssigned token).bind fun _ _ =>
      keeps_modifyDocumentation (fun _ => rfl) fun _ hp => hp
  · exact anchors_advance.bind fun _ _ => (keeps_readAssigned token).bind fun _ _ =>
      keeps_modifyDocumentation (fun _ => rfl) fun _ hp => hp
  · exact anchors_readSection.bind fun _ hpart => keeps_modifyDocumentation (fun _ => rfl)
      fun _ hp => List.forall_mem_append.mpr ⟨hp, List.forall_mem_singleton.mpr hpart⟩
  · exact anchors_advance.bind fun _ _ => keeps_readDecisions
  · exact anchors_failUnexpected _ token

/-- The documentation has the place of its keyword. -/
theorem keeps_readDocumentation : Keeps spots readDocumentation := by
  unfold readDocumentation
  refine anchors_advance.bind fun keyword hk => (keeps_modifyWorkspace ?_).bind fun _ _ =>
    keeps_expectOpening.bind fun _ _ => keeps_readBlockOf keeps_readDocumentationStatement
  refine fun workspace hw => { hw with documentation := ?_ }
  rintro _ ⟨⟩
  exact ⟨within_some hk, List.forall_mem_nil _⟩

/-! ## Workspaces -/

/-- A statement about the presentation is read, or the statement fails. -/
theorem keeps_presentationOr (token : Token) (place : Place) :
    Keeps spots (do if !(← readPresentation) then failUnexpected place token) :=
  keeps_readPresentation.bind fun _ _ =>
    .ite (anchors_failUnexpected place token) (.pure trivial)

/-- Changing the views in a way that keeps places. -/
theorem keeps_modifyViews {change : Views → Views}
    (hp : ∀ block, (change block).position = block.position)
    (hv : ∀ block : Views, (∀ view ∈ block.views, view.Anchored spots) →
      ∀ view ∈ (change block).views, view.Anchored spots) :
    Keeps spots (modifyViews change) := by
  refine keeps_modifyWorkspace fun workspace hw => { hw with views := ?_ }
  intro block hb
  obtain ⟨before, he, rfl⟩ := Option.map_eq_some_iff.mp hb
  obtain ⟨hplace, hviews⟩ := hw.views before he
  rw [hp]
  exact ⟨hplace, hv before hviews⟩

/-- A statement of the views keeps places. -/
theorem keeps_readViewsStatement : Keeps spots readViewsStatement := by
  unfold readViewsStatement
  refine anchors_current.bind fun token _ => ?_
  split
  · refine (anchors_readView _).bind fun view hview => keeps_modifyViews (fun _ => rfl) ?_
    exact fun block hv => (forall_mem_insertByRank _ _ _).mpr ⟨hview, hv⟩
  · refine .ite ?_ (.ite keeps_readDirective (keeps_presentationOr token _))
    exact anchors_advance.bind fun _ _ => keeps_readKeyValues.bind fun _ _ =>
      keeps_modifyViews (fun _ => rfl) fun _ hv => hv

/-- The block of views keeps places. -/
theorem keeps_readViews : Keeps spots readViews := by
  unfold readViews
  refine anchors_advance.bind fun keyword hk => (keeps_modifyWorkspace ?_).bind fun _ _ =>
    keeps_expectOpening.bind fun _ _ => keeps_readBlockOf keeps_readViewsStatement
  refine fun workspace hw => { hw with views := ?_ }
  rintro _ ⟨⟩
  cases hv : workspace.views with
  | none => exact ⟨within_some hk, List.forall_mem_nil _⟩
  | some block => exact hw.views block hv

/-- A statement of the workspace keeps places. -/
theorem keeps_readWorkspaceStatement : Keeps spots readWorkspaceStatement := by
  unfold readWorkspaceStatement
  refine anchors_current.bind fun token _ => ?_
  split
  · exact anchors_advance.bind fun _ _ => (keeps_expectValue _ _).bind fun _ _ =>
      keeps_modifyWorkspace fun _ hw => { hw with }
  · exact anchors_advance.bind fun _ _ => (keeps_expectValue _ _).bind fun _ _ =>
      keeps_modifyWorkspace fun _ hw => { hw with }
  · exact keeps_readModel
  · exact keeps_readViews
  · exact anchors_advance.bind fun _ _ => keeps_readKeyValues.bind fun _ _ =>
      keeps_modifyWorkspace fun _ hw => { hw with }
  · exact anchors_advance.bind fun _ _ => keeps_readKeyValues.bind fun _ _ =>
      keeps_modifyWorkspace fun _ hw => { hw with }
  · exact keeps_readDocumentation
  · exact anchors_advance.bind fun _ _ => keeps_readDecisions
  · exact .ite keeps_readDirective (keeps_presentationOr token _)

/-- The workspace has the place of its keyword. -/
theorem keeps_readWorkspace : Keeps spots readWorkspace := by
  unfold readWorkspace
  refine anchors_advance.bind fun keyword hk => (keeps_takePositional _ 2).bind fun _ _ =>
    (keeps_modifyWorkspace ?_).bind fun _ _ => (keeps_expectLineEnd _).bind fun _ _ =>
      keeps_expectOpening.bind fun _ _ => keeps_readBlockOf keeps_readWorkspaceStatement
  exact fun workspace hw => { hw with position := within_some hk }

/-- The directives before the workspace keep places. -/
theorem keeps_readDirectives (count : Nat) : Keeps spots (readDirectives count) := by
  induction count with
  | zero => exact .pure trivial
  | succ count ih =>
    unfold readDirectives
    exact anchors_current.bind fun token _ =>
      .ite ((keeps_readOrSkip keeps_readDirective).bind fun _ _ => ih) (.pure trivial)

/-- Reading a whole source keeps places. -/
theorem keeps_readSource : Keeps spots readSource := by
  unfold readSource
  refine anchors_remaining.bind fun _ _ => (keeps_readDirectives _).bind fun _ _ =>
    anchors_current.bind fun token _ => .ite ?_ (keeps_report _)
  exact (keeps_readOrSkip keeps_readWorkspace).bind fun _ _ =>
    anchors_current.bind fun next _ => .ite (keeps_report _) (.pure trivial)

/-- Every place in the declared workspace of a source is a place of the source. -/
theorem anchored_of_parse {source : String} {limit : Int} {outcome : Outcome}
    (h : parse source limit = .ok outcome) :
    Anchored (Position.InSource source.toList) outcome.workspace.nodes := by
  obtain ⟨stream, ht, _, rfl⟩ := parse_eq_ok_iff.mp h
  have hp := TokenStream.placed_of_ofChars ht
  have hs : (stream.start limit).Anchored (Position.InSource source.toList) :=
    ⟨hp.tokens, Workspace.anchored_empty⟩
  exact (keeps_readSource _ hs _ _ rfl).1.workspace.nodes

end Blueprint.Grammar
