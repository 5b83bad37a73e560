import Blueprint.Grammar.Workspace
import Blueprint.Proofs.Echo.Body

/-!
# Statements before a fork

The statements of all other blocks are the same before a fork: views, presentation, documentation
and decisions, and the statements of the workspace. What a statement reads on its line ends before
the fork in any case.
-/

namespace Blueprint.Grammar

open Blueprint.Declared Blueprint.Text

variable {α β : Type} {fork : Fork} {line : Int} {m n : Nat}
variable {taken : α → Prop} {joined : β → Prop}

/-- Taking a token of one of some kinds is the same, and what follows it. -/
theorem Echoes.expect {kinds : List Kind} {next follow : Token → Reader β}
    (h : ∀ token m, m ≤ n → fork.Above m token.line →
      Echoes fork m (fun _ => False) (next token) (follow token)) :
    Echoes fork n joined (Grammar.expect kinds >>= next) (Grammar.expect kinds >>= follow) := by
  have he : ∀ go : Token → Reader β, (Grammar.expect kinds >>= go) =
      Grammar.current >>= fun token =>
        if kinds.contains token.kind then Grammar.advance >>= go
        else failExpected (.oneOf kinds) token := by
    intro go
    unfold Grammar.expect
    rw [bind_assoc]
    refine congrArg _ (funext fun token => ?_)
    split
    · rfl
    · rfl
  rw [he, he]
  exact .look fun _ m hm _ => .ite
    (fun _ => .advance fun token k hk ha => h token k (Nat.le_trans hk hm) ha) fun _ => .fail

/-! ## Views -/

/-- A scope is the same. -/
theorem echoes_readScope (line : Int) :
    Echoes fork n (fun _ => True) (readScope line) (readScope line) := by
  unfold readScope
  exact .look fun token m _ _ => .ite (fun _ => .advance fun _ _ _ _ => .value "*")
    fun _ => echoes_readReference line

/-- A key and a description are the same. -/
theorem echoes_readKeyAndDescription (hl : fork.Above n line) (position : Position) :
    Echoes fork n (fun _ => False) (readKeyAndDescription position line)
      (readKeyAndDescription position line) := by
  unfold readKeyAndDescription
  exact (echoes_takePositional hl 2).bind fun _ => .value _

/-- The header of a view is the same. -/
theorem echoes_readViewHeader (hl : fork.Above n line) (word : ViewWord) (position : Position) :
    Echoes fork n (fun _ => False) (readViewHeader word position line)
      (readViewHeader word position line) := by
  -- Every header but two ends with a key and a description.
  have hdetails : ∀ sort : ViewSort, Echoes fork n (fun _ => False)
      (do return (⟨← readKeyAndDescription position line, sort⟩ : View))
      (do return (⟨← readKeyAndDescription position line, sort⟩ : View)) :=
    fun sort => (echoes_readKeyAndDescription hl position).bind fun _ => .value _
  unfold readViewHeader
  cases word with
  | systemLandscape => exact hdetails _
  | systemContext => exact (echoes_readReference line).bind fun _ => hdetails _
  | container => exact (echoes_readReference line).bind fun _ => hdetails _
  | component => exact (echoes_readReference line).bind fun _ => hdetails _
  | dynamic => exact (echoes_readScope line).bind fun _ => hdetails _
  | deployment =>
    exact (echoes_readScope line).bind fun _ => (echoes_expectSingle line _).bind fun _ =>
      hdetails _
  | filtered =>
    exact (echoes_expectSingle line _).bind fun _ => (echoes_expect _).bind fun _ =>
      (echoes_expectSingle line _).bind fun _ => hdetails _
  | custom => exact (echoes_takePositional hl 3).bind fun _ => .value _
  | image =>
    exact (echoes_readScope line).bind fun _ => (echoes_takePositional hl 1).bind fun _ =>
      .value _

/-- A term is the same. -/
theorem echoes_readTerm (line : Int) :
    Echoes fork n (fun _ => True) (readTerm line) (readTerm line) := by
  unfold readTerm
  refine .look fun token m _ _ => .ite (fun _ => .advance fun _ _ _ _ => .value "*") fun _ => ?_
  refine .ite (fun _ => .advance fun _ _ _ _ => .value _) fun _ => ?_
  exact .ite (fun _ => echoes_readReference line) fun _ => .fail

/-- What continues a line is not the end of the input. -/
theorem onLine_finish {token : Token} (h : token.kind = .endOfInput) :
    onLine line token = false :=
  onLine_of_ends (.inl h)

/-- The terms of a line are the same if the bounds are large enough, and take a token if there are
any. -/
theorem echoes_readTermsWithin (hl : fork.Above n line) {count other : Nat} (hc : n ≤ count)
    (ho : n ≤ other) :
    Echoes fork n (fun terms => terms ≠ []) (readTermsWithin line count)
      (readTermsWithin line other) := by
  induction count generalizing n other with
  | zero =>
    obtain rfl : n = 0 := by omega
    exact .of_passes (.pure fun h => h rfl)
  | succ count ih =>
    refine .of_succ _ ho fun other ho => ?_
    rw [readTermsWithin, readTermsWithin]
    have hnone : ∀ {m : Nat}, Echoes fork m (fun terms : List String => terms ≠ [])
        (pure []) (pure []) := .pure fun h => h rfl
    refine .current_ahead (fun token m hm _ => ⟨fun hk => ?_, fun _ => ?_⟩) fun head name hn hs =>
      EchoesHere.offLine hs (hl hn) (hnone.here hn)
    · rw [onLine_finish hk]
      exact hnone
    · refine .ite (fun _ => EchoesAhead.andThen (echoes_readTerm line) fun _ => ?_)
        fun _ => hnone.ahead
      exact (ih (hl.of_le (by omega)) (by omega) (by omega)).bind fun _ => .value _

/-- The expressions of a line are the same if the bounds are large enough. -/
theorem echoes_readExpressionsWithin (hl : fork.Above n line) {count other : Nat} (hc : n ≤ count)
    (ho : n ≤ other) :
    Echoes fork n (fun _ => False) (readExpressionsWithin line count)
      (readExpressionsWithin line other) := by
  induction count generalizing n other with
  | zero =>
    obtain rfl : n = 0 := by omega
    exact .of_passes (.pure not_false)
  | succ count ih =>
    refine .of_succ _ ho fun other ho => ?_
    rw [readExpressionsWithin, readExpressionsWithin]
    have hmore : ∀ {m : Nat}, m ≤ n - 1 → ∀ expression : String, Echoes fork m (fun _ => False)
        (do
          let more ← readExpressionsWithin line count
          return expression :: more)
        (do
          let more ← readExpressionsWithin line other
          return expression :: more) :=
      fun hm _ => (ih (hl.of_le (by omega)) (by omega) (by omega)).bind fun _ => .value _
    refine .current_ahead (fun token m hm _ => ⟨fun hk => ?_, fun _ => ?_⟩) fun head name hn hs =>
      EchoesHere.offLine hs (hl hn) ((Echoes.value []).here hn)
    · rw [onLine_finish hk]
      exact .value []
    · refine .ite (fun _ => EchoesAhead.andThen (echoes_readTerm line) fun left => ?_)
        fun _ => (Echoes.value []).ahead
      refine .current (fun next k hk _ => .ite (fun _ => ?_) fun _ => hmore (by omega) _)
        fun head name hn hs => EchoesHere.otherLine hs (hl (by omega))
          ((hmore (by omega) left).here hn)
      exact .advance fun _ j hj _ => (echoes_readTerm line).andThen fun _ => hmore (by omega) _

/-- The expressions after a keyword are the same. -/
theorem echoes_readExpressions {keyword : Token} (hl : fork.Above n keyword.line) :
    Echoes fork n (fun _ => False) (readExpressions keyword) (readExpressions keyword) := by
  unfold readExpressions
  refine .remaining fun _ _ m hm ht ho =>
    (echoes_readExpressionsWithin (hl.of_le hm) ht ho).bind fun expressions => ?_
  split
  · exact echoes_failNext
  · exact .value _

/-- Taking a whole number is the same. -/
theorem echoes_takeInteger? (hl : fork.Above n line) :
    Echoes fork n (fun _ => False) (takeInteger? line) (takeInteger? line) := by
  unfold takeInteger?
  refine .current (fun token m _ _ => .ite (fun _ => ?_) fun _ => .value none)
    fun head name hn hs => EchoesHere.offLine hs (hl hn) ((Echoes.value none).here hn)
  split
  · exact .advance fun _ _ _ _ => .value _
  · exact .value none

/-- Taking a word is the same. -/
theorem echoes_takeWord? (hl : fork.Above n line) :
    Echoes fork n (fun _ => False) (takeWord? line) (takeWord? line) := by
  unfold takeWord?
  refine .current (fun token m _ _ => .ite (fun _ => .advance fun _ _ _ _ => .value _)
    fun _ => .value none) fun head name hn hs => ?_
  rw [onLine_of_lt (Int.lt_of_le_of_lt (hl hn) hs.heads.head_below),
    onLine_of_lt (Int.lt_of_le_of_lt (hl hn) hs.heads.name_below), Bool.false_and, Bool.false_and]
  exact EchoesHere.neither Bool.false_ne_true Bool.false_ne_true ((Echoes.value none).here hn)

/-- A layout is the same. -/
theorem echoes_readAutoLayout {keyword : Token} (hl : fork.Above n keyword.line) :
    Echoes fork n (fun _ => False) (readAutoLayout keyword) (readAutoLayout keyword) := by
  unfold readAutoLayout
  exact (echoes_takeWord? hl).bind fun _ => (echoes_takeInteger? hl).bind fun _ =>
    (echoes_takeInteger? hl).bind fun _ => (echoes_expectLineEnd hl).bind fun _ => .value _

/-- A step of an animation is the same. -/
theorem echoes_readAnimationStep (animation : Animation) :
    Echoes fork n (fun _ => True) (readAnimationStep.fill animation)
      (readAnimationStep.fill animation) := by
  rw [fill_readAnimationStep]
  unfold readTerms
  refine .look fun first m _ ha => ?_
  refine (Echoes.remaining fun _ _ k hk ht ho =>
    echoes_readTermsWithin (ha.of_le hk) ht ho).orTake fun terms => ?_
  split
  · exact .fail
  · rename_i hne
    exact .pure hne

/-- An animation is the same. -/
theorem echoes_readAnimation (keyword : Token) :
    Echoes fork n (fun _ => True) (readAnimation keyword) (readAnimation keyword) := by
  unfold readAnimation
  exact echoes_expectOpening.andThen fun _ => echoes_readBlock echoes_readAnimationStep _

/-- An interaction is the same. -/
theorem echoes_readInteraction :
    Echoes fork n (fun _ => True) readInteraction readInteraction := by
  unfold readInteraction
  exact .look fun first m _ _ =>
    Echoes.startsRelationship false (echoes_readRelationship none first false) .fail

/-- A step of a dynamic view is the same. -/
theorem echoes_readDynamicStep (view : View) :
    Echoes fork n (fun _ => True) (readDynamicStep.fill view) (readDynamicStep.fill view) := by
  rw [fill_readDynamicStep]
  exact echoes_readInteraction.andThen fun _ => .value _

/-- A statement that only views of one sort take is the same. -/
theorem echoes_readSortStatement (view : View) :
    Echoes fork n (fun _ => True) (readSortStatement.fill view) (readSortStatement.fill view) := by
  rw [fill_readSortStatement]
  refine .look fun token m _ ha => ?_
  split
  · refine .ite (fun _ => .advance fun _ _ _ _ => ?_) fun _ => ?_
    · exact echoes_readBlock echoes_readDynamicStep view
    · exact Echoes.startsRelationship false (echoes_readDynamicStep view) .fail
  · refine .ite (fun _ => .advance fun _ k hk _ => ?_) fun _ => .fail
    exact (echoes_expectValue (ha.of_le hk) _).bind fun _ => .value _
  · exact .fail

/-- A statement of a view is the same. -/
theorem echoes_readViewStatement (view : View) :
    Echoes fork n (fun _ => True) (readViewStatement.fill view) (readViewStatement.fill view) := by
  rw [fill_readViewStatement]
  refine .look fun token m _ ha => ?_
  dsimp only
  split
  · exact .advance fun _ k hk _ => (echoes_readExpressions (ha.of_le hk)).bind fun _ => .value _
  · exact .advance fun _ k hk _ => (echoes_readExpressions (ha.of_le hk)).bind fun _ => .value _
  · exact .advance fun _ k hk _ => (echoes_readAutoLayout (ha.of_le hk)).bind fun _ => .value _
  · exact .advance fun _ _ _ _ => (echoes_readAnimation token).andThen fun _ => .value _
  · exact .advance fun _ k hk _ => (echoes_expectValue (ha.of_le hk) _).bind fun _ => .value _
  · exact .advance fun _ k hk _ => (echoes_expectValue (ha.of_le hk) _).bind fun _ => .value _
  · exact .advance fun _ _ _ _ => echoes_readKeyValues.bind fun _ => .value _
  · exact echoes_readSortStatement view

/-- A view is the same. -/
theorem echoes_readView (word : ViewWord) :
    Echoes fork n (fun _ => True) (readView word) (readView word) := by
  unfold readView
  refine .advance fun keyword m _ ha => (echoes_readViewHeader ha _ _).bind fun view =>
    (echoes_expectLineEnd ha).bind fun _ => .isSign (by decide) ?_ ?_
  · rw [readBlock_readViewStatement]
    exact .advance fun _ _ _ _ => echoes_readBlockLeaving echoes_readViewStatement view
  · exact .ite (fun _ => .value view) fun _ => echoes_failNext

/-! ## Presentation -/

/-- A style is the same. -/
theorem echoes_readStyleOf (token : Token) (wanted : Wanted) (add : Style → Styles → Styles) :
    Echoes fork n (fun _ => True) (readStyleOf token wanted add)
      (readStyleOf token wanted add) := by
  unfold readStyleOf
  exact .advance fun _ _ _ _ => (echoes_expectString _ _).andThen fun _ =>
    echoes_readKeyValues.bind fun _ => echoes_modifyWorkspace _

/-- A style is the same. -/
theorem echoes_readStyle : Echoes fork n (fun _ => True) readStyle readStyle := by
  unfold readStyle
  exact .look fun token m _ _ => .ite (fun _ => echoes_readStyleOf _ _ _) fun _ =>
    .ite (fun _ => echoes_readStyleOf _ _ _) fun _ => .fail

/-- The block of styles is the same. -/
theorem echoes_readStyles (keyword : Token) :
    Echoes fork n (fun _ => False) (readStyles keyword) (readStyles keyword) := by
  unfold readStyles
  exact (echoes_modifyWorkspace _).bind fun _ => echoes_expectOpening.andThen fun _ =>
    echoes_readBlockOf echoes_readStyle

/-- Themes are the same. -/
theorem echoes_readThemes {keyword : Token} (hl : fork.Above n keyword.line) :
    Echoes fork n (fun _ => False) (readThemes keyword) (readThemes keyword) := by
  unfold readThemes
  refine (echoes_takeValues hl).bind fun urls => ?_
  split
  · exact echoes_failNext
  · exact echoes_modifyWorkspace _

/-- A statement of the branding is the same. -/
theorem echoes_readBrandingStatement (branding : Branding) :
    Echoes fork n (fun _ => True) (readBrandingStatement.fill branding)
      (readBrandingStatement.fill branding) := by
  rw [fill_readBrandingStatement]
  refine .advance fun token m _ ha => .ite (fun _ => ?_) fun _ => .ite (fun _ => ?_) fun _ => .fail
  · exact (echoes_expectValue ha _).bind fun _ => .value _
  · refine (echoes_takeValues ha).bind fun values => ?_
    split
    · exact echoes_failNext
    · exact .value _

/-- The branding is the same. -/
theorem echoes_readBranding (keyword : Token) :
    Echoes fork n (fun _ => False) (readBranding keyword) (readBranding keyword) := by
  unfold readBranding
  exact echoes_expectOpening.andThen fun _ =>
    (echoes_readBlock echoes_readBrandingStatement _).bind fun _ => echoes_modifyWorkspace _

/-- The terminology is the same. -/
theorem echoes_readTerminology (keyword : Token) :
    Echoes fork n (fun _ => False) (readTerminology keyword) (readTerminology keyword) := by
  unfold readTerminology
  exact echoes_readKeyValues.bind fun _ => echoes_modifyWorkspace _

/-- A statement about the presentation is the same, and takes a token; without one the statement
fails. -/
theorem echoes_presentationOr (token : Token) (place : Place) :
    Echoes fork n (fun _ => True)
      (do if !(← readPresentation) then failUnexpected place token)
      (do if !(← readPresentation) then failUnexpected place token) := by
  have hknown : ∀ {m : Nat} {reader : Reader Unit},
      (∀ k ≤ m, Echoes fork k (fun _ => False) reader reader) → Echoes fork m (fun _ => True)
        ((do
          let _ ← advance
          reader
          return true) >>= fun known => if !known then failUnexpected place token else pure ())
        ((do
          let _ ← advance
          reader
          return true) >>= fun known =>
            if !known then failUnexpected place token else pure ()) := by
    intro m reader h
    rw [bind_assoc]
    refine .advance fun _ k hk _ => ?_
    rw [bind_assoc]
    refine (h k hk).bind fun _ => ?_
    rw [pure_bind]
    exact .value ()
  have hunknown : ∀ {m : Nat}, Echoes fork m (fun _ => True)
      (pure false >>= fun known => if !known then failUnexpected place token else pure () :
        Reader Unit)
      (pure false >>= fun known => if !known then failUnexpected place token else pure ()) := by
    intro m
    rw [pure_bind]
    exact .fail
  unfold readPresentation
  rw [bind_assoc]
  refine .look fun first m _ ha => ?_
  split
  · exact hknown fun _ _ => echoes_readStyles first
  · exact hknown fun _ hk => echoes_readThemes (ha.of_le hk)
  · exact hknown fun _ _ => echoes_readBranding first
  · exact hknown fun _ _ => echoes_readTerminology first
  · split
    · exact hknown fun _ hk => echoes_readThemes (ha.of_le hk)
    · exact hunknown
  · exact hunknown

/-! ## Documentation and decisions -/

/-- An assigned value is the same. -/
theorem echoes_readAssigned {keyword : Token} (hl : fork.Above n keyword.line) :
    Echoes fork n (fun _ => False) (readAssigned keyword) (readAssigned keyword) := by
  unfold readAssigned
  have hvalue : ∀ {m : Nat}, m ≤ n → Echoes fork m (fun _ => False)
      (expectValue keyword.line (.valueFor keyword.lexeme))
      (expectValue keyword.line (.valueFor keyword.lexeme)) :=
    fun hm => echoes_expectValue (hl.of_le hm) _
  exact .current (fun token m hm _ =>
      .ite (fun _ => .advance fun _ k hk _ => hvalue (Nat.le_trans hk hm)) fun _ => hvalue hm)
    fun head name hn hs => EchoesHere.otherLine hs (hl hn) ((hvalue (Nat.le_refl n)).here hn)

/-- The place of a section is the same. -/
theorem echoes_readOrder {keyword : Token} (hl : fork.Above n keyword.line) :
    Echoes fork n (fun _ => False) (readOrder keyword) (readOrder keyword) := by
  unfold readOrder readOrderValue
  refine (echoes_readAssigned hl).bind fun value => (echoes_note _).bind fun _ =>
    .ite (fun _ => .fail) fun _ => ?_
  split
  · exact .value _
  · exact .throw _

/-- A statement of a section is the same. -/
theorem echoes_readSectionStatement (part : Section) :
    Echoes fork n (fun _ => True) (readSectionStatement.fill part)
      (readSectionStatement.fill part) := by
  rw [fill_readSectionStatement]
  refine .look fun token m _ ha => ?_
  split
  · exact .advance fun _ k hk _ => (echoes_readAssigned (ha.of_le hk)).bind fun _ => .value _
  · exact .advance fun _ k hk _ => (echoes_readAssigned (ha.of_le hk)).bind fun _ => .value _
  · exact .advance fun _ k hk _ => (echoes_readOrder (ha.of_le hk)).bind fun _ => .value _
  · exact .fail

/-- A section is the same. -/
theorem echoes_readSection : Echoes fork n (fun _ => True) readSection readSection := by
  unfold readSection
  refine .advance fun keyword m _ ha => (echoes_expectString _ _).andThen fun title => ?_
  refine (echoes_takePositional ha 1).bind fun arguments => ?_
  refine (echoes_expectLineEnd ha).bind fun _ => ?_
  exact .isSign (by decide)
    (.advance fun _ _ _ _ => echoes_readBlock echoes_readSectionStatement _) (.value _)

/-- A statement of a decision is the same. -/
theorem echoes_readDecisionStatement (decision : Decision) :
    Echoes fork n (fun _ => True) (readDecisionStatement.fill decision)
      (readDecisionStatement.fill decision) := by
  rw [fill_readDecisionStatement]
  refine .look fun token m _ ha => ?_
  have hvalue : ∀ make : String → Decision, Echoes fork m (fun _ => True)
      (do
        let _ ← advance
        let value ← readAssigned token
        return make value)
      (do
        let _ ← advance
        let value ← readAssigned token
        return make value) :=
    fun make => .advance fun _ k hk _ => (echoes_readAssigned (ha.of_le hk)).bind fun _ => .value _
  split
  · exact hvalue fun value => { decision with title := value }
  · exact hvalue fun value => { decision with status := value }
  · exact hvalue fun value => { decision with date := some value }
  · exact hvalue fun value => { decision with format := value }
  · exact hvalue fun value => { decision with content := value }
  · refine .ite (fun _ => .advance fun _ _ _ _ => ?_) fun _ => .fail
    have hlinks : ∀ {k : Nat}, Echoes fork k (fun _ => False)
        (do
          let entries ← readKeyValues
          return { decision with links := mergeInto decision.links entries })
        (do
          let entries ← readKeyValues
          return { decision with links := mergeInto decision.links entries }) :=
      echoes_readKeyValues.bind fun _ => .value _
    exact .isSign (by decide) (.advance fun _ _ _ _ => hlinks) hlinks
  · exact .fail

/-- A decision is the same. -/
theorem echoes_readDecision : Echoes fork n (fun _ => True) readDecision readDecision := by
  unfold readDecision
  refine .expect fun keyword m _ ha => (echoes_expectSingle _ _).andThen fun id => ?_
  exact (echoes_expectLineEnd ha).bind fun _ => echoes_expectOpening.andThen fun _ =>
    echoes_readBlock echoes_readDecisionStatement _

/-- A block of decisions is the same. -/
theorem echoes_readDecisions : Echoes fork n (fun _ => True) readDecisions readDecisions := by
  have hs : Echoes fork n (fun _ => True) readDecisionEntry readDecisionEntry := by
    unfold readDecisionEntry
    exact echoes_readDecision.andThen fun _ => echoes_modifyWorkspace _
  unfold readDecisions
  exact echoes_expectOpening.andThen fun _ => echoes_readBlockOf hs

/-- A statement of the documentation is the same. -/
theorem echoes_readDocumentationStatement :
    Echoes fork n (fun _ => True) readDocumentationStatement readDocumentationStatement := by
  unfold readDocumentationStatement modifyDocumentation
  refine .look fun token m _ ha => ?_
  split
  · exact .advance fun _ k hk _ => (echoes_readAssigned (ha.of_le hk)).bind fun _ =>
      echoes_modifyWorkspace _
  · exact .advance fun _ k hk _ => (echoes_readAssigned (ha.of_le hk)).bind fun _ =>
      echoes_modifyWorkspace _
  · exact echoes_readSection.andThen fun _ => echoes_modifyWorkspace _
  · exact .advance fun _ _ _ _ => echoes_readDecisions.idle
  · exact .fail

/-- The documentation is the same. -/
theorem echoes_readDocumentation :
    Echoes fork n (fun _ => True) readDocumentation readDocumentation := by
  unfold readDocumentation
  exact .advance fun keyword _ _ _ => (echoes_modifyWorkspace _).bind fun _ =>
    echoes_expectOpening.andThen fun _ => echoes_readBlockOf echoes_readDocumentationStatement

/-! ## Workspaces -/

/-- A statement of the views is the same. -/
theorem echoes_readViewsStatement :
    Echoes fork n (fun _ => True) readViewsStatement readViewsStatement := by
  unfold readViewsStatement modifyViews
  refine .look fun token m _ _ => ?_
  split
  · exact (echoes_readView _).andThen fun _ => echoes_modifyWorkspace _
  · refine .ite (fun _ => .advance fun _ _ _ _ => ?_) fun _ => ?_
    · exact echoes_readKeyValues.bind fun _ => echoes_modifyWorkspace _
    · exact .ite (fun _ => echoes_readDirective) fun _ => echoes_presentationOr token _

/-- The block of views is the same. -/
theorem echoes_readViews : Echoes fork n (fun _ => True) readViews readViews := by
  unfold readViews
  exact .advance fun keyword _ _ _ => (echoes_modifyWorkspace _).bind fun _ =>
    echoes_expectOpening.andThen fun _ => echoes_readBlockOf echoes_readViewsStatement

/-- A statement of the workspace is the same. -/
theorem echoes_readWorkspaceStatement :
    Echoes fork n (fun _ => True) readWorkspaceStatement readWorkspaceStatement := by
  unfold readWorkspaceStatement
  refine .look fun token m _ ha => ?_
  split
  · exact .advance fun _ k hk _ => (echoes_expectValue (ha.of_le hk) _).bind fun _ =>
      echoes_modifyWorkspace _
  · exact .advance fun _ k hk _ => (echoes_expectValue (ha.of_le hk) _).bind fun _ =>
      echoes_modifyWorkspace _
  · exact echoes_readModel
  · exact echoes_readViews
  · exact .advance fun _ _ _ _ => echoes_readKeyValues.bind fun _ => echoes_modifyWorkspace _
  · exact .advance fun _ _ _ _ => echoes_readKeyValues.bind fun _ => echoes_modifyWorkspace _
  · exact echoes_readDocumentation
  · exact .advance fun _ _ _ _ => echoes_readDecisions.idle
  · exact .ite (fun _ => echoes_readDirective) fun _ => echoes_presentationOr token _

/-- The directives before the workspace are the same if the bounds are large enough and no further
directive starts at the fork. -/
theorem echoes_readDirectives
    (hw : ∀ head name, fork.Starts head name → isDirective name = false) {count other : Nat}
    (hc : n ≤ count) (ho : n ≤ other) :
    Echoes fork n (fun _ => False) (readDirectives count) (readDirectives other) := by
  induction count generalizing n other with
  | zero =>
    obtain rfl : n = 0 := by omega
    exact .of_passes (.pure not_false)
  | succ count ih =>
    refine .of_succ _ ho fun other ho => ?_
    rw [readDirectives, readDirectives]
    have hmore : Echoes fork (n - 1) (fun _ => False) (readDirectives count)
        (readDirectives other) := ih (by omega) (by omega)
    refine .current_ahead (fun token m hm _ => ⟨fun hk => ?_, fun _ => ?_⟩)
      fun head name hn hs => ?_
    · have hno : isDirective token = false := by
        unfold isDirective
        rw [hk]
      rw [hno]
      exact .value ()
    · exact .ite (fun _ => EchoesAhead.andThen (echoes_readOrSkip echoes_readDirective)
        fun _ => hmore.of_le (by omega)) fun _ => (Echoes.value ()).ahead
    · refine EchoesHere.ite (fun _ => ?_) (fun _ => Bool.eq_false_iff.mp (hw _ _ hs))
        ((Echoes.value ()).here hn) hs
      have hone : Echoes fork 0 (fun _ => True) (readOrSkip readDirective)
          (readOrSkip readDirective) := echoes_readOrSkip echoes_readDirective
      exact hone.toPasses.chain (fun _ => hmore.toPasses) fun _ _ _ => .inl trivial

end Blueprint.Grammar
