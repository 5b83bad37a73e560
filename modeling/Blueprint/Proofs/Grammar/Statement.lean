import Blueprint.Proofs.Grammar.Node

/-!
# The statements of the bodies of nodes

Each statement that stands in the body of a node, as a function of the node. All but those of views
spare their node when they fail: they change it after their last check. An image takes the form of a
source before the source is read, and keeps it if the source is missing.
-/

namespace Blueprint.Grammar

open Blueprint.Declared Blueprint.Text

/-- A statement that changes the node when it has been read spares it. -/
theorem spares_taken {α ν : Type} (take : Reader α) (change : α → ν → ν) :
    Spares (do
      let _ ← advance
      let value ← take
      modifyNode (change value) : NodeReader ν Unit) :=
  .after fun _ => .after fun value => .change (change value)

/-! ## Keys and values -/

/-- An entry as a function of the entries before it. -/
theorem fill_readEntry (block : Reader Properties) (entries : Properties) :
    (readEntry block).fill entries = (do
      let key ← takeKey
      if ← isSign .leftBrace then
        let inner ← block
        return entries.insertAll
          (inner.entries.map fun entry => (key.text.shown ++ "." ++ entry.1, entry.2))
      else
        let values ← takeValues key.line
        return entries.insert key.text.shown (spaced values).shown) := by
  unfold readEntry
  simp only [fill_bind, fill_ite, fill_modifyNode]

/-- A failing entry leaves the entries before it. -/
instance spares_readEntry (block : Reader Properties) : Spares (readEntry block) :=
  .after fun _ => .after fun _ => .ite (.after fun _ => .change _) (.after fun _ => .change _)

/-! ## Relationships and elements -/

/-- A statement of a relationship as a function of it. -/
theorem fill_readRelationshipStatement (relationship : Relationship) :
    readRelationshipStatement.fill relationship = (do
      let token ← current
      match ← readProperty relationshipAccepts with
      | some change => return relationship.edit change
      | none => failUnexpected (.block .relationship) token) := by
  unfold readRelationshipStatement
  simp only [fill_bind]
  refine bind_congr fun token => bind_congr fun change => ?_
  cases change <;> rfl

/-- A failing statement leaves the relationship as it is. -/
instance spares_readRelationshipStatement : Spares readRelationshipStatement := by
  refine .after fun token => .after fun change => ?_
  split
  · exact .change _
  · exact .lift _

/-- A statement of a body as a function of what there is in it. -/
theorem fill_readBodyEntry (body : BodyKind → Reader (List BodyEntry)) (owner : BodyKind)
    (entries : List BodyEntry) :
    (readBodyEntry body owner).fill entries = (do
      return entries ++ (← readBodyStatement body owner)) :=
  fill_bind _ _ _

/-- A failing statement leaves what there is in the body. -/
instance spares_readBodyEntry (body : BodyKind → Reader (List BodyEntry)) (owner : BodyKind) :
    Spares (readBodyEntry body owner) :=
  .after fun _ => .change _

/-! ## Views -/

/-- A step of an animation as a function of it. -/
theorem fill_readAnimationStep (animation : Animation) :
    readAnimationStep.fill animation = (do
      let first ← current
      match ← readTerms first.line with
      | [] => failUnexpected (.block .animation) first
      | terms => return { animation with steps := animation.steps ++ [terms] }) := by
  unfold readAnimationStep
  simp only [fill_bind]
  refine bind_congr fun first => bind_congr fun terms => ?_
  cases terms <;> rfl

/-- A failing step leaves the animation as it is. -/
instance spares_readAnimationStep : Spares readAnimationStep := by
  refine .after fun first => .after fun terms => ?_
  split
  · exact .lift _
  · exact .change _

/-- A step of a dynamic view as a function of it. -/
theorem fill_readDynamicStep (view : View) :
    readDynamicStep.fill view = (do
      let step ← readInteraction
      return view.addStep step) :=
  fill_bind _ _ _

/-- A failing step leaves the dynamic view as it is. -/
instance spares_readDynamicStep : Spares readDynamicStep := .after fun _ => .change _

/-- A statement that only views of one sort take, as a function of the view. -/
theorem fill_readSortStatement (view : View) :
    readSortStatement.fill view = (do
      let token ← current
      match view.sort with
      | .dynamic _ _ =>
        if token.kind == .sign .leftBrace then
          let _ ← advance
          readBlock readDynamicStep view
        else if startsRelationship (← remaining) then readDynamicStep.fill view
        else failUnexpected .view token
      | .image scope _ _ =>
        if imageForms.contains token.lexeme then
          let _ ← advance
          let source ← expectValue token.line (.sourceOf token.lexeme)
          return { view with sort := .image scope (some source) (some token.lexeme) }
        else failUnexpected .view token
      | _ => failUnexpected .view token) := by
  unfold readSortStatement
  rw [fill_bind]
  refine bind_congr fun token => ?_
  rw [fill_currentNode]
  obtain ⟨details, sort⟩ := view
  cases sort with
  | dynamic scope steps =>
    simp only [fill_ite, fill_bind]
    rfl
  | image scope content form =>
    simp only [fill_ite, fill_bind, fill_seq, fill_modifyNode, pure_bind]
    rfl
  | _ => rfl

/-- A statement of a view as a function of it. -/
theorem fill_readViewStatement (view : View) :
    readViewStatement.fill view = (do
      let token ← current
      match token.kind with
      | .keyword .including =>
        let _ ← advance
        let more ← readExpressions token
        return { view with details.includes := view.details.includes ++ more }
      | .keyword .excluding =>
        let _ ← advance
        let more ← readExpressions token
        return { view with details.excludes := view.details.excludes ++ more }
      | .keyword .autoLayout =>
        let _ ← advance
        let layout ← readAutoLayout token
        return { view with details.autoLayout := some layout }
      | .keyword .animation =>
        let _ ← advance
        let animation ← readAnimation token
        return { view with details.animations := view.details.animations ++ [animation] }
      | .keyword .title =>
        let _ ← advance
        let title ← expectValue token.line .viewTitle
        return { view with details.title := some title }
      | .keyword .description =>
        let _ ← advance
        let description ← expectValue token.line .viewDescription
        return { view with details.description := some description }
      | .keyword .properties =>
        let _ ← advance
        let entries ← readKeyValues
        return { view with details.properties := mergeInto view.details.properties entries }
      | _ => readSortStatement.fill view) := by
  unfold readViewStatement
  rw [fill_bind]
  refine bind_congr fun token => ?_
  split <;> simp [*, fill_bind, fill_modifyNode]

/-- Whether a word starts a statement that views of all sorts take. -/
def isViewWord : Kind → Bool
  | .keyword .including | .keyword .excluding | .keyword .autoLayout | .keyword .animation
  | .keyword .title | .keyword .description | .keyword .properties => true
  | _ => false

/-- The view with a form in which the source of an image is given, if it is an image and there is
such a form. -/
def takeForm (form : String) (view : View) : View :=
  match view.sort with
  | .image scope content _ =>
    if imageForms.contains form then { view with sort := .image scope content (some form) }
    else view
  | _ => view

/-- What a failing statement leaves of itself in a view: an image keeps the form of a source that is
missing. -/
def leaveInView (first : Token) (view : View) : View :=
  if isViewWord first.kind then view else takeForm first.lexeme view

/-- A failing statement that only views of one sort take leaves nothing but the form of an image. -/
theorem leaves_readSortStatement :
    Leaves (fun first => takeForm first.lexeme) readSortStatement := by
  intro view first tokens p hr error left q hf
  unfold readSortStatement at hf
  rw [runOn_lift_bind, run_current_of_cons hr] at hf
  dsimp only at hf
  rw [runOn_currentNode] at hf
  obtain ⟨details, sort⟩ := view
  cases sort with
  | dynamic scope steps =>
    refine (Spares.ite ?_ ?_).left_eq _ p error left q hf
    · exact .after fun _ => .statements _
    · exact .after fun _ => .ite spares_readDynamicStep (.lift _)
  | image scope content form =>
    by_cases hc : imageForms.contains first.lexeme = true
    · -- Taking the word does not fail, and when the source does the form has been taken.
      simp only [hc, if_true, takeForm] at hf ⊢
      rw [runOn_lift_bind] at hf
      have hcatch := catches_advance p
      generalize advance.run.run p = outcome at hf hcatch
      rcases outcome with ⟨halt | value, r⟩
      · cases hf
        exact absurd rfl (hcatch error q)
      · dsimp only at hf
        rw [runOn_bind, runOn_modifyNode] at hf
        exact (Spares.after fun _ => .change _).left_eq _ r error left q hf
    · simp only [hc, takeForm] at hf ⊢
      exact (Spares.lift _).left_eq _ p error left q hf
  | _ => exact (Spares.lift _).left_eq _ p error left q hf

/-- A failing statement of a view leaves nothing but the form of an image. -/
theorem leaves_readViewStatement : Leaves leaveInView readViewStatement := by
  intro view first tokens p hr error left q hf
  unfold readViewStatement at hf
  rw [runOn_lift_bind, run_current_of_cons hr] at hf
  dsimp only at hf
  unfold leaveInView
  split at hf
  case h_8 hinclude hexclude hlayout hanimation htitle hdescription hproperties =>
    have hw : isViewWord first.kind = false := by
      unfold isViewWord
      split <;> simp_all
    rw [hw]
    exact leaves_readSortStatement view first tokens p hr error left q hf
  all_goals
    rename_i hk
    rw [hk]
    exact (spares_taken _ _).left_eq view p error left q hf

/-- The body of a view. -/
theorem readBlock_readViewStatement :
    readBlock readViewStatement = readBlockLeaving leaveInView readViewStatement.fill :=
  funext (readBlock_eq leaves_readViewStatement)

/-! ## Branding, sections and decisions -/

/-- A statement of the branding as a function of it. -/
theorem fill_readBrandingStatement (branding : Branding) :
    readBrandingStatement.fill branding = (do
      let token ← advance
      if token.lexeme == "logo" then
        return { branding with logo := some (← expectValue token.line .logo) }
      else if token.lexeme == "font" then
        match ← takeValues token.line with
        | [] => failExpected .fontName (← current)
        | name :: more =>
          return { branding with
            fontName := some name.shown, fontUrl := more.head?.map Text.shown }
      else failUnexpected (.block .branding) token) := by
  unfold readBrandingStatement
  simp only [fill_bind, fill_ite, fill_modifyNode]
  refine bind_congr fun token => ?_
  refine ite_congr rfl (fun _ => rfl) fun _ => ite_congr rfl (fun _ => ?_) fun _ => rfl
  refine bind_congr fun values => ?_
  cases values with
  | nil => exact fill_bind current _ _
  | cons name more => rfl

/-- A failing statement leaves the branding as it is. -/
instance spares_readBrandingStatement : Spares readBrandingStatement := by
  refine .after fun token =>
    .ite (.after fun _ => .change _) (.ite (.after fun values => ?_) (.lift _))
  split
  · exact .after fun _ => .lift _
  · exact .change _

/-- A statement of a section as a function of it. -/
theorem fill_readSectionStatement (part : Section) :
    readSectionStatement.fill part = (do
      let token ← current
      match token.kind with
      | .keyword .content =>
        let _ ← advance
        return { part with content := ← readAssigned token }
      | .keyword .format =>
        let _ ← advance
        return { part with format := ← readAssigned token }
      | .keyword .order =>
        let _ ← advance
        return { part with order := some (← readOrder token : Nat) }
      | _ => failUnexpected (.block .sectionHeading) token) := by
  unfold readSectionStatement
  rw [fill_bind]
  refine bind_congr fun token => ?_
  split <;> simp [*, fill_bind, fill_modifyNode, fill_failUnexpected]

/-- A failing statement leaves the section as it is. -/
instance spares_readSectionStatement : Spares readSectionStatement := by
  refine .after fun token => ?_
  split
  · exact spares_taken _ _
  · exact spares_taken _ _
  · exact spares_taken _ _
  · exact .lift _

/-- A statement of a decision as a function of it. -/
theorem fill_readDecisionStatement (decision : Decision) :
    readDecisionStatement.fill decision = (do
      let token ← current
      match token.kind with
      | .keyword .title =>
        let _ ← advance
        return { decision with title := ← readAssigned token }
      | .keyword .status =>
        let _ ← advance
        return { decision with status := ← readAssigned token }
      | .keyword .date =>
        let _ ← advance
        return { decision with date := some (← readAssigned token) }
      | .keyword .format =>
        let _ ← advance
        return { decision with format := ← readAssigned token }
      | .keyword .content =>
        let _ ← advance
        return { decision with content := ← readAssigned token }
      | .identifier =>
        if token.lexeme == "links" then
          let _ ← advance
          if ← isSign .equals then
            let _ ← advance
          let entries ← readKeyValues
          return { decision with links := mergeInto decision.links entries }
        else failUnexpected (.block .decision) token
      | _ => failUnexpected (.block .decision) token) := by
  unfold readDecisionStatement
  rw [fill_bind]
  refine bind_congr fun token => ?_
  split <;> simp [*, fill_bind, fill_modifyNode, fill_ite, fill_failUnexpected]

/-- A failing statement leaves the decision as it is. -/
instance spares_readDecisionStatement : Spares readDecisionStatement := by
  refine .after fun token => ?_
  split
  · exact spares_taken _ _
  · exact spares_taken _ _
  · exact spares_taken _ _
  · exact spares_taken _ _
  · exact spares_taken _ _
  · refine .ite (.after fun _ => .after fun _ => .ite (.after fun _ => ?_) ?_) (.lift _)
    · exact .after fun _ => .change _
    · exact .after fun _ => .change _
  · exact .lift _

end Blueprint.Grammar
