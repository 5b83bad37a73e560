import Blueprint.Proofs.Relaid.Body

/-!
# Views that are laid out anew

The headers, expressions and statements of views are the same in two layouts, up to places.
-/

namespace Blueprint.Grammar

open Blueprint.Declared Blueprint.Text

variable {places left : List (Token × Token)} {token twin : Token} {line other : Int}

/-! ## Headers -/

/-- A scope is the same. -/
theorem twins_readScope (h : Matched places) (hl : Level places line other) :
    Twins places Eq (readScope line) (readScope other) := by
  unfold readScope
  refine .current fun token twin ht => .ite (by rw [h.kind ht, hl.beq ht]) (fun _ => ?_) fun _ => ?_
  · exact .advance fun _ _ _ => .pure rfl
  · exact twins_readReference h hl

/-- The end of a header is the same up to its place. -/
theorem twins_readKeyAndDescription (h : Matched places) (hl : Level places line other)
    (position place : Position) :
    Twins places (Same ViewDetails.unplaced) (readKeyAndDescription position line)
      (readKeyAndDescription place other) := by
  unfold readKeyAndDescription
  exact (twins_takePositional h hl 2).bind_eq fun _ => .pure rfl

/-- A view of a sort is the same up to places if the rest of it is. -/
theorem Same.view {details more : ViewDetails} (h : Same ViewDetails.unplaced details more)
    {sort : ViewSort} : Same View.unplaced ⟨details, sort⟩ ⟨more, sort⟩ :=
  congrArg (View.mk · sort.unplaced) h

/-- The header of a view is the same up to its place. -/
theorem twins_readViewHeader (h : Matched places) (hl : Level places line other) (word : ViewWord)
    (position place : Position) :
    Twins places (Same View.unplaced) (readViewHeader word position line)
      (readViewHeader word place other) := by
  have hd := twins_readKeyAndDescription h hl position place
  unfold readViewHeader
  cases word with
  | systemLandscape => exact hd.bind fun _ _ hv => .pure hv.view
  | systemContext =>
    exact (twins_readReference h hl).bind_eq fun _ => hd.bind fun _ _ hv => .pure hv.view
  | container =>
    exact (twins_readReference h hl).bind_eq fun _ => hd.bind fun _ _ hv => .pure hv.view
  | component =>
    exact (twins_readReference h hl).bind_eq fun _ => hd.bind fun _ _ hv => .pure hv.view
  | dynamic => exact (twins_readScope h hl).bind_eq fun _ => hd.bind fun _ _ hv => .pure hv.view
  | deployment =>
    refine (twins_readScope h hl).bind_eq fun scope => ?_
    exact (twins_expectSingle h hl _).bind_eq fun _ => hd.bind fun _ _ hv => .pure hv.view
  | filtered =>
    refine (twins_expectSingle h hl _).bind_eq fun base => ?_
    refine (twins_expect h _).bind fun mode follow hm => ?_
    rw [h.lexeme hm]
    exact (twins_expectSingle h hl _).bind_eq fun _ => hd.bind fun _ _ hv => .pure hv.view
  | custom => exact (twins_takePositional h hl 3).bind_eq fun _ => .pure rfl
  | image =>
    refine (twins_readScope h hl).bind_eq fun scope => ?_
    exact (twins_takePositional h hl 1).bind_eq fun _ => .pure rfl

/-! ## Expressions -/

/-- One side of an expression is the same. -/
theorem twins_readTerm (h : Matched places) (hl : Level places line other) :
    Twins places Eq (readTerm line) (readTerm other) := by
  unfold readTerm
  refine .current fun token twin ht => ?_
  rw [h.kind ht, hl.beq ht, h.text ht, h.isReferencePart ht]
  refine .ite Iff.rfl (fun _ => .advance fun _ _ _ => .pure rfl) fun _ => ?_
  refine .ite Iff.rfl (fun _ => .advance fun _ _ _ => .pure rfl) fun _ => ?_
  exact .ite Iff.rfl (fun _ => twins_readReference h hl) fun _ => .failUnexpected h ht _

/-- The terms of a line are the same. -/
theorem twins_readTermsWithin (h : Matched places) (hl : Level places line other) (count : Nat) :
    Twins places Eq (readTermsWithin line count) (readTermsWithin other count) := by
  induction count with
  | zero => exact .pure rfl
  | succ count ih =>
    rw [readTermsWithin, readTermsWithin]
    refine .current fun token twin ht => ?_
    refine .ite (by rw [hl.onLine h ht]) (fun _ => ?_) fun _ => .pure rfl
    exact (twins_readTerm h hl).bind_eq fun _ => ih.bind_eq fun _ => .pure rfl

/-- The terms of a line are the same. -/
theorem twins_readTerms (h : Matched places) (hl : Level places line other) :
    Twins places Eq (readTerms line) (readTerms other) := by
  unfold readTerms
  refine .remaining fun left _ => ?_
  rw [List.length_map, List.length_map]
  exact twins_readTermsWithin h hl _

/-- The expressions of a line are the same. -/
theorem twins_readExpressionsWithin (h : Matched places) (hl : Level places line other)
    (count : Nat) :
    Twins places Eq (readExpressionsWithin line count) (readExpressionsWithin other count) := by
  induction count with
  | zero => exact .pure rfl
  | succ count ih =>
    rw [readExpressionsWithin, readExpressionsWithin]
    refine .current fun token twin ht => ?_
    refine .ite (by rw [hl.onLine h ht]) (fun _ => ?_) fun _ => .pure rfl
    refine (twins_readTerm h hl).bind_eq fun source => .current fun next follow hn => ?_
    rw [h.kind hn, hl.beq hn]
    refine .ite Iff.rfl (fun _ => .advance fun _ _ _ => ?_) fun _ => ih.bind_eq fun _ => .pure rfl
    exact (twins_readTerm h hl).bind_eq fun _ => ih.bind_eq fun _ => .pure rfl

/-- The expressions after a keyword are the same up to places. -/
theorem twins_readExpressions (h : Matched places) (ht : (token, twin) ∈ places) :
    Twins places (Same (List.map Selection.unplaced)) (readExpressions token)
      (readExpressions twin) := by
  unfold readExpressions
  refine .remaining fun left _ => ?_
  rw [List.length_map, List.length_map, h.lexeme ht]
  refine (twins_readExpressionsWithin h (h.level ht) _).bind_eq fun expressions => ?_
  split
  · exact .current fun _ _ hn => .failExpected h hn _
  · refine .pure ?_
    unfold Same
    rw [List.map_map, List.map_map]
    rfl

/-! ## Layout and animations -/

/-- The same whole number stands next, or none. -/
theorem twins_takeInteger? (h : Matched places) (hl : Level places line other) :
    Twins places Eq (takeInteger? line) (takeInteger? other) := by
  unfold takeInteger?
  refine .current fun token twin ht => ?_
  refine .ite (by rw [hl.onLine h ht]) (fun _ => ?_) fun _ => .pure rfl
  rw [h.kind ht, h.value ht]
  split
  · exact .advance fun _ _ _ => .pure rfl
  · exact .pure rfl

/-- The same word or string literal stands next, or none. -/
theorem twins_takeWord? (h : Matched places) (hl : Level places line other) :
    Twins places Eq (takeWord? line) (takeWord? other) := by
  unfold takeWord?
  refine .current fun token twin ht => ?_
  rw [hl.onLine h ht, h.kind ht, h.text ht]
  exact .ite Iff.rfl (fun _ => .advance fun _ _ _ => .pure rfl) fun _ => .pure rfl

/-- A layout is the same up to its place. -/
theorem twins_readAutoLayout (h : Matched places) (ht : (token, twin) ∈ places) :
    Twins places (Same AutoLayout.unplaced) (readAutoLayout token) (readAutoLayout twin) := by
  unfold readAutoLayout
  have hl := h.level ht
  refine (twins_takeWord? h hl).bind_eq fun direction => ?_
  refine (twins_takeInteger? h hl).bind_eq fun rank => ?_
  refine (twins_takeInteger? h hl).bind_eq fun node => ?_
  exact (twins_expectLineEnd h hl).bind_eq fun _ => .pure rfl

/-- A step of an animation is the same. -/
theorem twins_readAnimationStep (h : Matched places) {animation same : Animation}
    (ha : Same Animation.unplaced animation same) :
    Twins places (Same Animation.unplaced) (readAnimationStep.fill animation)
      (readAnimationStep.fill same) := by
  rw [fill_readAnimationStep, fill_readAnimationStep]
  refine .current fun first begin hf => (twins_readTerms h (h.level hf)).bind_eq fun terms => ?_
  split
  · exact .failUnexpected h hf _
  · exact .pure (Same.change (fun terms (animation : Animation) =>
      { animation with steps := animation.steps ++ [terms] }) (fun _ _ => rfl) rfl ha)

/-- An animation is the same up to its place. -/
theorem twins_readAnimation (h : Matched places) (token twin : Token) :
    Twins places (Same Animation.unplaced) (readAnimation token) (readAnimation twin) := by
  unfold readAnimation
  exact (twins_expectOpening h).bind_eq fun _ =>
    twins_readBlock h rfl fun _ _ => twins_readAnimationStep h

/-! ## Statements of views -/

/-- A step of a dynamic view is the same up to places. -/
theorem twins_readInteraction (h : Matched places) :
    Twins places (Same Relationship.unplaced) readInteraction readInteraction := by
  unfold readInteraction
  refine .current fun first begin hf => .remaining fun left hs => ?_
  rw [startsRelationship_matched h hs.subset]
  exact .ite Iff.rfl (fun _ => twins_readRelationship h _ _) fun _ => .failExpected h hf _

/-- Sorts that are the same up to places are the same, or have steps that are the same up to
places. -/
theorem Same.sort_cases {sort other : ViewSort} (h : Same ViewSort.unplaced sort other) :
    (∃ scope steps others, sort = .dynamic scope steps ∧ other = .dynamic scope others ∧
      Same (List.map Relationship.unplaced) steps others) ∨
    (sort = other ∧ ∀ scope steps, other ≠ .dynamic scope steps) := by
  unfold Same at h
  cases sort with
  | dynamic scope steps =>
    cases other with
    | dynamic place others =>
      obtain ⟨rfl, hs⟩ := ViewSort.dynamic.inj h
      exact .inl ⟨scope, steps, others, rfl, rfl, hs⟩
    | _ => cases h
  | _ =>
    cases other with
    | dynamic => cases h
    | _ => exact .inr ⟨h, nofun⟩

/-- A view with one more step is the same up to places. -/
theorem Same.addStep {view same : View} (hv : Same View.unplaced view same)
    {step other : Relationship} (hs : Same Relationship.unplaced step other) :
    Same View.unplaced (view.addStep step) (same.addStep other) := by
  obtain ⟨details, sort⟩ := view
  obtain ⟨more, others⟩ := same
  obtain ⟨hd, hsort⟩ := View.mk.inj hv
  unfold View.addStep
  rcases Same.sort_cases hsort with ⟨scope, steps, rest, rfl, rfl, hr⟩ | ⟨rfl, hn⟩
  · exact congrArg₂ View.mk hd (congrArg (ViewSort.dynamic scope) (hr.concat hs))
  · dsimp only
    split
    · exact absurd rfl (hn _ _)
    · exact hv

/-- A further step of a dynamic view is the same up to places. -/
theorem twins_readDynamicStep (h : Matched places) {view same : View}
    (hv : Same View.unplaced view same) :
    Twins places (Same View.unplaced) (readDynamicStep.fill view) (readDynamicStep.fill same) := by
  rw [fill_readDynamicStep, fill_readDynamicStep]
  exact (twins_readInteraction h).bind fun _ _ hi => .pure (hv.addStep hi)

/-- A statement that only views of one sort take is the same up to places. -/
theorem twins_readSortStatement (h : Matched places) {view same : View}
    (hv : Same View.unplaced view same) :
    Twins places (Same View.unplaced) (readSortStatement.fill view)
      (readSortStatement.fill same) := by
  obtain ⟨details, sort⟩ := view
  obtain ⟨more, other⟩ := same
  obtain ⟨hd, hsort⟩ := View.mk.inj hv
  change Same ViewDetails.unplaced details more at hd
  change Same ViewSort.unplaced sort other at hsort
  rw [fill_readSortStatement, fill_readSortStatement]
  refine .current fun token twin ht => ?_
  rcases Same.sort_cases hsort with ⟨scope, steps, others, rfl, rfl, -⟩ | ⟨rfl, hn⟩
  · dsimp only
    rw [h.kind ht]
    refine .ite Iff.rfl (fun _ => .advance fun _ _ _ => ?_) fun _ => .remaining fun left hl => ?_
    · exact twins_readBlock h hv fun _ _ => twins_readDynamicStep h
    · rw [startsRelationship_matched h hl.subset]
      exact .ite Iff.rfl (fun _ => twins_readDynamicStep h hv) fun _ => .failUnexpected h ht _
  · dsimp only
    split
    · exact absurd rfl (hn _ _)
    · rw [h.lexeme ht]
      refine .ite Iff.rfl (fun _ => .advance fun _ _ _ => ?_) fun _ => .failUnexpected h ht _
      exact (twins_expectValue h (h.level ht) _).bind_eq fun _ => .pure (Same.view hd)
    · exact .failUnexpected h ht _

/-- A statement of a view changes it in the same way. -/
theorem twins_readViewStatement (h : Matched places) {view same : View}
    (hv : Same View.unplaced view same) :
    Twins places (Same View.unplaced) (readViewStatement.fill view)
      (readViewStatement.fill same) := by
  rw [fill_readViewStatement, fill_readViewStatement]
  refine .current fun token twin ht => ?_
  have hl := h.level ht
  dsimp only
  rw [h.kind ht]
  split
  · refine .advance fun _ _ _ => (twins_readExpressions h ht).bind fun _ _ hm => .pure ?_
    exact Same.change (fun more (view : View) =>
      { view with details := { view.details with includes := view.details.includes ++ more } })
      (fun _ _ => by simp [View.unplaced, ViewDetails.unplaced]) hm hv
  · refine .advance fun _ _ _ => (twins_readExpressions h ht).bind fun _ _ hm => .pure ?_
    exact Same.change (fun more (view : View) =>
      { view with details := { view.details with excludes := view.details.excludes ++ more } })
      (fun _ _ => by simp [View.unplaced, ViewDetails.unplaced]) hm hv
  · refine .advance fun _ _ _ => (twins_readAutoLayout h ht).bind fun _ _ hm => .pure ?_
    exact Same.change (fun layout (view : View) =>
      { view with details := { view.details with autoLayout := some layout } })
      (fun _ _ => rfl) hm hv
  · refine .advance fun _ _ _ => (twins_readAnimation h token twin).bind fun _ _ hm => .pure ?_
    exact Same.change (fun animation (view : View) =>
      { view with
        details := { view.details with animations := view.details.animations ++ [animation] } })
      (fun _ _ => by simp [View.unplaced, ViewDetails.unplaced]) hm hv
  · refine .advance fun _ _ _ => (twins_expectValue h hl _).bind_eq fun title => .pure ?_
    exact congrArg (fun view : View =>
      { view with details := { view.details with title := some title } }) hv
  · refine .advance fun _ _ _ => (twins_expectValue h hl _).bind_eq fun description => .pure ?_
    exact congrArg (fun view : View =>
      { view with details := { view.details with description := some description } }) hv
  · refine .advance fun _ _ _ => (twins_readKeyValues h).bind_eq fun entries => .pure ?_
    exact congrArg (fun view : View =>
      { view with
        details := { view.details with
          properties := mergeInto view.details.properties entries } }) hv
  · exact twins_readSortStatement h hv

/-- What a failing statement leaves in a view is the same up to places. -/
theorem same_leaveInView (h : Matched places) (ht : (token, twin) ∈ places) {view same : View}
    (hv : Same View.unplaced view same) :
    Same View.unplaced (leaveInView token view) (leaveInView twin same) := by
  obtain ⟨details, sort⟩ := view
  obtain ⟨more, other⟩ := same
  obtain ⟨hd, hsort⟩ := View.mk.inj hv
  change Same ViewDetails.unplaced details more at hd
  change Same ViewSort.unplaced sort other at hsort
  unfold leaveInView takeForm
  rw [h.kind ht, h.lexeme ht]
  split
  · exact hv
  · rcases Same.sort_cases hsort with ⟨scope, steps, others, rfl, rfl, hs⟩ | ⟨rfl, hn⟩
    · exact hv
    · dsimp only
      split
      · split
        · exact hd.view
        · exact hd.view
      · exact hd.view

/-- A view is the same up to places. -/
theorem twins_readView (h : Matched places) (word : ViewWord) :
    Twins places (Same View.unplaced) (readView word) (readView word) := by
  unfold readView
  refine .advance fun keyword twin hk => ?_
  have hl := h.level hk
  rw [h.lexeme hk]
  refine (twins_readViewHeader h hl word _ _).bind fun view same hv => ?_
  refine (twins_expectLineEnd h hl).bind_eq fun _ => .isSign h fun opens => ?_
  refine .ite Iff.rfl (fun _ => .advance fun _ _ _ => ?_) fun _ => ?_
  · rw [readBlock_readViewStatement]
    refine twins_readBlockLeaving h hv (fun _ _ hp => twins_readViewStatement h hp) ?_
    exact fun _ _ _ _ ht hp => same_leaveInView h ht hp
  · refine .ite Iff.rfl (fun _ => .pure hv) fun _ => ?_
    exact .current fun _ _ hn => .failExpected h hn _

end Blueprint.Grammar
