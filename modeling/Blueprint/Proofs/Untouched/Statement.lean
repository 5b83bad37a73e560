import Blueprint.Grammar.Workspace
import Blueprint.Proofs.Untouched.Run

/-!
# Statements that withdraw when they fail

Every statement of a body checks all of its tokens before it opens a block or changes anything. The
statements are gone through here, from the values they are made of to the bodies they stand in;
which of them only look, and which of them withdraw, is all that is told of them.
-/

namespace Blueprint.Grammar

open Blueprint.Declared Blueprint.Text

/-! ## Properties -/

/-- An entry withdraws if the blocks inside it do. -/
theorem withdraws_readEntry {block : Reader Properties} (h : Withdraws block)
    (entries : Properties) : Withdraws ((readEntry block).fill entries) := by
  rw [fill_readEntry]
  exact looks_takeKey.before fun key => (looks_isSign _).before fun _ =>
    .ite (h.bind fun _ => catches_pure _)
      ((looks_takeValues key.line).bind fun _ => .pure _).withdraws

/-- Keys and values withdraw: only the opening brace can be missing. -/
theorem withdraws_readKeyValuesWithin (depth : Nat) : Withdraws (readKeyValuesWithin depth) := by
  cases depth with
  | zero => exact (catches_pure _).withdraws
  | succ depth => exact looks_expectOpening.before fun _ => (catches_readBlock _ _).withdraws

/-- Keys and values withdraw. -/
theorem withdraws_readKeyValues : Withdraws readKeyValues :=
  looks_remaining.before fun _ => withdraws_readKeyValuesWithin _

/-- A property statement withdraws, and where none starts nothing is touched: what is read then may
still withdraw. -/
theorem withdraws_readProperty {α : Type} {accepts : PropertyWord → Bool}
    {next : Option PropertyEdit → Reader α} (hs : ∀ change, Catches (next (some change)))
    (hn : Withdraws (next none)) : Withdraws (readProperty accepts >>= next) := by
  have hnone : Withdraws ((pure none : Reader (Option PropertyEdit)) >>= next) := by
    rw [pure_bind]
    exact hn
  have hsome : ∀ change,
      Catches ((pure (some change) : Reader (Option PropertyEdit)) >>= next) := by
    intro change
    rw [pure_bind]
    exact hs change
  unfold readProperty
  rw [bind_assoc]
  refine looks_current.before fun token => ?_
  split
  · exact hnone
  rename_i word _
  split
  · rw [bind_assoc]
    refine looks_advance.before fun _ => ?_
    have hvalue : ∀ make : String → PropertyEdit, Withdraws ((do
        let value ← expectValue token.line (.valueFor token.lexeme)
        return some (make value)) >>= next) := by
      intro make
      rw [bind_assoc]
      exact (looks_expectValue _ _).before fun _ => (hsome _).withdraws
    have hblock : ∀ make : Properties → PropertyEdit, Withdraws ((do
        let entries ← readKeyValues
        return some (make entries)) >>= next) := by
      intro make
      rw [bind_assoc]
      exact withdraws_readKeyValues.bind fun _ => hsome _
    cases word with
    | description => exact hvalue .description
    | technology => exact hvalue .technology
    | url => exact hvalue .url
    | location => exact hvalue .location
    | instances => exact hvalue .instances
    | tags =>
      dsimp only
      rw [bind_assoc]
      refine (looks_takeValues token.line).before fun values => ?_
      split
      · rw [bind_assoc]
        refine looks_current.before fun other => (Looks.failExpected _ other).before ?_
        rintro (_ | change)
        · exact hn
        · exact (hs change).withdraws
      · exact (hsome _).withdraws
    | properties => exact hblock .properties
    | perspectives => exact hblock .perspectives
  · exact hnone

/-! ## Bodies of the model -/

/-- A directive withdraws: it is added after its last check. -/
theorem withdraws_readDirective : Withdraws readDirective := by
  refine looks_advance.before fun token => (looks_takeValues token.line).before fun values => ?_
  split
  · exact (catches_modify _).withdraws
  · exact .guarded (.fail _ token) fun _ => .guarded (.fail _ token) fun _ =>
      (catches_modify _).withdraws

/-- The further parts of a reference are only looked at. -/
theorem looks_readPathParts (count : Nat) : Looks (readPathParts count) := by
  induction count with
  | zero => exact .pure []
  | succ count ih =>
    refine (looks_isSign _).bind fun _ => .ite ?_ (.pure [])
    exact looks_advance.bind fun _ => looks_current.bind fun part =>
      .ite (looks_advance.bind fun _ => ih.bind fun _ => .pure _) (.failExpected _ part)

/-- A reference is only looked at. -/
theorem looks_readReference (line : Int) : Looks (readReference line) :=
  looks_current.bind fun token => .guarded (.failExpected _ token) fun _ =>
    looks_advance.bind fun _ => .ite (.pure _)
      (looks_remaining.bind fun _ => (looks_readPathParts _).bind fun _ => .pure _)

/-- A statement in the body of a relationship withdraws. -/
theorem withdraws_readRelationshipStatement (relationship : Relationship) :
    Withdraws (readRelationshipStatement.fill relationship) := by
  rw [fill_readRelationshipStatement]
  refine looks_current.before fun token => withdraws_readProperty (fun change => ?_) ?_
  · exact catches_pure (relationship.edit change)
  · exact (Looks.failUnexpected _ token).withdraws

/-- The source of a relationship is only looked at. -/
theorem looks_readOrigin (token : Token) (mayLeaveOut : Bool) :
    Looks (readOrigin token mayLeaveOut) :=
  .ite (.ite (.pure _) (.fail _ token)) (looks_readReference _)

/-- A relationship withdraws: its header is read before its body opens. -/
theorem withdraws_readRelationship (identifier : Option String) (first : Token)
    (mayLeaveOutSource : Bool) :
    Withdraws (readRelationship identifier first mayLeaveOutSource) :=
  looks_current.before fun token => (looks_readOrigin token _).before fun _ =>
    (looks_expect _).before fun _ => (looks_readReference _).before fun _ =>
      (looks_takePositional _ 3).before fun _ => (looks_expectLineEnd _).before fun _ =>
        (looks_opensBody _).before fun _ =>
          .ite (catches_readBlock _ _).withdraws (catches_pure _).withdraws

/-- The header of an instance is only looked at. -/
theorem looks_readDeployed (instanceOf : InstanceOf) (identifier : Option String)
    (position : Position) (line : Int) : Looks (readDeployed instanceOf identifier position line) :=
  (looks_readReference line).bind fun _ => (looks_takePositional line 2).bind fun _ => .pure _

/-- An identifier is only looked at. -/
theorem looks_readIdentifier : Looks readIdentifier := by
  refine looks_remaining.bind fun tokens => ?_
  split
  · exact .ite (looks_advance.bind fun _ => looks_advance.bind fun _ => .pure _) (.pure none)
  · exact .pure none

section Bodies

variable {body : BodyKind → Reader (List BodyEntry)} (h : ∀ kind, Catches (body kind))

include h

/-- An element withdraws behind its header: only its opening brace can be missing. -/
theorem withdraws_readBody (kind : BodyKind) (keyword : Token) :
    Withdraws (readBody body kind keyword) :=
  (looks_expectLineEnd _).before fun _ => (looks_opensBody _).before fun _ =>
    .ite (h kind).withdraws (.ite (looks_current.bind fun token => .failExpected _ token).withdraws
      (catches_pure []).withdraws)

/-- The declaration of an instance withdraws. -/
theorem withdraws_readInstance (kind : BodyKind) (instanceOf : InstanceOf)
    (identifier : Option String) (first keyword : Token) :
    Withdraws (readInstance body kind instanceOf identifier first keyword) :=
  (looks_readDeployed _ _ _ _).before fun _ =>
    (withdraws_readBody h kind keyword).bind fun _ => catches_pure _

/-- The declaration of an enterprise withdraws. -/
theorem withdraws_readEnterprise (identifier : Option String) (first keyword : Token) :
    Withdraws (readEnterprise body identifier first keyword) := by
  unfold readEnterprise
  exact .guarded (.fail _ first) fun _ => (looks_expectString _ _).before fun _ =>
    (withdraws_readBody h .enterprise keyword).bind fun _ => catches_pure _

/-- The declaration of a plain element withdraws. -/
theorem withdraws_readPlain (kind : BodyKind) (identifier : Option String)
    (first keyword : Token) : Withdraws (readPlain body kind identifier first keyword) :=
  (looks_expectString _ _).before fun _ => (looks_lookUp _).before fun _ =>
    (looks_takePositional _ _).before fun _ => (looks_lookUp _).before fun _ =>
      (withdraws_readBody h kind keyword).bind fun _ => catches_pure _

/-- The declaration of an element withdraws. -/
theorem withdraws_readElement (kind : BodyKind) (identifier : Option String) (first : Token) :
    Withdraws (readElement body kind identifier first) := by
  refine looks_advance.before fun keyword => ?_
  split
  · exact withdraws_readInstance h _ _ identifier first keyword
  · exact withdraws_readInstance h _ _ identifier first keyword
  · exact withdraws_readEnterprise h identifier first keyword
  · exact withdraws_readPlain h _ identifier first keyword

/-- A declaration of a body withdraws. -/
theorem withdraws_readDeclaration (owner : BodyKind) : Withdraws (readDeclaration body owner) := by
  refine looks_current.before fun first => looks_readIdentifier.before fun identifier =>
    looks_current.before fun token => looks_remaining.before fun _ => .ite ?_ ?_
  · exact (withdraws_readRelationship _ first _).bind fun _ => catches_pure _
  · split
    · exact (Looks.failUnexpected _ token).withdraws
    · exact .ite (withdraws_readElement h _ identifier first) (Looks.fail _ token).withdraws

/-- A statement of a body withdraws. -/
theorem withdraws_readBodyStatement (owner : BodyKind) :
    Withdraws (readBodyStatement body owner) := by
  refine looks_current.before fun _ => .ite ?_ (withdraws_readProperty (fun change => ?_) ?_)
  · exact withdraws_readDirective.bind fun _ => catches_pure []
  · exact catches_pure [BodyEntry.edit change]
  · exact (withdraws_readDeclaration h owner).bind fun _ => catches_pure _

/-- A further statement of a body withdraws. -/
theorem withdraws_readBodyEntry (owner : BodyKind) (entries : List BodyEntry) :
    Withdraws ((readBodyEntry body owner).fill entries) := by
  rw [fill_readBodyEntry]
  exact (withdraws_readBodyStatement h owner).bind fun _ => catches_pure _

end Bodies

/-- A body never fails, however deep. -/
theorem catches_readEntriesWithin (depth : Nat) (owner : BodyKind) :
    Catches (readEntriesWithin depth owner) := by
  cases depth with
  | zero => exact catches_pure []
  | succ depth => exact catches_readBlock _ []

/-- A body never fails. -/
theorem catches_readEntries (owner : BodyKind) : Catches (readEntries owner) :=
  catches_remaining.bind fun _ => catches_readEntriesWithin _ owner

/-- A statement of the model withdraws: it is added after it has been read. -/
theorem withdraws_readModelStatement : Withdraws readModelStatement :=
  (withdraws_readBodyStatement catches_readEntries .model).bind fun _ => catches_modify _

/-! ## Views -/

/-- A term is only looked at. -/
theorem looks_readTerm (line : Int) : Looks (readTerm line) :=
  looks_current.bind fun token =>
    .ite (looks_advance.bind fun _ => .pure "*") (.ite (looks_advance.bind fun _ => .pure _)
      (.ite (looks_readReference line) (.failUnexpected _ token)))

/-- The terms of a line are only looked at. -/
theorem looks_readTermsWithin (line : Int) (count : Nat) : Looks (readTermsWithin line count) := by
  induction count with
  | zero => exact .pure []
  | succ count ih =>
    exact looks_current.bind fun _ =>
      .ite ((looks_readTerm line).bind fun _ => ih.bind fun _ => .pure _) (.pure [])

/-- The expressions of a line are only looked at. -/
theorem looks_readExpressionsWithin (line : Int) (count : Nat) :
    Looks (readExpressionsWithin line count) := by
  induction count with
  | zero => exact .pure []
  | succ count ih =>
    refine looks_current.bind fun _ => .ite ?_ (.pure [])
    refine (looks_readTerm line).bind fun left => looks_current.bind fun next => .ite ?_ ?_
    · exact looks_advance.bind fun _ => (looks_readTerm line).bind fun _ =>
        ih.bind fun _ => .pure _
    · exact ih.bind fun _ => .pure _

/-- The expressions after a keyword are only looked at. -/
theorem looks_readExpressions (keyword : Token) : Looks (readExpressions keyword) := by
  refine looks_remaining.bind fun _ => (looks_readExpressionsWithin _ _).bind fun expressions => ?_
  split
  · exact looks_current.bind fun token => .failExpected _ token
  · exact .pure _

/-- A whole number is only looked at. -/
theorem looks_takeInteger? (line : Int) : Looks (takeInteger? line) := by
  refine looks_current.bind fun token => .ite ?_ (.pure none)
  split
  · exact looks_advance.bind fun _ => .pure _
  · exact .pure none

/-- A word is only looked at. -/
theorem looks_takeWord? (line : Int) : Looks (takeWord? line) :=
  looks_current.bind fun _ => .ite (looks_advance.bind fun _ => .pure _) (.pure none)

/-- A layout is only looked at. -/
theorem looks_readAutoLayout (keyword : Token) : Looks (readAutoLayout keyword) :=
  (looks_takeWord? _).bind fun _ => (looks_takeInteger? _).bind fun _ =>
    (looks_takeInteger? _).bind fun _ => (looks_expectLineEnd _).bind fun _ => .pure _

/-- A step of an animation is only looked at. -/
theorem looks_readAnimationStep (animation : Animation) :
    Looks (readAnimationStep.fill animation) := by
  rw [fill_readAnimationStep]
  refine looks_current.bind fun first => (looks_remaining.bind fun _ =>
    looks_readTermsWithin _ _).bind fun terms => ?_
  split
  · exact .failUnexpected _ first
  · exact .pure _

/-- An interaction withdraws. -/
theorem withdraws_readInteraction : Withdraws readInteraction :=
  looks_current.before fun first => looks_remaining.before fun _ =>
    .ite (withdraws_readRelationship none first false) (Looks.failExpected _ first).withdraws

/-- A step of a dynamic view withdraws. -/
theorem withdraws_readDynamicStep (view : View) : Withdraws (readDynamicStep.fill view) := by
  rw [fill_readDynamicStep]
  exact withdraws_readInteraction.bind fun _ => catches_pure _

/-- A statement that only views of one sort take withdraws. -/
theorem withdraws_readSortStatement (view : View) : Withdraws (readSortStatement.fill view) := by
  rw [fill_readSortStatement]
  refine looks_current.before fun token => ?_
  have hunexpected : Withdraws (failUnexpected .view token : Reader View) :=
    (Looks.failUnexpected _ token).withdraws
  split
  · refine .ite ?_ (looks_remaining.before fun _ => .ite ?_ hunexpected)
    · exact looks_advance.before fun _ => (catches_readBlock _ _).withdraws
    · exact withdraws_readDynamicStep view
  · exact .ite (looks_advance.bind fun _ => (looks_expectValue _ _).bind fun _ => .pure _).withdraws
      hunexpected
  · exact hunexpected

/-- A statement of a view withdraws. -/
theorem withdraws_readViewStatement (view : View) : Withdraws (readViewStatement.fill view) := by
  rw [fill_readViewStatement]
  refine looks_current.before fun token => ?_
  have hexpressions : ∀ make : List Selection → View, Withdraws (do
      let _ ← advance
      let more ← readExpressions token
      return make more) :=
    fun make => (looks_advance.bind fun _ => (looks_readExpressions token).bind fun more =>
      .pure (make more)).withdraws
  have hvalue : ∀ (wanted : Wanted) (make : String → View), Withdraws (do
      let _ ← advance
      let value ← expectValue token.line wanted
      return make value) :=
    fun wanted make => (looks_advance.bind fun _ => (looks_expectValue _ wanted).bind fun value =>
      .pure (make value)).withdraws
  dsimp only
  split
  · exact hexpressions _
  · exact hexpressions _
  · exact (looks_advance.bind fun _ => (looks_readAutoLayout token).bind fun _ => .pure _).withdraws
  · refine looks_advance.before fun _ => Withdraws.bind ?_ fun _ => catches_pure _
    exact looks_expectOpening.before fun _ => (catches_readBlock _ _).withdraws
  · exact hvalue _ _
  · exact hvalue _ _
  · exact looks_advance.before fun _ => withdraws_readKeyValues.bind fun _ => catches_pure _
  · exact withdraws_readSortStatement view

/-! ## Presentation -/

/-- A style withdraws: it is added after its keys and values have been read. -/
theorem withdraws_readStyleOf (token : Token) (wanted : Wanted) (add : Style → Styles → Styles) :
    Withdraws (readStyleOf token wanted add) :=
  looks_advance.before fun _ => (looks_expectString _ _).before fun _ =>
    withdraws_readKeyValues.bind fun _ => catches_modify _

/-- A style withdraws. -/
theorem withdraws_readStyle : Withdraws readStyle :=
  looks_current.before fun token =>
    .ite (withdraws_readStyleOf _ _ _)
      (.ite (withdraws_readStyleOf _ _ _) (Looks.failExpected _ token).withdraws)

/-- A statement of the branding is only looked at. -/
theorem looks_readBrandingStatement (branding : Branding) :
    Looks (readBrandingStatement.fill branding) := by
  rw [fill_readBrandingStatement]
  refine looks_advance.bind fun token =>
    .ite ((looks_expectValue _ _).bind fun _ => .pure _)
      (.ite ((looks_takeValues _).bind fun values => ?_) (.failUnexpected _ token))
  split
  · exact looks_current.bind fun next => .failExpected _ next
  · exact .pure _

/-! ## Documentation and decisions -/

/-- An assigned value is only looked at. -/
theorem looks_readAssigned (keyword : Token) : Looks (readAssigned keyword) :=
  looks_current.bind fun _ =>
    .ite (looks_advance.bind fun _ => looks_expectValue _ _) (looks_expectValue _ _)

/-- The place of a section is only looked at, also where it is no number. -/
theorem looks_readOrder (keyword : Token) : Looks (readOrder keyword) := by
  refine (looks_readAssigned keyword).bind fun value => (looks_note _).bind fun _ =>
    .ite (.fail _ keyword) ?_
  split
  · exact .pure _
  · exact .throw _

/-- A statement of a section is only looked at. -/
theorem looks_readSectionStatement (part : Section) : Looks (readSectionStatement.fill part) := by
  rw [fill_readSectionStatement]
  refine looks_current.bind fun token => ?_
  split
  · exact looks_advance.bind fun _ => (looks_readAssigned token).bind fun _ => .pure _
  · exact looks_advance.bind fun _ => (looks_readAssigned token).bind fun _ => .pure _
  · exact looks_advance.bind fun _ => (looks_readOrder token).bind fun _ => .pure _
  · exact .failUnexpected _ token

/-- A section withdraws. -/
theorem withdraws_readSection : Withdraws readSection :=
  looks_advance.before fun _ => (looks_expectString _ _).before fun _ =>
    (looks_takePositional _ 1).before fun _ => (looks_expectLineEnd _).before fun _ =>
      (looks_isSign _).before fun _ =>
        .ite (looks_advance.before fun _ => (catches_readBlock _ _).withdraws)
          (catches_pure _).withdraws

/-- A statement of a decision withdraws. -/
theorem withdraws_readDecisionStatement (decision : Decision) :
    Withdraws (readDecisionStatement.fill decision) := by
  rw [fill_readDecisionStatement]
  refine looks_current.before fun token => ?_
  have hunexpected : Withdraws (failUnexpected (.block .decision) token : Reader Decision) :=
    (Looks.failUnexpected _ token).withdraws
  have hvalue : ∀ make : String → Decision, Withdraws (do
      let _ ← advance
      return make (← readAssigned token)) :=
    fun make => (looks_advance.bind fun _ => (looks_readAssigned token).bind fun value =>
      .pure (make value)).withdraws
  split
  · exact hvalue _
  · exact hvalue _
  · exact hvalue _
  · exact hvalue _
  · exact hvalue _
  · have hlinks : Withdraws (do
        let entries ← readKeyValues
        return { decision with links := mergeInto decision.links entries }) :=
      withdraws_readKeyValues.bind fun _ => catches_pure _
    exact .ite (looks_advance.before fun _ => (looks_isSign _).before fun _ =>
      .ite (looks_advance.before fun _ => hlinks) hlinks) hunexpected
  · exact hunexpected

/-- A decision withdraws, and so does its statement: it is added after it has been read. -/
theorem withdraws_readDecisionEntry : Withdraws readDecisionEntry := by
  have hdecision : Withdraws readDecision :=
    (looks_expect _).before fun _ => (looks_expectSingle _ _).before fun _ =>
      (looks_expectLineEnd _).before fun _ => looks_expectOpening.before fun _ =>
        (catches_readBlock _ _).withdraws
  exact hdecision.bind fun _ => catches_modify _

/-- A statement of the documentation withdraws. -/
theorem withdraws_readDocumentationStatement : Withdraws readDocumentationStatement := by
  refine looks_current.before fun token => ?_
  split
  · exact looks_advance.before fun _ =>
      (looks_readAssigned token).withdraws.bind fun _ => catches_modify _
  · exact looks_advance.before fun _ =>
      (looks_readAssigned token).withdraws.bind fun _ => catches_modify _
  · exact withdraws_readSection.bind fun _ => catches_modify _
  · exact looks_advance.before fun _ => looks_expectOpening.before fun _ =>
      (catches_readBlock _ _).withdraws
  · exact (Looks.failUnexpected _ token).withdraws

end Blueprint.Grammar
