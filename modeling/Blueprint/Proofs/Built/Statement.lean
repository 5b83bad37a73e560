import Blueprint.Grammar.Workspace
import Blueprint.Proofs.Built.Run

/-!
# Statements that are built from steps

The statements of all blocks are built from steps: bodies of the model, views, presentation,
documentation and decisions; and so is reading a whole source. A body changes the workspace only by
its directives. No statement changes the workspace in a way that depends on the first directive.
-/

namespace Blueprint.Declared

/-- The workspace with one directive before the others. -/
def Workspace.led (workspace : Workspace) (directive : Directive) : Workspace :=
  { workspace with directives := directive :: workspace.directives }

end Blueprint.Declared

namespace Blueprint.Grammar

open Blueprint.Declared Blueprint.Text

/-! ## Changes -/

/-- A class of changes has those that directives make. -/
def TakesDirectives (changes : (Workspace → Workspace) → Prop) : Prop :=
  ∀ directive, changes fun workspace =>
    { workspace with directives := workspace.directives ++ [directive] }

/-- A class of changes has those that statements of the model make. -/
def TakesEntries (changes : (Workspace → Workspace) → Prop) : Prop :=
  ∀ entries : List BodyEntry, changes fun workspace =>
    { workspace with model := workspace.model.map (entries.foldl Model.add) }

/-- A change is the same behind a first directive. -/
def KeepsLead (change : Workspace → Workspace) : Prop :=
  ∀ directive workspace, change (workspace.led directive) = (change workspace).led directive

/-- Changes that are the same behind a first directive compose. -/
theorem composes_keepsLead : Composes KeepsLead where
  nothing := fun _ _ => rfl
  after := by
    intro change next hc hn directive workspace
    show next (change _) = _
    rw [hc, hn]

/-- Directives are added in the same way behind a first one. -/
theorem takesDirectives_keepsLead : TakesDirectives KeepsLead :=
  fun _ _ _ => rfl

/-- Statements are added to the model in the same way behind a first directive. -/
theorem takesEntries_keepsLead : TakesEntries KeepsLead :=
  fun _ _ _ => rfl

variable {changes : (Workspace → Workspace) → Prop}

/-! ## Bodies of the model -/

/-- The rest of a directive is built from steps: an unknown one is remarked, which is no failure. -/
theorem built_readDirectiveAfter (hd : TakesDirectives changes) (token : Token) :
    Built changes (readDirectiveAfter token) := by
  unfold readDirectiveAfter
  refine (built_takeValues token.line).bind fun values => ?_
  split
  · exact Built.remark _ _
  · exact .guarded (.fail _ token) fun _ => .guarded (.fail _ token) fun _ =>
      .modifyWorkspace (hd _)

/-- A directive is built from steps. -/
theorem built_readDirective (hd : TakesDirectives changes) : Built changes readDirective := by
  unfold readDirective
  exact built_advance.bind (built_readDirectiveAfter hd)

/-- The further parts of a reference are built from steps. -/
theorem built_readPathParts (count : Nat) : Built changes (readPathParts count) := by
  induction count with
  | zero => exact .pure []
  | succ count ih =>
    unfold readPathParts
    refine (built_isSign _).bind fun _ => .ite ?_ (.pure [])
    refine built_advance.bind fun _ => built_current.bind fun part => .ite ?_ ?_
    · exact built_advance.bind fun _ => ih.bind fun _ => .pure _
    · exact built_failExpected _ part

/-- A reference is built from steps. -/
theorem built_readReference (line : Int) : Built changes (readReference line) := by
  unfold readReference
  refine built_current.bind fun token => .guarded (built_failExpected _ token) fun _ =>
    built_advance.bind fun _ => .ite (.pure _) ?_
  exact Built.remaining.bind fun _ => (built_readPathParts _).bind fun _ => .pure _

/-- A statement in the body of a relationship is built from steps. -/
theorem built_readRelationshipStatement (relationship : Relationship) :
    Built changes (readRelationshipStatement.fill relationship) := by
  rw [fill_readRelationshipStatement]
  refine built_current.bind fun token => (built_readProperty _).bind fun change => ?_
  split
  · exact .pure _
  · exact built_failUnexpected _ token

/-- The source of a relationship is built from steps. -/
theorem built_readOrigin (token : Token) (mayLeaveOut : Bool) :
    Built changes (readOrigin token mayLeaveOut) := by
  unfold readOrigin
  exact .ite (.ite (.pure _) (.fail _ token)) (built_readReference _)

/-- A relationship is built from steps. -/
theorem built_readRelationship (identifier : Option String) (first : Token)
    (mayLeaveOutSource : Bool) :
    Built changes (readRelationship identifier first mayLeaveOutSource) := by
  unfold readRelationship
  refine built_current.bind fun token => (built_readOrigin token _).bind fun source =>
    (built_expect _).bind fun _ => (built_readReference _).bind fun destination =>
      (built_takePositional _ 3).bind fun arguments =>
        (built_expectLineEnd _).bind fun _ => (built_opensBody _).bind fun _ => ?_
  exact .ite (built_readBlock built_readRelationshipStatement _) (.pure _)

/-- The header of an instance is built from steps. -/
theorem built_readDeployed (instanceOf : InstanceOf) (identifier : Option String)
    (position : Position) (line : Int) :
    Built changes (readDeployed instanceOf identifier position line) := by
  unfold readDeployed
  exact (built_readReference line).bind fun _ =>
    (built_takePositional line 2).bind fun _ => .pure _

variable {body : BodyKind → Reader (List BodyEntry)}

/-- The body of an element is built from steps if bodies are. -/
theorem built_readBody (h : ∀ kind, Built changes (body kind)) (kind : BodyKind) (keyword : Token) :
    Built changes (readBody body kind keyword) := by
  unfold readBody
  refine (built_expectLineEnd _).bind fun _ => (built_opensBody _).bind fun _ =>
    .ite (h kind) (.ite ?_ (.pure []))
  exact built_current.bind fun token => built_failExpected _ token

/-- The declaration of an instance is built from steps if bodies are. -/
theorem built_readInstance (h : ∀ kind, Built changes (body kind)) (kind : BodyKind)
    (instanceOf : InstanceOf) (identifier : Option String) (first keyword : Token) :
    Built changes (readInstance body kind instanceOf identifier first keyword) := by
  unfold readInstance
  exact (built_readDeployed _ _ _ _).bind fun _ =>
    (built_readBody h kind keyword).bind fun _ => .pure _

/-- The declaration of an enterprise is built from steps if bodies are. -/
theorem built_readEnterprise (h : ∀ kind, Built changes (body kind)) (identifier : Option String)
    (first keyword : Token) : Built changes (readEnterprise body identifier first keyword) := by
  unfold readEnterprise
  exact .guarded (.fail _ first) fun _ => (built_expectString _ _).bind fun _ =>
    (built_readBody h .enterprise keyword).bind fun _ => .pure _

/-- The declaration of a plain element is built from steps if bodies are. -/
theorem built_readPlain (h : ∀ kind, Built changes (body kind)) (kind : BodyKind)
    (identifier : Option String) (first keyword : Token) :
    Built changes (readPlain body kind identifier first keyword) := by
  unfold readPlain
  exact (built_expectString _ _).bind fun _ => (built_lookUp _).bind fun _ =>
    (built_takePositional _ _).bind fun _ => (built_lookUp _).bind fun _ =>
      (built_readBody h kind keyword).bind fun _ => .pure _

/-- The declaration of an element is built from steps if bodies are. -/
theorem built_readElement (h : ∀ kind, Built changes (body kind)) (kind : BodyKind)
    (identifier : Option String) (first : Token) :
    Built changes (readElement body kind identifier first) := by
  unfold readElement
  refine built_advance.bind fun keyword => ?_
  split
  · exact built_readInstance h _ _ identifier first keyword
  · exact built_readInstance h _ _ identifier first keyword
  · exact built_readEnterprise h identifier first keyword
  · exact built_readPlain h _ identifier first keyword

/-- An identifier is built from steps. -/
theorem built_readIdentifier : Built changes readIdentifier := by
  unfold readIdentifier
  refine Built.remaining.bind fun tokens => ?_
  split
  · exact .ite (built_advance.bind fun _ => built_advance.bind fun _ => .pure _) (.pure none)
  · exact .pure none

/-- A declaration of a body is built from steps if the bodies inside it are. -/
theorem built_readDeclaration (h : ∀ kind, Built changes (body kind)) (owner : BodyKind) :
    Built changes (readDeclaration body owner) := by
  unfold readDeclaration
  refine built_current.bind fun first => built_readIdentifier.bind fun identifier =>
    built_current.bind fun token => Built.remaining.bind fun _ => .ite ?_ ?_
  · exact (built_readRelationship _ first _).bind fun _ => .pure _
  · split
    · exact built_failUnexpected _ token
    · exact .ite (built_readElement h _ identifier first) (.fail _ token)

/-- A statement of a body is built from steps if the bodies inside it are. -/
theorem built_readBodyStatement (hd : TakesDirectives changes)
    (h : ∀ kind, Built changes (body kind)) (owner : BodyKind) :
    Built changes (readBodyStatement body owner) := by
  unfold readBodyStatement
  refine built_current.bind fun token =>
    .ite ((built_readDirective hd).bind fun _ => .pure []) ?_
  refine (built_readProperty _).bind fun change => ?_
  split
  · exact .pure _
  · exact (built_readDeclaration h owner).bind fun _ => .pure _

/-- A further statement of a body is built from steps if the bodies inside it are. -/
theorem built_readBodyEntry (hd : TakesDirectives changes) (h : ∀ kind, Built changes (body kind))
    (owner : BodyKind) (entries : List BodyEntry) :
    Built changes ((readBodyEntry body owner).fill entries) := by
  rw [fill_readBodyEntry]
  exact (built_readBodyStatement hd h owner).bind fun _ => .pure _

/-- Bodies are built from steps, however deep. -/
theorem built_readEntriesWithin (hd : TakesDirectives changes) (depth : Nat) (owner : BodyKind) :
    Built changes (readEntriesWithin depth owner) := by
  induction depth generalizing owner with
  | zero => exact .pure []
  | succ depth ih =>
    unfold readEntriesWithin
    exact built_readBlock (built_readBodyEntry hd ih owner) []

/-- Bodies are built from steps. -/
theorem built_readEntries (hd : TakesDirectives changes) (owner : BodyKind) :
    Built changes (readEntries owner) := by
  unfold readEntries
  exact Built.remaining.bind fun _ => built_readEntriesWithin hd _ owner

/-- A statement of the model is built from steps. -/
theorem built_readModelStatement (hd : TakesDirectives changes) (he : TakesEntries changes) :
    Built changes readModelStatement := by
  unfold readModelStatement
  exact (built_readBodyStatement hd (built_readEntries hd) .model).bind fun entries =>
    .modifyWorkspace (he entries)

/-- The block of the model is built from steps. -/
theorem built_readModel : Built KeepsLead readModel := by
  unfold readModel
  exact built_advance.bind fun keyword => .bind (.modifyWorkspace fun _ _ => rfl) fun _ =>
    built_expectOpening.bind fun _ => built_readBlockOf
      (built_readModelStatement takesDirectives_keepsLead takesEntries_keepsLead)

/-! ## Views -/

/-- A scope is built from steps. -/
theorem built_readScope (line : Int) : Built changes (readScope line) := by
  unfold readScope
  exact built_current.bind fun token =>
    .ite (built_advance.bind fun _ => .pure "*") (built_readReference line)

/-- A key and a description are built from steps. -/
theorem built_readKeyAndDescription (position : Position) (line : Int) :
    Built changes (readKeyAndDescription position line) := by
  unfold readKeyAndDescription
  exact (built_takePositional line 2).bind fun _ => .pure _

/-- The header of a view is built from steps. -/
theorem built_readViewHeader (word : ViewWord) (position : Position) (line : Int) :
    Built changes (readViewHeader word position line) := by
  -- Every header but two ends with a key and a description.
  have hdetails : ∀ sort : ViewSort, Built changes (do
      return (⟨← readKeyAndDescription position line, sort⟩ : View)) :=
    fun sort => (built_readKeyAndDescription position line).bind fun _ => .pure _
  unfold readViewHeader
  cases word with
  | systemLandscape => exact hdetails _
  | systemContext => exact (built_readReference line).bind fun _ => hdetails _
  | container => exact (built_readReference line).bind fun _ => hdetails _
  | component => exact (built_readReference line).bind fun _ => hdetails _
  | dynamic => exact (built_readScope line).bind fun _ => hdetails _
  | deployment =>
    exact (built_readScope line).bind fun _ => (built_expectSingle line _).bind fun _ =>
      hdetails _
  | filtered =>
    exact (built_expectSingle line _).bind fun _ => (built_expect _).bind fun _ =>
      (built_expectSingle line _).bind fun _ => hdetails _
  | custom => exact (built_takePositional line 3).bind fun _ => .pure _
  | image =>
    exact (built_readScope line).bind fun _ => (built_takePositional line 1).bind fun _ =>
      .pure _

/-- A term is built from steps. -/
theorem built_readTerm (line : Int) : Built changes (readTerm line) := by
  unfold readTerm
  exact built_current.bind fun token =>
    .ite (built_advance.bind fun _ => .pure "*")
      (.ite (built_advance.bind fun _ => .pure _)
        (.ite (built_readReference line) (built_failUnexpected _ token)))

/-- The terms of a line are built from steps. -/
theorem built_readTermsWithin (line : Int) (count : Nat) :
    Built changes (readTermsWithin line count) := by
  induction count with
  | zero => exact .pure []
  | succ count ih =>
    unfold readTermsWithin
    exact built_current.bind fun token =>
      .ite ((built_readTerm line).bind fun _ => ih.bind fun _ => .pure _) (.pure [])

/-- The expressions of a line are built from steps. -/
theorem built_readExpressionsWithin (line : Int) (count : Nat) :
    Built changes (readExpressionsWithin line count) := by
  induction count with
  | zero => exact .pure []
  | succ count ih =>
    unfold readExpressionsWithin
    refine built_current.bind fun token => .ite ?_ (.pure [])
    refine (built_readTerm line).bind fun left => built_current.bind fun next => .ite ?_ ?_
    · exact built_advance.bind fun _ => (built_readTerm line).bind fun _ =>
        ih.bind fun _ => .pure _
    · exact ih.bind fun _ => .pure _

/-- The expressions after a keyword are built from steps. -/
theorem built_readExpressions (keyword : Token) : Built changes (readExpressions keyword) := by
  unfold readExpressions
  refine Built.remaining.bind fun _ =>
    (built_readExpressionsWithin _ _).bind fun expressions => ?_
  split
  · exact built_current.bind fun token => built_failExpected _ token
  · exact .pure _

/-- Taking a whole number is built from steps. -/
theorem built_takeInteger? (line : Int) : Built changes (takeInteger? line) := by
  unfold takeInteger?
  refine built_current.bind fun token => .ite ?_ (.pure none)
  split
  · exact built_advance.bind fun _ => .pure _
  · exact .pure none

/-- Taking a word is built from steps. -/
theorem built_takeWord? (line : Int) : Built changes (takeWord? line) := by
  unfold takeWord?
  exact built_current.bind fun token =>
    .ite (built_advance.bind fun _ => .pure _) (.pure none)

/-- A layout is built from steps. -/
theorem built_readAutoLayout (keyword : Token) : Built changes (readAutoLayout keyword) := by
  unfold readAutoLayout
  exact (built_takeWord? _).bind fun _ => (built_takeInteger? _).bind fun _ =>
    (built_takeInteger? _).bind fun _ => (built_expectLineEnd _).bind fun _ => .pure _

/-- A step of an animation is built from steps. -/
theorem built_readAnimationStep (animation : Animation) :
    Built changes (readAnimationStep.fill animation) := by
  rw [fill_readAnimationStep]
  unfold readTerms
  refine built_current.bind fun first => (Built.remaining.bind fun _ =>
    built_readTermsWithin _ _).bind fun terms => ?_
  split
  · exact built_failUnexpected _ first
  · exact .pure _

/-- An animation is built from steps. -/
theorem built_readAnimation (keyword : Token) : Built changes (readAnimation keyword) := by
  unfold readAnimation
  exact built_expectOpening.bind fun _ => built_readBlock built_readAnimationStep _

/-- An interaction is built from steps. -/
theorem built_readInteraction : Built changes readInteraction := by
  unfold readInteraction
  exact built_current.bind fun first => Built.remaining.bind fun _ =>
    .ite (built_readRelationship none first false) (built_failExpected _ first)

/-- A step of a dynamic view is built from steps. -/
theorem built_readDynamicStep (view : View) : Built changes (readDynamicStep.fill view) := by
  rw [fill_readDynamicStep]
  exact built_readInteraction.bind fun _ => .pure _

/-- A statement that only views of one sort take is built from steps. -/
theorem built_readSortStatement (view : View) : Built changes (readSortStatement.fill view) := by
  rw [fill_readSortStatement]
  refine built_current.bind fun token => ?_
  split
  · refine .ite ?_ (Built.remaining.bind fun _ => .ite ?_ (built_failUnexpected _ token))
    · exact built_advance.bind fun _ => built_readBlock built_readDynamicStep view
    · exact built_readDynamicStep view
  · exact .ite (built_advance.bind fun _ => (built_expectValue _ _).bind fun _ => .pure _)
      (built_failUnexpected _ token)
  · exact built_failUnexpected _ token

/-- A statement of a view is built from steps. -/
theorem built_readViewStatement (view : View) : Built changes (readViewStatement.fill view) := by
  rw [fill_readViewStatement]
  refine built_current.bind fun token => ?_
  dsimp only
  split
  · exact built_advance.bind fun _ => (built_readExpressions token).bind fun _ => .pure _
  · exact built_advance.bind fun _ => (built_readExpressions token).bind fun _ => .pure _
  · exact built_advance.bind fun _ => (built_readAutoLayout token).bind fun _ => .pure _
  · exact built_advance.bind fun _ => (built_readAnimation token).bind fun _ => .pure _
  · exact built_advance.bind fun _ => (built_expectValue _ _).bind fun _ => .pure _
  · exact built_advance.bind fun _ => (built_expectValue _ _).bind fun _ => .pure _
  · exact built_advance.bind fun _ => built_readKeyValues.bind fun _ => .pure _
  · exact built_readSortStatement view

/-- A view is built from steps. -/
theorem built_readView (word : ViewWord) : Built changes (readView word) := by
  unfold readView
  refine built_advance.bind fun keyword => (built_readViewHeader _ _ _).bind fun view =>
    (built_expectLineEnd _).bind fun _ => (built_isSign _).bind fun _ => .ite ?_ ?_
  · rw [readBlock_readViewStatement]
    exact built_advance.bind fun _ => built_readBlockLeaving built_readViewStatement view
  · exact .ite (.pure view) (built_current.bind fun token => built_failExpected _ token)

/-! ## Presentation -/

/-- A style is built from steps. -/
theorem built_readStyleOf (token : Token) (wanted : Wanted) (add : Style → Styles → Styles) :
    Built KeepsLead (readStyleOf token wanted add) := by
  unfold readStyleOf
  exact built_advance.bind fun _ => (built_expectString _ _).bind fun _ =>
    built_readKeyValues.bind fun _ => .modifyWorkspace fun _ _ => rfl

/-- A style is built from steps. -/
theorem built_readStyle : Built KeepsLead readStyle := by
  unfold readStyle
  exact built_current.bind fun token =>
    .ite (built_readStyleOf _ _ _)
      (.ite (built_readStyleOf _ _ _) (built_failExpected _ token))

/-- The block of styles is built from steps. -/
theorem built_readStyles (keyword : Token) : Built KeepsLead (readStyles keyword) := by
  unfold readStyles
  exact .bind (.modifyWorkspace fun _ _ => rfl) fun _ => built_expectOpening.bind fun _ =>
    built_readBlockOf built_readStyle

/-- Themes are built from steps. -/
theorem built_readThemes (keyword : Token) : Built KeepsLead (readThemes keyword) := by
  unfold readThemes
  refine (built_takeValues _).bind fun urls => ?_
  split
  · exact built_current.bind fun token => built_failExpected _ token
  · exact .modifyWorkspace fun _ _ => rfl

/-- A statement of the branding is built from steps. -/
theorem built_readBrandingStatement (branding : Branding) :
    Built KeepsLead (readBrandingStatement.fill branding) := by
  rw [fill_readBrandingStatement]
  refine built_advance.bind fun token =>
    .ite ((built_expectValue _ _).bind fun _ => .pure _)
      (.ite ?_ (built_failUnexpected _ token))
  refine (built_takeValues _).bind fun values => ?_
  split
  · exact built_current.bind fun next => built_failExpected _ next
  · exact .pure _

/-- The branding is built from steps. -/
theorem built_readBranding (keyword : Token) : Built KeepsLead (readBranding keyword) := by
  unfold readBranding
  exact built_expectOpening.bind fun _ =>
    (built_readBlock built_readBrandingStatement _).bind fun _ => .modifyWorkspace fun _ _ => rfl

/-- The terminology is built from steps. -/
theorem built_readTerminology (keyword : Token) : Built KeepsLead (readTerminology keyword) := by
  unfold readTerminology
  exact built_readKeyValues.bind fun _ => .modifyWorkspace fun _ _ => rfl

/-- A statement about the presentation is built from steps. -/
theorem built_readPresentation : Built KeepsLead readPresentation := by
  unfold readPresentation
  refine built_current.bind fun token => ?_
  split
  · exact built_advance.bind fun _ => (built_readStyles token).bind fun _ => .pure true
  · exact built_advance.bind fun _ => (built_readThemes token).bind fun _ => .pure true
  · exact built_advance.bind fun _ => (built_readBranding token).bind fun _ => .pure true
  · exact built_advance.bind fun _ => (built_readTerminology token).bind fun _ => .pure true
  · exact .ite (built_advance.bind fun _ => (built_readThemes token).bind fun _ => .pure true)
      (.pure false)
  · exact .pure false

/-! ## Documentation and decisions -/

/-- An assigned value is built from steps. -/
theorem built_readAssigned (keyword : Token) : Built KeepsLead (readAssigned keyword) := by
  unfold readAssigned
  exact built_current.bind fun token =>
    .ite (built_advance.bind fun _ => built_expectValue _ _) (built_expectValue _ _)

/-- The place of a section is built from steps, also where it cannot be read. -/
theorem built_readOrder (keyword : Token) : Built KeepsLead (readOrder keyword) := by
  unfold readOrder readOrderValue
  refine (built_readAssigned keyword).bind fun value =>
    (Built.note _).bind fun _ => .ite (.fail _ keyword) ?_
  split
  · exact .pure _
  · exact .throw nofun

/-- A statement of a section is built from steps. -/
theorem built_readSectionStatement (part : Section) :
    Built KeepsLead (readSectionStatement.fill part) := by
  rw [fill_readSectionStatement]
  refine built_current.bind fun token => ?_
  split
  · exact built_advance.bind fun _ => (built_readAssigned token).bind fun _ => .pure _
  · exact built_advance.bind fun _ => (built_readAssigned token).bind fun _ => .pure _
  · exact built_advance.bind fun _ => (built_readOrder token).bind fun _ => .pure _
  · exact built_failUnexpected _ token

/-- A section is built from steps. -/
theorem built_readSection : Built KeepsLead readSection := by
  unfold readSection
  exact built_advance.bind fun keyword => (built_expectString _ _).bind fun _ =>
    (built_takePositional _ 1).bind fun _ => (built_expectLineEnd _).bind fun _ =>
      (built_isSign _).bind fun _ =>
        .ite (built_advance.bind fun _ => built_readBlock built_readSectionStatement _)
          (.pure _)

/-- A statement of a decision is built from steps. -/
theorem built_readDecisionStatement (decision : Decision) :
    Built KeepsLead (readDecisionStatement.fill decision) := by
  rw [fill_readDecisionStatement]
  refine built_current.bind fun token => ?_
  split
  · exact built_advance.bind fun _ => (built_readAssigned token).bind fun _ => .pure _
  · exact built_advance.bind fun _ => (built_readAssigned token).bind fun _ => .pure _
  · exact built_advance.bind fun _ => (built_readAssigned token).bind fun _ => .pure _
  · exact built_advance.bind fun _ => (built_readAssigned token).bind fun _ => .pure _
  · exact built_advance.bind fun _ => (built_readAssigned token).bind fun _ => .pure _
  · refine .ite ?_ (built_failUnexpected _ token)
    have hlinks : Built KeepsLead (do
        let entries ← readKeyValues
        return { decision with links := mergeInto decision.links entries }) :=
      built_readKeyValues.bind fun _ => .pure _
    exact built_advance.bind fun _ => (built_isSign _).bind fun _ =>
      .ite (built_advance.bind fun _ => hlinks) hlinks
  · exact built_failUnexpected _ token

/-- A decision is built from steps. -/
theorem built_readDecision : Built KeepsLead readDecision := by
  unfold readDecision
  exact (built_expect _).bind fun keyword => (built_expectSingle _ _).bind fun _ =>
    (built_expectLineEnd _).bind fun _ => built_expectOpening.bind fun _ =>
      built_readBlock built_readDecisionStatement _

/-- A block of decisions is built from steps. -/
theorem built_readDecisions : Built KeepsLead readDecisions := by
  have hs : Built KeepsLead readDecisionEntry := by
    unfold readDecisionEntry
    exact built_readDecision.bind fun _ => .modifyWorkspace fun _ _ => rfl
  unfold readDecisions
  exact built_expectOpening.bind fun _ => built_readBlockOf hs

/-- A statement of the documentation is built from steps. -/
theorem built_readDocumentationStatement : Built KeepsLead readDocumentationStatement := by
  unfold readDocumentationStatement modifyDocumentation
  refine built_current.bind fun token => ?_
  split
  · exact built_advance.bind fun _ => (built_readAssigned token).bind fun _ =>
      .modifyWorkspace fun _ _ => rfl
  · exact built_advance.bind fun _ => (built_readAssigned token).bind fun _ =>
      .modifyWorkspace fun _ _ => rfl
  · exact built_readSection.bind fun _ => .modifyWorkspace fun _ _ => rfl
  · exact built_advance.bind fun _ => built_readDecisions
  · exact built_failUnexpected _ token

/-- The documentation is built from steps. -/
theorem built_readDocumentation : Built KeepsLead readDocumentation := by
  unfold readDocumentation
  exact built_advance.bind fun keyword => .bind (.modifyWorkspace fun _ _ => rfl) fun _ =>
    built_expectOpening.bind fun _ => built_readBlockOf built_readDocumentationStatement

/-! ## Workspaces -/

/-- A statement about the presentation is read, or the statement fails. -/
theorem built_presentationOr (token : Token) (place : Place) :
    Built KeepsLead (do if !(← readPresentation) then failUnexpected place token) :=
  built_readPresentation.bind fun _ => .ite (built_failUnexpected place token) (.pure ())

/-- A statement of the views is built from steps. -/
theorem built_readViewsStatement : Built KeepsLead readViewsStatement := by
  unfold readViewsStatement modifyViews
  refine built_current.bind fun token => ?_
  split
  · exact (built_readView _).bind fun _ => .modifyWorkspace fun _ _ => rfl
  · refine .ite ?_ (.ite (built_readDirective takesDirectives_keepsLead)
      (built_presentationOr token _))
    exact built_advance.bind fun _ => built_readKeyValues.bind fun _ =>
      .modifyWorkspace fun _ _ => rfl

/-- The block of views is built from steps. -/
theorem built_readViews : Built KeepsLead readViews := by
  unfold readViews
  exact built_advance.bind fun keyword => .bind (.modifyWorkspace fun _ _ => rfl) fun _ =>
    built_expectOpening.bind fun _ => built_readBlockOf built_readViewsStatement

/-- A statement of the workspace is built from steps. -/
theorem built_readWorkspaceStatement : Built KeepsLead readWorkspaceStatement := by
  unfold readWorkspaceStatement
  refine built_current.bind fun token => ?_
  split
  · exact built_advance.bind fun _ => (built_expectValue _ _).bind fun _ =>
      .modifyWorkspace fun _ _ => rfl
  · exact built_advance.bind fun _ => (built_expectValue _ _).bind fun _ =>
      .modifyWorkspace fun _ _ => rfl
  · exact built_readModel
  · exact built_readViews
  · exact built_advance.bind fun _ => built_readKeyValues.bind fun _ =>
      .modifyWorkspace fun _ _ => rfl
  · exact built_advance.bind fun _ => built_readKeyValues.bind fun _ =>
      .modifyWorkspace fun _ _ => rfl
  · exact built_readDocumentation
  · exact built_advance.bind fun _ => built_readDecisions
  · exact .ite (built_readDirective takesDirectives_keepsLead) (built_presentationOr token _)

/-- The workspace is built from steps. -/
theorem built_readWorkspace : Built KeepsLead readWorkspace := by
  unfold readWorkspace
  exact built_advance.bind fun keyword => (built_takePositional _ 2).bind fun _ =>
    .bind (.modifyWorkspace fun _ _ => rfl) fun _ => (built_expectLineEnd _).bind fun _ =>
      built_expectOpening.bind fun _ => built_readBlockOf built_readWorkspaceStatement

/-- The directives before the workspace are built from steps. -/
theorem built_readDirectives (count : Nat) : Built KeepsLead (readDirectives count) := by
  induction count with
  | zero => exact .pure ()
  | succ count ih =>
    unfold readDirectives
    exact built_current.bind fun token =>
      .ite ((built_readOrSkip (built_readDirective takesDirectives_keepsLead)).bind fun _ => ih)
        (.pure ())

/-- A whole source is built from steps. -/
theorem built_readSource : Built KeepsLead readSource := by
  unfold readSource
  refine Built.remaining.bind fun _ => (built_readDirectives _).bind fun _ =>
    built_current.bind fun token => .ite ?_ (Built.report _)
  exact (built_readOrSkip built_readWorkspace).bind fun _ =>
    built_current.bind fun next => .ite (Built.report _) (.pure ())

end Blueprint.Grammar
