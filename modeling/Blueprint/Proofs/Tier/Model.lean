import Blueprint.Grammar.Workspace
import Blueprint.Proofs.Grammar.Parse

/-!
# What reading does to the model

Only the statements of the block `model` change the model of the workspace that is being read. Every
other reader keeps what is known of the model, however it ends; that is found by going through the
reader step by step.
-/

namespace Blueprint.Grammar

open Blueprint.Declared Blueprint.Text

variable {α β : Type} {known : Option Model → Prop}

/-- A reader keeps what is known of the model, however it ends. -/
class KeepsModel (known : Option Model → Prop) (reader : Reader α) : Prop where
  /-- What was known before is known afterwards. -/
  keeps : ∀ p : Progress, known p.workspace.model → known (reader.run.run p).2.workspace.model

namespace KeepsModel

/-- What is known of the model is a condition on the progress. -/
theorem iff_maintains {reader : Reader α} : KeepsModel known reader ↔
    Maintains (fun p => known p.workspace.model) reader fun _ => True := by
  constructor
  · intro h p hp result q hr
    have hk := h.keeps p hp
    rw [hr] at hk
    exact ⟨hk, fun _ _ => trivial⟩
  · exact fun h => ⟨fun p hp => (h p hp _ _ rfl).1⟩

/-- What is known of the model is kept when tokens are taken. -/
theorem lasting : Lasting fun p => known p.workspace.model :=
  fun _ _ hp _ hw => (congrArg (known ·.model) hw).mpr hp

/-- A value alone changes nothing. -/
instance (value : α) : KeepsModel known (pure value : Reader α) := ⟨fun _ h => h⟩

/-- A halt changes nothing. -/
instance (halt : Halt) : KeepsModel known (throw halt : Reader α) := ⟨fun _ h => h⟩

/-- Readers that keep what is known, one after the other. -/
instance bind {reader : Reader α} {next : α → Reader β} [hr : KeepsModel known reader]
    [hn : ∀ value, KeepsModel known (next value)] : KeepsModel known (reader >>= next) :=
  iff_maintains.mpr ((iff_maintains.mp hr).bind fun value _ => iff_maintains.mp (hn value))

/-- A choice between readers that keep what is known. -/
instance ite {holds : Prop} [Decidable holds] {first second : Reader α}
    [hf : KeepsModel known first] [hs : KeepsModel known second] :
    KeepsModel known (if holds then first else second) :=
  iff_maintains.mpr (.ite (iff_maintains.mp hf) (iff_maintains.mp hs))

/-- Where the first reader is known to keep what is known, the next one has to be looked at. -/
theorem after {reader : Reader α} {next : α → Reader β} [KeepsModel known reader]
    (h : ∀ value, KeepsModel known (next value)) : KeepsModel known (reader >>= next) :=
  inferInstance

/-- Looking at the progress changes nothing. -/
instance : KeepsModel known (get : Reader Progress) := ⟨fun _ h => h⟩

/-- A change of the progress that leaves the model alone. -/
theorem modify {change : Progress → Progress}
    (h : ∀ p, (change p).workspace.model = p.workspace.model) :
    KeepsModel known (modify change : Reader Unit) where
  keeps p hp := (congrArg known (h p)).mpr hp

/-- A change of the workspace that leaves the model alone. -/
theorem modifyWorkspace {change : Workspace → Workspace}
    (h : ∀ workspace, (change workspace).model = workspace.model) :
    KeepsModel known (modifyWorkspace change) :=
  .modify fun p => h p.workspace

/-- What follows failed statements keeps what is known too. -/
instance attempt {statement : Reader α} {recover : GrammarError → Reader α}
    [hs : KeepsModel known statement] [hr : ∀ error, KeepsModel known (recover error)] :
    KeepsModel known (attempt statement recover) :=
  iff_maintains.mpr ((iff_maintains.mp hs).attempt fun error => iff_maintains.mp (hr error))

end KeepsModel

/-! ## Tokens and lines -/

instance : KeepsModel known remaining := by unfold remaining; infer_instance

instance : KeepsModel known current := KeepsModel.iff_maintains.mpr .looking

instance (entry : Option α) : KeepsModel known (lookUp entry) := by
  cases entry <;> unfold lookUp <;> infer_instance

instance (tokens : List Token) : KeepsModel known (continueWith tokens) := .modify fun _ => rfl

instance (event : Event) : KeepsModel known (note event) := .modify fun _ => rfl

instance (issue : Issue) (position : Position) : KeepsModel known (remark issue position) :=
  .modify fun _ => rfl

instance : KeepsModel known advance :=
  KeepsModel.iff_maintains.mpr (.advance KeepsModel.lasting fun _ _ _ _ => trivial)

instance : KeepsModel known takeKey := by
  unfold takeKey
  infer_instance

instance (issue : GrammarIssue) (token : Token) : KeepsModel known (fail issue token : Reader α) :=
  inferInstanceAs (KeepsModel known (throw _))

instance (wanted : Wanted) (token : Token) :
    KeepsModel known (failExpected wanted token : Reader α) :=
  inferInstanceAs (KeepsModel known (fail _ token))

instance (place : Place) (token : Token) :
    KeepsModel known (failUnexpected place token : Reader α) :=
  inferInstanceAs (KeepsModel known (fail _ token))

instance (error : GrammarError) : KeepsModel known (report error) :=
  KeepsModel.iff_maintains.mpr (.report KeepsModel.lasting error)

instance (sign : Sign) : KeepsModel known (isSign sign) := by
  unfold isSign isNext
  infer_instance

instance (kinds : List Kind) : KeepsModel known (expect kinds) := by
  unfold expect
  infer_instance

instance : KeepsModel known expectOpening := by
  unfold expectOpening
  infer_instance

instance (line : Int) (wanted : Wanted) : KeepsModel known (expectString line wanted) := by
  unfold expectString
  infer_instance

instance (line : Int) (wanted : Wanted) : KeepsModel known (expectSingle line wanted) := by
  unfold expectSingle
  infer_instance

instance (line : Int) : KeepsModel known (takeValues line) := by
  unfold takeValues
  infer_instance

instance (line : Int) (wanted : Wanted) : KeepsModel known (expectValue line wanted) := by
  unfold expectValue
  refine .after fun values => ?_
  split <;> infer_instance

instance (line : Int) (limit : Nat) : KeepsModel known (takePositional line limit) := by
  unfold takePositional
  infer_instance

instance (line : Int) : KeepsModel known (expectLineEnd line) := by
  unfold expectLineEnd
  infer_instance

instance (line : Int) : KeepsModel known (opensBody line) := by
  unfold opensBody
  infer_instance

/-! ## Blocks -/

instance (token : Token) : KeepsModel known (recoverFrom token) := by
  unfold recoverFrom
  infer_instance

instance (statement : Reader Unit) [KeepsModel known statement] :
    KeepsModel known (readOrSkip statement) := by
  unfold readOrSkip
  infer_instance

instance (token : Token) : KeepsModel known (reportUnclosed token) :=
  KeepsModel.iff_maintains.mpr (.reportUnclosed KeepsModel.lasting token)

section

variable (leave : Token → α → α) (statement : α → Reader α)
  [hs : ∀ value, KeepsModel known (statement value)]

instance (value : α) : KeepsModel known (readStatementLeaving leave statement value) := by
  unfold readStatementLeaving
  infer_instance

instance (count : Nat) (value : α) :
    KeepsModel known (readBlockWithin leave statement count value) := by
  induction count generalizing value with
  | zero => exact inferInstanceAs (KeepsModel known (pure value))
  | succ count ih =>
    unfold readBlockWithin
    infer_instance

instance (value : α) : KeepsModel known (readBlockLeaving leave statement value) := by
  unfold readBlockLeaving
  infer_instance

end

instance (statement : NodeReader α Unit) [Spares statement]
    [hs : ∀ node, KeepsModel known (statement.fill node)] (node : α) :
    KeepsModel known (readBlock statement node) := by
  rw [readBlock_eq_keeping]
  unfold readBlockKeeping
  infer_instance

instance (statement : Reader Unit) [KeepsModel known statement] :
    KeepsModel known (readBlockOf statement) := by
  rw [readBlockOf_eq]
  unfold readBlockKeeping
  infer_instance

/-! ## Bodies -/

instance (block : Reader Properties) [KeepsModel known block] (entries : Properties) :
    KeepsModel known ((readEntry block).fill entries) := by
  rw [fill_readEntry]
  infer_instance

instance (depth : Nat) : KeepsModel known (readKeyValuesWithin depth) := by
  induction depth with
  | zero => exact inferInstanceAs (KeepsModel known (pure _))
  | succ depth ih =>
    unfold readKeyValuesWithin
    infer_instance

instance : KeepsModel known readKeyValues := by
  unfold readKeyValues
  infer_instance

instance (accepts : PropertyWord → Bool) : KeepsModel known (readProperty accepts) := by
  unfold readProperty
  refine .after fun token => ?_
  split
  · infer_instance
  · rename_i word _
    split
    · refine .after fun _ => ?_
      cases word with
      | tags =>
        refine .after fun values => ?_
        split <;> infer_instance
      | _ =>
        dsimp only
        infer_instance
    · infer_instance

instance (token : Token) : KeepsModel known (readDirectiveAfter token) := by
  have hm : ∀ name value : String, KeepsModel known (modifyWorkspace fun workspace =>
      { workspace with
        directives := workspace.directives ++ [⟨some token.position, name, value⟩] }) :=
    fun _ _ => .modifyWorkspace fun _ => rfl
  unfold readDirectiveAfter
  refine .after fun values => ?_
  split
  · infer_instance
  · dsimp only
    infer_instance

instance : KeepsModel known readDirective := by
  unfold readDirective
  infer_instance

instance (count : Nat) : KeepsModel known (readPathParts count) := by
  induction count with
  | zero => exact inferInstanceAs (KeepsModel known (pure _))
  | succ count ih =>
    unfold readPathParts
    infer_instance

instance (line : Int) : KeepsModel known (readReference line) := by
  unfold readReference
  infer_instance

instance (relationship : Relationship) :
    KeepsModel known (readRelationshipStatement.fill relationship) := by
  rw [fill_readRelationshipStatement]
  refine .after fun token => .after fun change => ?_
  split <;> infer_instance

instance (token : Token) (mayLeaveOut : Bool) :
    KeepsModel known (readOrigin token mayLeaveOut) := by
  unfold readOrigin
  infer_instance

instance (identifier : Option String) (first : Token) (mayLeaveOutSource : Bool) :
    KeepsModel known (readRelationship identifier first mayLeaveOutSource) := by
  unfold readRelationship
  refine .after fun token => .after fun source => .after fun arrow => .after fun destination => ?_
  infer_instance

section

variable (body : BodyKind → Reader (List BodyEntry)) [hb : ∀ kind, KeepsModel known (body kind)]

instance (kind : BodyKind) (keyword : Token) : KeepsModel known (readBody body kind keyword) := by
  unfold readBody
  infer_instance

instance (instanceOf : InstanceOf) (identifier : Option String) (position : Position)
    (line : Int) : KeepsModel known (readDeployed instanceOf identifier position line) := by
  unfold readDeployed
  infer_instance

instance (kind : BodyKind) (instanceOf : InstanceOf) (identifier : Option String)
    (first keyword : Token) :
    KeepsModel known (readInstance body kind instanceOf identifier first keyword) := by
  unfold readInstance
  infer_instance

instance (identifier : Option String) (first keyword : Token) :
    KeepsModel known (readEnterprise body identifier first keyword) := by
  unfold readEnterprise
  infer_instance

instance (kind : BodyKind) (identifier : Option String) (first keyword : Token) :
    KeepsModel known (readPlain body kind identifier first keyword) := by
  unfold readPlain
  infer_instance

instance (kind : BodyKind) (identifier : Option String) (first : Token) :
    KeepsModel known (readElement body kind identifier first) := by
  unfold readElement
  refine .after fun keyword => ?_
  split <;> infer_instance

instance : KeepsModel known readIdentifier := by
  unfold readIdentifier
  refine .after fun tokens => ?_
  split <;> infer_instance

instance (owner : BodyKind) : KeepsModel known (readDeclaration body owner) := by
  unfold readDeclaration
  refine .after fun first => .after fun identifier => .after fun token => .after fun tokens => ?_
  split
  · infer_instance
  · split <;> infer_instance

instance (owner : BodyKind) : KeepsModel known (readBodyStatement body owner) := by
  unfold readBodyStatement
  refine .after fun token => ?_
  split
  · infer_instance
  · refine .after fun change => ?_
    split <;> infer_instance

instance (owner : BodyKind) (entries : List BodyEntry) :
    KeepsModel known ((readBodyEntry body owner).fill entries) := by
  rw [fill_readBodyEntry]
  infer_instance

end

instance (depth : Nat) (owner : BodyKind) :
    KeepsModel known (readEntriesWithin depth owner) := by
  induction depth generalizing owner with
  | zero => exact inferInstanceAs (KeepsModel known (pure _))
  | succ depth ih =>
    unfold readEntriesWithin
    infer_instance

instance (owner : BodyKind) : KeepsModel known (readEntries owner) := by
  unfold readEntries
  infer_instance

/-! ## Views -/

instance (line : Int) : KeepsModel known (readScope line) := by
  unfold readScope
  infer_instance

instance (position : Position) (line : Int) :
    KeepsModel known (readKeyAndDescription position line) := by
  unfold readKeyAndDescription
  infer_instance

instance (word : ViewWord) (position : Position) (line : Int) :
    KeepsModel known (readViewHeader word position line) := by
  unfold readViewHeader
  cases word <;> infer_instance

instance (line : Int) : KeepsModel known (readTerm line) := by
  unfold readTerm
  infer_instance

instance (line : Int) (count : Nat) : KeepsModel known (readTermsWithin line count) := by
  induction count with
  | zero => exact inferInstanceAs (KeepsModel known (pure _))
  | succ count ih =>
    unfold readTermsWithin
    infer_instance

instance (line : Int) : KeepsModel known (readTerms line) := by
  unfold readTerms
  infer_instance

instance (line : Int) (count : Nat) : KeepsModel known (readExpressionsWithin line count) := by
  induction count with
  | zero => exact inferInstanceAs (KeepsModel known (pure _))
  | succ count ih =>
    unfold readExpressionsWithin
    infer_instance

instance (keyword : Token) : KeepsModel known (readExpressions keyword) := by
  unfold readExpressions
  refine .after fun tokens => .after fun expressions => ?_
  split <;> infer_instance

instance (line : Int) : KeepsModel known (takeInteger? line) := by
  unfold takeInteger?
  refine .after fun token => ?_
  split
  · split <;> infer_instance
  · infer_instance

instance (line : Int) : KeepsModel known (takeWord? line) := by
  unfold takeWord?
  infer_instance

instance (keyword : Token) : KeepsModel known (readAutoLayout keyword) := by
  unfold readAutoLayout
  infer_instance

instance (animation : Animation) : KeepsModel known (readAnimationStep.fill animation) := by
  rw [fill_readAnimationStep]
  refine .after fun first => .after fun terms => ?_
  split <;> infer_instance

instance (keyword : Token) : KeepsModel known (readAnimation keyword) := by
  unfold readAnimation
  infer_instance

instance : KeepsModel known readInteraction := by
  unfold readInteraction
  infer_instance

instance (view : View) : KeepsModel known (readDynamicStep.fill view) := by
  rw [fill_readDynamicStep]
  infer_instance

instance (view : View) : KeepsModel known (readSortStatement.fill view) := by
  rw [fill_readSortStatement]
  refine .after fun token => ?_
  split <;> infer_instance

instance (view : View) : KeepsModel known (readViewStatement.fill view) := by
  rw [fill_readViewStatement]
  refine .after fun token => ?_
  dsimp only
  split <;> infer_instance

instance (word : ViewWord) : KeepsModel known (readView word) := by
  unfold readView
  rw [readBlock_readViewStatement]
  infer_instance

/-! ## Presentation -/

instance (token : Token) (wanted : Wanted) (add : Style → Styles → Styles) :
    KeepsModel known (readStyleOf token wanted add) := by
  have hm : ∀ (tag : String) (entries : Properties), KeepsModel known (modifyWorkspace
      fun workspace => { workspace with
        styles := workspace.styles.map (add ⟨some token.position, tag, entries⟩) }) :=
    fun _ _ => .modifyWorkspace fun _ => rfl
  unfold readStyleOf
  infer_instance

instance : KeepsModel known readStyle := by
  unfold readStyle
  infer_instance

instance (keyword : Token) : KeepsModel known (readStyles keyword) := by
  have hm : KeepsModel known (modifyWorkspace fun workspace =>
      { workspace with
        styles := some (workspace.styles.getD { position := some keyword.position }) }) :=
    .modifyWorkspace fun _ => rfl
  unfold readStyles
  infer_instance

instance (keyword : Token) : KeepsModel known (readThemes keyword) := by
  unfold readThemes
  refine .after fun urls => ?_
  split
  · infer_instance
  · exact .modifyWorkspace fun _ => rfl

instance (branding : Branding) : KeepsModel known (readBrandingStatement.fill branding) := by
  rw [fill_readBrandingStatement]
  refine .after fun token => ?_
  split
  · infer_instance
  · split
    · refine .after fun values => ?_
      split <;> infer_instance
    · infer_instance

instance (keyword : Token) : KeepsModel known (readBranding keyword) := by
  unfold readBranding
  exact .after fun _ => .after fun _ => .modifyWorkspace fun _ => rfl

instance (keyword : Token) : KeepsModel known (readTerminology keyword) := by
  unfold readTerminology
  exact .after fun _ => .modifyWorkspace fun _ => rfl

instance : KeepsModel known readPresentation := by
  unfold readPresentation
  refine .after fun token => ?_
  split <;> infer_instance

/-! ## Documentation and decisions -/

instance (keyword : Token) : KeepsModel known (readAssigned keyword) := by
  unfold readAssigned
  infer_instance

instance (keyword : Token) (value : String) : KeepsModel known (readOrderValue keyword value) := by
  unfold readOrderValue
  refine .after fun _ => ?_
  dsimp only
  split
  · infer_instance
  · split <;> infer_instance

instance (keyword : Token) : KeepsModel known (readOrder keyword) := by
  unfold readOrder
  infer_instance

instance (part : Section) : KeepsModel known (readSectionStatement.fill part) := by
  rw [fill_readSectionStatement]
  refine .after fun token => ?_
  split <;> infer_instance

instance : KeepsModel known readSection := by
  unfold readSection
  infer_instance

instance (decision : Decision) : KeepsModel known (readDecisionStatement.fill decision) := by
  rw [fill_readDecisionStatement]
  refine .after fun token => ?_
  split <;> infer_instance

instance : KeepsModel known readDecision := by
  unfold readDecision
  infer_instance

instance : KeepsModel known readDecisionEntry := by
  unfold readDecisionEntry
  exact .after fun _ => .modifyWorkspace fun _ => rfl

instance : KeepsModel known readDecisions := by
  unfold readDecisions
  infer_instance

instance (change : Documentation → Documentation) :
    KeepsModel known (modifyDocumentation change) :=
  .modifyWorkspace fun _ => rfl

instance : KeepsModel known readDocumentationStatement := by
  unfold readDocumentationStatement
  refine .after fun token => ?_
  split <;> infer_instance

instance : KeepsModel known readDocumentation := by
  have hm : ∀ keyword : Token, KeepsModel known (modifyWorkspace fun workspace =>
      { workspace with documentation := some { position := some keyword.position } }) :=
    fun _ => .modifyWorkspace fun _ => rfl
  unfold readDocumentation
  infer_instance

/-! ## Workspaces -/

instance (change : Views → Views) : KeepsModel known (modifyViews change) :=
  .modifyWorkspace fun _ => rfl

instance : KeepsModel known readViewsStatement := by
  unfold readViewsStatement
  refine .after fun token => ?_
  split <;> infer_instance

instance : KeepsModel known readViews := by
  have hm : ∀ keyword : Token, KeepsModel known (modifyWorkspace fun workspace =>
      { workspace with
        views := some (workspace.views.getD { position := some keyword.position }) }) :=
    fun _ => .modifyWorkspace fun _ => rfl
  unfold readViews
  infer_instance

section

variable [hm : KeepsModel known readModel]

/-- Where the block of the model keeps what is known, so does every statement of a workspace. -/
instance : KeepsModel known readWorkspaceStatement := by
  unfold readWorkspaceStatement
  refine .after fun token => ?_
  split
  · exact .after fun _ => .after fun _ => .modifyWorkspace fun _ => rfl
  · exact .after fun _ => .after fun _ => .modifyWorkspace fun _ => rfl
  · exact hm
  · infer_instance
  · exact .after fun _ => .after fun _ => .modifyWorkspace fun _ => rfl
  · exact .after fun _ => .after fun _ => .modifyWorkspace fun _ => rfl
  all_goals infer_instance

instance : KeepsModel known readWorkspace := by
  unfold readWorkspace
  refine .after fun keyword => .after fun arguments => ?_
  have hw : KeepsModel known (modifyWorkspace fun workspace =>
      { workspace with
        position := some keyword.position
        name := argument arguments 0
        description := argument arguments 1 }) := .modifyWorkspace fun _ => rfl
  infer_instance

instance (count : Nat) : KeepsModel known (readDirectives count) := by
  induction count with
  | zero => exact inferInstanceAs (KeepsModel known (pure _))
  | succ count ih =>
    unfold readDirectives
    infer_instance

/-- Where the block of the model keeps what is known, reading a whole source does. -/
instance keepsModel_readSource : KeepsModel known readSource := by
  unfold readSource
  infer_instance

end

end Blueprint.Grammar
