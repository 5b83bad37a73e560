import Blueprint.Proofs.Places.Run

/-!
# Bodies of the model keep places

A relationship and an element take their place from the token at which their statement starts. The
bodies of a model, with everything inside them, keep places.
-/

namespace Blueprint.Grammar

open Blueprint.Declared Blueprint.Text

variable {spots : Position → Prop}

/-! ## Properties -/

/-- An entry keeps places if the blocks inside it do. -/
theorem keeps_readEntry {block : Reader Properties} (h : Keeps spots block)
    (entries : Properties) : Keeps spots ((readEntry block).fill entries) := by
  rw [fill_readEntry]
  exact anchors_takeKey.bind fun key _ => (keeps_isSign _).bind fun _ _ =>
    .ite (h.bind fun _ _ => .pure trivial)
      ((keeps_takeValues key.line).bind fun _ _ => .pure trivial)

/-- Keys and values keep places, however deep. -/
theorem keeps_readKeyValuesWithin (depth : Nat) : Keeps spots (readKeyValuesWithin depth) := by
  induction depth with
  | zero => exact .pure trivial
  | succ depth ih =>
    unfold readKeyValuesWithin
    exact keeps_expectOpening.bind fun _ _ =>
      anchors_readBlock (fun entries _ => keeps_readEntry ih entries) trivial

/-- Keys and values keep places. -/
theorem keeps_readKeyValues : Keeps spots readKeyValues := by
  unfold readKeyValues
  exact anchors_remaining.bind fun _ _ => keeps_readKeyValuesWithin _

/-- A property statement keeps places. -/
theorem keeps_readProperty (accepts : PropertyWord → Bool) :
    Keeps spots (readProperty accepts) := by
  unfold readProperty
  refine anchors_current.bind fun token _ => ?_
  split
  · exact .pure trivial
  · rename_i word _
    refine .ite (anchors_advance.bind fun _ _ => ?_) (.pure trivial)
    have hvalue : ∀ make : String → PropertyEdit, Keeps spots (do
        let value ← expectValue token.line (.valueFor token.lexeme)
        return some (make value)) :=
      fun make => (keeps_expectValue _ _).bind fun _ _ => .pure trivial
    have hblock : ∀ make : Properties → PropertyEdit, Keeps spots (do
        let entries ← readKeyValues
        return some (make entries)) :=
      fun make => keeps_readKeyValues.bind fun _ _ => .pure trivial
    cases word with
    | description => exact hvalue .description
    | technology => exact hvalue .technology
    | url => exact hvalue .url
    | location => exact hvalue .location
    | instances => exact hvalue .instances
    | tags =>
      refine (keeps_takeValues token.line).bind fun values _ => ?_
      split
      · exact anchors_current.bind fun next _ => anchors_failExpected _ next
      · exact .pure trivial
    | properties => exact hblock .properties
    | perspectives => exact hblock .perspectives

/-! ## Relationships -/

/-- The rest of a directive keeps places. -/
theorem keeps_readDirectiveAfter {token : Token} (h : spots token.position) :
    Keeps spots (readDirectiveAfter token) := by
  unfold readDirectiveAfter
  refine (keeps_takeValues token.line).bind fun values _ => ?_
  split
  · exact keeps_remark _ _
  · refine .guarded (.fail _ token) fun _ => .guarded (.fail _ token) fun _ =>
      keeps_modifyWorkspace fun workspace hw => { hw with directives := ?_ }
    exact List.forall_mem_append.mpr
      ⟨hw.directives, List.forall_mem_singleton.mpr (within_some h)⟩

/-- A directive keeps places. -/
theorem keeps_readDirective : Keeps spots readDirective := by
  unfold readDirective
  exact anchors_advance.bind fun _ => keeps_readDirectiveAfter

/-- The further parts of a reference keep places. -/
theorem keeps_readPathParts (count : Nat) : Keeps spots (readPathParts count) := by
  induction count with
  | zero => exact .pure trivial
  | succ count ih =>
    unfold readPathParts
    refine (keeps_isSign _).bind fun _ _ => .ite ?_ (.pure trivial)
    refine anchors_advance.bind fun _ _ => anchors_current.bind fun part _ => .ite ?_ ?_
    · exact anchors_advance.bind fun _ _ => ih.bind fun _ _ => .pure trivial
    · exact anchors_failExpected _ part

/-- A reference keeps places. -/
theorem keeps_readReference (line : Int) : Keeps spots (readReference line) := by
  unfold readReference
  refine anchors_current.bind fun token _ => .guarded (anchors_failExpected _ token) fun _ =>
    anchors_advance.bind fun _ _ => .ite (.pure trivial) ?_
  exact anchors_remaining.bind fun _ _ => (keeps_readPathParts _).bind fun _ _ => .pure trivial

/-- A relationship with one of the places. -/
abbrev Rooted (spots : Position → Prop) (relationship : Relationship) : Prop :=
  Within spots relationship.position

/-- A statement in the body of a relationship keeps places. -/
theorem anchors_readRelationshipStatement {relationship : Relationship}
    (h : Rooted spots relationship) :
    Anchors spots (readRelationshipStatement.fill relationship) (Rooted spots) := by
  rw [fill_readRelationshipStatement]
  refine anchors_current.bind fun token _ => (keeps_readProperty _).bind fun change _ => ?_
  split
  · refine .pure ?_
    unfold Rooted
    rw [position_edit_relationship]
    exact h
  · exact anchors_failUnexpected _ token

/-- The source of a relationship keeps places. -/
theorem keeps_readOrigin (token : Token) (mayLeaveOut : Bool) :
    Keeps spots (readOrigin token mayLeaveOut) := by
  unfold readOrigin
  exact .ite (.ite (.pure trivial) (.fail _ token)) (keeps_readReference _)

/-- A relationship has the place of its first token. -/
theorem anchors_readRelationship (identifier : Option String) {first : Token}
    (h : spots first.position) (mayLeaveOutSource : Bool) :
    Anchors spots (readRelationship identifier first mayLeaveOutSource) (Rooted spots) := by
  unfold readRelationship
  refine anchors_current.bind fun token _ => (keeps_readOrigin token _).bind fun source _ =>
    (anchors_expect _).bind fun _ _ => (keeps_readReference _).bind fun destination _ =>
      (keeps_takePositional _ 3).bind fun arguments _ =>
        (keeps_expectLineEnd _).bind fun _ _ => (keeps_opensBody _).bind fun _ _ => ?_
  exact .ite (anchors_readBlock (fun _ => anchors_readRelationshipStatement) (within_some h))
    (.pure (within_some h))

/-! ## Elements -/

/-- A plain element has the place where its declaration starts. -/
theorem anchored_plainElement? {kind : BodyKind} {identifier : Option String}
    {position : Position} (h : spots position) {name : String} {arguments : List String}
    {element : Element}
    (he : plainElement? kind identifier position name arguments = some element) :
    Anchored spots element.nodes := by
  have hp : ∀ place, some position = some place → spots place := by
    rintro _ ⟨⟩
    exact h
  cases kind <;> cases he <;>
    first
    | exact anchored_plain.mpr ⟨hp, List.forall_mem_nil _, List.forall_mem_nil _⟩
    | exact anchored_environment.mpr ⟨hp, List.forall_mem_nil _, List.forall_mem_nil _⟩

/-- The header of an instance has the place where its declaration starts. -/
theorem anchors_readDeployed (instanceOf : InstanceOf) (identifier : Option String)
    {position : Position} (h : spots position) (line : Int) :
    Anchors spots (readDeployed instanceOf identifier position line) fun element =>
      Anchored spots element.nodes := by
  unfold readDeployed
  exact (keeps_readReference line).bind fun _ _ => (keeps_takePositional line 2).bind fun _ _ =>
    .pure (anchored_deployed.mpr ⟨within_some h, List.forall_mem_nil _⟩)

/-- Statements of a body with their places. -/
abbrev AnchoredEntries (spots : Position → Prop) (entries : List BodyEntry) : Prop :=
  ∀ entry ∈ entries, AnchoredEntry spots entry

variable {body : BodyKind → Reader (List BodyEntry)}

/-- The body of an element keeps places if bodies do. -/
theorem anchors_readBody (h : ∀ kind, Anchors spots (body kind) (AnchoredEntries spots))
    (kind : BodyKind) (keyword : Token) :
    Anchors spots (readBody body kind keyword) (AnchoredEntries spots) := by
  unfold readBody
  refine (keeps_expectLineEnd _).bind fun _ _ => (keeps_opensBody _).bind fun _ _ =>
    .ite (h kind) (.ite ?_ (.pure (List.forall_mem_nil _)))
  exact anchors_current.bind fun token _ => anchors_failExpected _ token

/-- The declaration of an instance keeps places if bodies do. -/
theorem anchors_readInstance (h : ∀ kind, Anchors spots (body kind) (AnchoredEntries spots))
    (kind : BodyKind) (instanceOf : InstanceOf) (identifier : Option String) {first : Token}
    (hf : spots first.position) (keyword : Token) :
    Anchors spots (readInstance body kind instanceOf identifier first keyword)
      (AnchoredEntry spots) := by
  unfold readInstance
  exact (anchors_readDeployed _ _ hf _).bind fun _ hheader =>
    (anchors_readBody h kind keyword).bind fun _ hentries =>
      .pure (anchored_addAll hentries hheader)

/-- The declaration of an enterprise keeps places if bodies do. -/
theorem anchors_readEnterprise (h : ∀ kind, Anchors spots (body kind) (AnchoredEntries spots))
    (identifier : Option String) {first : Token} (hf : spots first.position) (keyword : Token) :
    Anchors spots (readEnterprise body identifier first keyword) (AnchoredEntry spots) := by
  unfold readEnterprise
  exact .guarded (.fail _ first) fun _ => (keeps_expectString _ _).bind fun _ _ =>
    (anchors_readBody h .enterprise keyword).bind fun _ hentries =>
      .pure (anchored_enterprise_addAll hentries
        (anchored_enterprise.mpr ⟨within_some hf, List.forall_mem_nil _, List.forall_mem_nil _⟩))

/-- The declaration of a plain element keeps places if bodies do. -/
theorem anchors_readPlain (h : ∀ kind, Anchors spots (body kind) (AnchoredEntries spots))
    (kind : BodyKind) (identifier : Option String) {first : Token} (hf : spots first.position)
    (keyword : Token) :
    Anchors spots (readPlain body kind identifier first keyword) (AnchoredEntry spots) := by
  unfold readPlain
  exact (keeps_expectString _ _).bind fun _ _ => (anchors_lookUp _).bind fun _ _ =>
    (keeps_takePositional _ _).bind fun _ _ => (anchors_lookUp _).bind fun _ hheader =>
      (anchors_readBody h kind keyword).bind fun _ hentries =>
        .pure (anchored_addAll hentries (anchored_plainElement? hf hheader))

/-- The declaration of an element keeps places if bodies do. -/
theorem anchors_readElement (h : ∀ kind, Anchors spots (body kind) (AnchoredEntries spots))
    (kind : BodyKind) (identifier : Option String) {first : Token} (hf : spots first.position) :
    Anchors spots (readElement body kind identifier first) (AnchoredEntry spots) := by
  unfold readElement
  refine anchors_advance.bind fun keyword _ => ?_
  split
  · exact anchors_readInstance h _ _ identifier hf keyword
  · exact anchors_readInstance h _ _ identifier hf keyword
  · exact anchors_readEnterprise h identifier hf keyword
  · exact anchors_readPlain h _ identifier hf keyword

/-! ## Bodies -/

/-- An identifier keeps places. -/
theorem keeps_readIdentifier : Keeps spots readIdentifier := by
  unfold readIdentifier
  refine anchors_remaining.bind fun tokens _ => ?_
  split
  · exact .ite (anchors_advance.bind fun _ _ => anchors_advance.bind fun _ _ => .pure trivial)
      (.pure trivial)
  · exact .pure trivial

/-- A declaration of a body keeps places if the bodies inside it do. -/
theorem anchors_readDeclaration (h : ∀ kind, Anchors spots (body kind) (AnchoredEntries spots))
    (owner : BodyKind) : Anchors spots (readDeclaration body owner) (AnchoredEntry spots) := by
  unfold readDeclaration
  refine anchors_current.bind fun first hf => keeps_readIdentifier.bind fun identifier _ =>
    anchors_current.bind fun token _ => anchors_remaining.bind fun _ _ => .ite ?_ ?_
  · exact (anchors_readRelationship _ hf _).bind fun _ hr => .pure hr
  · split
    · exact anchors_failUnexpected _ token
    · exact .ite (anchors_readElement h _ identifier hf) (.fail _ token)

/-- A statement of a body keeps places if the bodies inside it do. -/
theorem anchors_readBodyStatement (h : ∀ kind, Anchors spots (body kind) (AnchoredEntries spots))
    (owner : BodyKind) :
    Anchors spots (readBodyStatement body owner) (AnchoredEntries spots) := by
  unfold readBodyStatement
  refine anchors_current.bind fun token _ =>
    .ite (keeps_readDirective.bind fun _ _ => .pure (List.forall_mem_nil _)) ?_
  refine (keeps_readProperty _).bind fun change _ => ?_
  split
  · exact .pure (List.forall_mem_singleton.mpr trivial)
  · exact (anchors_readDeclaration h owner).bind fun _ he =>
      .pure (List.forall_mem_singleton.mpr he)

/-- Bodies keep places, however deep. -/
theorem anchors_readEntriesWithin (depth : Nat) (owner : BodyKind) :
    Anchors spots (readEntriesWithin depth owner) (AnchoredEntries spots) := by
  induction depth generalizing owner with
  | zero => exact .pure (List.forall_mem_nil _)
  | succ depth ih =>
    unfold readEntriesWithin
    refine anchors_readBlock (fun entries hentries => ?_) (List.forall_mem_nil _)
    rw [fill_readBodyEntry]
    exact (anchors_readBodyStatement ih owner).bind fun _ hmore =>
      .pure (List.forall_mem_append.mpr ⟨hentries, hmore⟩)

/-- Bodies keep places. -/
theorem anchors_readEntries (owner : BodyKind) :
    Anchors spots (readEntries owner) (AnchoredEntries spots) := by
  unfold readEntries
  exact anchors_remaining.bind fun _ _ => anchors_readEntriesWithin _ owner

/-- The block of the model keeps places. -/
theorem keeps_readModel : Keeps spots readModel := by
  have hs : Keeps spots readModelStatement := by
    unfold readModelStatement
    refine (anchors_readBodyStatement anchors_readEntries .model).bind fun entries he =>
      keeps_modifyWorkspace fun workspace hw => { hw with model := ?_ }
    intro model hm
    obtain ⟨before, hb, rfl⟩ := Option.map_eq_some_iff.mp hm
    exact (hw.model before hb).addAll he
  unfold readModel
  refine anchors_advance.bind fun keyword hk => (keeps_modifyWorkspace ?_).bind fun _ _ =>
    keeps_expectOpening.bind fun _ _ => keeps_readBlockOf hs
  refine fun workspace hw => { hw with model := ?_ }
  rintro _ ⟨⟩
  cases hm : workspace.model with
  | none => exact Model.anchored_empty (within_some hk)
  | some model => exact hw.model model hm

end Blueprint.Grammar
