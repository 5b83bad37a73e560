import Blueprint.Proofs.Qualified.Build
import Blueprint.Proofs.Recovery.Source
import Blueprint.Proofs.Tier.Model
import Blueprint.Proofs.Token.Slice

/-!
# Where identifiers come from

Reading takes the identifiers of elements from the words that are left, and from nothing else. So
what holds of all words of a source holds of every identifier in it: none is empty, and none is a
path.
-/

namespace Blueprint.Declared

open Grammar (BodyEntry PropertyEdit)

variable {property other both : Option String → Prop}

/-! ## Adding statements -/

/-- The identifiers of what a statement of a body declares have a property. -/
def GivenEntry (property : Option String → Prop) : BodyEntry → Prop
  | .member member => member.Given property
  | .enterprise enterprise => Element.AllGiven property enterprise.members
  | .edit _ | .relationship _ => True

/-- A further member joins members at the end. -/
theorem Element.AllGiven.concat {members : List Element} {member : Element}
    (h : Element.AllGiven property members) (hm : member.Given property) :
    Element.AllGiven property (members ++ [member]) := by
  rw [allGiven_iff] at h ⊢
  exact List.forall_mem_append.mpr ⟨h, List.forall_mem_singleton.mpr hm⟩

/-- A further member joins members at the place of its rank. -/
theorem Element.AllGiven.insert {members : List Element} {member : Element}
    (h : Element.AllGiven property members) (hm : member.Given property) (rank : Element → Nat) :
    Element.AllGiven property (insertByRank rank member members) := by
  rw [allGiven_iff] at h ⊢
  exact (forall_mem_insertByRank ..).mpr ⟨hm, h⟩

/-- A further member joins those of an element. -/
theorem Element.Given.insertMember {owner member : Element} (h : owner.Given property)
    (hm : member.Given property) : (owner.insertMember member).Given property := by
  unfold Element.insertMember
  split
  · exact ⟨h.1, h.2.concat hm⟩
  · exact ⟨h.1, h.2.insert hm _⟩
  · exact ⟨h.1, h.2.concat hm⟩
  · exact h

/-- A property statement leaves the identifiers of an element. -/
theorem Element.Given.edit {element : Element} (h : element.Given property)
    (change : PropertyEdit) : (element.edit change).Given property := by
  cases element with
  | plain _ details _ _ => cases change <;> exact h
  | environment _ _ _ => exact h
  | deployed deployment _ => cases change <;> exact h

/-- A further statement keeps what identifiers in an element have, if its own have it. -/
theorem Element.Given.add {element : Element} (h : element.Given property) {entry : BodyEntry}
    (he : GivenEntry property entry) : (element.add entry).Given property := by
  cases entry with
  | edit change => exact h.edit change
  | relationship _ => cases element <;> exact h
  | member member => exact h.insertMember he
  | enterprise _ => exact h

/-- So do further statements. -/
theorem Element.Given.addAll {element : Element} (h : element.Given property)
    {entries : List BodyEntry} (he : ∀ entry ∈ entries, GivenEntry property entry) :
    (entries.foldl Element.add element).Given property :=
  List.foldlRecOn (motive := Element.Given property) entries Element.add h
    fun _ hg entry hm => hg.add (he entry hm)

/-- The members of an enterprise keep what their identifiers have. -/
theorem Enterprise.given_addAll {enterprise : Enterprise} {entries : List BodyEntry}
    (h : Element.AllGiven property enterprise.members)
    (he : ∀ entry ∈ entries, GivenEntry property entry) :
    Element.AllGiven property (entries.foldl Enterprise.add enterprise).members := by
  refine List.foldlRecOn (motive := fun built : Enterprise =>
    Element.AllGiven property built.members) entries Enterprise.add h ?_
  intro built hg entry hm
  have he := he entry hm
  cases entry with
  | member member => exact hg.concat he
  | edit _ => exact hg
  | relationship _ => exact hg
  | enterprise _ => exact hg

/-- A model keeps what its identifiers have. -/
theorem Model.Given.addAll {model : Model} (h : model.Given property) {entries : List BodyEntry}
    (he : ∀ entry ∈ entries, GivenEntry property entry) :
    (entries.foldl Model.add model).Given property := by
  refine List.foldlRecOn (motive := Model.Given property) entries Model.add h ?_
  intro built hg entry hm
  have he := he entry hm
  cases entry with
  | edit change => cases change <;> exact ⟨hg.members, hg.enterprise⟩
  | relationship _ => exact ⟨hg.members, hg.enterprise⟩
  | member member => exact ⟨hg.members.insert he _, hg.enterprise⟩
  | enterprise enterprise =>
    refine ⟨hg.members, ?_⟩
    rintro _ ⟨⟩
    exact he

/-! ## Several properties -/

mutual

/-- What two properties say together holds where both hold. -/
theorem Element.Given.combine (h : ∀ id?, property id? → other id? → both id?) :
    ∀ {element : Element}, element.Given property → element.Given other → element.Given both
  | .plain _ _ _ _, hp, ho => ⟨h _ hp.1 ho.1, Element.AllGiven.combine h hp.2 ho.2⟩
  | .environment _ _ _, hp, ho => ⟨h _ hp.1 ho.1, Element.AllGiven.combine h hp.2 ho.2⟩
  | .deployed _ _, hp, ho => h _ hp ho

/-- So it is with the elements of a list. -/
theorem Element.AllGiven.combine (h : ∀ id?, property id? → other id? → both id?) :
    ∀ {members : List Element}, Element.AllGiven property members →
      Element.AllGiven other members → Element.AllGiven both members
  | [], _, _ => trivial
  | _ :: _, hp, ho => ⟨Element.Given.combine h hp.1 ho.1, Element.AllGiven.combine h hp.2 ho.2⟩

end

/-- So it is with a workspace. -/
theorem Workspace.Given.combine {workspace : Workspace} (hp : workspace.Given property)
    (ho : workspace.Given other) (h : ∀ id?, property id? → other id? → both id?) :
    workspace.Given both := fun model hm =>
  ⟨(hp model hm).members.combine h (ho model hm).members,
    fun enterprise he => ((hp model hm).enterprise enterprise he).combine h
      ((ho model hm).enterprise enterprise he)⟩

end Blueprint.Declared

namespace Blueprint.Grammar

open Blueprint.Declared Blueprint.Text

variable {α β : Type} {property : Option String → Prop} {p q : Progress}

/-! ## Readers that take identifiers from words -/

/-- The words that are left have a property, and so have the identifiers in the model so far. -/
structure Progress.Named (property : Option String → Prop) (p : Progress) : Prop where
  /-- The words that are left. -/
  words : ∀ token ∈ p.rest, token.kind = .identifier → property (some token.lexeme)
  /-- The identifiers in the model. -/
  workspace : p.workspace.Given property

/-- What the words that are left and the identifiers in the model have is kept when words are
taken. -/
theorem Progress.lasting_named : Lasting (Progress.Named property) :=
  fun _ _ hp hs hw => ⟨fun token ht => hp.words token (hs.subset ht), hw ▸ hp.workspace⟩

/-- A reader takes identifiers from words only, however it ends, and its value is good. -/
def Names (property : Option String → Prop) (reader : Reader α) (good : α → Prop) : Prop :=
  ∀ p : Progress, p.Named property → ∀ result q, reader.run.run p = (result, q) →
    q.Named property ∧ ∀ value, result = .ok value → good value

namespace Names

variable {reader : Reader α} {good : α → Prop} {fit : β → Prop} {taken : α → Prop}

/-- A reader that takes tokens from the front and leaves the model alone takes no identifiers. -/
theorem idle (h : Passes taken reader)
    [hk : ∀ known : Option Model → Prop, KeepsModel known reader] :
    Names property reader fun _ => True := by
  intro p hp result q hr
  refine ⟨⟨fun token hm => hp.words token ((h.rest hr).subset hm), ?_⟩, fun _ _ => trivial⟩
  have hkeeps := (hk fun model => ∀ found, model = some found → found.Given property).keeps p
    hp.workspace
  rw [hr] at hkeeps
  exact hkeeps

/-- A value alone takes nothing. -/
theorem pure {value : α} (h : good value) : Names property (pure value) good :=
  Maintains.pure h

/-- A halt takes nothing. -/
theorem throw (halt : Halt) : Names property (throw halt : Reader α) good :=
  Maintains.throw halt

/-- Readers that take identifiers from words, one after the other. -/
theorem bind {next : α → Reader β} (h : Names property reader good)
    (hn : ∀ value, good value → Names property (next value) fit) :
    Names property (reader >>= next) fit :=
  Maintains.bind h hn

/-- A choice between readers that take identifiers from words. -/
theorem ite {holds : Prop} [Decidable holds] {alternative : Reader α}
    (ht : Names property reader good) (hf : Names property alternative good) :
    Names property (if holds then reader else alternative) good :=
  Maintains.ite ht hf

end Names

/-- Looking at the next token takes nothing. -/
theorem names_current : Names property current fun _ => True :=
  Maintains.looking

/-- The words among the tokens that are left have the property. -/
theorem names_remaining : Names property remaining fun tokens =>
    ∀ token ∈ tokens, token.kind = .identifier → property (some token.lexeme) :=
  Maintains.remaining fun _ hp => hp.words

/-- Taking a token takes no identifier. -/
theorem names_advance : Names property advance fun _ => True :=
  Maintains.advance Progress.lasting_named fun _ _ _ _ => trivial

/-- Changing the workspace takes no identifier if it keeps what identifiers in the model have. -/
theorem names_modifyWorkspace {change : Workspace → Workspace}
    (h : ∀ workspace, workspace.Given property → (change workspace).Given property) :
    Names property (modifyWorkspace change) fun _ => True :=
  Maintains.modify fun p hp => ⟨hp.words, h p.workspace hp.workspace⟩

/-! ## Blocks -/

/-- A statement outside of blocks takes identifiers from words, also if it fails. -/
theorem Names.readOrSkip {statement : Reader Unit}
    (h : Names property statement fun _ => True) :
    Names property (readOrSkip statement) fun _ => True :=
  Maintains.readOrSkip Progress.lasting_named h

/-- The body of a node takes identifiers from words if its statements do. -/
theorem Names.readBlock {statement : NodeReader α Unit} [Spares statement] {good : α → Prop}
    (h : ∀ node, good node → Names property (statement.fill node) good) {node : α}
    (hv : good node) : Names property (readBlock statement node) good :=
  Maintains.readBlock Progress.lasting_named h hv

/-- A block takes identifiers from words if its statements do. -/
theorem Names.readBlockOf {statement : Reader Unit}
    (h : Names property statement fun _ => True) :
    Names property (readBlockOf statement) fun _ => True :=
  Maintains.readBlockOf Progress.lasting_named h

/-! ## Elements -/

/-- The identifier before an equals sign is a word. -/
theorem names_readIdentifier (hn : property none) :
    Names property readIdentifier fun identifier => property identifier := by
  unfold readIdentifier
  refine names_remaining.bind fun tokens ht => ?_
  split
  · rename_i name sign rest
    split
    · rename_i hc
      rw [Bool.and_eq_true, Bool.and_eq_true, beq_iff_eq] at hc
      exact names_advance.bind fun _ _ => names_advance.bind fun _ _ =>
        .pure (ht name List.mem_cons_self hc.1.1)
    · exact .pure hn
  · exact .pure hn

/-- A declared header has the identifier that is given. -/
theorem given_plainElement? {kind : BodyKind} {identifier : Option String} {position : Position}
    {name : String} {arguments : List String} {element : Element}
    (h : plainElement? kind identifier position name arguments = some element)
    (hi : property identifier) : element.Given property := by
  cases kind <;> cases h <;> exact ⟨hi, trivial⟩

/-- Bodies take the identifiers of what they declare from words. -/
abbrev NamesBody (property : Option String → Prop)
    (body : BodyKind → Reader (List BodyEntry)) : Prop :=
  ∀ owner, Names property (body owner) fun entries =>
    ∀ entry ∈ entries, GivenEntry property entry

variable {body : BodyKind → Reader (List BodyEntry)}

/-- The body after a header takes identifiers from words. -/
theorem names_readBody (h : NamesBody property body) (kind : BodyKind) (keyword : Token) :
    Names property (readBody body kind keyword) fun entries =>
      ∀ entry ∈ entries, GivenEntry property entry := by
  have hopens : Passes (fun _ => False) (opensBody keyword.line) := by
    unfold opensBody
    refine .current fun token => ?_
    split
    · exact .advance fun _ => .pure not_false
    · exact .pure not_false
  unfold readBody
  refine (Names.idle (.of_echoes (echoes_expectLineEnd Fork.above_zero))).bind fun _ _ => ?_
  refine (Names.idle hopens).bind fun _ _ => .ite (h kind) (.ite ?_ ?_)
  · exact names_current.bind fun _ _ => .throw _
  · exact .pure (List.forall_mem_nil _)

/-- A reference and positional arguments take no identifier. -/
theorem names_readReference (line : Int) : Names property (readReference line) fun _ => True :=
  .idle (.of_echoes (echoes_readReference line))

/-- Positional arguments take no identifier. -/
theorem names_takePositional (line : Int) (limit : Nat) :
    Names property (takePositional line limit) fun _ => True :=
  .idle (.of_echoes (echoes_takePositional Fork.above_zero limit))

/-- A name takes no identifier. -/
theorem names_expectString (line : Int) (wanted : Wanted) :
    Names property (expectString line wanted) fun _ => True :=
  .idle (.of_echoes (echoes_expectString line wanted))

/-- The end of a line takes no identifier. -/
theorem names_expectLineEnd (line : Int) : Names property (expectLineEnd line) fun _ => True :=
  .idle (.of_echoes (echoes_expectLineEnd Fork.above_zero))

/-- An opening brace takes no identifier. -/
theorem names_expectOpening : Names property expectOpening fun _ => True :=
  .idle (.of_echoes echoes_expectOpening)

/-- An instance has the identifier that is given. -/
theorem names_readInstance (h : NamesBody property body) (kind : BodyKind)
    (instanceOf : InstanceOf) {identifier : Option String} (hi : property identifier)
    (first keyword : Token) :
    Names property (readInstance body kind instanceOf identifier first keyword)
      (GivenEntry property) := by
  have hheader : Names property (readDeployed instanceOf identifier first.position keyword.line)
      fun header => header.Given property := by
    unfold readDeployed
    exact (names_readReference _).bind fun _ _ => (names_takePositional _ _).bind fun _ _ =>
      .pure hi
  unfold readInstance
  exact hheader.bind fun header hg => (names_readBody h kind keyword).bind fun entries he =>
    .pure (hg.addAll he)

/-- The members of an enterprise have the identifiers that are given to them. -/
theorem names_readEnterprise (h : NamesBody property body) (identifier : Option String)
    (first keyword : Token) :
    Names property (readEnterprise body identifier first keyword) (GivenEntry property) := by
  have hrest : Names property (do
      let name ← expectString keyword.line (.nameOf keyword.lexeme)
      let entries ← readBody body .enterprise keyword
      return BodyEntry.enterprise
        (entries.foldl Enterprise.add { position := some first.position, name }))
      (GivenEntry property) :=
    (names_expectString _ _).bind fun _ _ => (names_readBody h _ keyword).bind fun entries he =>
      .pure (Enterprise.given_addAll trivial he)
  unfold readEnterprise
  exact .ite (Names.bind (.throw _) fun _ (_ : True) => hrest) hrest

/-- An element that is declared by its name has the identifier that is given. -/
theorem names_readPlain (h : NamesBody property body) (kind : BodyKind)
    {identifier : Option String} (hi : property identifier) (first keyword : Token) :
    Names property (readPlain body kind identifier first keyword) (GivenEntry property) := by
  unfold readPlain
  refine (names_expectString _ _).bind fun name _ => ?_
  refine (Names.idle (.of_echoes (echoes_lookUp _))).bind fun limit _ => ?_
  refine (names_takePositional _ _).bind fun arguments _ => ?_
  have hheader : Names property
      (lookUp (plainElement? kind identifier first.position name arguments))
      fun header => header.Given property := by
    cases he : plainElement? kind identifier first.position name arguments with
    | none => exact .throw _
    | some header => exact .pure (given_plainElement? he hi)
  exact hheader.bind fun header hg => (names_readBody h kind keyword).bind fun entries he =>
    .pure (hg.addAll he)

/-- An element has the identifier that is given. -/
theorem names_readElement (h : NamesBody property body) (kind : BodyKind)
    {identifier : Option String} (hi : property identifier) (first : Token) :
    Names property (readElement body kind identifier first) (GivenEntry property) := by
  unfold readElement
  refine names_advance.bind fun keyword _ => ?_
  split
  · exact names_readInstance h _ _ hi first keyword
  · exact names_readInstance h _ _ hi first keyword
  · exact names_readEnterprise h identifier first keyword
  · exact names_readPlain h _ hi first keyword

/-! ## Bodies -/

/-- A statement of a body takes identifiers from words. -/
theorem names_readBodyStatement (hn : property none) (h : NamesBody property body)
    (owner : BodyKind) :
    Names property (readBodyStatement body owner) fun entries =>
      ∀ entry ∈ entries, GivenEntry property entry := by
  have hdeclaration : Names property (readDeclaration body owner) (GivenEntry property) := by
    unfold readDeclaration
    refine names_current.bind fun first _ => (names_readIdentifier hn).bind fun identifier hi => ?_
    refine names_current.bind fun token _ => names_remaining.bind fun tokens _ => .ite ?_ ?_
    · exact (Names.idle (.of_echoes (echoes_readRelationship _ _ _))).bind fun _ _ =>
        .pure trivial
    · split
      · exact .throw _
      · exact .ite (names_readElement h _ hi first) (.throw _)
  unfold readBodyStatement
  refine names_current.bind fun token _ => .ite ?_ ?_
  · exact (Names.idle (.of_echoes echoes_readDirective)).bind fun _ _ =>
      .pure (List.forall_mem_nil _)
  · have hproperty : EchoesBefore .empty 0 (fun change => change ≠ none)
        (readProperty owner.accepts) (readProperty owner.accepts) :=
      echoes_readProperty owner.accepts
    refine (Names.idle hproperty.toPasses).bind fun change _ => ?_
    split
    · exact .pure (List.forall_mem_singleton.mpr trivial)
    · exact hdeclaration.bind fun entry he => .pure (List.forall_mem_singleton.mpr he)

/-- Bodies take identifiers from words, however deep. -/
theorem namesBody_readEntriesWithin (hn : property none) (depth : Nat) :
    NamesBody property (readEntriesWithin depth) := by
  induction depth with
  | zero => exact fun _ => .pure (List.forall_mem_nil _)
  | succ depth ih =>
    intro owner
    unfold readEntriesWithin
    refine .readBlock (fun entries he => ?_) (List.forall_mem_nil _)
    rw [fill_readBodyEntry]
    exact (names_readBodyStatement hn ih owner).bind fun more hm =>
      .pure (List.forall_mem_append.mpr ⟨he, hm⟩)

/-- Bodies take identifiers from words. -/
theorem namesBody_readEntries (hn : property none) : NamesBody property readEntries := by
  intro owner
  unfold readEntries
  exact names_remaining.bind fun _ _ => namesBody_readEntriesWithin hn _ owner

/-! ## Sources -/

/-- The block of the model takes identifiers from words. -/
theorem names_readModel (hn : property none) : Names property readModel fun _ => True := by
  have hstatement : Names property readModelStatement fun _ => True := by
    unfold readModelStatement
    refine (names_readBodyStatement hn (namesBody_readEntries hn) .model).bind fun entries he => ?_
    refine names_modifyWorkspace fun workspace hg model hm => ?_
    obtain ⟨before, hb, rfl⟩ := Option.map_eq_some_iff.mp hm
    exact (hg before hb).addAll he
  have hopen : ∀ keyword : Token, Names property (modifyWorkspace fun workspace =>
      { workspace with
        model := some (workspace.model.getD { position := some keyword.position }) })
      fun _ => True := by
    intro keyword
    refine names_modifyWorkspace fun workspace hg model hm => ?_
    cases hm
    cases hb : workspace.model with
    | none => exact ⟨trivial, fun _ he => nomatch he⟩
    | some before => exact hg before hb
  unfold readModel
  exact names_advance.bind fun keyword _ => (hopen keyword).bind fun _ _ =>
    names_expectOpening.bind fun _ _ => .readBlockOf hstatement

/-- A statement of the workspace takes identifiers from words. -/
theorem names_readWorkspaceStatement (hn : property none) :
    Names property readWorkspaceStatement fun _ => True := by
  have hvalue : ∀ (line : Int) (wanted : Wanted),
      Names property (expectValue line wanted) fun _ => True := fun line wanted =>
    .idle (.of_echoes (echoes_expectValue Fork.above_zero wanted))
  have hentries : Names property readKeyValues fun _ => True :=
    .idle (.of_echoes echoes_readKeyValues)
  unfold readWorkspaceStatement
  refine names_current.bind fun token _ => ?_
  split
  · exact names_advance.bind fun _ _ => (hvalue _ _).bind fun _ _ =>
      names_modifyWorkspace fun _ hg => hg
  · exact names_advance.bind fun _ _ => (hvalue _ _).bind fun _ _ =>
      names_modifyWorkspace fun _ hg => hg
  · exact names_readModel hn
  · exact .idle (.of_echoes echoes_readViews)
  · exact names_advance.bind fun _ _ => hentries.bind fun _ _ =>
      names_modifyWorkspace fun _ hg => hg
  · exact names_advance.bind fun _ _ => hentries.bind fun _ _ =>
      names_modifyWorkspace fun _ hg => hg
  · exact .idle (.of_echoes echoes_readDocumentation)
  · exact names_advance.bind fun _ _ => .idle (.of_echoes echoes_readDecisions)
  · exact .ite (.idle (.of_echoes echoes_readDirective))
      (.idle (.of_echoes (echoes_presentationOr token _)))

/-- A workspace takes identifiers from words. -/
theorem names_readWorkspace (hn : property none) :
    Names property readWorkspace fun _ => True := by
  have hheader : ∀ (keyword : Token) (arguments : List String),
      Names property (modifyWorkspace fun workspace =>
        { workspace with
          position := some keyword.position
          name := argument arguments 0
          description := argument arguments 1 }) fun _ => True :=
    fun _ _ => names_modifyWorkspace fun _ hg => hg
  unfold readWorkspace
  refine names_advance.bind fun keyword _ => (names_takePositional _ _).bind fun arguments _ => ?_
  refine (hheader keyword arguments).bind fun _ _ => ?_
  refine (names_expectLineEnd _).bind fun _ _ => names_expectOpening.bind fun _ _ => ?_
  exact .readBlockOf (names_readWorkspaceStatement hn)

/-- Reading a source takes identifiers from words. -/
theorem names_readSource (hn : property none) : Names property readSource fun _ => True := by
  have hdirectives : ∀ count : Nat, Names property (readDirectives count) fun _ => True := by
    intro count
    induction count with
    | zero => exact .pure trivial
    | succ count ih =>
      unfold readDirectives
      have hdirective : Names property (Grammar.readOrSkip readDirective) fun _ => True :=
        .readOrSkip (.idle (.of_echoes echoes_readDirective))
      exact names_current.bind fun _ _ => .ite (hdirective.bind fun _ _ => ih) (.pure trivial)
  unfold readSource
  refine names_remaining.bind fun tokens _ => (hdirectives _).bind fun _ _ => ?_
  refine names_current.bind fun token _ => .ite ?_ (.idle (passes_report _))
  refine (Names.readOrSkip (names_readWorkspace hn)).bind fun _ _ => ?_
  exact names_current.bind fun _ _ => .ite (.idle (passes_report _)) (.pure trivial)

end Blueprint.Grammar

/-! ## Words of a source -/

namespace Blueprint

open Text

/-- A text of characters that continue words has no dot. -/
theorem Text.dot_notMem_takeWhile (text : List Char) : '.' ∉ text.takeWhile continuesWord := by
  intro hm
  have hdot : continuesWord '.' = true := List.all_eq_true.mp List.all_takeWhile '.' hm
  exact absurd hdot (by decide)

/-- A segment that is a word has no dot. -/
theorem Segment.dot_notMem_of_next {c : Char} {rest text : List Char}
    (h : next c rest = .lexeme .identifier text) : '.' ∉ text := by
  have hs := starts_next c rest
  generalize next c rest = segment at h hs
  cases hs with
  | directive =>
    obtain ⟨-, rfl⟩ := Segment.lexeme.inj h
    exact List.not_mem_cons_of_ne_of_not_mem (by decide) (dot_notMem_takeWhile _)
  | @word c rest _ _ hw =>
    obtain ⟨-, rfl⟩ := Segment.lexeme.inj h
    rw [← List.takeWhile_cons_of_pos (continuesWord_of_startsWord hw)]
    exact dot_notMem_takeWhile _
  | number =>
    unfold number at h
    dsimp only at h
    split at h
    · split at h <;> cases h
    · cases h
  | _ => cases h

/-- The token of a lexeme is of its kind. -/
theorem Segment.kind_eq_of_tokenAt {kind : Kind} {text : List Char} {position : Position}
    {token : Token} (h : (Segment.lexeme kind text).tokenAt position = .ok (some token)) :
    token.kind = kind := by
  obtain ⟨_, _, he⟩ := tokenAt_lexeme_eq_ok_iff.mp h
  cases he
  rfl

/-- The words of a source are neither empty nor paths. -/
theorem TokenStream.isWord_of_mem {source : List Char} {stream : TokenStream}
    (h : ofChars source = .ok stream) {token : Token} (ht : token ∈ stream.tokens)
    (hk : token.kind = .identifier) : IsWord (some token.lexeme) := by
  obtain ⟨tokens, hs, rfl⟩ := ofChars_eq_ok_iff.mp h
  rcases List.mem_append.mp ht with ht | ht
  · obtain ⟨⟨position, segment⟩, hp, he⟩ := tokenAt_of_mem_tokensOf hs ht
    have hm := (Segment.place_of_mem_source hp).1
    have hlexeme := (Segment.place_of_tokenAt he).2
    have hdot : '.' ∉ segment.text := by
      cases segment with
      | lexeme kind text =>
        obtain ⟨c, rest, hnext⟩ := Segment.exists_next_of_mem hm
        have hkind : kind = .identifier := (Segment.kind_eq_of_tokenAt he).symm.trans hk
        exact Segment.dot_notMem_of_next (hkind ▸ hnext.symm)
      | literal scanned =>
        cases he
        cases hk
      | _ => cases he
    refine ⟨token.lexeme, rfl, fun hn => ?_, ?_⟩
    · rw [hlexeme] at hn
      exact Segment.text_ne_nil_of_mem hm (String.ofList_eq_empty_iff.mp hn)
    · unfold Registry.isPath
      rw [hlexeme, String.toList_ofList, List.contains_eq_mem, decide_eq_false_iff_not]
      exact hdot
  · rw [List.mem_singleton.mp ht] at hk
    cases hk

/-- The identifiers that are given in a source are words of it. -/
theorem Grammar.given_of_parse {source : String} {limit : Int} {outcome : Outcome}
    (h : parse source limit = .ok outcome) :
    outcome.workspace.Given fun id? => id?.isSome = true → IsWord id? := by
  obtain ⟨stream, hs, _, rfl⟩ := parse_eq_ok_iff.mp h
  have hread : Names (fun id? => id?.isSome = true → IsWord id?) readSource fun _ => True :=
    names_readSource nofun
  have hstart : (stream.start limit).Named fun id? => id?.isSome = true → IsWord id? :=
    ⟨fun token ht hk _ => TokenStream.isWord_of_mem hs ht hk, fun _ he => nomatch he⟩
  exact (hread _ hstart _ _ rfl).1.workspace

end Blueprint
