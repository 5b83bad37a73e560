import Blueprint.Proofs.Tier.Model
import Blueprint.Proofs.Printed.Model

/-!
# What stands directly inside what

Reading takes an element in a body only if the body may hold elements of its sort. So in a model
that has been read, the body of every element takes each of its members. A group takes more sorts of
elements than the bodies that it may itself stand in.
-/

namespace Blueprint.Declared

open Grammar (BodyKind BodyEntry PropertyEdit)

/-- The body that an instance has. -/
def InstanceOf.bodyKind : InstanceOf → BodyKind
  | .softwareSystem => .softwareSystemInstance
  | .container => .containerInstance

/-- The body that an element has. -/
def Element.bodyKind : Element → BodyKind
  | .plain sort _ _ _ => sort.bodyKind
  | .environment _ _ _ => .deploymentEnvironment
  | .deployed deployment _ => deployment.instanceOf.bodyKind

mutual

/-- Every member in an element, however far in, is taken by the body that it stands in. -/
def Element.Nested : Element → Prop
  | .plain sort _ _ members => Element.AllNested sort.bodyKind members
  | .environment _ _ members => Element.AllNested .deploymentEnvironment members
  | .deployed _ _ => True

/-- A body takes elements, and so it is with the members in them. -/
def Element.AllNested (owner : BodyKind) : List Element → Prop
  | [] => True
  | member :: members =>
    (owner.allows member.bodyKind = true ∧ Element.Nested member) ∧
      Element.AllNested owner members

end

/-- A body takes elements if it takes each of them. -/
theorem Element.allNested_iff {owner : BodyKind} {members : List Element} :
    Element.AllNested owner members ↔
      ∀ member ∈ members, owner.allows member.bodyKind = true ∧ member.Nested := by
  induction members with
  | nil => simp [AllNested]
  | cons member members ih => simp [AllNested, ih]

/-- Every member of a model, and of the enterprise in it, is taken by the body that it stands in. -/
structure Model.Nested (model : Model) : Prop where
  /-- The members of the model itself. -/
  members : Element.AllNested .model model.members
  /-- The members of the enterprise. -/
  enterprise : ∀ enterprise, model.enterprise = some enterprise →
    Element.AllNested .enterprise enterprise.members

/-- What a statement of a body declares is taken by the body. -/
def NestedEntry (owner : BodyKind) : BodyEntry → Prop
  | .member member => owner.allows member.bodyKind = true ∧ member.Nested
  | .enterprise enterprise => Element.AllNested .enterprise enterprise.members
  | .edit _ | .relationship _ => True

/-! ## Adding statements -/

/-- A further member that is taken joins members that are, at the end. -/
theorem Element.AllNested.concat {owner : BodyKind} {members : List Element} {member : Element}
    (h : Element.AllNested owner members)
    (hm : owner.allows member.bodyKind = true ∧ member.Nested) :
    Element.AllNested owner (members ++ [member]) := by
  rw [allNested_iff] at h ⊢
  exact List.forall_mem_append.mpr ⟨h, List.forall_mem_singleton.mpr hm⟩

/-- A further member that is taken joins members that are, at the place of its rank. -/
theorem Element.AllNested.insert {owner : BodyKind} {members : List Element} {member : Element}
    (h : Element.AllNested owner members)
    (hm : owner.allows member.bodyKind = true ∧ member.Nested) (rank : Element → Nat) :
    Element.AllNested owner (insertByRank rank member members) := by
  rw [allNested_iff] at h ⊢
  exact (forall_mem_insertByRank ..).mpr ⟨hm, h⟩

/-- A property statement leaves the sort of body that a plain element has. -/
theorem PlainSort.bodyKind_edit (sort : PlainSort) (change : PropertyEdit) :
    (sort.edit change).bodyKind = sort.bodyKind := by
  cases sort <;> cases change <;> rfl

/-- A property statement leaves the sort of body that an instance has. -/
theorem Deployed.instanceOf_edit (deployment : Deployed) (change : PropertyEdit) :
    (deployment.edit change).instanceOf = deployment.instanceOf := by
  cases change <;> rfl

/-- A further statement of its body leaves the sort of body that an element has. -/
theorem Element.bodyKind_add (element : Element) (entry : BodyEntry) :
    (element.add entry).bodyKind = element.bodyKind := by
  cases entry with
  | edit change =>
    cases element with
    | plain sort _ _ _ => exact sort.bodyKind_edit change
    | environment _ _ _ => rfl
    | deployed deployment _ =>
      exact congrArg InstanceOf.bodyKind (deployment.instanceOf_edit change)
  | relationship relationship => cases element <;> rfl
  | member member =>
    cases element with
    | plain sort _ _ _ => cases sort <;> rfl
    | environment _ _ _ => rfl
    | deployed _ _ => rfl
  | enterprise enterprise => rfl

/-- A further member that is taken keeps an element nested. -/
theorem Element.Nested.insertMember {owner member : Element} (h : owner.Nested)
    (hm : owner.bodyKind.allows member.bodyKind = true ∧ member.Nested) :
    (owner.insertMember member).Nested := by
  unfold Element.insertMember
  split
  · exact h.concat hm
  · exact Element.AllNested.insert h hm _
  · exact h.concat hm
  · exact h

/-- A further statement that is taken keeps an element nested. -/
theorem Element.Nested.add {element : Element} (h : element.Nested) {entry : BodyEntry}
    (he : NestedEntry element.bodyKind entry) : (element.add entry).Nested := by
  cases entry with
  | edit change =>
    cases element with
    | plain sort details relationships members =>
      unfold Element.add Element.edit Nested
      rw [sort.bodyKind_edit change]
      exact h
    | environment _ _ _ => exact h
    | deployed _ _ => exact h
  | relationship relationship => cases element <;> exact h
  | member member => exact h.insertMember he
  | enterprise enterprise => exact h

/-- Statements of its body leave the sort of body that an element has, and keep it nested. -/
theorem Element.Nested.addAll {element : Element} (h : element.Nested) {entries : List BodyEntry}
    (he : ∀ entry ∈ entries, NestedEntry element.bodyKind entry) :
    (entries.foldl Element.add element).Nested ∧
      (entries.foldl Element.add element).bodyKind = element.bodyKind := by
  refine List.foldlRecOn (motive := fun built : Element =>
    built.Nested ∧ built.bodyKind = element.bodyKind) entries Element.add ⟨h, rfl⟩ ?_
  intro built ⟨hn, hk⟩ entry hm
  exact ⟨hn.add (hk ▸ he entry hm), (built.bodyKind_add entry).trans hk⟩

/-- Statements of its body keep an enterprise nested. -/
theorem Enterprise.nested_addAll {enterprise : Enterprise} {entries : List BodyEntry}
    (h : Element.AllNested .enterprise enterprise.members)
    (he : ∀ entry ∈ entries, NestedEntry .enterprise entry) :
    Element.AllNested .enterprise (entries.foldl Enterprise.add enterprise).members := by
  refine List.foldlRecOn (motive := fun built : Enterprise =>
    Element.AllNested .enterprise built.members) entries Enterprise.add h ?_
  intro built hn entry hm
  have he := he entry hm
  cases entry with
  | member member => exact hn.concat he
  | edit _ => exact hn
  | relationship _ => exact hn
  | enterprise _ => exact hn

/-- Statements of its block keep a model nested. -/
theorem Model.Nested.addAll {model : Model} (h : model.Nested) {entries : List BodyEntry}
    (he : ∀ entry ∈ entries, NestedEntry .model entry) :
    (entries.foldl Model.add model).Nested := by
  refine List.foldlRecOn (motive := Model.Nested) entries Model.add h ?_
  intro built hn entry hm
  have he := he entry hm
  cases entry with
  | edit change => cases change <;> exact ⟨hn.members, hn.enterprise⟩
  | relationship _ => exact ⟨hn.members, hn.enterprise⟩
  | member member => exact ⟨hn.members.insert he _, hn.enterprise⟩
  | enterprise enterprise =>
    refine ⟨hn.members, ?_⟩
    rintro _ ⟨⟩
    exact he

end Blueprint.Declared

namespace Blueprint.Grammar

open Blueprint.Declared Blueprint.Text

variable {α β : Type}

/-! ## What readers return -/

/-- Whatever value a reader returns is good. -/
def Returns (reader : Reader α) (good : α → Prop) : Prop :=
  ∀ p value q, reader.run.run p = (.ok value, q) → good value

namespace Returns

variable {reader : Reader α} {good : α → Prop} {fit : β → Prop}

/-- A reader returns what is good if no condition on the progress is needed for that. -/
theorem iff_maintains : Returns reader good ↔ Maintains (fun _ => True) reader good := by
  constructor
  · rintro h p - result q hr
    refine ⟨trivial, ?_⟩
    rintro value rfl
    exact h p value q hr
  · exact fun h p value q hr => (h p trivial _ q hr).2 value rfl

/-- A value alone is returned. -/
theorem pure {value : α} (h : good value) : Returns (pure value) good :=
  iff_maintains.mpr (.pure h)

/-- A halt returns nothing. -/
theorem throw (halt : Halt) : Returns (throw halt : Reader α) good :=
  iff_maintains.mpr (.throw halt)

/-- What is returned by one reader is used by the next. -/
theorem bind {next : α → Reader β} (h : Returns reader good)
    (hn : ∀ value, good value → Returns (next value) fit) : Returns (reader >>= next) fit :=
  iff_maintains.mpr ((iff_maintains.mp h).bind fun value hv => iff_maintains.mp (hn value hv))

/-- What is returned by one reader does not matter to the next. -/
theorem after {next : α → Reader β} (hn : ∀ value, Returns (next value) fit) :
    Returns (reader >>= next) fit := by
  have hany : Returns reader fun _ => True := fun _ _ _ _ => trivial
  exact hany.bind fun value _ => hn value

/-- A choice between readers. -/
theorem ite {holds : Prop} [Decidable holds] {second : Reader α} (ht : Returns reader good)
    (hf : Returns second good) : Returns (if holds then reader else second) good :=
  iff_maintains.mpr (.ite (iff_maintains.mp ht) (iff_maintains.mp hf))

/-- The body of a node returns what is good if its statements do. -/
theorem readBlock {statement : NodeReader α Unit} [Spares statement]
    (h : ∀ node, good node → Returns (statement.fill node) good) {node : α} (hv : good node) :
    Returns (readBlock statement node) good :=
  iff_maintains.mpr (.readBlock (fun _ _ _ _ _ => trivial)
    (fun node hv => iff_maintains.mp (h node hv)) hv)

end Returns

/-- What is declared from a header has the body of its kind, and no members. -/
theorem nested_plainElement? {kind : BodyKind} {identifier : Option String} {position : Position}
    {name : String} {arguments : List String} {element : Element}
    (h : plainElement? kind identifier position name arguments = some element) :
    element.bodyKind = kind ∧ element.Nested := by
  cases kind <;> cases h <;> exact ⟨rfl, trivial⟩

/-! ## Bodies -/

/-- A body returns statements that it takes. -/
abbrev TakesMembers (body : BodyKind → Reader (List BodyEntry)) : Prop :=
  ∀ owner, Returns (body owner) fun entries => ∀ entry ∈ entries, NestedEntry owner entry

variable {body : BodyKind → Reader (List BodyEntry)}

/-- The body after a header returns statements that it takes. -/
theorem returns_readBody (h : TakesMembers body) (kind : BodyKind) (keyword : Token) :
    Returns (readBody body kind keyword)
      fun entries => ∀ entry ∈ entries, NestedEntry kind entry := by
  unfold readBody
  refine .after fun _ => .after fun _ => .ite (h kind) (.ite ?_ (.pure (List.forall_mem_nil _)))
  exact .after fun _ => .throw _

/-- The body of an instance is of the kind that its keyword declares. -/
theorem returns_readInstance (h : TakesMembers body) (instanceOf : InstanceOf)
    (identifier : Option String) (first keyword : Token) {owner : BodyKind}
    (ho : owner.allows instanceOf.bodyKind = true) :
    Returns (readInstance body instanceOf.bodyKind instanceOf identifier first keyword)
      (NestedEntry owner) := by
  unfold readInstance
  have hheader : Returns (readDeployed instanceOf identifier first.position keyword.line)
      fun header => header.bodyKind = instanceOf.bodyKind ∧ header.Nested := by
    unfold readDeployed
    exact .after fun _ => .after fun _ => .pure ⟨rfl, trivial⟩
  refine hheader.bind fun header hk => (returns_readBody h _ keyword).bind fun entries he => ?_
  obtain ⟨hn, hb⟩ := hk.2.addAll (hk.1.symm ▸ he)
  refine .pure ⟨?_, hn⟩
  rw [hb, hk.1]
  exact ho

/-- An enterprise has members that its body takes. -/
theorem returns_readEnterprise (h : TakesMembers body) (identifier : Option String)
    (first keyword : Token) (owner : BodyKind) :
    Returns (readEnterprise body identifier first keyword) (NestedEntry owner) := by
  unfold readEnterprise
  have hrest : Returns (do
      let name ← expectString keyword.line (.nameOf keyword.lexeme)
      let entries ← readBody body .enterprise keyword
      return BodyEntry.enterprise
        (entries.foldl Enterprise.add { position := some first.position, name }))
      (NestedEntry owner) :=
    .after fun _ => (returns_readBody h _ keyword).bind fun entries he =>
      .pure (Enterprise.nested_addAll trivial he)
  exact .ite (.after fun _ => hrest) hrest

/-- An element that is declared by its name has members that its body takes. -/
theorem returns_readPlain (h : TakesMembers body) (kind : BodyKind)
    (identifier : Option String) (first keyword : Token) {owner : BodyKind}
    (ho : owner.allows kind = true) :
    Returns (readPlain body kind identifier first keyword) (NestedEntry owner) := by
  unfold readPlain
  refine .after fun name => .after fun limit => .after fun arguments => ?_
  have hheader : Returns (lookUp (plainElement? kind identifier first.position name arguments))
      fun header => header.bodyKind = kind ∧ header.Nested := by
    cases he : plainElement? kind identifier first.position name arguments with
    | none => exact .throw _
    | some header => exact .pure (nested_plainElement? he)
  refine hheader.bind fun header hk => (returns_readBody h _ keyword).bind fun entries he => ?_
  obtain ⟨hn, hb⟩ := hk.2.addAll (hk.1.symm ▸ he)
  refine .pure ⟨?_, hn⟩
  rw [hb, hk.1]
  exact ho

/-- An element of a kind that a body takes is taken. -/
theorem returns_readElement (h : TakesMembers body) (kind : BodyKind)
    (identifier : Option String) (first : Token) {owner : BodyKind}
    (ho : owner.allows kind = true) :
    Returns (readElement body kind identifier first) (NestedEntry owner) := by
  unfold readElement
  refine .after fun keyword => ?_
  split
  · exact returns_readInstance h .softwareSystem identifier first keyword ho
  · exact returns_readInstance h .container identifier first keyword ho
  · exact returns_readEnterprise h identifier first keyword owner
  · exact returns_readPlain h _ identifier first keyword ho

/-- A statement of a body is taken by it: an element of another sort fails. -/
theorem returns_readBodyStatement (h : TakesMembers body) (owner : BodyKind) :
    Returns (readBodyStatement body owner)
      fun entries => ∀ entry ∈ entries, NestedEntry owner entry := by
  have hdeclaration : Returns (readDeclaration body owner) (NestedEntry owner) := by
    unfold readDeclaration
    refine .after fun first => .after fun identifier => .after fun token => .after fun _ => ?_
    refine .ite (.after fun _ => .pure trivial) ?_
    split
    · exact .throw _
    · split
      · rename_i ho
        exact returns_readElement h _ identifier first ho
      · exact .throw _
  unfold readBodyStatement
  refine .after fun token => .ite (.after fun _ => .pure (List.forall_mem_nil _)) ?_
  refine .after fun change => ?_
  split
  · exact .pure (List.forall_mem_singleton.mpr trivial)
  · exact hdeclaration.bind fun entry he => .pure (List.forall_mem_singleton.mpr he)

/-- Bodies return statements that they take, however deep. -/
theorem takesMembers_readEntriesWithin (depth : Nat) :
    TakesMembers (readEntriesWithin depth) := by
  induction depth with
  | zero => exact fun _ => .pure (List.forall_mem_nil _)
  | succ depth ih =>
    intro owner
    unfold readEntriesWithin
    refine .readBlock (fun entries he => ?_) (List.forall_mem_nil _)
    rw [fill_readBodyEntry]
    exact (returns_readBodyStatement ih owner).bind fun more hm =>
      .pure (List.forall_mem_append.mpr ⟨he, hm⟩)

/-- Bodies return statements that they take. -/
theorem takesMembers_readEntries : TakesMembers readEntries := by
  intro owner
  unfold readEntries
  exact .after fun _ => takesMembers_readEntriesWithin _ owner

/-! ## Sources -/

/-- A model that may be missing is nested if it is there. -/
def NestedModel (model : Option Model) : Prop := ∀ found, model = some found → found.Nested

instance : KeepsModel NestedModel readModelStatement where
  keeps p h := by
    have hb : KeepsModel NestedModel (readBodyStatement readEntries .model) := inferInstance
    have hk := hb.keeps p h
    have hv := returns_readBodyStatement takesMembers_readEntries .model p
    unfold readModelStatement
    rw [run_bind]
    generalize (readBodyStatement readEntries .model).run.run p = outcome at hk hv
    rcases outcome with ⟨halt | entries, q⟩
    · exact hk
    · intro model hm
      obtain ⟨before, hb, rfl⟩ := Option.map_eq_some_iff.mp hm
      exact (hk before hb).addAll (hv entries q rfl)

instance : KeepsModel NestedModel readModel := by
  have hm : ∀ keyword : Token, KeepsModel NestedModel (modifyWorkspace fun workspace =>
      { workspace with
        model := some (workspace.model.getD { position := some keyword.position }) }) := by
    intro keyword
    refine ⟨fun p h => ?_⟩
    rintro _ ⟨⟩
    cases hp : p.workspace.model with
    | none => exact ⟨trivial, fun _ he => nomatch he⟩
    | some model => exact h model hp
  unfold readModel
  infer_instance

/-- In a model that has been read, every member is taken by the body that it stands in. -/
theorem nested_of_parse {source : String} {limit : Int} {outcome : Outcome}
    (h : parse source limit = .ok outcome) : NestedModel outcome.workspace.model := by
  obtain ⟨stream, _, _, rfl⟩ := parse_eq_ok_iff.mp h
  exact keepsModel_readSource.keeps (stream.start limit) fun _ he => nomatch he

end Blueprint.Grammar
