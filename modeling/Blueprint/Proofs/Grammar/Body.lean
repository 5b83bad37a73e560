import Blueprint.Grammar.Body
import Blueprint.Proofs.Grammar.Property

/-!
# Reading bodies of the model

What is declared in a body is passed in whole blocks, bodies inside it included, and has its place:
relationships and elements where their statements start, and instances in deployment nodes only.
-/

namespace Blueprint.Grammar

open Blueprint.Declared Blueprint.Text

variable {spots : Position → Prop} {p q r : Progress}

/-! ## Places of what is declared -/

/-- A statement of a body has its place, given what it is the body of. -/
def BodyEntry.Located (spots : Position → Prop) (owner : BodyKind) : BodyEntry → Prop
  | .edit _ => True
  | .relationship declared => Marked spots declared.position
  | .member declared =>
    declared.Located spots (owner == .deploymentNode) ∧
      (owner = .model → declared.rankInModel ≠ 2)
  | .enterprise declared => declared.Located spots

/-- A property statement moves no relationship. -/
@[simp] theorem position_edit (relationship : Relationship) (change : PropertyEdit) :
    (relationship.edit change).position = relationship.position := by
  unfold Relationship.edit
  split <;> rfl

/-- A property statement keeps the rank and the sort of an element, and moves nothing. -/
theorem located_edit {element : Element} {hosted : Bool} (h : element.Located spots hosted)
    (change : PropertyEdit) :
    (element.edit change).Located spots hosted ∧
      (element.edit change).isHost = element.isHost ∧
      (element.edit change).rankInModel = element.rankInModel := by
  unfold Element.edit
  split
  · rename_i sort details relationships members
    have hs : (sort.edit change).isHost = sort.isHost := by
      cases sort <;> cases change <;> rfl
    have hd : (details.edit change).position = details.position := by
      cases change <;> rfl
    refine ⟨⟨?_, h.2.1, ?_⟩, hs, ?_⟩
    · rw [hd]
      exact h.1
    · rw [hs]
      exact h.2.2
    · cases sort <;> cases change <;> rfl
  · exact ⟨h, rfl, rfl⟩
  · refine ⟨⟨h.1, ?_, h.2.2⟩, rfl, rfl⟩
    unfold Deployed.edit
    split <;> exact h.2.1

/-- A statement of its body keeps the rank and the sort of an element, and joins it at its place. -/
theorem located_add {element : Element} {hosted : Bool} (h : element.Located spots hosted)
    {owner : BodyKind} (ho : element.isHost = (owner == .deploymentNode)) {entry : BodyEntry}
    (he : entry.Located spots owner) :
    (element.add entry).Located spots hosted ∧
      (element.add entry).isHost = element.isHost ∧
      (element.add entry).rankInModel = element.rankInModel := by
  unfold Element.add
  split
  · exact located_edit h _
  · refine ⟨h.insertRelationship he, element.isHost_insertRelationship _, ?_⟩
    unfold Element.insertRelationship
    split
    · rename_i sort _ _ _
      cases sort <;> rfl
    · rfl
    · rfl
  · refine ⟨h.insertMember (ho ▸ he.1), element.isHost_insertMember _, ?_⟩
    unfold Element.insertMember
    split
    · rfl
    · rename_i sort _ _ _ _
      cases sort <;> rfl
    · rfl
    · rfl
  · exact ⟨h, rfl, rfl⟩

/-- The statements of a body join an element at their places. -/
theorem located_foldl_add {element : Element} {hosted : Bool} (h : element.Located spots hosted)
    {owner : BodyKind} (ho : element.isHost = (owner == .deploymentNode))
    {entries : List BodyEntry} (he : ∀ entry ∈ entries, entry.Located spots owner) :
    (entries.foldl Element.add element).Located spots hosted ∧
      (entries.foldl Element.add element).rankInModel = element.rankInModel := by
  induction entries generalizing element with
  | nil => exact ⟨h, rfl⟩
  | cons entry entries ih =>
    obtain ⟨hl, hh, hr⟩ := located_add h ho (he entry List.mem_cons_self)
    obtain ⟨hl', hr'⟩ := ih hl (hh.trans ho) fun other hm => he other (List.mem_cons_of_mem _ hm)
    exact ⟨hl', hr'.trans hr⟩

/-- The statements of a body join an enterprise at their places. -/
theorem located_foldl_enterprise {enterprise : Enterprise} (h : enterprise.Located spots)
    {entries : List BodyEntry} (he : ∀ entry ∈ entries, entry.Located spots .enterprise) :
    (entries.foldl Enterprise.add enterprise).Located spots := by
  induction entries generalizing enterprise with
  | nil => exact h
  | cons entry entries ih =>
    refine ih ?_ fun other hm => he other (List.mem_cons_of_mem _ hm)
    have hl := he entry List.mem_cons_self
    unfold Enterprise.add
    split
    · exact ⟨h.members, h.relationships.concat hl⟩
    · exact ⟨h.members.concat hl.1, h.relationships⟩
    · exact h
    · exact h

/-- The statements of its body join a model at their places. -/
theorem located_foldl_model {model : Model} (h : model.Located spots)
    {entries : List BodyEntry} (he : ∀ entry ∈ entries, entry.Located spots .model) :
    (entries.foldl Model.add model).Located spots := by
  induction entries generalizing model with
  | nil => exact h
  | cons entry entries ih =>
    refine ih ?_ fun other hm => he other (List.mem_cons_of_mem _ hm)
    have hl := he entry List.mem_cons_self
    unfold Model.add
    split
    · exact ⟨h.1, h.2, h.3, h.4, h.5⟩
    · exact h
    · exact ⟨h.1, h.2, h.3, h.4, h.relationships.concat hl⟩
    · exact h.insertMember hl.1 (hl.2 rfl)
    · exact ⟨h.1, h.2, h.3, by rintro _ ⟨⟩; exact hl, h.5⟩

/-! ## Directives -/

/-- The rest of a directive passes plain tokens. -/
theorem runs_readDirectiveAfter (h : p.Sound spots) {token : Token} (ht : spots token.position) :
    Runs spots p (readDirectiveAfter token) fun _ q => Goes 0 0 p q := by
  unfold readDirectiveAfter
  refine (runs_takeValues h token.line).bind ?_
  intro values q hf hq
  split
  · exact (runs_remark hf.sound _ ht).mono fun _ r _ hr => hq.trans hr
  · split
    · exact .fail_bind hf.sound ht
    · dsimp only
      split
      · exact .fail_bind hf.sound ht
      · refine (runs_modifyWorkspace hf.sound ?_).mono ?_
        · intro hw
          refine ⟨hw.model, hw.views, hw.decisions, ?_⟩
          intro directive hm
          rcases List.mem_append.mp hm with hm | hm
          · exact hw.directives directive hm
          · rw [List.mem_singleton.mp hm]
            exact ⟨_, rfl, ht⟩
        · intro _ r _ hr
          exact hq.trans hr

/-- A token that starts a directive is plain. -/
theorem isPlain_of_isDirective {token : Token} (h : isDirective token = true) :
    isPlain token.kind = true := by
  unfold isDirective at h
  unfold isPlain
  split at h <;> simp_all

/-- A directive takes its first token at least. -/
theorem runs_readDirective (h : p.Sound spots) (hd : isDirective p.next = true) :
    Runs spots p readDirective fun _ q => Goes 0 1 p q := by
  unfold readDirective
  refine (runs_advance_plain h (isPlain_of_isDirective hd)).bind ?_
  rintro _ q hf ⟨rfl, _, hq⟩
  exact (runs_readDirectiveAfter hf.sound h.next_spot).mono fun _ r _ hr => hq.trans hr

/-! ## References and relationships -/

/-- The further parts of a reference are plain. -/
theorem runs_readPathParts (h : p.Sound spots) (count : Nat) :
    Runs spots p (readPathParts count) fun _ q => Goes 0 0 p q := by
  induction count generalizing p with
  | zero =>
    rw [readPathParts]
    exact .pure h (.refl p)
  | succ count ih =>
    rw [readPathParts]
    refine .isSign h ?_
    split
    · rename_i hd
      refine (runs_advance_plain h (isPlain_of_kind (eq_of_beq hd) rfl)).bind ?_
      rintro _ q hf ⟨_, _, hq⟩
      refine .current hf.sound ?_
      split
      · rename_i hp
        refine (runs_advance_plain hf.sound (isPlain_of_isReferencePart hp)).bind ?_
        rintro _ r hg ⟨_, _, hr⟩
        refine (ih hg.sound).bind ?_
        intro more s hs hgs
        exact .pure hs.sound (((hq.trans hr).trans hgs).weaken (Nat.zero_le _))
      · exact .failExpected hf.sound
    · exact .pure h (.refl p)

/-- A reference takes its first token at least. -/
theorem runs_readReference (h : p.Sound spots) (line : Int) :
    Runs spots p (readReference line) fun _ q => Goes 0 1 p q := by
  unfold readReference
  refine .current h ?_
  dsimp only
  split
  · exact .fail_bind h h.next_spot
  · rename_i hc
    have hp : isPlain p.next.kind = true := by
      by_cases hr : isReferencePart p.next = true
      · exact isPlain_of_isReferencePart hr
      · have hs : p.next.kind = .string := by simp_all
        exact isPlain_of_kind hs rfl
    refine (runs_advance_plain h hp).bind ?_
    rintro _ q hf ⟨_, _, hq⟩
    split
    · exact .pure hf.sound hq
    · refine .remaining ((runs_readPathParts hf.sound _).bind ?_)
      intro parts r hg hr
      exact .pure hg.sound (hq.trans hr)

/-- The source of a relationship is passed if it is not left out. -/
theorem runs_readOrigin (h : p.Sound spots) (mayLeaveOut : Bool) :
    Runs spots p (readOrigin p.next mayLeaveOut) fun _ q => Goes 0 0 p q := by
  unfold readOrigin
  split
  · split
    · exact .pure h (.refl p)
    · exact .fail h h.next_spot
  · exact (runs_readReference h _).mono fun _ q _ hq => hq.weaken (Nat.zero_le _)

/-- A statement in the body of a relationship takes its word. -/
theorem steady_readRelationshipStatement (bound : Nat) :
    Steady spots bound (fun relationship => Marked spots relationship.position)
      readRelationshipStatement.fill := by
  intro p relationship h _ _ _ hm
  rw [fill_readRelationshipStatement]
  refine .current h ((runs_readProperty h relationshipAccepts).bind ?_)
  rintro change q hf (⟨rfl, rfl⟩ | ⟨⟨edit, rfl⟩, hq⟩)
  · exact .failUnexpected h
  · refine .pure hf.sound ⟨?_, hq⟩
    dsimp only
    rw [position_edit]
    exact hm

/-- A relationship is passed with its body, and stands where its statement starts. -/
theorem runs_readRelationship (h : p.Sound spots) (identifier : Option String) {first : Token}
    (hs : spots first.position) (mayLeaveOutSource : Bool) :
    Runs spots p (readRelationship identifier first mayLeaveOutSource) fun relationship q =>
      Marked spots relationship.position ∧ Goes 0 1 p q := by
  unfold readRelationship
  refine .current h ((runs_readOrigin h mayLeaveOutSource).bind ?_)
  intro source q hf hq
  refine (runs_expect hf.sound (by simp [isPlain])).bind ?_
  rintro _ q₂ hf₂ ⟨_, hq₂⟩
  refine (runs_readReference hf₂.sound _).bind ?_
  intro destination q₃ hf₃ hq₃
  refine (runs_takePositional hf₃.sound _ _).bind ?_
  intro arguments q₄ hf₄ hq₄
  dsimp only
  refine (runs_expectLineEnd hf₄.sound _).bind ?_
  intro _ q₅ hf₅ hq₅
  have hg := (((hq.trans hq₂).trans hq₃).trans hq₄).trans hq₅
  refine (runs_opensBody hf₅.sound _).bind ?_
  rintro opened q₆ hf₆ (⟨rfl, ho⟩ | ⟨rfl, hq₆⟩)
  · refine (runs_readBlock (steady_readRelationshipStatement _) hf₆.sound (Nat.le_refl _)
      ⟨_, rfl, hs⟩).mono ?_
    rintro relationship q₇ _ ⟨hm, hq₇⟩
    exact ⟨hm, (hg.trans (ho.trans hq₇)).weaken (by omega)⟩
  · exact .pure hf₆.sound ⟨⟨_, rfl, hs⟩, (hg.trans hq₆).weaken (by omega)⟩

/-! ## Elements -/

/-- Whether an element is declared by a name and the arguments after it. -/
def BodyKind.isNamed : BodyKind → Bool
  | .model | .enterprise | .softwareSystemInstance | .containerInstance => false
  | _ => true

/-- An element that is declared by its name has a header. -/
theorem exists_headerLimit? {kind : BodyKind} (h : kind.isNamed = true) :
    ∃ limit, kind.headerLimit? = some limit := by
  cases kind <;> first | (cases h; done) | exact ⟨_, rfl⟩

/-- What is declared from a header has its place. The members of a model that are declared in this
way are people, software systems, groups and environments. -/
theorem located_plainElement? {kind : BodyKind} (h : kind.isNamed = true)
    (identifier : Option String) {position : Position} (hp : spots position) (name : String)
    (arguments : List String) (hosted : Bool) :
    ∃ element, plainElement? kind identifier position name arguments = some element ∧
      element.Located spots hosted ∧ element.isHost = (kind == .deploymentNode) ∧
      (BodyKind.model.allows kind = true → element.rankInModel ≠ 2) := by
  have hm : Marked spots (some position) := ⟨position, rfl, hp⟩
  have ht : Traced spots [] := by
    intro relationship h
    cases h
  cases kind <;> first
    | (cases h; done)
    | exact ⟨_, rfl, ⟨hm, ht, trivial⟩, rfl, nofun⟩

/-- An instance stands where its statement starts. -/
theorem runs_readDeployed (h : p.Sound spots) (instanceOf : InstanceOf)
    (identifier : Option String) {position : Position} (hp : spots position) (line : Int) :
    Runs spots p (readDeployed instanceOf identifier position line) fun element q =>
      element.Located spots true ∧ element.isHost = false ∧ Goes 0 1 p q := by
  unfold readDeployed
  refine (runs_readReference h line).bind ?_
  intro reference q hf hq
  refine (runs_takePositional hf.sound line 2).bind ?_
  intro arguments r hg hr
  exact .pure hg.sound ⟨⟨rfl, ⟨_, rfl, hp⟩, fun _ hm => (by cases hm)⟩, rfl, hq.trans hr⟩

/-- Bodies are read up to their closing braces, and what they declare has its place, while no more
than a number of tokens is left. -/
def ReadsBody (spots : Position → Prop) (bound : Nat)
    (body : BodyKind → Reader (List BodyEntry)) : Prop :=
  ∀ (p : Progress) (owner : BodyKind), p.Sound spots → p.rest.length ≤ bound →
    Runs spots p (body owner) fun entries q =>
      (∀ entry ∈ entries, entry.Located spots owner) ∧ Goes 1 0 p q

variable {bound : Nat} {body : BodyKind → Reader (List BodyEntry)}

/-- The body of an element is passed as a whole. -/
theorem runs_readBody (hb : ReadsBody spots bound body) (h : p.Sound spots)
    (hl : p.rest.length ≤ bound) (kind : BodyKind) (keyword : Token) :
    Runs spots p (readBody body kind keyword) fun entries q =>
      (∀ entry ∈ entries, entry.Located spots kind) ∧ Goes 0 0 p q := by
  unfold readBody
  refine (runs_expectLineEnd h _).bind ?_
  intro _ q hf hq
  refine (runs_opensBody hf.sound _).bind ?_
  have hlq := hf.rest.length_le
  rintro opened r hg (⟨rfl, ho⟩ | ⟨rfl, hr⟩)
  · have hlr := hg.rest.length_le
    refine (hb r kind hg.sound (by omega)).mono ?_
    rintro entries s _ ⟨he, hs⟩
    exact ⟨he, (hq.trans (ho.trans hs)).weaken (by omega)⟩
  · rw [if_neg Bool.false_ne_true]
    split
    · exact .current hg.sound (.failExpected hg.sound)
    · exact .pure hg.sound ⟨fun _ hm => (by cases hm), hq.trans hr⟩

/-- A word that declares an element is plain. -/
theorem isPlain_of_ofElementKind? {kind : Kind} {declared : BodyKind}
    (h : BodyKind.ofElementKind? kind = some declared) : isPlain kind = true := by
  unfold BodyKind.ofElementKind? at h
  split at h <;> first | rfl | cases h

/-- Only deployment nodes hold instances. -/
theorem eq_deploymentNode_of_allows {owner kind : BodyKind} (h : owner.allows kind = true)
    (hk : kind = .softwareSystemInstance ∨ kind = .containerInstance) :
    owner = .deploymentNode := by
  rcases hk with rfl | rfl <;> cases owner <;> first | rfl | cases h

/-- An instance is passed with its body, and stands in a deployment node. -/
theorem runs_readInstance (hb : ReadsBody spots bound body) (h : p.Sound spots)
    (hl : p.rest.length ≤ bound) {kind : BodyKind}
    (hk : kind = .softwareSystemInstance ∨ kind = .containerInstance) (instanceOf : InstanceOf)
    (identifier : Option String) {first : Token} (hs : spots first.position) (keyword : Token) :
    Runs spots p (readInstance body kind instanceOf identifier first keyword) fun entry q =>
      entry.Located spots .deploymentNode ∧ Goes 0 1 p q := by
  unfold readInstance
  refine (runs_readDeployed h instanceOf identifier hs _).bind ?_
  rintro header q hf ⟨hh, hn, hq⟩
  have hlq := hf.rest.length_le
  refine (runs_readBody hb hf.sound (by omega) kind keyword).bind ?_
  rintro entries r hg ⟨he, hr⟩
  have ho : header.isHost = (kind == .deploymentNode) := by
    rw [hn]
    rcases hk with rfl | rfl <;> rfl
  refine .pure hg.sound ⟨⟨(located_foldl_add hh ho he).1, ?_⟩, hq.trans hr⟩
  intro hm
  cases hm

/-- The enterprise is passed with its body. -/
theorem runs_readEnterprise (hb : ReadsBody spots bound body) (h : p.Sound spots)
    (hl : p.rest.length ≤ bound) (identifier : Option String) {first : Token}
    (hs : spots first.position) (keyword : Token) (owner : BodyKind) :
    Runs spots p (readEnterprise body identifier first keyword) fun entry q =>
      entry.Located spots owner ∧ Goes 0 1 p q := by
  unfold readEnterprise
  dsimp only
  split
  · exact .fail_bind h hs
  · refine (runs_expectString h _ _).bind ?_
    intro name q hf hq
    have hlq := hf.rest.length_le
    refine (runs_readBody hb hf.sound (by omega) _ keyword).bind ?_
    rintro entries r hg ⟨he, hr⟩
    have hn : Enterprise.Located spots { position := some first.position, name } :=
      ⟨trivial, fun _ hm => by cases hm⟩
    exact .pure hg.sound ⟨located_foldl_enterprise hn he, hq.trans hr⟩

/-- Another element is passed with its body, and stands where its statement starts. -/
theorem runs_readPlain (hb : ReadsBody spots bound body) (h : p.Sound spots)
    (hl : p.rest.length ≤ bound) {owner kind : BodyKind} (ha : owner.allows kind = true)
    (hn : kind.isNamed = true) (identifier : Option String) {first : Token}
    (hs : spots first.position) (keyword : Token) :
    Runs spots p (readPlain body kind identifier first keyword) fun entry q =>
      entry.Located spots owner ∧ Goes 0 1 p q := by
  unfold readPlain
  refine (runs_expectString h _ _).bind ?_
  intro name q hf hq
  obtain ⟨limit, hlimit⟩ := exists_headerLimit? hn
  refine .lookUp hlimit ?_
  refine (runs_takePositional hf.sound _ _).bind ?_
  intro arguments r hg hr
  have hlr := (hf.trans hg).rest.length_le
  obtain ⟨header, hheader, hh, hd, hrank⟩ := located_plainElement? hn identifier hs name arguments
    (owner == .deploymentNode)
  refine .lookUp hheader ?_
  refine (runs_readBody hb hg.sound (by omega) kind keyword).bind ?_
  rintro entries s hgs ⟨he, hs'⟩
  obtain ⟨hm, hk⟩ := located_foldl_add hh hd he
  refine .pure hgs.sound ⟨⟨hm, ?_⟩, (hq.trans hr).trans hs'⟩
  rintro rfl
  rw [hk]
  exact hrank ha

/-- An element is passed with its body, and stands where its statement starts. -/
theorem runs_readElement (hb : ReadsBody spots bound body) (h : p.Sound spots)
    (hl : p.rest.length ≤ bound + 1) {owner kind : BodyKind} (ha : owner.allows kind = true)
    (hk : isPlain p.next.kind = true) (identifier : Option String) {first : Token}
    (hs : spots first.position) :
    Runs spots p (readElement body kind identifier first) fun entry q =>
      entry.Located spots owner ∧ Goes 0 1 p q := by
  unfold readElement
  refine (runs_advance_plain h hk).bind ?_
  rintro keyword q hf ⟨_, _, hq⟩
  have hlq := hq.taken
  have hle : q.rest.length ≤ bound := by omega
  split
  · rw [eq_deploymentNode_of_allows ha (.inl rfl)]
    exact (runs_readInstance hb hf.sound hle (.inl rfl) _ identifier hs keyword).mono
      fun _ _ _ hr => ⟨hr.1, (hq.trans hr.2).weaken (by omega)⟩
  · rw [eq_deploymentNode_of_allows ha (.inr rfl)]
    exact (runs_readInstance hb hf.sound hle (.inr rfl) _ identifier hs keyword).mono
      fun _ _ _ hr => ⟨hr.1, (hq.trans hr.2).weaken (by omega)⟩
  · exact (runs_readEnterprise hb hf.sound hle identifier hs keyword owner).mono
      fun _ _ _ hr => ⟨hr.1, (hq.trans hr.2).weaken (by omega)⟩
  · have hn : kind.isNamed = true := by
      cases owner <;> cases kind <;> first | rfl | contradiction
    exact (runs_readPlain hb hf.sound hle ha hn identifier hs keyword).mono
      fun _ _ _ hr => ⟨hr.1, (hq.trans hr.2).weaken (by omega)⟩

/-- An identifier is passed with its equals sign. -/
theorem runs_readIdentifier (h : p.Sound spots) :
    Runs spots p readIdentifier fun _ q => Goes 0 0 p q := by
  unfold readIdentifier
  refine .remaining ?_
  split
  · rename_i name sign rest he
    split
    · rename_i hc
      simp only [Bool.and_eq_true, beq_iff_eq] at hc
      obtain ⟨tokens, hr⟩ := h.rest_eq
      have hn : p.next = name := by
        rw [hr] at he
        exact (List.cons.inj he).1
      refine (runs_advance_plain h (isPlain_of_kind (hn ▸ hc.1.1) rfl)).bind ?_
      rintro _ q hf ⟨_, hq, hg⟩
      have hm : q.next = sign := by
        rw [hq] at he
        unfold Progress.next
        rw [(List.cons.inj he).2]
        rfl
      refine (runs_advance_plain hf.sound (isPlain_of_kind (hm ▸ hc.1.2) rfl)).bind ?_
      rintro _ r hf₂ ⟨_, _, hg₂⟩
      exact .pure hf₂.sound ((hg.trans hg₂).weaken (by omega))
    · exact .pure h (.refl p)
  · exact .pure h (.refl p)

/-- A declaration of a body takes a token at least, and has its place. -/
theorem runs_readDeclaration (hb : ReadsBody spots bound body) (h : p.Sound spots)
    (hl : p.rest.length ≤ bound + 1) (owner : BodyKind) :
    Runs spots p (readDeclaration body owner) fun entry q =>
      entry.Located spots owner ∧ Goes 0 1 p q := by
  unfold readDeclaration
  refine .current h ((runs_readIdentifier h).bind ?_)
  intro identifier q hf hq
  have hlq := hf.rest.length_le
  refine .current hf.sound (.remaining ?_)
  split
  · refine (runs_readRelationship hf.sound identifier h.next_spot _).bind ?_
    rintro relationship r hg ⟨hm, hr⟩
    exact .pure hg.sound ⟨hm, hq.trans hr⟩
  · split
    · exact .failUnexpected hf.sound
    · rename_i kind hk
      split
      · rename_i ha
        refine (runs_readElement hb hf.sound (by omega) ha (isPlain_of_ofElementKind? hk)
          identifier h.next_spot).mono ?_
        rintro entry r _ ⟨he, hr⟩
        exact ⟨he, hq.trans hr⟩
      · exact .fail hf.sound hf.sound.next_spot

/-- A statement of a body takes a token at least, and has its place. -/
theorem runs_readBodyStatement (hb : ReadsBody spots bound body) (h : p.Sound spots)
    (hl : p.rest.length ≤ bound + 1) (owner : BodyKind) :
    Runs spots p (readBodyStatement body owner) fun entries q =>
      (∀ entry ∈ entries, entry.Located spots owner) ∧ Goes 0 1 p q := by
  unfold readBodyStatement
  refine .current h ?_
  split
  · rename_i hd
    refine (runs_readDirective h hd).bind ?_
    intro _ q hf hq
    exact .pure hf.sound ⟨fun _ hm => (by cases hm), hq⟩
  · refine (runs_readProperty h owner.accepts).bind ?_
    rintro change q hf (⟨rfl, rfl⟩ | ⟨⟨edit, rfl⟩, hq⟩)
    · refine (runs_readDeclaration hb h hl owner).bind ?_
      rintro entry r hg ⟨he, hr⟩
      refine .pure hg.sound ⟨?_, hr⟩
      intro other hm
      rw [List.mem_singleton.mp hm]
      exact he
    · refine .pure hf.sound ⟨?_, hq⟩
      intro other hm
      rw [List.mem_singleton.mp hm]
      trivial

/-- A further statement of a body takes a token at least. -/
theorem steady_readBodyEntry (hb : ReadsBody spots bound body) (owner : BodyKind) :
    Steady spots (bound + 1) (fun entries => ∀ entry ∈ entries, entry.Located spots owner)
      (readBodyEntry body owner).fill := by
  intro p entries h hl _ _ he
  rw [fill_readBodyEntry]
  refine (runs_readBodyStatement hb h hl owner).bind ?_
  rintro more q hf ⟨hm, hq⟩
  refine .pure hf.sound ⟨?_, hq⟩
  intro entry hi
  rcases List.mem_append.mp hi with hi | hi
  · exact he entry hi
  · exact hm entry hi

/-- Bodies are read up to their closing braces, however deep. -/
theorem readsBody_readEntriesWithin (depth : Nat) :
    ReadsBody spots depth (readEntriesWithin depth) := by
  induction depth with
  | zero =>
    intro p owner h hl
    have := h.rest_pos
    omega
  | succ depth ih =>
    intro p owner h hl
    rw [readEntriesWithin]
    exact runs_readBlock (steady_readBodyEntry ih owner) h hl fun _ hm => by cases hm

/-- Bodies are read up to their closing braces. -/
theorem readsBody_readEntries (bound : Nat) : ReadsBody spots bound readEntries := by
  intro p owner h _
  unfold readEntries
  exact .remaining (readsBody_readEntriesWithin _ p owner h (Nat.le_refl _))

/-! ## The model -/

/-- A statement of the model takes a token at least. -/
theorem steady_readModelStatement (bound : Nat) :
    Steady spots bound (fun _ => True) fun _ : Unit => readModelStatement := by
  intro p _ h _ _ _ _
  unfold readModelStatement
  refine (runs_readBodyStatement (readsBody_readEntries p.rest.length) h (Nat.le_succ _)
    .model).bind ?_
  rintro entries q hf ⟨he, hq⟩
  refine (runs_modifyWorkspace hf.sound ?_).mono ?_
  · intro hw
    refine ⟨?_, hw.views, hw.decisions, hw.directives⟩
    intro model hm
    obtain ⟨before, hb, rfl⟩ := Option.map_eq_some_iff.mp hm
    exact located_foldl_model (hw.model before hb) he
  · intro _ r _ hr
    exact ⟨trivial, hq.trans hr⟩

/-- The block of the model is passed as a whole. -/
theorem runs_readModel (h : p.Sound spots) (hk : isPlain p.next.kind = true) :
    Runs spots p readModel fun _ q => Goes 0 1 p q := by
  unfold readModel
  refine (runs_advance_plain h hk).bind ?_
  rintro keyword q hf ⟨_, _, hq⟩
  refine (runs_modifyWorkspace hf.sound ?_).bind ?_
  · intro hw
    refine ⟨?_, hw.views, hw.decisions, hw.directives⟩
    rintro _ ⟨⟩
    cases hm : q.workspace.model with
    | none => exact Model.located_empty _
    | some model => exact hw.model model hm
  · intro _ r hg hr
    refine (runs_expectOpening hg.sound).bind ?_
    intro _ s hgs ho
    refine (runs_readBlockOf (steady_readModelStatement _) hgs.sound (Nat.le_refl _)).mono ?_
    intro _ t _ ht
    exact ((hq.trans hr).trans (ho.trans ht)).weaken (by omega)

end Blueprint.Grammar
