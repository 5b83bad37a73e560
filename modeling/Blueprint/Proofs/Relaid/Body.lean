import Blueprint.Proofs.Relaid.Block

/-!
# Properties and bodies that are laid out anew

Property statements change the same in two layouts, and bodies declare the same up to places.
-/

namespace Blueprint.Grammar

open Blueprint.Declared Blueprint.Text

variable {places left : List (Token × Token)} {token twin first begin : Token} {line other : Int}

/-! ## Property statements -/

/-- An entry of a block of keys and values is the same if the blocks inside it are. -/
theorem twins_readEntry (h : Matched places) {block mate : Reader Properties}
    (hb : Twins places Eq block mate) (entries : Properties) :
    Twins places Eq ((readEntry block).fill entries) ((readEntry mate).fill entries) := by
  rw [fill_readEntry, fill_readEntry]
  refine .takeKey fun key twin hk => .isSign h fun opens => ?_
  rw [h.text hk]
  refine .ite Iff.rfl (fun _ => ?_) fun _ => ?_
  · exact hb.bind_eq fun _ => .pure rfl
  · exact (twins_takeValues h (h.level hk)).bind_eq fun _ => .pure rfl

/-- Blocks of keys and values are the same, however deep. -/
theorem twins_readKeyValuesWithin (h : Matched places) (depth : Nat) :
    Twins places Eq (readKeyValuesWithin depth) (readKeyValuesWithin depth) := by
  induction depth with
  | zero => exact .pure rfl
  | succ depth ih =>
    rw [readKeyValuesWithin]
    refine (twins_expectOpening h).bind_eq fun _ => twins_readBlock h rfl ?_
    rintro entries _ rfl
    exact twins_readEntry h ih entries

/-- A block of keys and values is the same. -/
theorem twins_readKeyValues (h : Matched places) :
    Twins places Eq readKeyValues readKeyValues := by
  unfold readKeyValues
  refine .remaining fun left _ => ?_
  rw [List.length_map, List.length_map]
  exact twins_readKeyValuesWithin h _

/-- A property statement is the same change. -/
theorem twins_readProperty (h : Matched places) (accepts : PropertyWord → Bool) :
    Twins places Eq (readProperty accepts) (readProperty accepts) := by
  unfold readProperty
  refine .current fun token twin ht => ?_
  have hl := h.level ht
  rw [h.kind ht, h.lexeme ht]
  split
  · exact .pure rfl
  · rename_i word _
    refine .ite Iff.rfl (fun _ => .advance fun _ _ _ => ?_) fun _ => .pure rfl
    cases word with
    | tags =>
      refine (twins_takeValues h hl).bind_eq fun values => ?_
      split
      · exact .current fun _ _ hn => .failExpected h hn _
      · exact .pure rfl
    | properties => exact (twins_readKeyValues h).bind_eq fun _ => .pure rfl
    | perspectives => exact (twins_readKeyValues h).bind_eq fun _ => .pure rfl
    | _ => exact (twins_expectValue h hl _).bind_eq fun _ => .pure rfl

/-! ## Directives -/

/-- A directive is the same, or fails at tokens that match. -/
theorem twins_readDirectiveAfter (h : Matched places) (ht : (token, twin) ∈ places) :
    Twins places Eq (readDirectiveAfter token) (readDirectiveAfter twin) := by
  unfold readDirectiveAfter
  refine (twins_takeValues h (h.level ht)).bind_eq fun values => ?_
  rw [h.kind ht, h.lexeme ht]
  split
  · exact twins_remark _ _ _
  · refine .ite Iff.rfl (fun _ => .halt_bind (.fail ht _)) fun _ => ?_
    refine .ite Iff.rfl (fun _ => .halt_bind (.fail ht _)) fun _ => ?_
    exact twins_modifyWorkspace
      (fun directive workspace =>
        { workspace with directives := workspace.directives ++ [directive] })
      Directive.unplaced (fun _ _ => by simp [Workspace.unplaced]) rfl

/-- A directive is the same, or fails at tokens that match. -/
theorem twins_readDirective (h : Matched places) :
    Twins places Eq readDirective readDirective := by
  unfold readDirective
  exact .advance fun _ _ ht => twins_readDirectiveAfter h ht

/-- Tokens that match start directives both, or neither does. -/
theorem Matched.isDirective (h : Matched places) (ht : (token, twin) ∈ places) :
    isDirective token = isDirective twin := by
  unfold Grammar.isDirective
  rw [h.kind ht, h.lexeme ht]

/-! ## References and relationships -/

/-- The parts of a dotted reference are the same. -/
theorem twins_readPathParts (h : Matched places) (count : Nat) :
    Twins places Eq (readPathParts count) (readPathParts count) := by
  induction count with
  | zero => exact .pure rfl
  | succ count ih =>
    rw [readPathParts]
    refine .isSign h fun dotted => .ite Iff.rfl (fun _ => ?_) fun _ => .pure rfl
    refine .advance fun _ _ _ => .current fun part twin hp => ?_
    rw [h.isReferencePart hp, h.lexeme hp]
    refine .ite Iff.rfl (fun _ => ?_) fun _ => .failExpected h hp _
    exact .advance fun _ _ _ => ih.bind_eq fun _ => .pure rfl

/-- A reference is the same. -/
theorem twins_readReference (h : Matched places) (hl : Level places line other) :
    Twins places Eq (readReference line) (readReference other) := by
  unfold readReference
  refine .current fun token twin ht => ?_
  have hline : (token.line != line) = (twin.line != other) := congrArg (!·) (hl.beq ht)
  rw [h.isReferencePart ht, h.kind ht, h.lexeme ht, h.text ht, hline]
  refine .ite Iff.rfl (fun _ => .halt_bind (.failExpected h ht _)) fun _ => ?_
  refine .advance fun _ _ _ => .ite Iff.rfl (fun _ => .pure rfl) fun _ => ?_
  refine .remaining fun left _ => ?_
  rw [List.length_map, List.length_map]
  exact (twins_readPathParts h _).bind_eq fun _ => .pure rfl

/-- A statement in the body of a relationship changes it in the same way. -/
theorem twins_readRelationshipStatement (h : Matched places) {relationship same : Relationship}
    (hr : Same Relationship.unplaced relationship same) :
    Twins places (Same Relationship.unplaced)
      (readRelationshipStatement.fill relationship) (readRelationshipStatement.fill same) := by
  rw [fill_readRelationshipStatement, fill_readRelationshipStatement]
  refine .current fun token twin ht => (twins_readProperty h _).bind_eq fun change => ?_
  split
  · refine .pure ?_
    unfold Same at hr ⊢
    rw [Relationship.unplaced_edit, Relationship.unplaced_edit, hr]
  · exact .failUnexpected h ht _

/-- The source of a relationship is the same. -/
theorem twins_readOrigin (h : Matched places) (ht : (token, twin) ∈ places) (mayLeaveOut : Bool) :
    Twins places Eq (readOrigin token mayLeaveOut) (readOrigin twin mayLeaveOut) := by
  unfold readOrigin
  rw [h.kind ht]
  refine .ite Iff.rfl (fun _ => ?_) fun _ => twins_readReference h (h.level ht)
  exact .ite Iff.rfl (fun _ => .pure rfl) fun _ => .fail ht _

/-- A relationship is the same up to places. -/
theorem twins_readRelationship (h : Matched places) (identifier : Option String)
    (mayLeaveOut : Bool) :
    Twins places (Same Relationship.unplaced)
      (readRelationship identifier first mayLeaveOut)
      (readRelationship identifier begin mayLeaveOut) := by
  unfold readRelationship
  refine .current fun token twin ht => ?_
  have hl := h.level ht
  refine (twins_readOrigin h ht _).bind_eq fun source => ?_
  refine (twins_expect h _).bind fun _ _ _ => (twins_readReference h hl).bind_eq fun _ => ?_
  refine (twins_takePositional h hl 3).bind_eq fun arguments => ?_
  refine (twins_expectLineEnd h hl).bind_eq fun _ => (twins_opensBody h hl).bind_eq fun opens => ?_
  refine .ite Iff.rfl (fun _ => ?_) fun _ => .pure rfl
  exact twins_readBlock h rfl fun _ _ hr => twins_readRelationshipStatement h hr

/-! ## Elements -/

/-- Statements of bodies that are the same up to places. -/
abbrev SameEntries : List BodyEntry → List BodyEntry → Prop := Same (List.map BodyEntry.unplaced)

/-- Readers of bodies that are twins, whatever the bodies are of. -/
def TwinBodies (places : List (Token × Token)) (body mate : BodyKind → Reader (List BodyEntry)) :
    Prop :=
  ∀ kind, Twins places SameEntries (body kind) (mate kind)

variable {body mate : BodyKind → Reader (List BodyEntry)}

/-- What is put together of statements that are the same up to places is the same up to places. -/
theorem same_foldl {α : Type} {erase : α → α} {add : α → BodyEntry → α}
    (h : ∀ owner entry, erase (add owner entry) = add (erase owner) entry.unplaced)
    {owner same : α} (ho : Same erase owner same) {entries others : List BodyEntry}
    (he : SameEntries entries others) :
    Same erase (entries.foldl add owner) (others.foldl add same) := by
  unfold SameEntries Same at *
  rw [unplaced_foldl h, unplaced_foldl h, ho, he]

/-- The header of an instance is the same up to its place. -/
theorem twins_readDeployed (h : Matched places) (hl : Level places line other)
    (instanceOf : InstanceOf) (identifier : Option String) (position place : Position) :
    Twins places (Same Element.unplaced)
      (readDeployed instanceOf identifier position line)
      (readDeployed instanceOf identifier place other) := by
  unfold readDeployed
  refine (twins_readReference h hl).bind_eq fun reference => ?_
  exact (twins_takePositional h hl 2).bind_eq fun arguments => .pure rfl

/-- The body of an element is the same up to places. -/
theorem twins_readBody (h : Matched places) (hb : TwinBodies places body mate) (kind : BodyKind)
    (ht : (token, twin) ∈ places) :
    Twins places SameEntries (readBody body kind token) (readBody mate kind twin) := by
  unfold readBody
  have hl := h.level ht
  rw [h.lexeme ht]
  refine (twins_expectLineEnd h hl).bind_eq fun _ => (twins_opensBody h hl).bind_eq fun opens => ?_
  refine .ite Iff.rfl (fun _ => hb kind) fun _ => .ite Iff.rfl (fun _ => ?_) fun _ => .pure rfl
  exact .current fun _ _ hn => .failExpected h hn _

/-- An instance is the same up to places. -/
theorem twins_readInstance (h : Matched places) (hb : TwinBodies places body mate)
    (kind : BodyKind) (instanceOf : InstanceOf) (identifier : Option String)
    (ht : (token, twin) ∈ places) :
    Twins places (Same BodyEntry.unplaced)
      (readInstance body kind instanceOf identifier first token)
      (readInstance mate kind instanceOf identifier begin twin) := by
  unfold readInstance
  refine (twins_readDeployed h (h.level ht) _ _ _ _).bind fun header same hh => ?_
  refine (twins_readBody h hb kind ht).bind fun entries others he => .pure ?_
  exact congrArg BodyEntry.member (same_foldl Element.unplaced_add hh he)

/-- The enterprise is the same up to places. -/
theorem twins_readEnterprise (h : Matched places) (hb : TwinBodies places body mate)
    (identifier : Option String) (hf : (first, begin) ∈ places) (ht : (token, twin) ∈ places) :
    Twins places (Same BodyEntry.unplaced)
      (readEnterprise body identifier first token) (readEnterprise mate identifier begin twin) := by
  unfold readEnterprise
  rw [h.lexeme ht]
  refine .ite Iff.rfl (fun _ => .halt_bind (.fail hf _)) fun _ => ?_
  refine (twins_expectString h (h.level ht) _).bind_eq fun name => ?_
  refine (twins_readBody h hb _ ht).bind fun entries others he => .pure ?_
  have hh : Same Enterprise.unplaced { position := some first.position, name }
      { position := some begin.position, name } := rfl
  exact congrArg BodyEntry.enterprise (same_foldl Enterprise.unplaced_add hh he)

/-- The declaration of an element from its name does not depend on its place. -/
theorem plainElement?_unplaced (kind : BodyKind) (identifier : Option String)
    (position place : Position) (name : String) (arguments : List String) :
    Option.Rel (Same Element.unplaced)
      (plainElement? kind identifier position name arguments)
      (plainElement? kind identifier place name arguments) := by
  cases kind <;> first | exact .none | exact .some rfl

/-- Another element is the same up to places. -/
theorem twins_readPlain (h : Matched places) (hb : TwinBodies places body mate) (kind : BodyKind)
    (identifier : Option String) (ht : (token, twin) ∈ places) :
    Twins places (Same BodyEntry.unplaced)
      (readPlain body kind identifier first token) (readPlain mate kind identifier begin twin) := by
  unfold readPlain
  have hl := h.level ht
  rw [h.lexeme ht]
  refine (twins_expectString h hl _).bind_eq fun name => ?_
  have hlimit : Twins places Eq (lookUp kind.headerLimit?) (lookUp kind.headerLimit?) := by
    cases kind.headerLimit? with
    | none => exact twins_lookUp .none
    | some limit => exact twins_lookUp (.some rfl)
  refine hlimit.bind_eq fun limit => (twins_takePositional h hl limit).bind_eq fun arguments => ?_
  refine (twins_lookUp (plainElement?_unplaced ..)).bind fun header same hh => ?_
  refine (twins_readBody h hb kind ht).bind fun entries others he => .pure ?_
  exact congrArg BodyEntry.member (same_foldl Element.unplaced_add hh he)

/-- An element is the same up to places. -/
theorem twins_readElement (h : Matched places) (hb : TwinBodies places body mate) (kind : BodyKind)
    (identifier : Option String) (hf : (first, begin) ∈ places) :
    Twins places (Same BodyEntry.unplaced)
      (readElement body kind identifier first) (readElement mate kind identifier begin) := by
  unfold readElement
  refine .advance fun keyword twin ht => ?_
  split
  · exact twins_readInstance h hb _ _ _ ht
  · exact twins_readInstance h hb _ _ _ ht
  · exact twins_readEnterprise h hb _ hf ht
  · exact twins_readPlain h hb _ _ ht

/-- The identifier that a statement starts with is the same. -/
theorem twins_readIdentifier (h : Matched places) :
    Twins places Eq readIdentifier readIdentifier := by
  unfold readIdentifier
  refine .remaining fun left hs => ?_
  rcases left with _ | ⟨name, _ | ⟨sign, rest⟩⟩
  · exact .pure rfl
  · exact .pure rfl
  · have hn := hs.subset List.mem_cons_self
    have hg := hs.subset (List.mem_cons_of_mem _ List.mem_cons_self)
    simp only [List.map_cons]
    rw [h.kind hn, h.kind hg, h.lexeme hn, (h.level hn).beq hg]
    refine .ite Iff.rfl (fun _ => ?_) fun _ => .pure rfl
    exact .advance fun _ _ _ => .advance fun _ _ _ => .pure rfl

/-- A declaration of a body is the same up to places. -/
theorem twins_readDeclaration (h : Matched places) (hb : TwinBodies places body mate)
    (owner : BodyKind) :
    Twins places (Same BodyEntry.unplaced)
      (readDeclaration body owner) (readDeclaration mate owner) := by
  unfold readDeclaration
  refine .current fun first begin hf => (twins_readIdentifier h).bind_eq fun identifier => ?_
  refine .current fun token twin ht => .remaining fun left hs => ?_
  rw [h.kind ht, h.lexeme ht, startsRelationship_matched h hs.subset]
  refine .ite Iff.rfl (fun _ => ?_) fun _ => ?_
  · exact (twins_readRelationship h _ _).bind fun _ _ hr =>
      .pure (congrArg BodyEntry.relationship hr)
  · split
    · exact .failUnexpected h ht _
    · exact .ite Iff.rfl (fun _ => twins_readElement h hb _ _ hf) fun _ => .fail ht _

/-- A statement of a body is the same up to places. -/
theorem twins_readBodyStatement (h : Matched places) (hb : TwinBodies places body mate)
    (owner : BodyKind) :
    Twins places SameEntries (readBodyStatement body owner) (readBodyStatement mate owner) := by
  unfold readBodyStatement
  refine .current fun token twin ht => .ite (by rw [h.isDirective ht]) (fun _ => ?_) fun _ => ?_
  · exact (twins_readDirective h).bind_eq fun _ => .pure rfl
  · refine (twins_readProperty h _).bind_eq fun change => ?_
    split
    · exact .pure rfl
    · refine (twins_readDeclaration h hb owner).bind fun _ _ he => .pure ?_
      exact congrArg (fun entry => [entry]) he

/-- A further statement of a body is the same up to places. -/
theorem twins_readBodyEntry (h : Matched places) (hb : TwinBodies places body mate)
    (owner : BodyKind) {entries others : List BodyEntry} (he : SameEntries entries others) :
    Twins places SameEntries ((readBodyEntry body owner).fill entries)
      ((readBodyEntry mate owner).fill others) := by
  rw [fill_readBodyEntry, fill_readBodyEntry]
  exact (twins_readBodyStatement h hb owner).bind fun _ _ hm => .pure (he.append hm)

/-- Bodies are the same up to places, however deep. -/
theorem twins_readEntriesWithin (h : Matched places) (depth : Nat) :
    TwinBodies places (readEntriesWithin depth) (readEntriesWithin depth) := by
  induction depth with
  | zero => exact fun _ => .pure rfl
  | succ depth ih =>
    intro owner
    rw [readEntriesWithin]
    exact twins_readBlock h rfl fun _ _ he => twins_readBodyEntry h ih owner he

/-- Bodies are the same up to places. -/
theorem twins_readEntries (h : Matched places) : TwinBodies places readEntries readEntries := by
  intro owner
  unfold readEntries
  refine .remaining fun left _ => ?_
  rw [List.length_map, List.length_map]
  exact twins_readEntriesWithin h _ owner

/-! ## The model -/

/-- A statement of the model adds the same to it. -/
theorem twins_readModelStatement (h : Matched places) :
    Twins places Eq readModelStatement readModelStatement := by
  unfold readModelStatement
  refine (twins_readBodyStatement h (twins_readEntries h) _).bind fun entries others he => ?_
  refine twins_modifyWorkspace
    (fun entries workspace =>
      { workspace with model := workspace.model.map (entries.foldl Model.add) })
    (List.map BodyEntry.unplaced) (fun entries workspace => ?_) he
  cases hm : workspace.model <;> simp [Workspace.unplaced, hm, unplaced_foldl Model.unplaced_add]

/-- The block of the model is the same. -/
theorem twins_readModel (h : Matched places) : Twins places Eq readModel readModel := by
  unfold readModel
  refine .advance fun keyword twin _ => ?_
  have hblock : Same Model.unplaced { position := some keyword.position }
      { position := some twin.position } := rfl
  refine (twins_modifyWorkspace
    (fun block workspace => { workspace with model := some (workspace.model.getD block) })
    Model.unplaced (fun block workspace => ?_) hblock).bind_eq fun _ => ?_
  · cases hm : workspace.model <;> simp [Workspace.unplaced, hm]
  · exact (twins_expectOpening h).bind_eq fun _ => twins_readBlockOf h (twins_readModelStatement h)

end Blueprint.Grammar
