import Blueprint.Proofs.Grammar.Yields
import Blueprint.Proofs.Printed.Model

/-!
# Reading printed statements

The tokens of a printed row are read as the statement that was printed, whatever comes on the next
line: a relationship from its row, and an element from the row that declares it and its body, if it
has one.
-/

namespace Blueprint.Printed

open Blueprint.Declared Blueprint.Grammar

variable {p : Progress} {line : Int} {tokens tail : List Token}

/-! ## Tokens of rows -/

/-- Further tokens are there, the first of them not above a line. -/
def Below (line : Int) (tokens : List Token) : Prop :=
  ∃ token rest, tokens = token :: rest ∧ line ≤ token.line

/-- Where further tokens are there, there are tokens. -/
theorem Below.ne_nil (h : Below line tokens) : tokens ≠ [] := by
  obtain ⟨token, rest, rfl, _⟩ := h
  exact List.cons_ne_nil _ _

/-- The tokens of two parts of a row are those of one part and those of the other. -/
theorem split_row {row more : List Atom}
    (h : List.Forall₂ (Shows line) (row ++ more) tokens) :
    ∃ front back, tokens = front ++ back ∧ List.Forall₂ (Shows line) row front ∧
      List.Forall₂ (Shows line) more back := by
  induction row generalizing tokens with
  | nil => exact ⟨[], tokens, rfl, .nil, h⟩
  | cons atom row ih =>
    cases h with
    | cons ha hr =>
      obtain ⟨front, back, rfl, hf, hb⟩ := ih hr
      exact ⟨_ :: front, back, rfl, .cons ha hf, hb⟩

/-- The tokens of rows and further rows are those of the former and those of the latter. -/
theorem OnRows.split {rows more : List (List Atom)} (h : OnRows line (rows ++ more) tokens) :
    ∃ front back, tokens = front ++ back ∧ OnRows line rows front ∧
      OnRows (line + rows.length) more back := by
  induction rows generalizing line tokens with
  | nil =>
    refine ⟨[], tokens, rfl, .nil, ?_⟩
    rw [List.length_nil, Int.natCast_zero, Int.add_zero]
    exact h
  | cons row rows ih =>
    cases h with
    | @cons _ _ _ first rest hr hm =>
      obtain ⟨front, back, rfl, hf, hb⟩ := ih hm
      refine ⟨first ++ front, back, (List.append_assoc ..).symm, .cons hr hf, ?_⟩
      rw [List.length_cons, Int.natCast_succ, Int.add_comm _ 1, ← Int.add_assoc]
      exact hb

/-- The tokens of rows are below what is above the rows, and so are those after them. -/
theorem below_of_onRows {rows : List (List Atom)} (h : OnRows line rows tokens)
    (hr : ∀ row ∈ rows, row ≠ []) (ht : Below (line + rows.length) tail) :
    Below line (tokens ++ tail) := by
  cases h with
  | nil =>
    rw [List.length_nil, Int.natCast_zero, Int.add_zero] at ht
    exact ht
  | @cons _ row rows front back hf hm =>
    cases hf with
    | nil => exact absurd rfl (hr [] List.mem_cons_self)
    | @cons atom token atoms rest ha _ =>
      obtain ⟨position, hl, rfl⟩ := ha
      exact ⟨_, rest ++ back ++ tail, rfl, Int.le_of_eq ((atom.line_token position).trans hl).symm⟩

/-- The tokens of a block are those of the row that opens it, a brace on its line, the tokens of
what is inside, and a brace below. -/
theorem split_block {header : List Atom} {inner : List (List Atom)}
    (h : OnRows line (blockRows header inner) tokens) :
    ∃ front opening body close, tokens = front ++ opening :: (body ++ [close]) ∧
      List.Forall₂ (Shows line) header front ∧
      (opening.kind = .sign .leftBrace ∧ opening.line = line) ∧
      OnRows (line + 1) inner body ∧
      close.kind = .sign .rightBrace ∧ close.line = line + 1 + inner.length := by
  unfold blockRows at h
  cases h with
  | cons hf hb =>
    obtain ⟨front, opening, rfl, hh, ho⟩ := split_row hf
    obtain ⟨body, closing, rfl, hi, hc⟩ := hb.split
    obtain _ | @⟨_, opening, _, _, ⟨position, hp, rfl⟩, _ | _⟩ := ho
    obtain _ | @⟨_, _, _, _, _, hc, _ | _⟩ := hc
    obtain _ | @⟨_, close, _, _, ⟨place, hl, rfl⟩, _ | _⟩ := hc
    refine ⟨front, (Atom.sign .leftBrace).token position, body,
      (Atom.sign .rightBrace).token place, ?_, hh,
      ⟨rfl, (Atom.line_token _ position).trans hp⟩, hi, rfl, (Atom.line_token _ place).trans hl⟩
    rw [List.append_nil, List.append_assoc, List.singleton_append]

/-! ## Identifiers and arguments -/

/-- The identifier before an equals sign is read, if there is one. -/
theorem yields_readIdentifier {identifier : Option String} {front : List Token} {next : Token}
    (h : List.Forall₂ (Shows line) (assigned identifier) front) (hn : next.kind ≠ .identifier) :
    Yields (p.ahead (front ++ next :: tokens)) readIdentifier identifier
      (p.ahead (next :: tokens)) := by
  unfold readIdentifier
  cases identifier with
  | none =>
    cases h
    refine yields_remaining.bind ?_
    cases tokens with
    | nil => exact yields_pure none
    | cons second rest =>
      dsimp only [List.nil_append]
      rw [beq_eq_false_iff_ne.mpr hn]
      exact yields_pure none
  | some name =>
    obtain _ | ⟨⟨first, hf, rfl⟩, _ | ⟨⟨second, hs, rfl⟩, _ | _⟩⟩ := h
    refine yields_remaining.bind ?_
    have hl : ((Atom.sign .equals).token second).line =
        ((Atom.name name).token first).line := hs.trans hf.symm
    dsimp only [List.cons_append, List.nil_append]
    rw [if_pos (by rw [hl, beq_self_eq_true]; rfl)]
    refine (yields_advance (List.cons_ne_nil _ _)).bind ?_
    exact (yields_advance (List.cons_ne_nil _ _)).bind (yields_pure _)

/-- Arguments that are printed on a row are read, up to a brace or the next row. -/
theorem yields_arguments {slots : List (Option String)} {front : List Token} {next : Token}
    {limit : Nat} (h : List.Forall₂ (Shows line) (arguments slots) front)
    (hl : slots.length ≤ limit) (hn : next.line = line → next.kind = .sign .leftBrace) :
    Yields (p.ahead (front ++ next :: tokens)) (takePositional line limit) (slots.filterMap id)
      (p.ahead (next :: tokens)) := by
  have hread : front.map (·.text.shown) = slots.filterMap id ∧
      ∀ token ∈ front, (token.line == line && isPositional token) = true := by
    unfold arguments at h
    generalize slots.filterMap id = values at h
    induction values generalizing front with
    | nil =>
      cases h
      exact ⟨rfl, List.forall_mem_nil _⟩
    | cons value values ih =>
      obtain _ | ⟨⟨position, hp, rfl⟩, hr⟩ := h
      obtain ⟨ht, hm⟩ := ih hr
      refine ⟨?_, List.forall_mem_cons.mpr ⟨?_, hm⟩⟩
      · rw [List.map_cons, Atom.text_token, Text.shown_ofString, ht]
      rw [Atom.line_token, hp, beq_self_eq_true]
      rfl
  obtain ⟨htext, hplace⟩ := hread
  rw [← htext]
  refine yields_takePositional hplace ?_ ?_
  · have hlength := List.length_filterMap_le id slots
    rw [← htext, List.length_map] at hlength
    exact Nat.le_trans hlength hl
  · intro token ht
    cases ht
    by_cases hline : next.line = line
    · simp [isPositional, hn hline]
    · rw [beq_eq_false_iff_ne.mpr hline, Bool.false_and]

/-- Nothing is left on a line where a brace or the next row follows. -/
theorem onLine_eq_false {next : Token} (hn : next.line = line → next.kind = .sign .leftBrace) :
    onLine line next = false := by
  by_cases hline : next.line = line
  · simp [onLine, hn hline]
  · simp [onLine, hline]

/-! ## Statements -/

/-- A printed statement may start with a token: it starts neither a directive nor a property, and
does not end a block. -/
structure Starts (token : Token) : Prop where
  /-- The token starts no directive. -/
  directive : isDirective token = false
  /-- The token starts no property. -/
  property : PropertyWord.ofKind? token.kind = none
  /-- The token does not close the block. -/
  open_ne : token.kind ≠ .sign .rightBrace
  /-- The token is not the end of the input. -/
  end_ne : token.kind ≠ .endOfInput

/-- A printed statement may start with a text. -/
theorem starts_text (position : Position) (value : String) :
    Starts ((Atom.text value).token position) :=
  ⟨rfl, rfl, (fun he => by cases he), (fun he => by cases he)⟩

/-- A printed statement may start with an identifier. -/
theorem starts_name (position : Position) {name : String} (h : IsIdentifier name) :
    Starts ((Atom.name name).token position) where
  directive := beq_eq_false_iff_ne.mpr h.head_ne
  property := rfl
  open_ne := fun he => by cases he
  end_ne := fun he => by cases he

/-- A printed statement may start with the word that declares an element. -/
theorem starts_word (position : Position) (kind : BodyKind) :
    Starts ((Atom.word kind.keyword).token position) where
  directive := rfl
  property := by cases kind <;> rfl
  open_ne := fun he => by cases he
  end_ne := fun he => by cases he

/-- A printed statement may start with its identifier, if it has one. -/
theorem exists_start {identifier : Option String} {front : List Token} {next : Token}
    (hi : ∀ name ∈ identifier, IsIdentifier name)
    (h : List.Forall₂ (Shows line) (assigned identifier) front) (hn : Starts next)
    (tokens : List Token) :
    ∃ first rest, front ++ next :: tokens = first :: rest ∧ Starts first := by
  cases identifier with
  | none =>
    cases h
    exact ⟨next, tokens, rfl, hn⟩
  | some name =>
    obtain _ | ⟨⟨position, _, rfl⟩, _⟩ := h
    exact ⟨_, _, rfl, starts_name position (hi name rfl)⟩

/-- A statement is read as the declaration that it starts. -/
theorem yields_readBodyStatement {body : BodyKind → Reader (List BodyEntry)} {owner : BodyKind}
    {first : Token} {rest : List Token} {entry : BodyEntry} {q : Progress} (hs : Starts first)
    (h : Yields (p.ahead (first :: rest)) (readDeclaration body owner) entry q) :
    Yields (p.ahead (first :: rest)) (readBodyStatement body owner) [entry] q := by
  have hproperty : Yields (p.ahead (first :: rest)) (readProperty owner.accepts) none
      (p.ahead (first :: rest)) := by
    unfold readProperty
    refine yields_current.bind ?_
    rw [hs.property]
    exact yields_pure none
  unfold readBodyStatement
  refine yields_current.bind ?_
  rw [if_neg (Bool.eq_false_iff.mp hs.directive)]
  exact hproperty.bind (h.map fun read => [read])

/-- Behind its identifier a statement is read as the relationship or element that follows. -/
theorem yields_declared {body : BodyKind → Reader (List BodyEntry)} {owner : BodyKind}
    {identifier : Option String} {named rest others : List Token} {start first : Token}
    {entry : BodyEntry} {q : Progress} (he : named ++ start :: rest = first :: others)
    (hs : Starts first) (hi : List.Forall₂ (Shows line) (assigned identifier) named)
    (hk : start.kind ≠ .identifier)
    (h : Yields (p.ahead (start :: rest))
      (if start.kind == .sign .arrow || startsRelationship (start :: rest) then do
        return .relationship (← readRelationship identifier first owner.isSource)
      else
        match BodyKind.ofElementKind? start.kind with
        | none => failUnexpected (.block owner.keyword) start
        | some kind =>
          if owner.allows kind then readElement body kind identifier first
          else fail (.notAllowed start.lexeme owner.keyword) start) entry q) :
    Yields (p.ahead (named ++ start :: rest)) (readBodyStatement body owner) [entry] q := by
  rw [he]
  refine yields_readBodyStatement hs ?_
  unfold readDeclaration
  refine yields_current.bind ?_
  rw [← he]
  refine (yields_readIdentifier hi hk).bind ?_
  exact yields_current.bind (yields_remaining.bind h)

/-! ## Relationships -/

/-- A text that is printed is read as a reference. -/
theorem yields_readReference {value : String} {token : Token}
    (h : Shows line (.text value) token) (ht : tokens ≠ []) :
    Yields (p.ahead (token :: tokens)) (readReference line) value (p.ahead tokens) := by
  obtain ⟨position, rfl, rfl⟩ := h
  unfold readReference
  refine yields_current.bind ?_
  have hc : (((Atom.text value).token position).line != position.line ||
      !(isReferencePart ((Atom.text value).token position) ||
        ((Atom.text value).token position).kind == .string)) = false := by
    rw [Atom.line_token, bne_self_eq_false]
    rfl
  rw [hc]
  refine (yields_advance ht).bind ?_
  show Yields _ (pure ((Atom.text value).token position).text.shown) value _
  rw [Atom.text_token, Text.shown_ofString]
  exact yields_pure value

/-- The row of a relationship is read as the relationship. -/
theorem yields_readRelationship {relationship : Relationship} (h : PlainRelationship relationship)
    {source arrow destination next : Token} {given : List Token}
    (hs : Shows line (.text relationship.source) source)
    (ha : Shows line (.sign .arrow) arrow)
    (hd : Shows line (.text relationship.destination) destination)
    (hg : List.Forall₂ (Shows line) (arguments (relationshipSlots relationship)) given)
    (hn : next.line ≠ line) (first : Token) (mayLeaveOut : Bool) :
    Yields (p.ahead (source :: arrow :: destination :: (given ++ next :: tokens)))
      (readRelationship relationship.identifier first mayLeaveOut)
      { relationship with position := some first.position } (p.ahead (next :: tokens)) := by
  have hl : source.line = line := by
    obtain ⟨position, hp, rfl⟩ := hs
    exact (Atom.line_token _ _).trans hp
  have hk : source.kind = .string := by
    obtain ⟨position, hp, rfl⟩ := hs
    rfl
  have harrow : arrow.kind = .sign .arrow := by
    obtain ⟨position, hp, rfl⟩ := ha
    rfl
  have hrest : given ++ next :: tokens ≠ [] :=
    List.append_ne_nil_of_right_ne_nil _ (List.cons_ne_nil _ _)
  unfold readRelationship
  refine yields_current.bind ?_
  rw [hl]
  have horigin : Yields (p.ahead (source :: arrow :: destination :: (given ++ next :: tokens)))
      (readOrigin source mayLeaveOut) relationship.source
      (p.ahead (arrow :: destination :: (given ++ next :: tokens))) := by
    unfold readOrigin
    rw [if_neg (by rw [hk]; decide), hl]
    exact yields_readReference hs (List.cons_ne_nil _ _)
  refine horigin.bind ?_
  refine (yields_expect (by rw [harrow]; rfl) (List.cons_ne_nil _ _)).bind ?_
  refine (yields_readReference hd hrest).bind ?_
  refine (yields_arguments hg (Nat.le_refl 3) fun he => absurd he hn).bind ?_
  refine (yields_expectLineEnd (onLine_eq_false fun he => absurd he hn)).bind ?_
  refine (yields_opensBody_false hn).bind ?_
  have hdescription := argument_leading h.leading 0
  have htechnology := argument_leading h.leading 1
  have htags : argumentEntries ((relationshipSlots relationship).filterMap id) 2 =
      relationship.tags := argumentEntries_leading h.leading rfl h.tags
  rw [hdescription, htechnology, htags]
  have hproperties := h.properties_eq
  have hurl := h.url_eq
  obtain ⟨position, source, destination, identifier, description, technology, tags, properties,
    url⟩ := relationship
  cases hproperties
  cases hurl
  exact yields_pure _

/-- Reading a body goes as deep as there are tokens left, up to a bound. -/
def Deep (bound : Nat) (body : BodyKind → Reader (List BodyEntry)) : Prop :=
  ∀ kind (p : Progress), ∃ depth, min bound p.rest.length ≤ depth ∧
    (body kind).run.run p = (readEntriesWithin depth kind).run.run p

/-- What the tokens of a printed statement are read as before others, by all that reads the bodies
in it deep enough. -/
def ReadsAs (owner : BodyKind) (front tail : List Token) (entry : BodyEntry) : Prop :=
  (∃ first rest, front = first :: rest ∧ Starts first) ∧
    ∀ (body : BodyKind → Reader (List BodyEntry)), Deep front.length body → ∀ p : Progress,
      Yields (p.ahead (front ++ tail)) (readBodyStatement body owner) [entry] (p.ahead tail)

/-- A text and an arrow on one line start a relationship. -/
theorem startsRelationship_of_text {source arrow : Token} (hs : source.kind = .string)
    (ha : arrow.kind = .sign .arrow) (hl : arrow.line = source.line) (more : List Token) :
    startsRelationship (source :: arrow :: more) = true := by
  have hp : afterPath (arrow :: more) = arrow :: more := by
    cases more with
    | nil => rfl
    | cons part rest =>
      rw [afterPath, if_neg]
      simp [isDot, ha]
  simp [startsRelationship, hp, hs, ha, hl]

/-- The row of a relationship is read as the relationship. -/
theorem readsAs_relationship {owner : BodyKind}
    {relationship : Relationship} (h : PlainRelationship relationship) {front : List Token}
    (hf : List.Forall₂ (Shows line) (relationshipRow relationship) front)
    (ht : Below (line + 1) tail) :
    ∃ read : Relationship, read.placeless = relationship.placeless ∧
      ReadsAs owner front tail (.relationship read) := by
  obtain ⟨next, rest, rfl, hline⟩ := ht
  have hn : next.line ≠ line := by omega
  unfold relationshipRow at hf
  obtain ⟨header, given, rfl, hh, hg⟩ := split_row hf
  obtain ⟨named, main, rfl, hi, hm⟩ := split_row hh
  cases hm with
  | @cons _ source _ _ hs hm =>
  cases hm with
  | @cons _ arrow _ _ ha hm =>
  cases hm with
  | @cons _ destination _ _ hd hm =>
  cases hm
  have hkind : source.kind = .string ∧ arrow.kind = .sign .arrow ∧ arrow.line = source.line ∧
      Starts source := by
    obtain ⟨position, hp, rfl⟩ := hs
    obtain ⟨place, hl, rfl⟩ := ha
    exact ⟨rfl, rfl, hl.trans hp.symm, starts_text position _⟩
  obtain ⟨hstring, harrow, hsame, hstart⟩ := hkind
  obtain ⟨first, others, he, hfirst⟩ := exists_start h.identifier hi hstart
    (arrow :: destination :: given)
  refine ⟨{ relationship with position := some first.position }, rfl, ⟨first, others, ?_, hfirst⟩,
    fun body _ p => ?_⟩
  · rw [List.append_assoc]
    exact he
  have hfront : named ++ [source, arrow, destination] ++ given ++ next :: rest =
      named ++ source :: arrow :: destination :: (given ++ next :: rest) := by
    simp
  have hall : named ++ source :: arrow :: destination :: (given ++ next :: rest) =
      first :: (others ++ next :: rest) := by
    simpa using congrArg (· ++ next :: rest) he
  rw [hfront]
  refine yields_declared hall hfirst hi (by rw [hstring]; exact fun he => by cases he) ?_
  rw [startsRelationship_of_text hstring harrow hsame, Bool.or_true, if_pos rfl]
  exact (yields_readRelationship h hs ha hd hg hn first _).map _

/-! ## Elements -/

/-- The arguments of an element are as many as are read after its name. -/
theorem headerLimit?_bodyKind (sort : PlainSort) (details : Details) :
    sort.bodyKind.headerLimit? = some (slots sort details).length := by
  cases sort <;> rfl

/-- From the arguments of an element its declaration is put together. -/
theorem plainElement?_slots {sort : PlainSort} {details : Details} (h : PlainHeading sort details)
    (position : Position) :
    plainElement? sort.bodyKind details.identifier position details.name
        ((slots sort details).filterMap id) =
      some (.plain sort { details with position := some position } [] []) := by
  have hleading := h.leading
  have hbare := h.bare
  have hgroup := h.group
  have hproperties := h.properties_eq
  have hperspectives := h.perspectives_eq
  have hurl := h.url_eq
  have htags : ∀ index : Nat, (slots sort details)[index]? = some (tagList details.tags) →
      argumentEntries ((slots sort details).filterMap id) index = details.tags :=
    fun _ hs => argumentEntries_leading hleading hs h.tags
  have harg := argument_leading hleading
  obtain ⟨place, identifier, name, description, tags, properties, perspectives, url⟩ := details
  cases hproperties
  cases hperspectives
  cases hurl
  cases sort with
  | person location =>
    cases hbare
    simp only [PlainSort.bodyKind, plainElement?, harg, htags 1 rfl]
    rfl
  | softwareSystem location =>
    cases hbare
    simp only [PlainSort.bodyKind, plainElement?, harg, htags 1 rfl]
    rfl
  | container technology =>
    simp only [PlainSort.bodyKind, plainElement?, harg, htags 2 rfl]
    rfl
  | component technology =>
    simp only [PlainSort.bodyKind, plainElement?, harg, htags 2 rfl]
    rfl
  | group =>
    obtain ⟨hd, ht⟩ := hgroup rfl
    cases hd
    cases ht
    rfl
  | deploymentNode technology instances => exact hbare.elim
  | infrastructureNode technology => exact hbare.elim

/-- The row that declares an element is read, and then its body. -/
theorem yields_heading {owner : BodyKind} {sort : PlainSort} {details : Details}
    (h : PlainHeading sort details) (ho : owner.allows sort.bodyKind = true) {front : List Token}
    (hf : List.Forall₂ (Shows line) (headingRow sort details) front) :
    ∃ first rest keyword, front = first :: rest ∧ Starts first ∧ keyword.line = line ∧
      ∀ {body : BodyKind → Reader (List BodyEntry)} {p q : Progress} {next : Token}
        {tokens : List Token} {entries : List BodyEntry},
        (next.line = line → next.kind = .sign .leftBrace) →
        Yields (p.ahead (next :: tokens)) (readBody body sort.bodyKind keyword) entries q →
        Yields (p.ahead (front ++ next :: tokens)) (readBodyStatement body owner)
          [.member (entries.foldl Element.add
            (.plain sort { details with position := some first.position } [] []))] q := by
  unfold headingRow at hf
  obtain ⟨header, given, rfl, hh, hg⟩ := split_row hf
  obtain ⟨named, main, rfl, hi, hm⟩ := split_row hh
  cases hm with
  | @cons _ keyword _ _ hw hm =>
  cases hm with
  | @cons _ name _ _ hn hm =>
  cases hm
  obtain ⟨position, hw, rfl⟩ := hw
  obtain ⟨place, hn, rfl⟩ := hn
  have hline := (Atom.line_token (.word sort.bodyKind.keyword) position).trans hw
  have hsame := (Atom.line_token (.text details.name) place).trans hn
  obtain ⟨first, others, he, hfirst⟩ := exists_start h.identifier hi
    (starts_word position sort.bodyKind) ((Atom.text details.name).token place :: given)
  refine ⟨first, others, (Atom.word sort.bodyKind.keyword).token position,
    by rw [List.append_assoc]; exact he, hfirst, hline, ?_⟩
  intro body p q next tokens entries hnext hbody
  have hfront : named ++ [(Atom.word sort.bodyKind.keyword).token position,
      (Atom.text details.name).token place] ++ given ++ next :: tokens =
      named ++ (Atom.word sort.bodyKind.keyword).token position ::
        (Atom.text details.name).token place :: (given ++ next :: tokens) := by
    simp
  have hall : named ++ (Atom.word sort.bodyKind.keyword).token position ::
      (Atom.text details.name).token place :: (given ++ next :: tokens) =
      first :: (others ++ next :: tokens) := by
    simpa using congrArg (· ++ next :: tokens) he
  rw [hfront]
  refine yields_declared hall hfirst hi (fun he => by cases he) ?_
  have hrelation : (((Atom.word sort.bodyKind.keyword).token position).kind == .sign .arrow ||
      startsRelationship ((Atom.word sort.bodyKind.keyword).token position ::
        (Atom.text details.name).token place :: (given ++ next :: tokens))) = false := by
    cases sort <;> rfl
  have hkind : BodyKind.ofElementKind? ((Atom.word sort.bodyKind.keyword).token position).kind =
      some sort.bodyKind := by
    cases sort <;> rfl
  have helement : ∀ identifier start, readElement body sort.bodyKind identifier start = (do
      let keyword ← advance
      readPlain body sort.bodyKind identifier start keyword) := by
    cases sort <;> exact fun _ _ => rfl
  rw [hrelation, if_neg Bool.false_ne_true, hkind]
  dsimp only
  rw [if_pos ho, helement]
  refine (yields_advance (List.cons_ne_nil _ _)).bind ?_
  unfold readPlain
  refine (yields_expectString rfl (hsame.trans hline.symm) (by simp)).bind ?_
  rw [headerLimit?_bodyKind sort details, Atom.text_token, Text.shown_ofString]
  refine (yields_lookUp _).bind ?_
  rw [hline]
  refine (yields_arguments hg (Nat.le_refl _) hnext).bind ?_
  rw [plainElement?_slots h]
  exact (yields_lookUp _).bind (hbody.map _)

end Blueprint.Printed
