import Blueprint.Grammar.Workspace
import Blueprint.Proofs.Printed.Row

/-!
# Printing models

A model of people, software systems, containers, components and groups is printed with one
declaration on a row: the identifier and an equals sign if there is one, the word that declares the
element, its name and its arguments. A body opens at the end of the row and is closed on a row of
its own; in it the members stand before the relationships. What can be printed in this way is said
by a predicate on declarations, which is checked without a look at the text.
-/

namespace Blueprint

open Blueprint.Text

/-! ## Declarations wherever they stand -/

namespace Declared

/-- A relationship wherever it stands. -/
def Relationship.placeless (relationship : Relationship) : Relationship :=
  { relationship with position := none }

/-- The common part of elements wherever it stands. -/
def Details.placeless (details : Details) : Details := { details with position := none }

mutual

/-- An element wherever it and its parts stand. -/
def Element.placeless : Element → Element
  | .plain sort details relationships members =>
    .plain sort details.placeless (relationships.map Relationship.placeless)
      (Element.placelessOfList members)
  | .environment heading relationships members =>
    .environment { heading with position := none } (relationships.map Relationship.placeless)
      (Element.placelessOfList members)
  | .deployed deployment relationships =>
    .deployed { deployment with position := none } (relationships.map Relationship.placeless)

/-- Elements wherever they and their parts stand. -/
def Element.placelessOfList : List Element → List Element
  | [] => []
  | element :: rest => Element.placeless element :: Element.placelessOfList rest

end

/-- An enterprise wherever it and its parts stand. -/
def Enterprise.placeless (enterprise : Enterprise) : Enterprise :=
  { position := none
    name := enterprise.name
    members := Element.placelessOfList enterprise.members
    relationships := enterprise.relationships.map Relationship.placeless }

/-- A model wherever it and its parts stand. -/
def Model.placeless (model : Model) : Model :=
  { position := none
    members := Element.placelessOfList model.members
    enterprise := model.enterprise.map Enterprise.placeless
    relationships := model.relationships.map Relationship.placeless
    properties := model.properties }

namespace Element

/-- Elements are each of them, wherever it stands. -/
theorem placelessOfList_eq (elements : List Element) :
    placelessOfList elements = elements.map placeless := by
  induction elements with
  | nil => rfl
  | cons element rest ih => rw [placelessOfList, ih, List.map_cons]

/-- The rank of a member of an element does not depend on where it stands. -/
theorem rankInElement_placeless (element : Element) :
    element.placeless.rankInElement = element.rankInElement := by
  cases element with
  | plain sort details relationships members => cases sort <;> rfl
  | environment heading relationships members => rfl
  | deployed deployment relationships => rfl

/-- The rank of a member of a model does not depend on where it stands. -/
theorem rankInModel_placeless (element : Element) :
    element.placeless.rankInModel = element.rankInModel := by
  cases element with
  | plain sort details relationships members => cases sort <;> rfl
  | environment heading relationships members => rfl
  | deployed deployment relationships => rfl

end Element

/-- The body that an element of a sort has. -/
def PlainSort.bodyKind : PlainSort → Grammar.BodyKind
  | .person _ => .person
  | .softwareSystem _ => .softwareSystem
  | .container _ => .container
  | .component _ => .component
  | .group => .group
  | .deploymentNode _ _ => .deploymentNode
  | .infrastructureNode _ => .infrastructureNode

end Declared

namespace Printed

open Declared

/-! ## Lists of tags -/

/-- A text that can be written in a list of tags: it is not blank, trimmed, and has no comma. -/
structure IsTag (tag : String) : Prop where
  /-- Something is left of the text. -/
  nonempty : tag.toList ≠ []
  /-- The text has no blanks at its ends. -/
  trimmed : trim tag.toList = tag.toList
  /-- The text does not end an entry of a list. -/
  comma_notMem : ',' ∉ tag.toList

/-- The argument that lists tags; without tags there is none. -/
def tagList : List String → Option String
  | [] => none
  | tag :: tags => some (",".intercalate (tag :: tags))

/-- The entries of a list of tags are the tags. -/
theorem listEntries_of_tagList {tags : List String} (h : ∀ tag ∈ tags, IsTag tag) {text : String}
    (ht : tagList tags = some text) : listEntries text = tags := by
  cases tags with
  | nil => cases ht
  | cons tag tags =>
    cases ht
    have hs : splitOn ',' (",".intercalate (tag :: tags)).toList =
        (tag :: tags).map String.toList := by
      rw [String.toList_intercalate, splitOn_eq]
      refine List.splitOn_intercalate ',' (fun other ho => ?_) (List.cons_ne_nil _ _)
      obtain ⟨entry, he, rfl⟩ := List.mem_map.mp ho
      exact (h entry he).comma_notMem
    unfold listEntries
    rw [hs, List.filterMap_map]
    refine (List.filterMap_congr fun entry he => ?_).trans List.filterMap_some
    have hi := h entry he
    rw [Function.comp_apply, hi.trimmed]
    cases hl : entry.toList with
    | nil => exact absurd hl hi.nonempty
    | cons c rest =>
      dsimp only
      rw [← hl, String.ofList_toList]

/-! ## Arguments -/

/-- An argument is there only if all arguments before it are. -/
def Leading (slots : List (Option String)) : Prop :=
  slots.Pairwise fun earlier later => later.isSome = true → earlier.isSome = true

/-- The arguments of an element after its name, those that are not there included. -/
def slots (sort : PlainSort) (details : Details) : List (Option String) :=
  match sort with
  | .person _ | .softwareSystem _ => [details.description, tagList details.tags]
  | .container technology | .component technology | .infrastructureNode technology =>
    [details.description, technology, tagList details.tags]
  | .deploymentNode technology instances =>
    [details.description, technology, tagList details.tags, instances]
  | .group => []

/-- The arguments of a relationship, those that are not there included. -/
def relationshipSlots (relationship : Relationship) : List (Option String) :=
  [relationship.description, relationship.technology, tagList relationship.tags]

/-- Where arguments lead, each of those that are there stands at its own place. -/
theorem argument_leading {slots : List (Option String)} (h : Leading slots) (index : Nat) :
    Grammar.argument (slots.filterMap id) index = slots[index]?.join := by
  unfold Grammar.argument
  induction slots generalizing index with
  | nil => rfl
  | cons first rest ih =>
    obtain ⟨hf, hr⟩ := List.pairwise_cons.mp h
    cases first with
    | none =>
      have hn : ∀ slot ∈ rest, slot = none := by
        intro slot hs
        cases slot with
        | none => rfl
        | some text => cases hf _ hs rfl
      have he : rest.filterMap id = [] := List.filterMap_eq_nil_iff.mpr hn
      rw [List.filterMap_cons_none rfl, he, List.getElem?_nil]
      cases hx : (none :: rest)[index]? with
      | none => rfl
      | some slot =>
        rcases List.mem_cons.mp (List.mem_of_getElem? hx) with rfl | hm
        · rfl
        · rw [hn slot hm]
          rfl
    | some text =>
      have hc : (some text :: rest).filterMap id = text :: rest.filterMap id := rfl
      rw [hc]
      cases index with
      | zero => rfl
      | succ index => exact ih hr index

/-- Where arguments lead, the argument that lists tags has them as its entries. -/
theorem argumentEntries_leading {slots : List (Option String)} (h : Leading slots) {index : Nat}
    {tags : List String} (hs : slots[index]? = some (tagList tags))
    (ht : ∀ tag ∈ tags, IsTag tag) :
    Grammar.argumentEntries (slots.filterMap id) index = tags := by
  have ha := argument_leading h index
  unfold Grammar.argument at ha
  unfold Grammar.argumentEntries
  rw [ha, hs]
  cases he : tagList tags with
  | none =>
    cases tags with
    | nil => rfl
    | cons tag tags => cases he
  | some text => exact listEntries_of_tagList ht he

/-! ## What can be printed -/

/-- An element of the sort can be printed: it is no part of a deployment, and has no location. -/
def BareSort : PlainSort → Prop
  | .person location | .softwareSystem location => location = none
  | .container _ | .component _ | .group => True
  | .deploymentNode _ _ | .infrastructureNode _ => False

/-- A relationship that can be printed on a row. -/
structure PlainRelationship (relationship : Relationship) : Prop where
  /-- Its identifier is plain. -/
  identifier : ∀ name ∈ relationship.identifier, IsIdentifier name
  /-- Its arguments lead. -/
  leading : Leading (relationshipSlots relationship)
  /-- Its tags can be listed. -/
  tags : ∀ tag ∈ relationship.tags, IsTag tag
  /-- It has no further properties. -/
  properties_eq : relationship.properties = .empty
  /-- It has no address. -/
  url_eq : relationship.url = none

/-- What an element is declared with can be printed on a row. -/
structure PlainHeading (sort : PlainSort) (details : Details) : Prop where
  /-- Its sort can be printed. -/
  bare : BareSort sort
  /-- Its identifier is plain. -/
  identifier : ∀ name ∈ details.identifier, IsIdentifier name
  /-- Its arguments lead. -/
  leading : Leading (slots sort details)
  /-- Its tags can be listed. -/
  tags : ∀ tag ∈ details.tags, IsTag tag
  /-- A group has a name only. -/
  group : sort = .group → details.description = none ∧ details.tags = []
  /-- It has no further properties. -/
  properties_eq : details.properties = .empty
  /-- It has no perspectives. -/
  perspectives_eq : details.perspectives = .empty
  /-- It has no address. -/
  url_eq : details.url = none

/-- An element in a body can be printed with everything in it. -/
inductive PlainElement : Grammar.BodyKind → Element → Prop
  /-- The body takes the element. What it is declared with can be printed, and so can its parts;
  its members are ordered by rank, but in a group. -/
  | plain {owner : Grammar.BodyKind} {sort : PlainSort} {details : Details}
    {relationships : List Relationship} {members : List Element}
    (allowed : owner.allows sort.bodyKind = true)
    (heading : PlainHeading sort details)
    (related : ∀ relationship ∈ relationships, PlainRelationship relationship)
    (ordered : sort ≠ .group →
      members.Pairwise fun first second => first.rankInElement ≤ second.rankInElement)
    (inner : ∀ member ∈ members, PlainElement sort.bodyKind member) :
    PlainElement owner (.plain sort details relationships members)

/-- A model can be printed with everything in it. -/
structure PlainModel (model : Model) : Prop where
  /-- Its members can be printed. -/
  inner : ∀ member ∈ model.members, PlainElement .model member
  /-- Its members are ordered by rank. -/
  ordered : model.members.Pairwise fun first second => first.rankInModel ≤ second.rankInModel
  /-- Its relationships can be printed. -/
  related : ∀ relationship ∈ model.relationships, PlainRelationship relationship
  /-- It has no enterprise. -/
  enterprise_eq : model.enterprise = none
  /-- It has no further properties. -/
  properties_eq : model.properties = .empty

/-! ## Printing -/

/-- An identifier before an equals sign, if there is one. -/
def assigned : Option String → List Atom
  | none => []
  | some name => [.name name, .sign .equals]

/-- The arguments that are there. -/
def arguments (slots : List (Option String)) : List Atom := (slots.filterMap id).map Atom.text

/-- The row of a relationship. -/
def relationshipRow (relationship : Relationship) : List Atom :=
  assigned relationship.identifier ++
    [.text relationship.source, .sign .arrow, .text relationship.destination] ++
    arguments (relationshipSlots relationship)

/-- The row that declares an element, without a body. -/
def headingRow (sort : PlainSort) (details : Details) : List Atom :=
  assigned details.identifier ++ [.word sort.bodyKind.keyword, .text details.name] ++
    arguments (slots sort details)

/-- The rows of a block, given the row that opens it. -/
def blockRows (header : List Atom) (inner : List (List Atom)) : List (List Atom) :=
  (header ++ [.sign .leftBrace]) :: (inner ++ [[.sign .rightBrace]])

mutual

/-- The rows of an element. It has a body if it needs one or if there is something in it. -/
def elementRows : Element → List (List Atom)
  | .plain sort details relationships members =>
    let inner := memberRows members ++ relationships.map relationshipRow
    if inner.isEmpty && !sort.bodyKind.needsBody then [headingRow sort details]
    else blockRows (headingRow sort details) inner
  | .environment _ _ _ | .deployed _ _ => []

/-- The rows of elements. -/
def memberRows : List Element → List (List Atom)
  | [] => []
  | element :: rest => elementRows element ++ memberRows rest

end

/-- The rows of a workspace with a model. -/
def modelRows (model : Model) : List (List Atom) :=
  blockRows [.word .workspace] (blockRows [.word .model]
    (memberRows model.members ++ model.relationships.map relationshipRow))

/-- A workspace with a model as a source. -/
def printed (model : Model) : String := source (modelRows model)

/-! ## Legible rows -/

/-- A row that is read as it was printed: there is something on it, and everything on it is read as
one token. -/
structure Legible (row : List Atom) : Prop where
  /-- There is something on the row. -/
  nonempty : row ≠ []
  /-- Everything on the row is read as one token. -/
  readable : ∀ atom ∈ row, atom.Readable

/-- The word that opens a body is a word. -/
theorem isWord_keyword (kind : Grammar.BodyKind) :
    IsWord (.keyword kind.keyword) kind.keyword.spelling.toList := by
  cases kind <;>
    exact ⟨⟨_, _, rfl, ⟨rfl, rfl, by decide⟩, rfl, rfl, List.all_eq_true.mp rfl⟩, rfl⟩

/-- An identifier before an equals sign is read. -/
theorem readable_assigned {identifier : Option String}
    (h : ∀ name ∈ identifier, IsIdentifier name) : ∀ atom ∈ assigned identifier, atom.Readable := by
  cases identifier with
  | none => exact List.forall_mem_nil _
  | some name =>
    exact List.forall_mem_cons.mpr ⟨h name rfl, List.forall_mem_singleton.mpr trivial⟩

/-- Arguments are read. -/
theorem readable_arguments (slots : List (Option String)) :
    ∀ atom ∈ arguments slots, atom.Readable := by
  intro atom ha
  obtain ⟨value, _, rfl⟩ := List.mem_map.mp ha
  trivial

/-- The row of a relationship is read. -/
theorem legible_relationshipRow {relationship : Relationship} (h : PlainRelationship relationship) :
    Legible (relationshipRow relationship) where
  nonempty := by simp [relationshipRow]
  readable := by
    refine List.forall_mem_append.mpr ⟨List.forall_mem_append.mpr ⟨?_, ?_⟩,
      readable_arguments _⟩
    · exact readable_assigned h.identifier
    · simp [Atom.Readable]

/-- The row that declares an element is read. -/
theorem legible_headingRow {sort : PlainSort} {details : Details} (h : PlainHeading sort details) :
    Legible (headingRow sort details) where
  nonempty := by simp [headingRow]
  readable := by
    refine List.forall_mem_append.mpr ⟨List.forall_mem_append.mpr ⟨?_, ?_⟩,
      readable_arguments _⟩
    · exact readable_assigned h.identifier
    · simp [Atom.Readable, isWord_keyword]

/-- The rows of a block are read. -/
theorem legible_blockRows {header : List Atom} {inner : List (List Atom)} (h : Legible header)
    (hi : ∀ row ∈ inner, Legible row) : ∀ row ∈ blockRows header inner, Legible row := by
  refine List.forall_mem_cons.mpr ⟨⟨by simp, ?_⟩, ?_⟩
  · exact List.forall_mem_append.mpr ⟨h.readable, List.forall_mem_singleton.mpr trivial⟩
  · refine List.forall_mem_append.mpr ⟨hi, List.forall_mem_singleton.mpr ⟨by simp, ?_⟩⟩
    exact List.forall_mem_singleton.mpr trivial

/-- The rows of elements are those of each of them. -/
theorem memberRows_eq (members : List Element) :
    memberRows members = members.flatMap elementRows := by
  induction members with
  | nil => rfl
  | cons element rest ih => rw [memberRows, ih, List.flatMap_cons]

/-- What is in a body is read. -/
theorem legible_inner {members : List Element} {relationships : List Relationship}
    (hm : ∀ member ∈ members, ∀ row ∈ elementRows member, Legible row)
    (hr : ∀ relationship ∈ relationships, PlainRelationship relationship) :
    ∀ row ∈ memberRows members ++ relationships.map relationshipRow, Legible row := by
  refine List.forall_mem_append.mpr ⟨?_, ?_⟩
  · rw [memberRows_eq]
    intro row h
    obtain ⟨member, hmem, h⟩ := List.mem_flatMap.mp h
    exact hm member hmem row h
  · intro row h
    obtain ⟨relationship, hrel, rfl⟩ := List.mem_map.mp h
    exact legible_relationshipRow (hr relationship hrel)

/-- The rows of an element that can be printed are read. -/
theorem PlainElement.legible {owner : Grammar.BodyKind} {element : Element}
    (h : PlainElement owner element) : ∀ row ∈ elementRows element, Legible row := by
  induction h with
  | @plain owner sort details relationships members _ heading related _ _ ih =>
    unfold elementRows
    dsimp only
    split
    · exact List.forall_mem_singleton.mpr (legible_headingRow heading)
    · exact legible_blockRows (legible_headingRow heading) (legible_inner ih related)

/-- The rows of a model that can be printed are read. -/
theorem PlainModel.legible {model : Model} (h : PlainModel model) :
    ∀ row ∈ modelRows model, Legible row := by
  have hworkspace : Legible [.word .workspace] :=
    ⟨by simp, List.forall_mem_singleton.mpr
      ⟨⟨_, _, rfl, ⟨rfl, rfl, by decide⟩, rfl, rfl, List.all_eq_true.mp rfl⟩, rfl⟩⟩
  have hmodel : Legible [.word .model] :=
    ⟨by simp, List.forall_mem_singleton.mpr (isWord_keyword .model)⟩
  exact legible_blockRows hworkspace (legible_blockRows hmodel
    (legible_inner (fun member hm => (h.inner member hm).legible) h.related))

end Printed

end Blueprint
