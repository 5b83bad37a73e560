import Blueprint.Declared.Workspace

/-!
# Where declarations stand

The declarations of a source have places, instances are declared in the bodies of deployment nodes
only, and the members of a model are people, software systems, groups and deployment environments in
this order. Adding a declaration that has this keeps it.
-/

namespace Blueprint

/-- There is a position, and it is one of some positions. -/
def Marked (spots : Position → Prop) (position : Option Position) : Prop :=
  ∃ place, position = some place ∧ spots place

namespace Declared

variable {spots : Position → Prop}

/-! ## Elements -/

/-- Relationships have places. -/
def Traced (spots : Position → Prop) (relationships : List Relationship) : Prop :=
  ∀ relationship ∈ relationships, Marked spots relationship.position

/-- One more relationship has a place. -/
theorem Traced.concat {relationships : List Relationship} (h : Traced spots relationships)
    {relationship : Relationship} (hr : Marked spots relationship.position) :
    Traced spots (relationships ++ [relationship]) := by
  intro other hm
  rcases List.mem_append.mp hm with hm | hm
  · exact h other hm
  · rw [List.mem_singleton.mp hm]
    exact hr

/-- Whether instances may be declared in the body of an element of a sort. -/
def PlainSort.isHost : PlainSort → Bool
  | .deploymentNode _ _ => true
  | _ => false

/-- Whether instances may be declared in the body of an element. -/
def Element.isHost : Element → Bool
  | .plain sort _ _ _ => sort.isHost
  | _ => false

mutual

/-- An element and everything in it have places, and instances are declared in deployment nodes
only. -/
def Element.Located (spots : Position → Prop) (hosted : Bool) : Element → Prop
  | .plain sort details relationships members =>
    Marked spots details.position ∧ Traced spots relationships ∧
      Element.AllLocated spots sort.isHost members
  | .environment heading relationships members =>
    Marked spots heading.position ∧ Traced spots relationships ∧
      Element.AllLocated spots false members
  | .deployed deployment relationships =>
    hosted = true ∧ Marked spots deployment.position ∧ Traced spots relationships

/-- Elements and everything in them have places. -/
def Element.AllLocated (spots : Position → Prop) (hosted : Bool) : List Element → Prop
  | [] => True
  | member :: members =>
    Element.Located spots hosted member ∧ Element.AllLocated spots hosted members

end

/-- Elements have places if each of them has. -/
theorem Element.allLocated_iff {hosted : Bool} {members : List Element} :
    Element.AllLocated spots hosted members ↔
      ∀ member ∈ members, member.Located spots hosted := by
  induction members with
  | nil => simp [AllLocated]
  | cons member members ih => simp [AllLocated, ih]

/-- A member that has a place joins members that have. -/
theorem Element.AllLocated.concat {hosted : Bool} {members : List Element}
    (h : Element.AllLocated spots hosted members) {member : Element}
    (hm : member.Located spots hosted) : Element.AllLocated spots hosted (members ++ [member]) := by
  rw [allLocated_iff] at h ⊢
  intro other ho
  rcases List.mem_append.mp ho with ho | ho
  · exact h other ho
  · rw [List.mem_singleton.mp ho]
    exact hm

/-- A member that has a place joins members that have, at the place of its rank. -/
theorem Element.AllLocated.insert {hosted : Bool} {members : List Element}
    (h : Element.AllLocated spots hosted members) {member : Element}
    (hm : member.Located spots hosted) (rank : Element → Nat) :
    Element.AllLocated spots hosted (insertByRank rank member members) := by
  rw [allLocated_iff] at h ⊢
  exact (forall_mem_insertByRank ..).mpr ⟨hm, h⟩

/-- The owner of a further member keeps its sort. -/
@[simp] theorem Element.isHost_insertMember (owner member : Element) :
    (owner.insertMember member).isHost = owner.isHost := by
  unfold insertMember
  split <;> rfl

/-- The owner of a further relationship keeps its sort. -/
@[simp] theorem Element.isHost_insertRelationship (owner : Element)
    (relationship : Relationship) :
    (owner.insertRelationship relationship).isHost = owner.isHost := by
  unfold insertRelationship
  split <;> rfl

/-- A member that has a place joins an element that has one. -/
theorem Element.Located.insertMember {hosted : Bool} {owner member : Element}
    (h : owner.Located spots hosted) (hm : member.Located spots owner.isHost) :
    (owner.insertMember member).Located spots hosted := by
  unfold Element.insertMember
  split
  · exact ⟨h.1, h.2.1, h.2.2.concat hm⟩
  · exact ⟨h.1, h.2.1, Element.AllLocated.insert h.2.2 hm _⟩
  · exact ⟨h.1, h.2.1, h.2.2.concat hm⟩
  · exact h

/-- A relationship that has a place joins an element that has one. -/
theorem Element.Located.insertRelationship {hosted : Bool} {owner : Element}
    (h : owner.Located spots hosted) {relationship : Relationship}
    (hr : Marked spots relationship.position) :
    (owner.insertRelationship relationship).Located spots hosted := by
  unfold Element.insertRelationship
  split
  · exact ⟨h.1, h.2.1.concat hr, h.2.2⟩
  · exact ⟨h.1, h.2.1.concat hr, h.2.2⟩
  · exact ⟨h.1, h.2.1, h.2.2.concat hr⟩

/-! ## Models -/

/-- An enterprise and everything in it have places. -/
structure Enterprise.Located (spots : Position → Prop) (enterprise : Enterprise) : Prop where
  /-- The members have places. -/
  members : Element.AllLocated spots false enterprise.members
  /-- The relationships have places. -/
  relationships : Traced spots enterprise.relationships

/-- Everything in a model has a place, and its members are in order. -/
structure Model.Located (spots : Position → Prop) (model : Model) : Prop where
  /-- The members have places. -/
  members : Element.AllLocated spots false model.members
  /-- The members stand in the order of their ranks. -/
  ordered : model.members.Pairwise fun first second =>
    first.rankInModel ≤ second.rankInModel
  /-- Only people, software systems, groups and environments are members. -/
  ranks : ∀ member ∈ model.members, member.rankInModel ≠ 2
  /-- The enterprise has places. -/
  enterprise : ∀ enterprise, model.enterprise = some enterprise → enterprise.Located spots
  /-- The relationships have places. -/
  relationships : Traced spots model.relationships

/-- A model of nothing has everything at its place. -/
theorem Model.located_empty (position : Option Position) :
    Model.Located spots { position } where
  members := trivial
  ordered := .nil
  ranks := by intro member h; cases h
  enterprise := by intro enterprise h; cases h
  relationships := by intro relationship h; cases h

/-- Putting an item at the place of its rank keeps items in order. -/
theorem pairwise_insertByRank {α : Type} (rank : α → Nat) (item : α) {items : List α}
    (h : items.Pairwise fun first second => rank first ≤ rank second) :
    (insertByRank rank item items).Pairwise fun first second => rank first ≤ rank second := by
  induction items with
  | nil => simp [insertByRank]
  | cons head items ih =>
    rw [List.pairwise_cons] at h
    by_cases hr : rank head ≤ rank item
    · have he : insertByRank rank item (head :: items) =
          head :: insertByRank rank item items := by
        simp [insertByRank, hr]
      rw [he, List.pairwise_cons]
      exact ⟨(forall_mem_insertByRank ..).mpr ⟨hr, h.1⟩, ih h.2⟩
    · have he : insertByRank rank item (head :: items) = item :: head :: items := by
        simp [insertByRank, hr]
      rw [he, List.pairwise_cons, List.pairwise_cons]
      refine ⟨?_, h⟩
      intro other hm
      rcases List.mem_cons.mp hm with rfl | hm
      · omega
      · have := h.1 other hm
        omega

/-- A member that has a place joins a model. -/
theorem Model.Located.insertMember {model : Model} (h : model.Located spots) {member : Element}
    (hm : member.Located spots false) (hr : member.rankInModel ≠ 2) :
    (model.insertMember member).Located spots where
  members := h.members.insert hm _
  ordered := pairwise_insertByRank _ _ h.ordered
  ranks := (forall_mem_insertByRank ..).mpr ⟨hr, h.ranks⟩
  enterprise := h.enterprise
  relationships := h.relationships

/-! ## Views -/

/-- What all views have has places. -/
structure ViewDetails.Located (spots : Position → Prop) (details : ViewDetails) : Prop where
  /-- The view has a place. -/
  position : Marked spots details.position
  /-- What it includes has places. -/
  includes : ∀ selection ∈ details.includes, Marked spots selection.position
  /-- What it excludes has places. -/
  excludes : ∀ selection ∈ details.excludes, Marked spots selection.position
  /-- The animations have places. -/
  animations : ∀ animation ∈ details.animations, Marked spots animation.position

/-- What a view refers to has places. -/
structure View.Located (spots : Position → Prop) (view : View) : Prop where
  /-- What all views have has places. -/
  details : view.details.Located spots
  /-- The interactions have places. -/
  steps : ∀ scope steps, view.sort = .dynamic scope steps → Traced spots steps

/-- A view that is no dynamic view has no interactions. -/
theorem View.located_of_details {details : ViewDetails} {sort : ViewSort}
    (h : details.Located spots) (hs : ∀ scope steps, sort ≠ .dynamic scope steps) :
    View.Located spots ⟨details, sort⟩ :=
  ⟨h, fun scope steps he => absurd he (hs scope steps)⟩

/-- A view with other details that have places has its places. -/
theorem View.Located.withDetails {view : View} (hv : view.Located spots) {details : ViewDetails}
    (hd : details.Located spots) : View.Located spots { view with details } :=
  ⟨hd, hv.steps⟩

/-- A view with a further step has the places that the step has. -/
theorem View.Located.addStep {view : View} (hv : view.Located spots) {step : Relationship}
    (hs : Marked spots step.position) : (view.addStep step).Located spots := by
  unfold View.addStep
  split
  · rename_i scope steps he
    refine ⟨hv.details, ?_⟩
    rintro _ _ ⟨⟩
    exact (hv.steps scope steps he).concat hs
  · exact hv

/-! ## Workspaces -/

/-- Everything in a workspace that can be reported has a place. -/
structure Workspace.Located (spots : Position → Prop) (workspace : Workspace) : Prop where
  /-- The model is at its place. -/
  model : ∀ model, workspace.model = some model → model.Located spots
  /-- The views have places. -/
  views : ∀ block, workspace.views = some block → ∀ view ∈ block.views, view.Located spots
  /-- The decisions have places. -/
  decisions : ∀ decision ∈ workspace.decisions, Marked spots decision.position
  /-- The directives have places. -/
  directives : ∀ directive ∈ workspace.directives, Marked spots directive.position

/-- A workspace of nothing has everything at its place. -/
theorem Workspace.located_empty : Workspace.Located spots {} where
  model := by intro model h; cases h
  views := by intro block h; cases h
  decisions := by intro decision h; cases h
  directives := by intro directive h; cases h

end Declared

end Blueprint
