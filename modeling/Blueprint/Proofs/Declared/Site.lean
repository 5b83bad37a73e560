import Blueprint.Build.Draft
import Blueprint.Proofs.Declared.Traversal

/-!
# The sites of elements

The elements of a model that stand for themselves, in the order in which they are gone through, each
with what is around it: all declarations around, the nearest one that is no group, and the own
identifiers of those that are no groups. A model can be cut down to the sites that are kept.
-/

namespace Blueprint.Declared

/-- What is around the members of a declaration. -/
structure Surroundings where
  /-- The places of all declarations around, from the outermost on. -/
  around : List Nat := []
  /-- The place of the nearest declaration that is no group. -/
  outer : Option Nat := none
  /-- The own identifiers of the declarations around that are no groups, from the outermost on. -/
  above : List String := []

/-- Whether an element is a group. -/
def Element.isGroup : Element → Bool
  | .plain .group _ _ _ => true
  | _ => false

/-- Whether an element is a deployment environment. -/
def Element.isEnvironment : Element → Bool
  | .environment _ _ _ => true
  | _ => false

/-- The identifier of an element among its neighbours; instances get theirs later. -/
def Element.ownId : Element → String
  | .plain _ details _ _ => Build.localId details.identifier details.name
  | .environment heading _ _ => Build.localId heading.identifier heading.name
  | .deployed _ _ => ""

/-- What is around the members of the declaration at a place. Groups leave the nearest declaration
and the identifiers as they are. -/
def Surroundings.within (surroundings : Surroundings) (place : Nat) (owner : Element) :
    Surroundings :=
  let around := surroundings.around ++ [place]
  if owner.isGroup then { surroundings with around }
  else { around, outer := some place, above := surroundings.above ++ [owner.ownId] }

/-- An element that is no instance, with what is around it. -/
structure Site where
  /-- The declaration. -/
  node : Element
  /-- What is around it. -/
  surroundings : Surroundings

namespace Site

/-- The own identifiers from the outermost declaration on, without groups, to that of the site. -/
def path (site : Site) : List String := site.surroundings.above ++ [site.node.ownId]

/-- The own identifiers of the path with points between them. -/
def id (site : Site) : String := ".".intercalate site.path

/-- The element at a site, with the place of the nearest declaration around it. -/
def occurrence (site : Site) : Occurrence := ⟨site.node, site.surroundings.outer⟩

end Site

mutual

/-- The count of the sites of an element and all elements in it. -/
def Element.size : Element → Nat
  | .plain _ _ _ members => Element.sizeAll members + 1
  | .environment _ _ members => Element.sizeAll members + 1
  | .deployed _ _ => 0

/-- The count of the sites of elements and all elements in them. -/
def Element.sizeAll : List Element → Nat
  | [] => 0
  | member :: members => member.size + Element.sizeAll members

end

mutual

/-- The sites of an element and all elements in it, given the count of sites before them. -/
def Element.sites (surroundings : Surroundings) (count : Nat) : Element → List Site
  | .plain sort details relationships members =>
    let node : Element := .plain sort details relationships members
    ⟨node, surroundings⟩ ::
      Element.sitesAll (surroundings.within count node) (count + 1) members
  | .environment heading relationships members =>
    let node : Element := .environment heading relationships members
    ⟨node, surroundings⟩ ::
      Element.sitesAll (surroundings.within count node) (count + 1) members
  | .deployed _ _ => []

/-- The sites of elements and all elements in them. -/
def Element.sitesAll (surroundings : Surroundings) (count : Nat) : List Element → List Site
  | [] => []
  | member :: members =>
    member.sites surroundings count ++
      Element.sitesAll surroundings (count + member.size) members

end

mutual

/-- An element cut down to the sites that are kept; with a site goes everything in it. -/
def Element.cut (kept : Nat → Bool) (count : Nat) : Element → List Element
  | .plain sort details relationships members =>
    if kept count then
      [.plain sort details relationships (Element.cutAll kept (count + 1) members)]
    else []
  | .environment heading relationships members =>
    if kept count then
      [.environment heading relationships (Element.cutAll kept (count + 1) members)]
    else []
  | .deployed deployment relationships => [.deployed deployment relationships]

/-- Elements cut down to the sites that are kept. -/
def Element.cutAll (kept : Nat → Bool) (count : Nat) : List Element → List Element
  | [] => []
  | member :: members =>
    member.cut kept count ++ Element.cutAll kept (count + member.size) members

end

namespace Model

/-- The members of the enterprise, if there is one. -/
def insiders (model : Model) : List Element :=
  (model.enterprise.map Enterprise.members).getD []

/-- The sites of a model in the order in which its elements are built. -/
def sites (model : Model) : List Site :=
  let inside := Element.sizeAll model.elements
  let last := inside + Element.sizeAll model.insiders
  Element.sitesAll {} 0 model.elements ++ Element.sitesAll {} inside model.insiders ++
    Element.sitesAll {} last model.environments

/-- A model cut down to the sites that are kept. -/
def cut (kept : Nat → Bool) (model : Model) : Model :=
  let inside := Element.sizeAll model.elements
  let last := inside + Element.sizeAll model.insiders
  { model with
    members := Element.cutAll kept 0 model.elements ++ Element.cutAll kept last model.environments
    enterprise := model.enterprise.map fun enterprise =>
      { enterprise with members := Element.cutAll kept inside enterprise.members } }

end Model

namespace Workspace

/-- The sites of the model, if there is one. -/
def sites (workspace : Workspace) : List Site := (workspace.model.map Model.sites).getD []

/-- A workspace with its model cut down to the sites that are kept. -/
def cut (kept : Nat → Bool) (workspace : Workspace) : Workspace :=
  { workspace with model := workspace.model.map (Model.cut kept) }

end Workspace

/-! ## Sites are what is gone through -/

mutual

/-- An element has as many sites as it counts. -/
theorem Element.length_sites (surroundings : Surroundings) (count : Nat) :
    ∀ element : Element, (element.sites surroundings count).length = element.size
  | .plain sort details relationships members => by
    rw [sites, size, List.length_cons, Element.length_sitesAll]
  | .environment heading relationships members => by
    rw [sites, size, List.length_cons, Element.length_sitesAll]
  | .deployed _ _ => by
    rw [sites, size, List.length_nil]

/-- Elements have as many sites as they count. -/
theorem Element.length_sitesAll (surroundings : Surroundings) (count : Nat) :
    ∀ members : List Element,
      (Element.sitesAll surroundings count members).length = Element.sizeAll members
  | [] => by
    rw [sitesAll, sizeAll, List.length_nil]
  | member :: members => by
    rw [sitesAll, sizeAll, List.length_append, Element.length_sites, Element.length_sitesAll]

end

/-- The nearest declaration around the members of a plain element. -/
theorem Surroundings.outer_within_plain (surroundings : Surroundings) (place : Nat)
    (sort : PlainSort) (details : Details) (relationships : List Relationship)
    (members : List Element) :
    (surroundings.within place (.plain sort details relationships members)).outer =
      if sort = .group then surroundings.outer else some place := by
  cases sort <;> rfl

mutual

/-- The sites of an element are the elements that are met when it is gone through. -/
theorem Element.map_sites (surroundings : Surroundings) (count : Nat) : ∀ element : Element,
    (element.sites surroundings count).map Site.occurrence =
      (element.traverse surroundings.outer count).nodes
  | .plain sort details relationships members => by
    rw [sites, traverse, List.map_cons, Element.map_sitesAll, Surroundings.outer_within_plain]
    rfl
  | .environment heading relationships members => by
    rw [sites, traverse, List.map_cons, Element.map_sitesAll]
    dsimp only [Traversal.nodes_append]
    rw [List.append_nil]
    rfl
  | .deployed _ _ => by
    rw [sites, traverse, List.map_nil]

/-- The sites of elements are the elements that are met when they are gone through. -/
theorem Element.map_sitesAll (surroundings : Surroundings) (count : Nat) :
    ∀ members : List Element,
      (Element.sitesAll surroundings count members).map Site.occurrence =
        (Element.traverseAll surroundings.outer count members).nodes
  | [] => by
    rw [sitesAll, traverseAll, List.map_nil]
  | member :: members => by
    have hfirst := Element.map_sites surroundings count member
    have hlength := congrArg List.length hfirst
    rw [List.length_map, Element.length_sites] at hlength
    rw [sitesAll, traverseAll, List.map_append, hfirst, Element.map_sitesAll, hlength]
    rfl

end

/-- As many elements are met as the members count. -/
theorem Element.length_traverseAll (outer : Option Nat) (count : Nat) (members : List Element) :
    (Element.traverseAll outer count members).nodes.length = Element.sizeAll members := by
  have h := congrArg List.length (Element.map_sitesAll { outer } count members)
  rw [List.length_map, Element.length_sitesAll] at h
  exact h.symm

/-- The elements that are met in an enterprise are those of its members. -/
theorem Model.nodes_enterprise (model : Model) (count : Nat) :
    (Enterprise.traverse count model.enterprise).nodes =
      (Element.traverseAll none count model.insiders).nodes := by
  unfold insiders Enterprise.traverse
  cases model.enterprise with
  | none => rfl
  | some enterprise => exact List.append_nil _

/-- The sites of a model are the elements that are met when it is gone through. -/
theorem Model.map_sites (model : Model) :
    model.sites.map Site.occurrence = model.traverse.nodes := by
  unfold sites traverse
  dsimp only [Traversal.nodes_append]
  rw [List.map_append, List.map_append, Element.map_sitesAll, Element.map_sitesAll,
    Element.map_sitesAll, List.append_nil, List.length_append, model.nodes_enterprise,
    Element.length_traverseAll, Element.length_traverseAll]

/-- The sites of a workspace are the elements that are met when its model is gone through. -/
theorem Workspace.map_sites (workspace : Workspace) :
    workspace.sites.map Site.occurrence = workspace.traverse.nodes := by
  unfold sites traverse
  cases workspace.model with
  | none => rfl
  | some model => exact model.map_sites

/-! ## What stands around -/

/-- A declaration is around its members, as all that is around it. -/
theorem Surroundings.around_within (surroundings : Surroundings) (place : Nat) (owner : Element) :
    (surroundings.within place owner).around = surroundings.around ++ [place] := by
  unfold within
  dsimp only
  split <;> rfl

/-- What is around a declaration is around its members. -/
theorem Surroundings.around_subset_within (surroundings : Surroundings) (place : Nat)
    (owner : Element) : surroundings.around ⊆ (surroundings.within place owner).around := by
  rw [around_within]
  exact List.subset_append_left _ _

mutual

/-- What is around an element is around all elements in it. -/
theorem Element.around_sites (surroundings : Surroundings) (count : Nat) : ∀ element : Element,
    ∀ site ∈ element.sites surroundings count, surroundings.around ⊆ site.surroundings.around
  | .plain sort details relationships members => by
    intro site hm
    rw [sites] at hm
    rcases List.mem_cons.mp hm with rfl | hm
    · exact List.Subset.refl _
    · exact List.Subset.trans (surroundings.around_subset_within _ _)
        (Element.around_sitesAll _ _ members site hm)
  | .environment heading relationships members => by
    intro site hm
    rw [sites] at hm
    rcases List.mem_cons.mp hm with rfl | hm
    · exact List.Subset.refl _
    · exact List.Subset.trans (surroundings.around_subset_within _ _)
        (Element.around_sitesAll _ _ members site hm)
  | .deployed _ _ => by
    intro site hm
    rw [sites] at hm
    cases hm

/-- What is around elements is around all elements in them. -/
theorem Element.around_sitesAll (surroundings : Surroundings) (count : Nat) :
    ∀ members : List Element, ∀ site ∈ Element.sitesAll surroundings count members,
      surroundings.around ⊆ site.surroundings.around
  | [] => by
    intro site hm
    rw [sitesAll] at hm
    cases hm
  | member :: members => by
    intro site hm
    rw [sitesAll] at hm
    rcases List.mem_append.mp hm with hm | hm
    · exact Element.around_sites surroundings count member site hm
    · exact Element.around_sitesAll surroundings _ members site hm

end

/-! ## Cutting a model down -/

/-- What is left of an element has its rank. -/
theorem Element.rank_of_mem_cut {kept : Nat → Bool} {count : Nat} {element left : Element}
    (h : left ∈ element.cut kept count) : left.rankInModel = element.rankInModel := by
  cases element with
  | plain sort details relationships members =>
    rw [cut] at h
    split at h
    · rw [List.mem_singleton.mp h]
      cases sort <;> rfl
    · cases h
  | environment heading relationships members =>
    rw [cut] at h
    split at h
    · rw [List.mem_singleton.mp h]
      rfl
    · cases h
  | deployed deployment relationships =>
    rw [cut] at h
    rw [List.mem_singleton.mp h]

/-- What is left of elements has their ranks. -/
theorem Element.rank_of_mem_cutAll {kept : Nat → Bool} {count : Nat} {members : List Element}
    {left : Element} (h : left ∈ Element.cutAll kept count members) :
    ∃ member ∈ members, left.rankInModel = member.rankInModel := by
  induction members generalizing count with
  | nil =>
    rw [cutAll] at h
    cases h
  | cons member members ih =>
    rw [cutAll] at h
    rcases List.mem_append.mp h with h | h
    · exact ⟨member, List.mem_cons_self, Element.rank_of_mem_cut h⟩
    · obtain ⟨other, hm, he⟩ := ih h
      exact ⟨other, List.mem_cons_of_mem _ hm, he⟩

namespace Model

variable (kept : Nat → Bool) (model : Model)

/-- The elements of a model are cut down as elements. -/
theorem elements_cut :
    (model.cut kept).elements = Element.cutAll kept 0 model.elements := by
  unfold cut
  rw [elements, List.filter_append, List.filter_eq_self.mpr, List.filter_eq_nil_iff.mpr,
    List.append_nil]
  · intro left hl
    obtain ⟨member, hm, he⟩ := Element.rank_of_mem_cutAll hl
    rw [he]
    simpa [environments] using (List.mem_filter.mp hm).2
  · intro left hl
    obtain ⟨member, hm, he⟩ := Element.rank_of_mem_cutAll hl
    rw [he]
    exact (List.mem_filter.mp hm).2

/-- The environments of a model are cut down as elements. -/
theorem environments_cut :
    (model.cut kept).environments = Element.cutAll kept
      (Element.sizeAll model.elements + Element.sizeAll model.insiders) model.environments := by
  unfold cut
  rw [environments, List.filter_append, List.filter_eq_nil_iff.mpr, List.filter_eq_self.mpr,
    List.nil_append]
  · intro left hl
    obtain ⟨member, hm, he⟩ := Element.rank_of_mem_cutAll hl
    rw [he]
    exact (List.mem_filter.mp hm).2
  · intro left hl
    obtain ⟨member, hm, he⟩ := Element.rank_of_mem_cutAll hl
    rw [he]
    simpa [elements] using (List.mem_filter.mp hm).2

end Model

end Blueprint.Declared
