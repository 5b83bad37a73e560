import Blueprint.Proofs.Resolved.Ancestors
import Mathlib.Data.List.Chain
import Mathlib.Data.List.Dedup

/-!
# The way up from an element

From an element one comes to its parent, to the parent of that, and so on. In any model, even where
identifiers are not distinct, parents are missing, or elements stand in each other, the way up meets
no identifier twice: it ends as soon as the next step would. In a model that was built it is not cut
short in this way, and leads to an element that stands in no other.
-/

namespace Blueprint.Resolved

namespace Model

variable {model : Model} {seen ancestors others : List String} {id : String}

/-- The last element that the way up has come to. -/
def top (id : String) (ancestors : List String) : String :=
  (id :: ancestors).getLast (List.cons_ne_nil _ _)

/-- Above an element without ancestors there is only itself. -/
@[simp] theorem top_nil (id : String) : top id [] = id := rfl

/-- Above an element is what is above its parent. -/
@[simp] theorem top_cons (id parent : String) (ancestors : List String) :
    top id (parent :: ancestors) = top parent ancestors := rfl

/-- There is no next step from an element: it is missing, it has no parent, or its parent has been
passed. -/
def EndsAt (model : Model) (passed : List String) (id : String) : Prop :=
  model.get? id = none ∨ ∃ element, model.get? id = some element ∧
    (element.parent = none ∨ ∃ parent ∈ passed, element.parent = some parent)

/-- A next step is missing exactly if every parent has been passed. -/
theorem endsAt_iff : model.EndsAt seen id ↔ ∀ parent, model.parentOf? id = some parent →
    parent ∈ seen := by
  unfold EndsAt parentOf?
  cases model.get? id with
  | none => simp
  | some element =>
    cases hp : element.parent <;> simp [hp]

/-- The identifiers that one comes to on the way up from an element. -/
structure WayUp (model : Model) (id : String) (ancestors : List String) : Prop where
  /-- No identifier is met twice. -/
  nodup : ancestors.Nodup
  /-- Each is the parent of the first element with the identifier before it. -/
  steps : List.IsChain (fun inner outer => ∃ element, model.get? inner = some element ∧
    element.parent = some outer) (id :: ancestors)
  /-- The way ends where there is no next step, and nowhere else. -/
  ends : ∀ front back, ancestors = front ++ back →
    (back = [] ↔ model.EndsAt front (top id front))
  /-- There are at most as many as there are distinct parents. -/
  length_le : ancestors.length ≤ (model.elements.filterMap Element.parent).dedup.length

/-! ## Any model -/

/-- On the way up nothing is met that has been passed. -/
theorem notMem_of_mem_ancestorsOutside {ancestor : String}
    (h : ancestor ∈ model.ancestorsOutside seen id) : ancestor ∉ seen := by
  fun_induction ancestorsOutside model seen id with
  | case1 => cases h
  | case2 => cases h
  | case3 seen id parent hp hn ih =>
    rcases List.mem_cons.mp h with rfl | h
    · exact hn
    · exact fun hs => ih h (List.mem_append_left _ hs)

/-- On the way up no identifier is met twice. -/
theorem nodup_ancestorsOutside (model : Model) (seen : List String) (id : String) :
    (model.ancestorsOutside seen id).Nodup := by
  fun_induction ancestorsOutside model seen id with
  | case1 => exact List.nodup_nil
  | case2 => exact List.nodup_nil
  | case3 seen id parent hp hn ih =>
    refine List.nodup_cons.mpr ⟨fun hm => ?_, ih⟩
    exact notMem_of_mem_ancestorsOutside hm (List.mem_append_right _ List.mem_cons_self)

/-- Every step up is one to a parent. -/
theorem isChain_ancestorsOutside (model : Model) (seen : List String) (id : String) :
    List.IsChain (fun inner outer => model.parentOf? inner = some outer)
      (id :: model.ancestorsOutside seen id) := by
  fun_induction ancestorsOutside model seen id with
  | case1 => exact List.isChain_singleton _
  | case2 => exact List.isChain_singleton _
  | case3 seen id parent hp hn ih => exact List.isChain_cons_cons.mpr ⟨hp, ih⟩

/-- The way up ends where every parent has been passed. -/
theorem endsAt_ancestorsOutside (model : Model) (seen : List String) (id : String) :
    model.EndsAt (seen ++ model.ancestorsOutside seen id)
      (top id (model.ancestorsOutside seen id)) := by
  rw [endsAt_iff]
  fun_induction ancestorsOutside model seen id with
  | case1 seen id hn =>
    intro parent hp
    rw [top_nil, hn] at hp
    cases hp
  | case2 seen id parent hp hm =>
    intro other ho
    rw [top_nil, hp] at ho
    cases ho
    exact List.mem_append_left _ hm
  | case3 seen id parent hp hn ih =>
    simpa only [top_cons, List.append_assoc, List.singleton_append] using ih

/-- A step up is one to the parent of the first element with the identifier. -/
theorem parentOf?_eq_some_iff_exists {inner outer : String} : model.parentOf? inner = some outer ↔
    ∃ element, model.get? inner = some element ∧ element.parent = some outer :=
  Option.bind_eq_some_iff

/-- A step in the middle of a way up. -/
theorem parentOf?_of_isChain {front back : List String} {outer : String}
    (h : List.IsChain (fun inner outer => model.parentOf? inner = some outer)
      (id :: (front ++ outer :: back))) : model.parentOf? (top id front) = some outer := by
  induction front generalizing id with
  | nil => exact (List.isChain_cons_cons.mp h).1
  | cons parent front ih => exact ih (List.isChain_cons_cons.mp h).2

/-- The identifiers around an element are a way up from it. -/
theorem wayUp_ancestorsOf (model : Model) (id : String) :
    model.WayUp id (model.ancestorsOf id) := by
  have hnodup := nodup_ancestorsOutside model [] id
  have hsteps := isChain_ancestorsOutside model [] id
  have hends := endsAt_ancestorsOutside model [] id
  refine ⟨hnodup, hsteps.imp fun _ _ => parentOf?_eq_some_iff_exists.mp, ?_, ?_⟩
  · intro front back he
    unfold ancestorsOf at he
    rw [he] at hnodup hsteps
    constructor
    · rintro rfl
      rwa [he, List.append_nil] at hends
    · intro hfront
      cases back with
      | nil => rfl
      | cons outer back =>
        have hm := endsAt_iff.mp hfront outer (parentOf?_of_isChain hsteps)
        exact absurd rfl ((List.nodup_append.mp hnodup).2.2 outer hm outer List.mem_cons_self)
  · refine (List.subperm_of_subset hnodup fun ancestor hm => ?_).length_le
    obtain ⟨element, he, hp⟩ := exists_of_mem_ancestorsOutside hm
    exact List.mem_dedup.mpr (List.mem_filterMap.mpr ⟨element, he, hp⟩)

/-- Two ways up from an element take the same steps. -/
theorem WayUp.exists_append (h : model.WayUp id ancestors) (ho : model.WayUp id others)
    {front back : List String} (he : ancestors = front ++ back) :
    ∃ rest, others = front ++ rest := by
  induction front using List.reverseRecOn generalizing back with
  | nil => exact ⟨others, rfl⟩
  | append_singleton front parent ih =>
    rw [List.append_assoc, List.singleton_append] at he
    obtain ⟨rest, hr⟩ := ih he
    have hgoes : rest ≠ [] := fun hn =>
      List.cons_ne_nil _ _ ((h.ends front _ he).mpr ((ho.ends front rest hr).mp hn))
    obtain ⟨other, rest, rfl⟩ := List.exists_cons_of_ne_nil hgoes
    have hfirst := h.steps.imp fun _ _ => parentOf?_eq_some_iff_exists.mpr
    have hsecond := ho.steps.imp fun _ _ => parentOf?_eq_some_iff_exists.mpr
    rw [he] at hfirst
    rw [hr] at hsecond
    obtain rfl := Option.some.inj
      ((parentOf?_of_isChain hfirst).symm.trans (parentOf?_of_isChain hsecond))
    exact ⟨rest, by rw [hr, List.append_assoc, List.singleton_append]⟩

/-- There is only one way up from an element. -/
theorem WayUp.eq (h : model.WayUp id ancestors) (ho : model.WayUp id others) :
    ancestors = others := by
  obtain ⟨rest, hr⟩ := h.exists_append ho (List.append_nil ancestors).symm
  have hend := (h.ends ancestors [] (List.append_nil _).symm).mp rfl
  rw [hr, (ho.ends ancestors rest hr).mpr hend, List.append_nil]

/-! ## Models without elements that stand in each other -/

/-- A way up that is not cut short. -/
structure FullWayUp (model : Model) (id : String) (ancestors : List String) : Prop where
  /-- It meets everything that the element stands in, however far in, and nothing else. -/
  mem_iff : ∀ outer, outer ∈ ancestors ↔ Relation.TransGen (StandsIn model.elements) id outer
  /-- It does not come back to the element. -/
  notMem : id ∉ ancestors
  /-- From an element it leads to an element without a parent. -/
  reaches : ∀ element, model.get? id = some element →
    ∃ highest, model.get? (top id ancestors) = some highest ∧ highest.parent = none
  /-- Where there is no element, it leads nowhere. -/
  missing : model.get? id = none → ancestors = []

/-- The elements are those that are found by their identifiers. -/
theorem exists_get?_of_mem_ids (h : id ∈ model.ids) : ∃ element, model.get? id = some element := by
  obtain ⟨element, hm, rfl⟩ := List.mem_map.mp h
  refine Option.isSome_iff_exists.mp (List.find?_isSome.mpr ⟨element, hm, ?_⟩)
  exact beq_self_eq_true _

/-- The way up from an element of a tree ends at an element without a parent. -/
theorem IsTree.parentOf?_top (h : model.IsTree) (id : String) :
    model.parentOf? (top id (model.ancestorsOf id)) = none := by
  generalize hn : model.ids.idxOf id = place
  induction place using Nat.strongRecOn generalizing id with
  | ind place ih =>
    cases hp : model.parentOf? id with
    | none => rwa [ancestorsOf, ancestorsOutside_of_none hp]
    | some parent =>
      rw [h.ancestorsOf_of_some hp, top_cons]
      exact ih _ (hn ▸ h.idxOf_lt hp) parent rfl

/-- In a tree of elements the way up is not cut short. -/
theorem IsTree.fullWayUp (h : model.IsTree) (id : String) :
    model.FullWayUp id (model.ancestorsOf id) := by
  refine ⟨fun outer => h.mem_ancestorsOf_iff, fun hm => ?_, fun element he => ?_, fun hn => ?_⟩
  · exact h.parents.acyclic h.distinct id (h.mem_ancestorsOf_iff.mp hm)
  · have htop : ∃ highest, model.get? (top id (model.ancestorsOf id)) = some highest := by
      rcases List.mem_cons.mp (List.getLast_mem (List.cons_ne_nil id (model.ancestorsOf id)))
        with ht | ht
      · exact ⟨element, by rw [top, ht, he]⟩
      · exact exists_get?_of_mem_ids (mem_ids_of_mem_ancestorsOf h.parents ht)
    obtain ⟨highest, hh⟩ := htop
    have hp := h.parentOf?_top id
    rw [parentOf?, hh, Option.bind_some] at hp
    exact ⟨highest, hh, hp⟩
  · rw [ancestorsOf, ancestorsOutside_of_none]
    rw [parentOf?, hn, Option.bind_none]

end Model

end Blueprint.Resolved

namespace Blueprint.Build

open Resolved (Model)

/-- In every model the identifiers around an element are the only way up from it, and in a model
that was built this way is not cut short. -/
theorem ancestorsOf_wayUp :
    (∀ (model : Model) (id : String) (ancestors : List String),
      model.ancestorsOf id = ancestors ↔ model.WayUp id ancestors) ∧
    ∀ (declared : Declared.Workspace) (implied : Bool) (id : String),
      (build declared implied).value.model.FullWayUp id
        ((build declared implied).value.model.ancestorsOf id) := by
  refine ⟨fun model id ancestors => ⟨?_, fun h => (model.wayUp_ancestorsOf id).eq h⟩,
    fun declared implied id => (isTree_build declared implied).fullWayUp id⟩
  rintro rfl
  exact model.wayUp_ancestorsOf id

end Blueprint.Build
