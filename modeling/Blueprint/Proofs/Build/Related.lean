import Mathlib.Data.List.Perm.Subperm
import Blueprint.Build.Relationship
import Blueprint.Proofs.Build.Registered

/-!
# Related elements

The relationships of a model relate elements that are there and have distinct identifiers. A
relationship without an identifier is given a number that no other has: there are more candidates
than relationships. Implied relationships are between elements around the related ones.
-/

namespace Blueprint.Resolved

namespace Model

/-- The identifiers of the elements. -/
def ids (model : Model) : List String := model.elements.map Element.id

/-- The relationships are between elements that are there, and have distinct identifiers. -/
structure Linked (model : Model) : Prop where
  /-- Both ends of a relationship are there. -/
  ends : ∀ relationship ∈ model.relationships,
    relationship.source ∈ model.ids ∧ relationship.destination ∈ model.ids
  /-- No two relationships have one identifier. -/
  distinct : (model.relationships.map Relationship.id).Nodup

/-- What stands around an element is the parent of an element. -/
theorem exists_of_mem_ancestorsOutside {model : Model} {seen : List String} {id ancestor : String}
    (h : ancestor ∈ model.ancestorsOutside seen id) :
    ∃ element ∈ model.elements, element.parent = some ancestor := by
  fun_induction ancestorsOutside model seen id with
  | case1 => cases h
  | case2 => cases h
  | case3 seen id parent hp _ ih =>
    rcases List.mem_cons.mp h with rfl | h
    · obtain ⟨element, he, hu⟩ := Option.bind_eq_some_iff.mp hp
      exact ⟨element, List.mem_of_find?_eq_some he, hu⟩
    · exact ih h

/-- Where parents come first, what stands around an element is an element too. -/
theorem mem_ids_of_mem_ancestorsOf {model : Model} (hp : ParentsFirst model.elements)
    {id ancestor : String} (h : ancestor ∈ model.ancestorsOf id) : ancestor ∈ model.ids := by
  obtain ⟨element, hm, hu⟩ := exists_of_mem_ancestorsOutside h
  obtain ⟨before, after, he⟩ := List.append_of_mem hm
  have hb := hp before element after he ancestor hu
  rw [ids, he, List.map_append]
  exact List.mem_append_left _ hb

end Model

end Blueprint.Resolved

namespace Blueprint.Build

open Resolved (Model Relationship ParentsFirst)

/-! ## Identifiers -/

/-- A number can be read back from its text. -/
theorem eq_of_toString_eq {m n : Nat} (h : toString m = toString n) : m = n := by
  have hd : Nat.ofDigitChars 10 (toString m).toList 0 =
      Nat.ofDigitChars 10 (toString n).toList 0 := by rw [h]
  simpa only [Nat.toString_eq_repr, Nat.toList_repr, Nat.ofDigitChars_ten_toDigits] using hd

/-- The candidates for a number are distinct as texts. -/
theorem candidates_nodup (first count : Nat) :
    ((List.range count).map fun step => toString (first + step)).Nodup := by
  refine List.Pairwise.map _ (fun i j hij he => hij ?_) List.nodup_range
  have := eq_of_toString_eq he
  omega

/-- The number of a relationship that is given no identifier is not taken. -/
theorem toString_nextNumber_not_mem (taken : List String) :
    toString (nextNumber taken) ∉ taken := by
  unfold nextNumber
  cases hf : (List.range (taken.length + 1)).find? fun step =>
      toString (taken.length + 1 + step) ∉ taken with
  | some step =>
    have hs := List.find?_some hf
    simpa using hs
  | none =>
    -- All candidates would be taken, and there are more of them than taken identifiers.
    have hall : (List.range (taken.length + 1)).map
        (fun step => toString (taken.length + 1 + step)) ⊆ taken := by
      intro id hm
      obtain ⟨step, hs, rfl⟩ := List.mem_map.mp hm
      have := List.find?_eq_none.mp hf step hs
      simpa using this
    have hle := (List.subperm_of_subset (candidates_nodup _ _) hall).length_le
    simp only [List.length_map, List.length_range] at hle
    omega

/-- The next identifier is new to the relationships. -/
theorem nextRelationshipId_not_mem (relationships : List Relationship) :
    nextRelationshipId relationships ∉ relationships.map Relationship.id :=
  toString_nextNumber_not_mem _

/-! ## Declared relationships -/

/-- What is known of a relationship that is bound: its ends are registered, and its identifier is
new. -/
theorem resolveRelationship_spec {registry : Registry} {known : List Relationship}
    {waiting : WaitingRelationship} {relationship : Relationship}
    (h : (resolveRelationship registry known waiting).value = some relationship) :
    (∃ source ∈ registry.all, relationship.source = source.id) ∧
      (∃ destination ∈ registry.all, relationship.destination = destination.id) ∧
      relationship.id ∉ known.map Relationship.id := by
  unfold resolveRelationship at h
  simp only [Reported.bind_value] at h
  split at h
  · rename_i source destination hs hd
    have hs := (Registry.resolve_mem hs).1
    have hd := (Registry.resolve_mem hd).1
    split at h
    · split at h
      · cases h
      · rename_i hn
        cases h
        exact ⟨⟨source, hs, rfl⟩, ⟨destination, hd, rfl⟩, hn⟩
    · cases h
      exact ⟨⟨source, hs, rfl⟩, ⟨destination, hd, rfl⟩, nextRelationshipId_not_mem known⟩
  · cases h

/-- A relationship with a new identifier keeps the identifiers distinct. -/
theorem ids_nodup_concat {known : List Relationship} {relationship : Relationship}
    (h : (known.map Relationship.id).Nodup)
    (hn : relationship.id ∉ known.map Relationship.id) :
    ((known ++ [relationship]).map Relationship.id).Nodup := by
  rw [List.map_append]
  refine List.nodup_append.mpr ⟨h, List.pairwise_singleton _ _, ?_⟩
  intro first hf second hs he
  rw [List.map_singleton, List.mem_singleton] at hs
  exact hn (hs ▸ he ▸ hf)

/-- The relationships that are bound over the elements of a sound draft are linked. -/
theorem resolveRelationships_linked {draft : Draft} (h : draft.Sound)
    {known : List Relationship}
    (hk : Model.Linked { elements := draft.elements, relationships := known })
    (queue : List WaitingRelationship) :
    Model.Linked
      { elements := draft.elements
        relationships := (resolveRelationships draft.registry known queue).value } := by
  induction queue generalizing known with
  | nil =>
    rw [resolveRelationships]
    exact hk
  | cons waiting queue ih =>
    rw [resolveRelationships, Reported.bind_value]
    refine ih ?_
    cases hr : (resolveRelationship draft.registry known waiting).value with
    | none => simpa using hk
    | some relationship =>
      obtain ⟨⟨source, hs, he⟩, ⟨destination, hd, hf⟩, hn⟩ := resolveRelationship_spec hr
      refine ⟨?_, ids_nodup_concat hk.distinct hn⟩
      intro other hm
      rcases List.mem_append.mp hm with hm | hm
      · exact hk.ends other hm
      · obtain ⟨first, hf₁, hi₁, _⟩ := h.names_of_mem hs
        obtain ⟨second, hf₂, hi₂, _⟩ := h.names_of_mem hd
        rw [List.mem_singleton.mp hm, he, hf, ← hi₁, ← hi₂]
        exact ⟨List.mem_map_of_mem hf₁, List.mem_map_of_mem hf₂⟩

/-! ## Implied relationships -/

/-- An element and what stands around it are there if the element is. -/
theorem mem_ids_of_mem_withAncestors {model : Model} (hp : ParentsFirst model.elements)
    {id ancestor : String} (hi : id ∈ model.ids) (h : ancestor ∈ withAncestors model id) :
    ancestor ∈ model.ids := by
  rcases List.mem_cons.mp h with rfl | h
  · exact hi
  · exact Model.mem_ids_of_mem_ancestorsOf hp h

/-- An implied relationship between elements that are there keeps a model linked. -/
theorem addImplied_linked {declared : Relationship} {model : Model} {ends : String × String}
    (h : model.Linked) (hs : ends.1 ∈ model.ids) (hd : ends.2 ∈ model.ids) :
    (addImplied declared model ends).Linked := by
  unfold addImplied
  split
  · exact h
  · refine ⟨?_, ids_nodup_concat h.distinct (nextRelationshipId_not_mem _)⟩
    intro relationship hm
    rcases List.mem_append.mp hm with hm | hm
    · exact h.ends relationship hm
    · rw [List.mem_singleton.mp hm]
      exact ⟨hs, hd⟩

/-- Implied relationships change no element. -/
@[simp] theorem elements_addImplied (declared : Relationship) (model : Model)
    (ends : String × String) : (addImplied declared model ends).elements = model.elements := by
  unfold addImplied
  split <;> rfl

/-- The relationships that one relationship implies change no element and keep a model linked. -/
theorem foldl_addImplied (declared : Relationship) {pairs : List (String × String)}
    {model : Model} (h : model.Linked)
    (hp : ∀ ends ∈ pairs, ends.1 ∈ model.ids ∧ ends.2 ∈ model.ids) :
    (pairs.foldl (addImplied declared) model).elements = model.elements ∧
      (pairs.foldl (addImplied declared) model).Linked := by
  induction pairs generalizing model with
  | nil => exact ⟨rfl, h⟩
  | cons ends pairs ih =>
    obtain ⟨hs, hd⟩ := hp ends List.mem_cons_self
    have hi : (addImplied declared model ends).ids = model.ids := by
      rw [Model.ids, elements_addImplied, Model.ids]
    obtain ⟨he, hl⟩ := ih (addImplied_linked h hs hd) (by
      intro other hm
      rw [hi]
      exact hp other (List.mem_cons_of_mem _ hm))
    exact ⟨he.trans (elements_addImplied ..), hl⟩

/-- All implied relationships together change no element and keep a model linked. -/
theorem addAllImplied_linked {model : Model} (h : model.Linked)
    (hp : ParentsFirst model.elements) :
    (addAllImplied model).elements = model.elements ∧ (addAllImplied model).Linked := by
  unfold addAllImplied
  refine List.foldlRecOn (motive := fun extended : Model =>
    extended.elements = model.elements ∧ extended.Linked) _ _ ⟨rfl, h⟩ ?_
  rintro extended ⟨he, hl⟩ declared hm
  obtain ⟨hs, hd⟩ := h.ends declared hm
  have hi : ∀ ends ∈ impliedPairs model declared.source declared.destination,
      ends.1 ∈ extended.ids ∧ ends.2 ∈ extended.ids := by
    intro ends hi
    obtain ⟨h₁, h₂, -⟩ := mem_impliedPairs.mp hi
    rw [Model.ids, he]
    exact ⟨mem_ids_of_mem_withAncestors hp hs h₁, mem_ids_of_mem_withAncestors hp hd h₂⟩
  obtain ⟨hf, hk⟩ := foldl_addImplied declared hl hi
  exact ⟨hf.trans he, hk⟩

end Blueprint.Build
