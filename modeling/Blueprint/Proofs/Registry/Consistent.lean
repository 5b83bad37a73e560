import Mathlib.Data.List.Nodup
import Mathlib.Data.List.Perm.Basic
import Blueprint.Proofs.Registry.Lookup

/-!
# Tables that agree with the elements

The registry keeps four tables beside its elements, and registering an element again has to undo
what the earlier one left in three of them. Whatever is done with a registry, the tables agree with
the elements: a name stands for an element of that name, and the lists of children and of classes
hold each element exactly once, where its parent and its class put it.
-/

namespace Blueprint

namespace OrderedMap

variable {κ ν : Type} [DecidableEq κ] {m : OrderedMap κ ν} {key other : κ} {value : ν}

/-- An entry of the map is found under its key. -/
theorem get?_of_mem_entries (h : (key, value) ∈ m.entries) : m.get? key = some value := by
  have hk : key ∈ m.keys := List.mem_map.mpr ⟨(key, value), h, rfl⟩
  cases hg : m.get? key with
  | none => exact absurd hk (get?_eq_none_iff.mp hg)
  | some found =>
    have he := List.inj_on_of_nodup_map m.keys_nodup (mem_entries_of_get? hg) h rfl
    exact congrArg some (Prod.ext_iff.mp he).2

/-- A value is found under a key exactly if the map has the entry. -/
theorem get?_eq_some_iff : m.get? key = some value ↔ (key, value) ∈ m.entries :=
  ⟨mem_entries_of_get?, get?_of_mem_entries⟩

/-- A removed key has no value; other keys keep theirs. -/
theorem get?_erase (m : OrderedMap κ ν) (key other : κ) :
    (m.erase key).get? other = if key = other then none else m.get? other := by
  by_cases he : key = other
  · rw [if_pos he, get?_eq_none_iff]
    intro hm
    obtain ⟨entry, hf, hk⟩ := List.mem_map.mp hm
    have hne := (List.mem_filter.mp hf).2
    simp [hk, he] at hne
  · rw [if_neg he]
    ext value
    rw [get?_eq_some_iff, get?_eq_some_iff]
    have hne : ¬other = key := fun h => he h.symm
    simp [erase, hne]

/-- A changed key has the changed value; other keys keep theirs. -/
theorem get?_modify (m : OrderedMap κ ν) (key other : κ) (f : ν → ν) :
    (m.modify key f).get? other = if key = other then (m.get? key).map f else m.get? other := by
  unfold modify
  cases hg : m.get? key with
  | none =>
    by_cases he : key = other
    · rw [if_pos he, ← he]
      exact hg
    · rw [if_neg he]
  | some value => exact get?_insert m key other (f value)

end OrderedMap

namespace Registry

/-! ## Lists under keys -/

section Lists

variable {κ : Type} [DecidableEq κ] {table : OrderedMap κ (List String)} {key? : Option κ}
  {key : κ} {id other : String}

/-- The table after an identifier leaves the list under a key, if there is a key. -/
def withdraw (table : OrderedMap κ (List String)) (key? : Option κ) (id : String) :
    OrderedMap κ (List String) :=
  match key? with
  | some key => table.modify key (·.erase id)
  | none => table

/-- The table after an identifier joins the list under a key, if there is a key. -/
def enlist (table : OrderedMap κ (List String)) (key? : Option κ) (id : String) :
    OrderedMap κ (List String) :=
  match key? with
  | some key => table.insert key (addOnce (listed table key) id)
  | none => table

/-- Only the list under the key loses the identifier. -/
theorem listed_withdraw (table : OrderedMap κ (List String)) (key? : Option κ) (id : String)
    (key : κ) :
    listed (withdraw table key? id) key =
      if key? = some key then (listed table key).erase id else listed table key := by
  cases key? with
  | none => rfl
  | some first =>
    unfold withdraw listed
    rw [OrderedMap.get?_modify]
    by_cases he : first = key
    · rw [if_pos he, if_pos (congrArg some he), he]
      cases table.get? key <;> rfl
    · rw [if_neg he, if_neg fun h => he (Option.some.inj h)]

/-- Only the list under the key gets the identifier. -/
theorem listed_enlist (table : OrderedMap κ (List String)) (key? : Option κ) (id : String)
    (key : κ) :
    listed (enlist table key? id) key =
      if key? = some key then addOnce (listed table key) id else listed table key := by
  cases key? with
  | none => rfl
  | some first =>
    by_cases he : first = key
    · rw [if_pos (congrArg some he), ← he]
      unfold enlist
      rw [listed, OrderedMap.get?_insert, if_pos rfl]
      rfl
    · rw [if_neg fun h => he (Option.some.inj h)]
      unfold enlist
      rw [listed, OrderedMap.get?_insert, if_neg he]
      rfl

/-- An identifier that is added once is there beside the others. -/
theorem mem_addOnce {ids : List String} : other ∈ addOnce ids id ↔ other ∈ ids ∨ other = id := by
  unfold addOnce
  split
  · rename_i hm
    exact ⟨.inl, fun h => h.elim (fun h => h) fun h => h ▸ hm⟩
  · rw [List.mem_append, List.mem_singleton]

/-- Adding an identifier once makes no duplicate. -/
theorem nodup_addOnce {ids : List String} (h : ids.Nodup) : (addOnce ids id).Nodup := by
  unfold addOnce
  split
  · exact h
  · rename_i hm
    refine List.nodup_append.mpr ⟨h, List.pairwise_singleton _ _, ?_⟩
    rintro first hf second hs rfl
    exact hm (List.mem_singleton.mp hs ▸ hf)

/-- A table holds every element exactly once: in the list under its key, if it has one. -/
structure Files (elements : OrderedMap String Entry) (key : Entry → Option κ)
    (table : OrderedMap κ (List String)) : Prop where
  /-- No identifier stands twice in a list. -/
  nodup : ∀ place, (listed table place).Nodup
  /-- A list holds the elements that have its key. -/
  mem_iff : ∀ place id, id ∈ listed table place ↔
    ∃ entry, elements.get? id = some entry ∧ key entry = some place

/-- The table of no elements holds none. -/
theorem files_empty (key : Entry → Option κ) : Files .empty key .empty :=
  ⟨fun _ => List.nodup_nil, fun _ _ => ⟨fun h => absurd h List.not_mem_nil, nofun⟩⟩

/-- Where the earlier element with an identifier leaves its list and the later one joins its own,
the table holds the elements with the later one. -/
theorem Files.register {elements : OrderedMap String Entry} {key : Entry → Option κ}
    (h : Files elements key table) (entry : Entry) :
    Files (elements.insert entry.id entry) key
      (enlist (withdraw table ((elements.get? entry.id).bind key) entry.id) (key entry)
        entry.id) := by
  -- The earlier element is in no list any more.
  have hnodup : ∀ place,
      (listed (withdraw table ((elements.get? entry.id).bind key) entry.id) place).Nodup := by
    intro place
    rw [listed_withdraw]
    split
    · exact (h.nodup place).erase _
    · exact h.nodup place
  have hgone : ∀ place,
      entry.id ∉ listed (withdraw table ((elements.get? entry.id).bind key) entry.id) place := by
    intro place
    rw [listed_withdraw]
    split
    · exact (h.nodup place).not_mem_erase
    · rename_i hne
      rw [h.mem_iff]
      rintro ⟨earlier, he, hk⟩
      rw [he] at hne
      exact hne hk
  have hothers : ∀ place id, id ≠ entry.id →
      (id ∈ listed (withdraw table ((elements.get? entry.id).bind key) entry.id) place ↔
        id ∈ listed table place) := by
    intro place id hne
    rw [listed_withdraw]
    split
    · exact List.mem_erase_of_ne hne
    · rfl
  refine ⟨fun place => ?_, fun place id => ?_⟩
  · rw [listed_enlist]
    split
    · exact nodup_addOnce (hnodup place)
    · exact hnodup place
  · rw [OrderedMap.get?_insert, listed_enlist]
    by_cases hid : entry.id = id
    · rw [if_pos hid, ← hid]
      split
      · rename_i hk
        exact ⟨fun _ => ⟨entry, rfl, hk⟩, fun _ => mem_addOnce.mpr (.inr rfl)⟩
      · rename_i hk
        refine ⟨fun hm => absurd hm (hgone place), ?_⟩
        rintro ⟨_, ⟨⟩, hk'⟩
        exact absurd hk' hk
    · have hne : id ≠ entry.id := fun he => hid he.symm
      rw [if_neg hid, ← h.mem_iff, ← hothers place id hne]
      split
      · rw [mem_addOnce]
        exact or_iff_left hne
      · rfl

end Lists

/-! ## The tables together -/

/-- The tables of a registry agree with its elements. -/
structure Indexed (registry : Registry) : Prop where
  /-- Every element stands under its identifier. -/
  keyed : ∀ id entry, registry.get? id = some entry → entry.id = id
  /-- A name stands for an element that has it. -/
  names : ∀ name id, registry.names.get? name = some id →
    ∃ entry, registry.get? id = some entry ∧ entry.name = name
  /-- The children of a parent are the elements that have it. -/
  children : Files registry.elements Entry.parent registry.children
  /-- The members of a class are the elements of it. -/
  classes : Files registry.elements (fun entry => some entry.kind) registry.classes

/-- The tables of nothing agree. -/
theorem indexed_empty : Registry.empty.Indexed :=
  ⟨nofun, nofun, files_empty _, files_empty _⟩

/-- The tables after an element is registered, told from the earlier one with its identifier. -/
theorem register_tables (registry : Registry) (entry : Entry)
    (hk : ∀ earlier, registry.get? entry.id = some earlier → earlier.id = entry.id) :
    (registry.register entry).elements = registry.elements.insert entry.id entry ∧
      (registry.register entry).children =
        enlist (withdraw registry.children ((registry.get? entry.id).bind Entry.parent) entry.id)
          entry.parent entry.id ∧
      (registry.register entry).classes =
        enlist
          (withdraw registry.classes
            ((registry.get? entry.id).bind fun entry => some entry.kind) entry.id)
          (some entry.kind) entry.id := by
  unfold register
  cases hg : registry.elements.get? entry.id with
  | none =>
    have hg' : registry.get? entry.id = none := hg
    rw [hg']
    exact ⟨rfl, by unfold link enlist; cases entry.parent <;> rfl, rfl⟩
  | some earlier =>
    have hg' : registry.get? entry.id = some earlier := hg
    have hid : earlier.id = entry.id := hk earlier hg'
    rw [hg']
    unfold link unlink enlist withdraw
    dsimp only [Option.bind_some]
    rw [hid]
    refine ⟨rfl, ?_, rfl⟩
    cases earlier.parent <;> cases entry.parent <;> rfl

/-- The names before an element with an identifier is registered: none stands for the earlier one
with it. -/
def freedNames (registry : Registry) (id : String) : OrderedMap String String :=
  match registry.get? id with
  | some earlier => (registry.unlink earlier).names
  | none => registry.names

/-- The names after an element is registered: its own stands for it if it stands for nothing. -/
theorem names_register (registry : Registry) (entry : Entry) :
    (registry.register entry).names =
      if (registry.freedNames entry.id).contains entry.name then registry.freedNames entry.id
      else (registry.freedNames entry.id).insert entry.name entry.id := by
  unfold register freedNames get?
  cases registry.elements.get? entry.id <;> rfl

/-- What a freed name stands for is another element, as before. -/
theorem get?_freedNames {registry : Registry} (h : registry.Indexed) {id name other : String} :
    (registry.freedNames id).get? name = some other ↔
      registry.names.get? name = some other ∧ other ≠ id := by
  unfold freedNames
  cases hg : registry.get? id with
  | none =>
    refine ⟨fun hn => ⟨hn, ?_⟩, And.left⟩
    rintro rfl
    obtain ⟨entry, he, -⟩ := h.names name other hn
    rw [hg] at he
    cases he
  | some earlier =>
    have hid : earlier.id = id := h.keyed id earlier hg
    unfold unlink
    dsimp only
    rw [hid]
    split
    · rename_i hname
      rw [OrderedMap.get?_erase]
      split
      · rename_i he
        rw [he] at hname
        refine ⟨nofun, fun ⟨hn, hne⟩ => ?_⟩
        rw [hname] at hn
        exact absurd (Option.some.inj hn).symm hne
      · rename_i hne
        refine ⟨fun hn => ⟨hn, ?_⟩, And.left⟩
        rintro rfl
        obtain ⟨entry, he, hn'⟩ := h.names name other hn
        rw [hg] at he
        cases he
        exact hne hn'
    · rename_i hname
      refine ⟨fun hn => ⟨hn, ?_⟩, And.left⟩
      rintro rfl
      obtain ⟨entry, he, hn'⟩ := h.names name other hn
      rw [hg] at he
      cases he
      exact hname (hn' ▸ hn)

/-- The tables agree after an element is registered. -/
theorem Indexed.register {registry : Registry} (h : registry.Indexed) (entry : Entry) :
    (registry.register entry).Indexed := by
  obtain ⟨he, hc, hk⟩ := registry.register_tables entry fun earlier => h.keyed entry.id earlier
  refine ⟨fun id found hf => ?_, fun name id hn => ?_, ?_, ?_⟩
  · rw [get?_register] at hf
    split at hf
    · rename_i hid
      cases hf
      exact hid
    · exact h.keyed id found hf
  · rw [get?_register]
    -- A name stands for the new element if it is its own, or else for an element that stays.
    have hold : (registry.freedNames entry.id).get? name = some id →
        ∃ found, (if entry.id = id then some entry else registry.get? id) = some found ∧
          found.name = name := by
      intro hf
      obtain ⟨hf, hne⟩ := (get?_freedNames h).mp hf
      rw [if_neg fun he => hne he.symm]
      exact h.names name id hf
    rw [names_register] at hn
    split at hn
    · exact hold hn
    · rw [OrderedMap.get?_insert] at hn
      split at hn
      · rename_i hname
        exact ⟨entry, if_pos (Option.some.inj hn), hname⟩
      · exact hold hn
  · rw [he, hc]
    exact h.children.register entry
  · rw [he, hk]
    exact h.classes.register entry

/-! ## What is done with a registry -/

/-- What can be done with a registry. -/
inductive Operation where
  /-- An element is registered, under a new identifier or again. -/
  | register (entry : Entry)
  /-- An alias is registered. -/
  | registerAlias (name id : String)
  /-- A reference is resolved. -/
  | resolve (reference : String) (position : Option Position) (byName : Bool)
    (wanted : ElementClass)
  /-- Relative references become relative to another element, or to none. -/
  | context (id : Option String)
  /-- Everything is forgotten. -/
  | clear
  deriving DecidableEq, Repr

/-- The registry after an operation. -/
def perform (registry : Registry) : Operation → Reported Registry
  | .register entry => pure (registry.register entry)
  | .registerAlias name id => pure (registry.registerAlias name id)
  | .resolve reference position byName wanted => do
    let _ ← registry.resolve reference position byName wanted
    return registry
  | .context id => pure (registry.withContext id)
  | .clear => pure .empty

/-- The registry after operations, one after the other. -/
def performAll (registry : Registry) : List Operation → Reported Registry
  | [] => pure registry
  | operation :: operations => do
    let next ← registry.perform operation
    next.performAll operations

/-- The tables agree after an operation. -/
theorem Indexed.perform {registry : Registry} (h : registry.Indexed) (operation : Operation) :
    (registry.perform operation).value.Indexed := by
  cases operation with
  | register entry => exact h.register entry
  | registerAlias name id => exact ⟨h.keyed, h.names, h.children, h.classes⟩
  | resolve reference position byName wanted => exact h
  | context id => exact ⟨h.keyed, h.names, h.children, h.classes⟩
  | clear => exact indexed_empty

/-- The tables agree after operations. -/
theorem Indexed.performAll {registry : Registry} (h : registry.Indexed)
    (operations : List Operation) : (registry.performAll operations).value.Indexed := by
  induction operations generalizing registry with
  | nil => exact h
  | cons operation operations ih =>
    rw [Registry.performAll, Reported.bind_value]
    exact ih (h.perform operation)

/-! ## What the tables are used for -/

namespace Indexed

variable {registry : Registry}

/-- Exactly the registered elements are found under their identifiers. -/
theorem mem_all_iff (h : registry.Indexed) {entry : Entry} :
    entry ∈ registry.all ↔ registry.get? entry.id = some entry := by
  refine ⟨fun hm => ?_, mem_all_of_get?⟩
  obtain ⟨⟨id, found⟩, he, rfl⟩ := List.mem_map.mp hm
  have hg := OrderedMap.get?_of_mem_entries he
  have hid : found.id = id := h.keyed id found hg
  show registry.elements.get? found.id = some found
  rw [hid]
  exact hg

/-- No element is registered twice. -/
theorem nodup_all (h : registry.Indexed) : registry.all.Nodup := by
  have hids : registry.all.map Entry.id = registry.elements.keys := by
    unfold Registry.all OrderedMap.values OrderedMap.keys
    rw [List.map_map]
    refine List.map_congr_left fun entry hm => ?_
    exact h.keyed entry.1 entry.2 (OrderedMap.get?_of_mem_entries hm)
  have hnodup : registry.elements.keys.Nodup := registry.elements.keys_nodup
  exact List.Nodup.of_map _ (hids ▸ hnodup)

/-- Distinct identifiers stand for distinct elements. -/
theorem nodup_filterMap (h : registry.Indexed) {ids : List String} (hn : ids.Nodup) :
    (ids.filterMap registry.get?).Nodup := by
  refine hn.filterMap fun first second entry hf hs => ?_
  rw [← h.keyed first entry hf, ← h.keyed second entry hs]

/-- The elements with some identifiers are registered ones. -/
theorem mem_filterMap_iff (h : registry.Indexed) {ids : List String} {entry : Entry} :
    entry ∈ ids.filterMap registry.get? ↔ entry ∈ registry.all ∧ entry.id ∈ ids := by
  rw [List.mem_filterMap, h.mem_all_iff]
  constructor
  · rintro ⟨id, hm, hg⟩
    have hid : entry.id = id := h.keyed id entry hg
    rw [hid]
    exact ⟨hg, hm⟩
  · rintro ⟨hg, hm⟩
    exact ⟨entry.id, hm, hg⟩

/-- The children that are listed are the elements with the parent. -/
theorem childrenOf_perm (h : registry.Indexed) (parent : String) :
    (registry.childrenOf parent).Perm
      (registry.all.filter fun entry => entry.parent = some parent) := by
  refine (List.perm_ext_iff_of_nodup (h.nodup_filterMap (h.children.nodup parent))
    (h.nodup_all.filter _)).mpr fun entry => ?_
  rw [h.mem_filterMap_iff, List.mem_filter, decide_eq_true_eq, h.children.mem_iff]
  refine and_congr_right fun hm => ?_
  have hg := h.mem_all_iff.mp hm
  constructor
  · rintro ⟨found, hf, hp⟩
    rw [show registry.get? entry.id = some found from hf] at hg
    cases hg
    exact hp
  · exact fun hp => ⟨entry, hg, hp⟩

/-- A part of a path names a listed child or nothing: the other elements have another parent. -/
theorem findChild_eq (h : registry.Indexed) (parent part : String) :
    registry.findChild parent part =
      ((registry.childrenOf parent).find? fun child => child.name == part || child.id == part).or
        ((registry.childrenOf parent).find? fun child => child.hasNameLike part) := by
  unfold findChild
  dsimp only
  cases hl : (registry.childrenOf parent).find? fun child => child.hasNameLike part with
  | some child => rfl
  | none =>
    have hnone : (registry.all.find? fun entry =>
        entry.parent == some parent && entry.hasNameLike part) = none := by
      rw [List.find?_eq_none] at hl ⊢
      intro entry hm hc
      rw [Bool.and_eq_true, beq_iff_eq] at hc
      refine hl entry ((h.childrenOf_perm parent).mem_iff.mpr ?_) hc.2
      exact List.mem_filter.mpr ⟨hm, decide_eq_true hc.1⟩
    rw [hnone]
    rfl

/-- The identifiers under all classes below a class. -/
theorem mem_ids_of_class_iff (h : registry.Indexed) {wanted : ElementClass} {id : String} :
    id ∈ (registry.classes.entries.filter fun entry => entry.1.isA wanted).flatMap Prod.snd ↔
      ∃ entry, registry.get? id = some entry ∧ entry.kind.isA wanted = true := by
  rw [List.mem_flatMap]
  constructor
  · rintro ⟨⟨kind, ids⟩, hm, hi⟩
    obtain ⟨hm, hk⟩ := List.mem_filter.mp hm
    have hl : listed registry.classes kind = ids := by
      unfold listed
      rw [OrderedMap.get?_of_mem_entries hm]
      rfl
    obtain ⟨entry, hg, he⟩ := (h.classes.mem_iff kind id).mp (hl ▸ hi)
    rw [Option.some.injEq] at he
    exact ⟨entry, hg, he ▸ hk⟩
  · rintro ⟨entry, hg, hk⟩
    have hi : id ∈ listed registry.classes entry.kind :=
      (h.classes.mem_iff entry.kind id).mpr ⟨entry, hg, rfl⟩
    unfold listed at hi
    cases ht : registry.classes.get? entry.kind with
    | none =>
      rw [ht] at hi
      exact absurd hi List.not_mem_nil
    | some ids =>
      rw [ht] at hi
      exact ⟨(entry.kind, ids), List.mem_filter.mpr ⟨OrderedMap.mem_entries_of_get? ht, hk⟩, hi⟩

/-- No identifier stands under two classes, or twice under one. -/
theorem nodup_ids_of_class (h : registry.Indexed) (wanted : ElementClass) :
    ((registry.classes.entries.filter fun entry => entry.1.isA wanted).flatMap
      Prod.snd).Nodup := by
  have hl : ∀ entry ∈ registry.classes.entries,
      listed registry.classes entry.1 = entry.2 := by
    intro entry hm
    unfold listed
    rw [OrderedMap.get?_of_mem_entries hm]
    rfl
  refine List.nodup_flatMap.mpr ⟨fun entry hm => ?_, ?_⟩
  · rw [← hl entry (List.mem_filter.mp hm).1]
    exact h.classes.nodup entry.1
  · have hp := List.pairwise_map.mp registry.classes.keys_nodup
    refine ((hp.filter _).imp_of_mem ?_)
    intro first second hf hs hne id hi hj
    -- An identifier under both keys would be of both classes.
    rw [← hl first (List.mem_filter.mp hf).1, h.classes.mem_iff] at hi
    rw [← hl second (List.mem_filter.mp hs).1, h.classes.mem_iff] at hj
    obtain ⟨entry, hg, he⟩ := hi
    obtain ⟨other, hg', he'⟩ := hj
    rw [hg] at hg'
    cases hg'
    exact hne (Option.some.inj (he.symm.trans he'))

/-- Registered elements are looked up by their identifiers without a loss and in order. -/
theorem map_id_filterMap (h : registry.Indexed) {ids : List String}
    (registered : ∀ id ∈ ids, (registry.get? id).isSome) :
    (ids.filterMap registry.get?).map Entry.id = ids := by
  induction ids with
  | nil => rfl
  | cons id rest ih =>
    obtain ⟨hfirst, hrest⟩ := List.forall_mem_cons.mp registered
    obtain ⟨entry, hg⟩ := Option.isSome_iff_exists.mp hfirst
    rw [List.filterMap_cons_some hg, List.map_cons, ih hrest, h.keyed id entry hg]

/-- The elements of a class are those whose identifiers stand under it and the classes below it, one
for each: the table of classes says the same whether it keeps the elements or their identifiers. -/
theorem map_id_ofClass (h : registry.Indexed) (wanted : ElementClass) :
    (registry.ofClass wanted).map Entry.id =
      (registry.classes.entries.filter fun entry => entry.1.isA wanted).flatMap Prod.snd := by
  refine h.map_id_filterMap fun id hm => ?_
  obtain ⟨entry, hg, -⟩ := h.mem_ids_of_class_iff.mp hm
  exact Option.isSome_iff_exists.mpr ⟨entry, hg⟩

/-- The members of a class that are listed are the elements of the class. -/
theorem ofClass_perm (h : registry.Indexed) (wanted : ElementClass) :
    (registry.ofClass wanted).Perm
      (registry.all.filter fun entry => entry.kind.isA wanted) := by
  refine (List.perm_ext_iff_of_nodup (h.nodup_filterMap (h.nodup_ids_of_class wanted))
    (h.nodup_all.filter _)).mpr fun entry => ?_
  rw [h.mem_filterMap_iff, List.mem_filter, h.mem_ids_of_class_iff]
  refine and_congr_right fun hm => ?_
  have hg := h.mem_all_iff.mp hm
  constructor
  · rintro ⟨found, hf, hk⟩
    rw [hg] at hf
    cases hf
    exact hk
  · exact fun hk => ⟨entry, hg, hk⟩

end Indexed

/-- What can be relied on in a registry: each way of finding elements finds the registered ones. -/
structure Consistent (registry : Registry) : Prop where
  /-- A name stands for a registered element that has exactly this name. -/
  names : ∀ name id, registry.names.get? name = some id →
    ∃ entry, registry.get? id = some entry ∧ entry.name = name
  /-- No child is listed twice. -/
  children_nodup : ∀ parent, (listed registry.children parent).Nodup
  /-- The listed children are the registered elements with the parent. -/
  mem_children : ∀ parent id, id ∈ listed registry.children parent ↔
    ∃ entry, registry.get? id = some entry ∧ entry.parent = some parent
  /-- The children of a parent are the registered elements with it, in some order. -/
  children : ∀ parent, (registry.childrenOf parent).Perm
    (registry.all.filter fun entry => entry.parent = some parent)
  /-- Looking through all elements for a child finds nothing that is not listed. -/
  child : ∀ parent part, registry.findChild parent part =
    ((registry.childrenOf parent).find? fun child => child.name == part || child.id == part).or
      ((registry.childrenOf parent).find? fun child => child.hasNameLike part)
  /-- No member of a class is listed twice. -/
  classes_nodup : ∀ kind, (listed registry.classes kind).Nodup
  /-- A registered element is listed under its own class and under no other. -/
  mem_classes : ∀ kind id, id ∈ listed registry.classes kind ↔
    ∃ entry, registry.get? id = some entry ∧ entry.kind = kind
  /-- The elements of a class are the registered ones that are of it, in some order. -/
  classes : ∀ wanted, (registry.ofClass wanted).Perm
    (registry.all.filter fun entry => entry.kind.isA wanted)
  /-- All elements are elements, in some order. -/
  elements : (registry.ofClass .element).Perm registry.all

/-- Where the tables agree, each way of finding elements finds the registered ones. -/
theorem Indexed.consistent {registry : Registry} (h : registry.Indexed) :
    registry.Consistent where
  names := h.names
  children_nodup := h.children.nodup
  mem_children := h.children.mem_iff
  children := h.childrenOf_perm
  child := h.findChild_eq
  classes_nodup := h.classes.nodup
  mem_classes := fun kind id => by
    rw [h.classes.mem_iff]
    exact exists_congr fun entry => and_congr_right fun _ => Option.some_inj
  classes := h.ofClass_perm
  elements := by
    have hall : (registry.all.filter fun entry => entry.kind.isA .element) = registry.all :=
      List.filter_eq_self.mpr fun entry _ => entry.kind.isA_element
    exact hall ▸ h.ofClass_perm .element

/-- Whatever is done with a registry that was empty, it is consistent. -/
theorem consistent_performAll (operations : List Operation) :
    (Registry.empty.performAll operations).value.Consistent :=
  (indexed_empty.performAll operations).consistent

end Registry

end Blueprint
