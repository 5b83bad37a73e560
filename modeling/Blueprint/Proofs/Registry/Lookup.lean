import Blueprint.Registry.Resolve

/-!
# What references resolve to

Every way of resolving a reference ends at an element of the registry, and one of the wanted class.
An element under a new identifier joins the registry behind the elements that are there.
-/

namespace Blueprint

namespace OrderedMap

variable {κ ν : Type} [DecidableEq κ]

/-- A value that is found stands in the map under its key. -/
theorem mem_entries_of_get? {m : OrderedMap κ ν} {key : κ} {value : ν}
    (h : m.get? key = some value) : (key, value) ∈ m.entries := by
  unfold get? at h
  obtain ⟨entry, hf, hv⟩ := Option.map_eq_some_iff.mp h
  have hk : entry.1 = key := by simpa using List.find?_some hf
  have hm := List.mem_of_find?_eq_some hf
  rw [← hk, ← hv]
  exact hm

/-- A value that is found is one of the values. -/
theorem mem_values_of_get? {m : OrderedMap κ ν} {key : κ} {value : ν}
    (h : m.get? key = some value) : value ∈ m.values :=
  List.mem_map.mpr ⟨(key, value), mem_entries_of_get? h, rfl⟩

/-- Exactly the keys of the map have values. -/
theorem get?_eq_none_iff {m : OrderedMap κ ν} {key : κ} : m.get? key = none ↔ key ∉ m.keys := by
  simp only [get?, Option.map_eq_none_iff, List.find?_eq_none, decide_eq_true_eq, keys,
    List.mem_map, not_exists, not_and]

/-- Writing under a new key adds an entry at the end. -/
theorem insertEntry_of_fresh {key : κ} {value : ν} {entries : List (κ × ν)}
    (h : key ∉ entries.map Prod.fst) :
    insertEntry key value entries = entries ++ [(key, value)] := by
  induction entries with
  | nil => rfl
  | cons entry rest ih =>
    rw [List.map_cons, List.mem_cons, not_or] at h
    have hne : ¬entry.1 = key := fun he => h.1 he.symm
    rw [insertEntry, if_neg hne, ih h.2, List.cons_append]

/-- A new key comes last with its value. -/
theorem entries_insert_of_fresh {m : OrderedMap κ ν} {key : κ} {value : ν}
    (h : m.get? key = none) : (m.insert key value).entries = m.entries ++ [(key, value)] :=
  insertEntry_of_fresh (get?_eq_none_iff.mp h)

end OrderedMap

namespace Registry

/-! ## Registration -/

/-- An element with a new identifier comes after the elements that are registered. -/
theorem entries_register {registry : Registry} {entry : Entry}
    (h : registry.get? entry.id = none) :
    (registry.register entry).elements.entries =
      registry.elements.entries ++ [(entry.id, entry)] := by
  unfold get? at h
  unfold register
  rw [h]
  exact OrderedMap.entries_insert_of_fresh h

/-- So it does among all elements. -/
theorem all_register {registry : Registry} {entry : Entry} (h : registry.get? entry.id = none) :
    (registry.register entry).all = registry.all ++ [entry] := by
  unfold all OrderedMap.values
  rw [entries_register h, List.map_append]
  rfl

/-- Registering an element changes no alias. -/
theorem aliases_register (registry : Registry) (entry : Entry) :
    (registry.register entry).aliases = registry.aliases := by
  unfold register
  split <;> rfl

/-- Registering an element changes no context. -/
theorem context_register (registry : Registry) (entry : Entry) :
    (registry.register entry).context = registry.context := by
  unfold register
  split <;> rfl

/-- A registered element is found, and the others are found as before. -/
theorem get?_register (registry : Registry) (entry : Entry) (id : String) :
    (registry.register entry).get? id =
      if entry.id = id then some entry else registry.get? id := by
  have he : (registry.register entry).elements = registry.elements.insert entry.id entry := by
    unfold register
    split <;> rfl
  unfold get?
  rw [he, OrderedMap.get?_insert]

/-- Aliases change no element. -/
@[simp] theorem elements_registerAlias (registry : Registry) (name id : String) :
    (registry.registerAlias name id).elements = registry.elements := rfl

/-- The context changes no element. -/
@[simp] theorem elements_withContext (registry : Registry) (context : Option String) :
    (registry.withContext context).elements = registry.elements := rfl

/-! ## Resolution -/

/-- An element found by its identifier is registered. -/
theorem mem_all_of_get? {registry : Registry} {id : String} {entry : Entry}
    (h : registry.get? id = some entry) : entry ∈ registry.all :=
  OrderedMap.mem_values_of_get? h

/-- An element found through an identifier that may be missing is registered. -/
theorem mem_all_of_bind_get? {registry : Registry} {id? : Option String} {entry : Entry}
    (h : id?.bind registry.get? = some entry) : entry ∈ registry.all := by
  obtain ⟨id, _, hg⟩ := Option.bind_eq_some_iff.mp h
  exact mem_all_of_get? hg

/-- A name stands for a registered element. -/
theorem resolveName_mem {registry : Registry} {name : String} {entry : Entry}
    (h : registry.resolveName name = some entry) : entry ∈ registry.all := by
  unfold resolveName at h
  rcases Option.or_eq_some_iff.mp h with hn | ⟨_, hf⟩
  · exact mem_all_of_bind_get? hn
  · exact List.mem_of_find?_eq_some hf

/-- The children of an element are registered. -/
theorem mem_all_of_mem_childrenOf {registry : Registry} {parent : String} {entry : Entry}
    (h : entry ∈ registry.childrenOf parent) : entry ∈ registry.all := by
  obtain ⟨id, _, hg⟩ := List.mem_filterMap.mp h
  exact mem_all_of_get? hg

/-- A part of a path stands for a registered element. -/
theorem findChild_mem {registry : Registry} {parent part : String} {entry : Entry}
    (h : registry.findChild parent part = some entry) : entry ∈ registry.all := by
  unfold findChild at h
  rcases Option.or_eq_some_iff.mp h with hc | ⟨_, h⟩
  · exact mem_all_of_mem_childrenOf (List.mem_of_find?_eq_some hc)
  · rcases Option.or_eq_some_iff.mp h with hc | ⟨_, hf⟩
    · exact mem_all_of_mem_childrenOf (List.mem_of_find?_eq_some hc)
    · exact List.mem_of_find?_eq_some hf

/-- A relative reference stands for a registered element. -/
theorem resolveRelative_mem {registry : Registry} {word : String} {position : Option Position}
    {entry : Entry} (h : (registry.resolveRelative word position).value = some entry) :
    entry ∈ registry.all := by
  unfold resolveRelative at h
  split at h
  · cases h
  · rename_i found hc
    split at h
    · cases h
      exact mem_all_of_bind_get? hc
    · split at h
      · rename_i parent hp
        cases h
        exact mem_all_of_bind_get? hp
      · cases h

/-- Following a path from a registered element arrives at a registered one. -/
theorem followPath_mem {registry : Registry} {path : String} {position : Option Position}
    {start entry : Entry} {parts : List String} (hs : start ∈ registry.all)
    (h : (registry.followPath path position start parts).value = some entry) :
    entry ∈ registry.all := by
  induction parts generalizing start with
  | nil =>
    cases h
    exact hs
  | cons part parts ih =>
    unfold followPath at h
    split at h
    · rename_i child hc
      exact ih (findChild_mem hc) h
    · cases h

/-- Whatever a reference resolves to is registered. -/
theorem resolveAfter_mem {registry : Registry} {chain : List String} {reference : String}
    {position : Option Position} {byName : Bool} {entry : Entry}
    (h : (registry.resolveAfter chain reference position byName).value = some entry) :
    entry ∈ registry.all := by
  fun_induction resolveAfter registry chain reference position byName generalizing entry with
  | case1 => cases h
  | case2 => exact resolveRelative_mem h
  | case3 _ _ _ _ _ _ found hg =>
    cases h
    exact mem_all_of_get? hg
  | case4 _ _ _ _ _ _ _ _ _ found hg =>
    cases h
    exact mem_all_of_get? hg
  | case5 _ _ _ _ _ _ _ _ _ _ ih => exact ih h
  | case6 _ _ _ _ _ _ _ _ _ ih =>
    rw [Reported.bind_value] at h
    split at h
    · rename_i start hs
      exact followPath_mem (ih hs) h
    · cases h
  | case7 _ _ _ byName _ _ _ _ _ found hn =>
    cases h
    split at hn
    · exact resolveName_mem hn
    · cases hn
  | case8 => cases h

/-- A resolved reference stands for a registered element of the wanted class. -/
theorem resolve_mem {registry : Registry} {reference : String} {position : Option Position}
    {byName : Bool} {wanted : ElementClass} {entry : Entry}
    (h : (registry.resolve reference position byName wanted).value = some entry) :
    entry ∈ registry.all ∧ entry.kind.isA wanted = true := by
  unfold resolve at h
  rw [Reported.bind_value] at h
  split at h
  · rename_i found hf
    split at h
    · rename_i hk
      cases h
      exact ⟨resolveAfter_mem hf, hk⟩
    · cases h
  · cases h

end Registry

end Blueprint
