import Blueprint.Proofs.Registry.Consistent

/-!
# Two ways of looking up a name

A name can be looked up as a reference or as a name. As a name, an element with exactly this name
comes before those with it up to the case of letters. As a reference it does so too, unless the name
stands for nothing although an element has it: then the first element counts that has the name up to
the case of letters. A name comes to stand for nothing only when the element that it stood for is
registered again under another name.
-/

namespace Blueprint

namespace Registry

variable {registry : Registry} {name : String} {position : Option Position}

/-! ## References that are names -/

/-- A reference that can only be a name: it is no relative reference and no path, and neither an
element nor an alias is registered under it. -/
structure IsName (registry : Registry) (reference : String) : Prop where
  /-- It has no point. -/
  noPath : isPath reference = false
  /-- It is not the reference to the context. -/
  notThis : reference ≠ "this"
  /-- It is not the reference to the parent of the context. -/
  notParent : reference ≠ "parent"
  /-- It is no identifier. -/
  noElement : registry.get? reference = none
  /-- It is no alias. -/
  noAlias : registry.aliases.get? reference = none

/-- A reference that can only be a name is looked up by name. -/
theorem IsName.resolve (h : registry.IsName name) :
    (registry.resolve name position).value = registry.resolveName name := by
  have hafter : (registry.resolveAfter [] name position true).value =
      registry.resolveName name := by
    have hrelative : ¬(name = "this" ∨ name = "parent") := by
      rintro (he | he)
      · exact h.notThis he
      · exact h.notParent he
    have hpath : ¬isPath name = true := Bool.eq_false_iff.mp h.noPath
    rw [resolveAfter, dif_neg List.not_mem_nil, if_neg hrelative]
    split
    · rename_i entry he
      rw [h.noElement] at he
      cases he
    · split
      · rename_i target ht
        rw [h.noAlias] at ht
        cases ht
      · rw [dif_neg hpath]
        split
        · rename_i entry he
          exact he.symm
        · rename_i he
          exact he.symm
  unfold Registry.resolve
  rw [Reported.bind_value, hafter]
  cases registry.resolveName name with
  | none => rfl
  | some entry =>
    dsimp only
    rw [if_pos entry.kind.isA_element]
    rfl

/-- Looking up a name among all elements: the first one that is registered under it, the first one
that has it, or the first one that has it up to the case of letters. -/
theorem findByName_element (registry : Registry) (name : String) :
    registry.findByName name .element =
      ((registry.names.get? name).bind registry.get?).or
        ((registry.all.find? fun entry => entry.name == name).or
          (registry.all.find? fun entry => entry.hasNameLike name)) := by
  have hfits : ∀ found : Option Entry, found.filter (fun _ => true) = found := by
    rintro (_ | entry) <;> rfl
  unfold findByName
  simp only [ElementClass.isA_element, Bool.and_true, hfits]

/-- An element has its name up to the case of letters too. -/
theorem hasNameLike_self (entry : Entry) : entry.hasNameLike entry.name = true :=
  beq_self_eq_true _

/-- Where the first element that has a name up to the case of letters has it exactly, it is the
first one that does. -/
theorem find?_eq_of_like {entries : List Entry} {entry : Entry}
    (h : (entries.find? fun entry => entry.hasNameLike name) = some entry)
    (hn : entry.name = name) : (entries.find? fun entry => entry.name == name) = some entry := by
  obtain ⟨_, before, after, he, hb⟩ := List.find?_eq_some_iff_append.mp h
  refine List.find?_eq_some_iff_append.mpr ⟨beq_iff_eq.mpr hn, before, after, he, ?_⟩
  intro other hm
  have hlike := hb other hm
  rw [Bool.not_eq_true'] at hlike ⊢
  rw [beq_eq_false_iff_ne]
  rintro rfl
  rw [hasNameLike_self] at hlike
  cases hlike

/-! ## Released names -/

/-- A name is released if it stands for nothing although an element has it. -/
def Released (registry : Registry) (name : String) : Prop :=
  registry.names.get? name = none ∧ ∃ entry ∈ registry.all, entry.name = name

/-- A name is overtaken if the first element that has it up to the case of letters has another
one. -/
def Overtaken (registry : Registry) (name : String) : Prop :=
  ∃ entry, (registry.all.find? fun entry => entry.hasNameLike name) = some entry ∧
    entry.name ≠ name

/-- A name that stands for something is looked up in the same way. -/
theorem Indexed.resolveName_of_names (h : registry.Indexed) {id : String}
    (hn : registry.names.get? name = some id) :
    registry.resolveName name = registry.findByName name .element := by
  obtain ⟨entry, he, _⟩ := h.names name id hn
  have hb : (registry.names.get? name).bind registry.get? = some entry := by
    rw [hn]
    exact he
  unfold resolveName
  rw [findByName_element, hb, Option.some_or, Option.some_or]

/-- A name that stands for nothing is looked up among all elements. -/
theorem resolveName_of_names_none (hn : registry.names.get? name = none) :
    registry.resolveName name = registry.all.find? fun entry => entry.hasNameLike name := by
  unfold resolveName
  rw [hn, Option.bind_none, Option.none_or]

/-- A name that stands for nothing is looked up among all elements. -/
theorem findByName_of_names_none (hn : registry.names.get? name = none) :
    registry.findByName name .element =
      (registry.all.find? fun entry => entry.name == name).or
        (registry.all.find? fun entry => entry.hasNameLike name) := by
  rw [findByName_element, hn, Option.bind_none, Option.none_or]

/-- The two ways of looking up a name differ exactly if it is released and overtaken. -/
theorem Indexed.resolveName_eq_iff (h : registry.Indexed) :
    registry.resolveName name = registry.findByName name .element ↔
      ¬(registry.Released name ∧ registry.Overtaken name) := by
  cases hn : registry.names.get? name with
  | some id =>
    have hnot : ¬registry.Released name := fun hr => by
      rw [hr.1] at hn
      cases hn
    exact ⟨fun _ hc => hnot hc.1, fun _ => h.resolveName_of_names hn⟩
  | none =>
    rw [resolveName_of_names_none hn, findByName_of_names_none hn]
    cases hexact : registry.all.find? fun entry => entry.name == name with
    | none =>
      have hnot : ¬registry.Released name := by
        rintro ⟨-, entry, hm, he⟩
        exact List.find?_eq_none.mp hexact entry hm (beq_iff_eq.mpr he)
      exact ⟨fun _ hc => hnot hc.1, fun _ => rfl⟩
    | some entry =>
      have hname : entry.name = name := by simpa using List.find?_some hexact
      have hm := List.mem_of_find?_eq_some hexact
      rw [Option.some_or]
      constructor
      · rintro hlike ⟨-, other, ho, hne⟩
        rw [hlike] at ho
        cases ho
        exact hne hname
      · intro hnot
        have hreleased : registry.Released name := ⟨hn, entry, hm, hname⟩
        cases hlike : registry.all.find? fun entry => entry.hasNameLike name with
        | none =>
          have hno := List.find?_eq_none.mp hlike entry hm
          rw [← hname, hasNameLike_self] at hno
          exact absurd rfl hno
        | some other =>
          have ho : other.name = name := by
            by_contra hne
            exact hnot ⟨hreleased, other, hlike, hne⟩
          rw [← hexact, find?_eq_of_like hlike ho]

/-- As a name, an element with exactly this name is found if there is one. -/
theorem Indexed.findByName_exact (h : registry.Indexed) {entry : Entry}
    (hm : entry ∈ registry.all) (hn : entry.name = name) :
    ∃ found, registry.findByName name .element = some found ∧ found.name = name := by
  cases hg : registry.names.get? name with
  | some id =>
    obtain ⟨found, hf, he⟩ := h.names name id hg
    refine ⟨found, ?_, he⟩
    rw [findByName_element, hg, Option.bind_some, hf, Option.some_or]
  | none =>
    cases hexact : registry.all.find? fun entry => entry.name == name with
    | none => exact absurd (beq_iff_eq.mpr hn) (List.find?_eq_none.mp hexact entry hm)
    | some found =>
      refine ⟨found, ?_, by simpa using List.find?_some hexact⟩
      rw [findByName_of_names_none hg, hexact, Option.some_or]

/-! ## Registries without a second registration -/

/-- Every name stands for the first element that has it. -/
def Complete (registry : Registry) : Prop :=
  ∀ name, registry.names.get? name =
    (registry.all.find? fun entry => entry.name == name).map Entry.id

/-- Whether an operation registers no element again. -/
def Operation.IsFresh (registry : Registry) : Operation → Prop
  | .register entry => registry.get? entry.id = none
  | _ => True

/-- None of the operations, one after the other, registers an element again. -/
def Undisturbed (registry : Registry) : List Operation → Prop
  | [] => True
  | operation :: operations =>
    operation.IsFresh registry ∧ (registry.perform operation).value.Undisturbed operations

/-- Where there are no elements, every name stands for the first one that has it. -/
theorem complete_empty : Registry.empty.Complete := fun _ => rfl

/-- An element under a new identifier is behind those whose names stand for them. -/
theorem Complete.register (h : registry.Complete) {entry : Entry}
    (hn : registry.get? entry.id = none) : (registry.register entry).Complete := by
  intro name
  have hfreed : registry.freedNames entry.id = registry.names := by
    unfold freedNames
    rw [hn]
  rw [all_register hn, List.find?_append, Option.map_or, ← h name, names_register, hfreed]
  by_cases hc : registry.names.contains entry.name = true
  · rw [if_pos hc]
    cases hg : registry.names.get? name with
    | some id => rfl
    | none =>
      have hne : ¬entry.name = name := by
        rintro rfl
        rw [OrderedMap.contains, hg] at hc
        cases hc
      simp [hne]
  · rw [if_neg hc, OrderedMap.get?_insert]
    have hnone : registry.names.get? entry.name = none := by
      rw [OrderedMap.contains, Bool.not_eq_true, Option.isSome_eq_false_iff,
        Option.isNone_iff_eq_none] at hc
      exact hc
    by_cases hname : entry.name = name
    · rw [if_pos hname, ← hname, hnone]
      simp
    · rw [if_neg hname]
      simp [hname]

/-- Where no element is registered again, every name stands for the first element that has it. -/
theorem Complete.performAll (h : registry.Complete) {operations : List Operation}
    (hf : registry.Undisturbed operations) : (registry.performAll operations).value.Complete := by
  induction operations generalizing registry with
  | nil => exact h
  | cons operation operations ih =>
    rw [Registry.performAll, Reported.bind_value]
    refine ih ?_ hf.2
    cases operation with
    | register entry => exact h.register hf.1
    | registerAlias name id => exact h
    | resolve reference position byName wanted => exact h
    | context id => exact h
    | clear => exact complete_empty

/-- A name that stands for the first element that has it is not released. -/
theorem Complete.not_released (h : registry.Complete) : ¬registry.Released name := by
  rintro ⟨hn, entry, hm, he⟩
  rw [h name, Option.map_eq_none_iff, List.find?_eq_none] at hn
  exact hn entry hm (beq_iff_eq.mpr he)

/-- Where names stand for the first elements that have them, an element is looked up by its name
exactly, and by it up to the case of letters if there is none. -/
theorem Complete.findByName (h : registry.Complete) (hi : registry.Indexed) :
    registry.findByName name .element =
      (registry.all.find? fun entry => entry.name == name).or
        (registry.all.find? fun entry => entry.hasNameLike name) := by
  rw [findByName_element, h name]
  cases hf : registry.all.find? fun entry => entry.name == name with
  | none => rfl
  | some entry =>
    have hg := hi.mem_all_iff.mp (List.mem_of_find?_eq_some hf)
    rw [Option.map_some, Option.bind_some, hg, Option.some_or, Option.some_or]

/-! ## Whatever is done with a registry -/

/-- Whatever is done with a registry that was empty: a reference that can only be a name is looked
up like a name, except where the name is released and overtaken. As a name it finds an element with
exactly this name if there is one. Where no element was registered again, both find the first
element with exactly this name, or else the first one with it up to the case of letters. -/
theorem resolve_eq_findByName_iff (operations : List Operation) (reference : String)
    (position : Option Position)
    (h : (Registry.empty.performAll operations).value.IsName reference) :
    let registry := (Registry.empty.performAll operations).value
    ((registry.resolve reference position).value = registry.findByName reference .element ↔
        ¬(registry.Released reference ∧ registry.Overtaken reference)) ∧
      ((∃ entry ∈ registry.all, entry.name = reference) →
        ∃ found, registry.findByName reference .element = some found ∧ found.name = reference) ∧
      (Registry.empty.Undisturbed operations →
        (registry.resolve reference position).value = registry.findByName reference .element ∧
          registry.findByName reference .element =
            (registry.all.find? fun entry => entry.name == reference).or
              (registry.all.find? fun entry => entry.hasNameLike reference)) := by
  intro registry
  have hi : registry.Indexed := indexed_empty.performAll operations
  have hiff : (registry.resolve reference position).value =
      registry.findByName reference .element ↔
        ¬(registry.Released reference ∧ registry.Overtaken reference) := by
    rw [h.resolve]
    exact hi.resolveName_eq_iff
  refine ⟨hiff, ?_, fun hf => ?_⟩
  · rintro ⟨entry, hm, hn⟩
    exact hi.findByName_exact hm hn
  · have hc : registry.Complete := complete_empty.performAll hf
    exact ⟨hiff.mpr fun hr => hc.not_released hr.1, hc.findByName hi⟩

/-- Three elements, of which the first has the name of the others up to the case of letters. -/
def sharing : List Operation :=
  [.register { id := "x", name := "n", kind := .element },
    .register { id := "a", name := "N", kind := .element },
    .register { id := "b", name := "N", kind := .element }]

/-- The shared name can only be a name. -/
theorem isName_sharing : (Registry.empty.performAll sharing).value.IsName "N" :=
  ⟨by decide, by decide, by decide, by decide, by decide⟩

/-- The elements that share a name have distinct identifiers. -/
theorem undisturbed_sharing : Registry.empty.Undisturbed sharing :=
  ⟨rfl, rfl, rfl, trivial⟩

/-- The shared name finds the same element as a reference and as a name. -/
theorem resolve_eq_findByName_sharing :
    (Registry.empty.performAll sharing).value.IsName "N" ∧
      Registry.empty.Undisturbed sharing ∧
      ((Registry.empty.performAll sharing).value.resolve "N" none).value =
        (Registry.empty.performAll sharing).value.findByName "N" .element :=
  ⟨isName_sharing, undisturbed_sharing,
    ((resolve_eq_findByName_iff sharing "N" none isName_sharing).2.2 undisturbed_sharing).1⟩

/-- The second element is registered again under another name, which releases the name of the
third. -/
def releasing : List Operation :=
  sharing ++ [.register { id := "a", name := "M", kind := .element }]

/-- The released name finds the first element as a reference, which has it only up to the case of
letters; as a name it finds the third one, which has exactly this name. -/
theorem resolve_ne_findByName_releasing :
    (Registry.empty.performAll releasing).value.IsName "N" ∧
      ((Registry.empty.performAll releasing).value.resolve "N" none).value =
        some { id := "x", name := "n", kind := .element } ∧
      (Registry.empty.performAll releasing).value.findByName "N" .element =
        some { id := "b", name := "N", kind := .element } := by
  have hname : (Registry.empty.performAll releasing).value.IsName "N" :=
    ⟨by decide, by decide, by decide, by decide, by decide⟩
  refine ⟨hname, ?_, ?_⟩
  · rw [hname.resolve]
    decide +kernel
  · decide +kernel

end Registry

end Blueprint
